import Flotilla.Cipher.Blowfish
import Flotilla.Digest.Sha512

/-!
# Keys from passphrases

`Passphrase.derive` stretches a passphrase into key material by repeated set-up of the Blowfish
tables.  It is how key files are protected.
-/

namespace Flotilla.Passphrase

open Blowfish

/-- Words as little-endian bytes. -/
def littleEndian (words : List UInt32) : Bytes := words.flatMap fun w => (ofWord w).reverse

/-- Encrypts the pairs of a list of words `n` times. -/
def encryptPairs (t : Tables) : List UInt32 → List UInt32
  | l :: r :: rest =>
    let (l, r) := t.encrypt l r
    l :: r :: encryptPairs t rest
  | _ => []

/-- Does something `n` times. -/
def repeated {α : Type} (f : α → α) : Nat → α → α
  | 0, a => a
  | n + 1, a => repeated f n (f a)

/-- The words that are encrypted in the end. -/
def plainWords : List UInt32 := toWords (utf8 "OxychromaticBlowfishSwatDynamite")

/-- The slow hash of a hashed passphrase and a hashed salt. -/
def hash (passphrase salt : Bytes) : Bytes :=
  let key := (toWords passphrase).toArray
  let salt := (toWords salt).toArray
  let t := Tables.initial.expand salt key
  let t := repeated (fun t => (t.expand #[] salt).expand #[] key) 64 t
  littleEndian (repeated (encryptPairs t) 64 plainWords)

/-- The sum of `n` more hashes, each salted with the one before. -/
def iterate (passphrase last sum : Bytes) : Nat → Bytes
  | 0 => sum
  | n + 1 =>
    let next := hash passphrase (Sha512.digest last)
    iterate passphrase next (List.zipWith (· ^^^ ·) sum next) n

/-- Block `i` of the key material. -/
def block (passphrase salt : Bytes) (rounds i : Nat) : Bytes :=
  let first := hash passphrase (Sha512.digest (salt ++ bigEndian 4 (i + 1)))
  iterate passphrase first first (rounds - 1)

/-- Key material of a given length.  Its bytes are taken from the blocks in turn.  There is none
without a passphrase, a salt and rounds. -/
def derive (passphrase salt : Bytes) (rounds length : Nat) : Option Bytes :=
  if passphrase = [] ∨ salt = [] ∨ rounds = 0 ∨ length = 0 then none
  else
    let count := (length + 31) / 32
    let passphrase := Sha512.digest passphrase
    let blocks := (List.range count).map fun i => (block passphrase salt rounds i).toArray
    some ((List.range length).map fun k => (blocks.getD (k % count) #[]).getD (k / count) 0)

end Flotilla.Passphrase
