import Flotilla.Cipher.Aes
import Flotilla.Cipher.Ed25519
import Flotilla.Cipher.Passphrase
import Flotilla.Key.Public

/-!
# Private keys

A private key comes in an envelope with its public key in front.  What is in the envelope may be
encrypted with a key derived from a passphrase.  `Envelope.openKey` checks all that can be checked
about it.
-/

namespace Flotilla.Key

/-- The mark at the start of an envelope. -/
def mark : Bytes := utf8 "openssh-key-v1" ++ [0]

/-- How an envelope is encrypted. -/
structure Encryption where
  /-- The length of the key in bytes. -/
  keyLength : Nat
  salt : Bytes
  rounds : Nat
  deriving Repr, DecidableEq

/-- A private key with its public key in front. -/
structure Envelope where
  encryption : Option Encryption
  publicKey : Bytes
  content : Bytes
  deriving Repr, DecidableEq

/-- The lengths of the keys of the ciphers. -/
def ciphers : List (String × Nat) := [("aes128-ctr", 16), ("aes192-ctr", 24), ("aes256-ctr", 32)]

/-- The block length of the ciphers. -/
def cipherBlock : Nat := 16

/-- The block length without encryption. -/
def plainBlock : Nat := 8

/-- Takes the name of a cipher: the length of its key unless there is no encryption. -/
def readCipher : Reader (Option Nat) := do
  let name ← readText
  if name = "none" then return none
  match ciphers.lookup name with
  | some length => return some length
  | none => throw (.label name)

/-- Takes how a key is derived: salt and rounds unless there is nothing to derive. -/
def readDerivation : Reader (Option (Bytes × Nat)) := do
  let name ← readText
  match name with
  | "none" => if (← readLength) = 0 then return none else throw .unknownAlgorithm
  | "bcrypt" => readNested do
    let salt ← readField
    return some (salt, ← readNumber)
  | _ => throw (.label name)

/-- Takes a public key, as bytes. -/
def readPublicBytes : Reader Bytes := do
  let s ← readField
  match readAll readPublic s with
  | .ok _ => return s
  | .error e => throw e

/-- Takes an envelope. -/
def readEnvelope : Reader Envelope := do
  if (← readBytes mark.length) ≠ mark then throw .format
  let cipher ← readCipher
  let derivation ← readDerivation
  if (← readLength) ≠ 1 then throw .length
  let publicKey ← readPublicBytes
  let content ← readField
  match cipher, derivation with
  | none, none => return ⟨none, publicKey, content⟩
  | none, some _ => throw .crypto
  | some keyLength, d =>
    if content.length % cipherBlock ≠ 0 then throw .crypto
    let (salt, rounds) := d.getD ([], 0)
    return ⟨some ⟨keyLength, salt, rounds⟩, publicKey, content⟩

/-- Takes a key pair and gives the bytes of its public key. -/
def readPair : Reader Bytes := do
  let algorithm ← readText
  let name := field (utf8 algorithm)
  match algorithm with
  | "ssh-ed25519" =>
    let publicKey ← readFixed 32
    let pair ← readFixed 64
    if pair.drop 32 ≠ publicKey ∨ Ed25519.publicKey (pair.take 32) ≠ publicKey then throw .crypto
    return name ++ field publicKey
  | "ssh-rsa" =>
    let modulus ← readInteger
    let exponent ← readInteger
    for _ in [1, 2, 3, 4] do discard readInteger
    return name ++ field exponent ++ field modulus
  | "ecdsa-sha2-nistp256" | "ecdsa-sha2-nistp384" | "ecdsa-sha2-nistp521" =>
    let curve ← readField
    let point ← readField
    discard readInteger
    return name ++ field curve ++ field point
  | _ => throw .unknownAlgorithm

/-- Takes the content of an envelope: the public key and the bytes of the pair. -/
def readContent (publicKey : Bytes) (block : Nat) : Reader Bytes := do
  let whole ← get
  if whole.length % block ≠ 0 then throw .length
  let check ← readNumber
  if (← readNumber) ≠ check then throw .crypto
  let start ← get
  let found ← readPair
  if found ≠ publicKey then throw .mismatch
  let pair := start.take (start.length - (← get).length)
  discard readText
  let padding ← get
  if block ≤ padding.length then throw .length
  if padding ≠ (List.range padding.length).map fun i => UInt8.ofNat (i + 1) then throw .format
  set ([] : Bytes)
  return pair

/-- Decrypts the content of an envelope. -/
def Encryption.decrypt (e : Encryption) (passphrase : String) (content : Bytes) :
    Except Fault Bytes :=
  match Passphrase.derive (utf8 passphrase) e.salt e.rounds (e.keyLength + cipherBlock) with
  | none => .error .crypto
  | some material =>
    .ok (Aes.countMode (material.take e.keyLength) (material.drop e.keyLength) content)

end Flotilla.Key

namespace Flotilla

/-- A private key. -/
structure PrivateKey where
  publicKey : PublicKey
  /-- The bytes that encode the pair. -/
  pair : Bytes
  deriving DecidableEq

/-- The key in the content of an envelope. -/
def PrivateKey.ofContent (publicKey : Bytes) (block : Nat) (content : Bytes) :
    Except Key.Fault PrivateKey := do
  let pair ← Key.readAll (Key.readContent publicKey block) content
  return ⟨← PublicKey.ofBytes publicKey, pair⟩

end Flotilla
