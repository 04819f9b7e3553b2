import Flotilla.Digest.Words

/-!
# AES

The block cipher of FIPS 197 with keys of 128, 192 and 256 bits, and the mode in which it encrypts a
counter.  In that mode the same operation encrypts and decrypts.
-/

namespace Flotilla.Aes

/-- Doubles an element of the field with 256 elements. -/
def double (a : UInt8) : UInt8 := (a <<< 1) ^^^ (if a &&& 0x80 = 0 then 0 else 0x1b)

/-- The product of two elements of the field, by the lowest `n` bits of the second. -/
def times (a b : UInt8) : Nat → UInt8
  | 0 => 0
  | n + 1 => (if b &&& 1 = 0 then 0 else a) ^^^ times (double a) (b >>> 1) n

/-- The power `a ^ 254`, which inverts every element but zero. -/
def inverse (a : UInt8) : UInt8 :=
  (List.range 7).foldl (fun p _ => let p := times p a 8; times p p 8) 1

/-- Rotates a byte to the left. -/
def rotl (a n : UInt8) : UInt8 := (a <<< n) ||| (a >>> (8 - n))

/-- What the cipher puts in the place of each byte. -/
def substitutes : Array UInt8 :=
  ((List.range 256).map fun n =>
    let b := inverse (UInt8.ofNat n)
    b ^^^ rotl b 1 ^^^ rotl b 2 ^^^ rotl b 3 ^^^ rotl b 4 ^^^ 0x63).toArray

/-- What the cipher puts in the place of a byte. -/
def substitute (b : UInt8) : UInt8 := substitutes.getD b.toNat 0

/-- The round constant for step `n` of the key expansion. -/
def constant : Nat → UInt8
  | 0 => 1
  | n + 1 => double (constant n)

/-- Adds words to an expanded key of words of four bytes.  The key has `size` words. -/
def expandKey (size : Nat) (words : Array Bytes) : Nat → Array Bytes
  | 0 => words
  | n + 1 =>
    let i := words.size
    let last := words.getD (i - 1) []
    let mixed :=
      if i % size = 0 then
        match (last.drop 1 ++ last.take 1).map substitute with
        | a :: r => (a ^^^ constant (i / size - 1)) :: r
        | [] => []
      else if 6 < size ∧ i % size = 4 then last.map substitute
      else last
    expandKey size (words.push (List.zipWith (· ^^^ ·) (words.getD (i - size) []) mixed)) n

/-- Cuts bytes into columns of four. -/
def columns : Bytes → List Bytes
  | a :: b :: c :: d :: r => [a, b, c, d] :: columns r
  | _ => []

/-- The round keys of a key, sixteen bytes each. -/
def roundKeys (key : Bytes) : List Bytes :=
  let size := key.length / 4
  let words := (expandKey size (columns key).toArray (4 * (size + 7) - size)).toList
  (List.range (size + 7)).map fun i => ((words.drop (4 * i)).take 4).flatten

/-- Shifts the rows of a block, whose columns lie one after the other. -/
def shiftRows (s : Bytes) : Bytes :=
  let s := s.toArray
  (List.range 16).map fun i => s.getD ((i + 4 * (i % 4)) % 16) 0

/-- Mixes the bytes of a column. -/
def mixColumn : Bytes → Bytes
  | [a, b, c, d] =>
    let all := a ^^^ b ^^^ c ^^^ d
    [a ^^^ all ^^^ double (a ^^^ b), b ^^^ all ^^^ double (b ^^^ c),
      c ^^^ all ^^^ double (c ^^^ d), d ^^^ all ^^^ double (d ^^^ a)]
  | s => s

/-- Adds bytes to bytes. -/
def add (s t : Bytes) : Bytes := List.zipWith (· ^^^ ·) s t

/-- The rounds after the first key was added. -/
def rounds (s : Bytes) : List Bytes → Bytes
  | [] => s
  | [k] => add (shiftRows (s.map substitute)) k
  | k :: ks => rounds (add ((columns (shiftRows (s.map substitute))).flatMap mixColumn) k) ks

/-- Encrypts a block of sixteen bytes. -/
def encryptBlock (keys : List Bytes) (s : Bytes) : Bytes :=
  match keys with
  | [] => s
  | k :: ks => rounds (add s k) ks

/-- Adds the encrypted values of a counter of 128 bits to bytes. -/
def countMode (key counter s : Bytes) : Bytes :=
  let keys := roundKeys key
  let start := ofBigEndian counter
  let stream := (List.range ((s.length + 15) / 16)).flatMap fun i =>
    encryptBlock keys (bigEndian 16 (start + i))
  add s stream

end Flotilla.Aes
