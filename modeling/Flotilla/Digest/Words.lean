import Flotilla.Text.Utf8

/-!
# Words of hash functions

Bytes as big-endian words and numbers, and the padding that hash functions of one family share.
-/

namespace Flotilla

/-- The big-endian bytes of a number, `count` of them. -/
def bigEndian (count n : Nat) : Bytes :=
  (List.range count).reverse.map fun i => UInt8.ofNat (n / Nat.pow 256 i % 256)

/-- The number that big-endian bytes stand for. -/
def ofBigEndian (s : Bytes) : Nat := s.foldl (fun n b => n * 256 + b.toNat) 0

/-- The big-endian words of a byte sequence whose length is a multiple of four. -/
def toWords : Bytes → List UInt32
  | a :: b :: c :: d :: r =>
    ((a.toUInt32 <<< 24) ||| (b.toUInt32 <<< 16) ||| (c.toUInt32 <<< 8) ||| d.toUInt32) :: toWords r
  | _ => []

/-- The big-endian bytes of a word. -/
def ofWord (w : UInt32) : Bytes :=
  [(w >>> 24).toUInt8, (w >>> 16).toUInt8, (w >>> 8).toUInt8, w.toUInt8]

/-- Rotates a word to the right. -/
def rotr (x : UInt32) (n : UInt32) : UInt32 := (x >>> n) ||| (x <<< (32 - n))

/-- A message with its padding to blocks of `block` bytes: a one bit, zeros, and the length in bits
as a number of `count` bytes. -/
def padded (block count : Nat) (s : Bytes) : Bytes :=
  s ++ 0x80 :: List.replicate ((2 * block - 1 - count - s.length % block) % block) 0 ++
    bigEndian count (s.length * 8)

end Flotilla
