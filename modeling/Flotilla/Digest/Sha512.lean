import Flotilla.Digest.Expansion
import Flotilla.Digest.Words

/-!
# SHA-512

The hash function of FIPS 180-4 with a digest of sixty-four bytes.
-/

namespace Flotilla.Sha512

/-- The round constants: bits of the cube roots of the first eighty primes. -/
def constants : Array UInt64 :=
  ((Expansion.primes 80).map fun p => UInt64.ofNat (Expansion.ofRoot 3 p 64)).toArray

/-- The eight words of the state. -/
structure State where
  a : UInt64
  b : UInt64
  c : UInt64
  d : UInt64
  e : UInt64
  f : UInt64
  g : UInt64
  h : UInt64

/-- The state before the first block: bits of the square roots of the first eight primes. -/
def State.initial : State :=
  let word (p : Nat) : UInt64 := UInt64.ofNat (Expansion.ofRoot 2 p 64)
  ⟨word 2, word 3, word 5, word 7, word 11, word 13, word 17, word 19⟩

/-- The word-by-word sum of two states. -/
def State.add (s t : State) : State :=
  ⟨s.a + t.a, s.b + t.b, s.c + t.c, s.d + t.d, s.e + t.e, s.f + t.f, s.g + t.g, s.h + t.h⟩

/-- The words of a state. -/
def State.words (s : State) : List UInt64 := [s.a, s.b, s.c, s.d, s.e, s.f, s.g, s.h]

/-- Rotates a word to the right. -/
def rotr (x : UInt64) (n : UInt64) : UInt64 := (x >>> n) ||| (x <<< (64 - n))

/-- One round with a round constant and a word of the message schedule. -/
def round (s : State) (k w : UInt64) : State :=
  let s1 := rotr s.e 14 ^^^ rotr s.e 18 ^^^ rotr s.e 41
  let choice := (s.e &&& s.f) ^^^ ((~~~ s.e) &&& s.g)
  let t1 := s.h + s1 + choice + k + w
  let s0 := rotr s.a 28 ^^^ rotr s.a 34 ^^^ rotr s.a 39
  let majority := (s.a &&& s.b) ^^^ (s.a &&& s.c) ^^^ (s.b &&& s.c)
  ⟨t1 + s0 + majority, s.a, s.b, s.c, s.d + t1, s.e, s.f, s.g⟩

/-- Extends the message schedule by `n` words. -/
def extend (w : Array UInt64) : Nat → Array UInt64
  | 0 => w
  | n + 1 =>
    let i := w.size
    let x := w.getD (i - 15) 0
    let y := w.getD (i - 2) 0
    let s0 := rotr x 1 ^^^ rotr x 8 ^^^ (x >>> 7)
    let s1 := rotr y 19 ^^^ rotr y 61 ^^^ (y >>> 6)
    extend (w.push (w.getD (i - 16) 0 + s0 + w.getD (i - 7) 0 + s1)) n

/-- The big-endian words of a byte sequence whose length is a multiple of eight. -/
def wordsOf : Bytes → List UInt64
  | a :: b :: c :: d :: e :: f :: g :: h :: r =>
    UInt64.ofNat (ofBigEndian [a, b, c, d, e, f, g, h]) :: wordsOf r
  | _ => []

/-- Takes up one block of sixteen words. -/
def compress (s : State) (block : List UInt64) : State :=
  let schedule := extend block.toArray 64
  s.add ((constants.zip schedule).foldl (fun s kw => round s kw.1 kw.2) s)

/-- Takes up `n` blocks. -/
def absorb (s : State) (words : List UInt64) : Nat → State
  | 0 => s
  | n + 1 => absorb (compress s (words.take 16)) (words.drop 16) n

/-- The hash of a byte sequence. -/
def digest (s : Bytes) : Bytes :=
  let words := wordsOf (padded 128 16 s)
  ((absorb .initial words (words.length / 16)).words).flatMap fun w => bigEndian 8 w.toNat

end Flotilla.Sha512
