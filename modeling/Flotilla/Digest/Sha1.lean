import Flotilla.Digest.Words

/-!
# SHA-1

The hash function of FIPS 180-4 with a digest of twenty bytes.
-/

namespace Flotilla.Sha1

/-- The five words of the state. -/
structure State where
  a : UInt32
  b : UInt32
  c : UInt32
  d : UInt32
  e : UInt32

/-- The state before the first block. -/
def State.initial : State := ⟨0x67452301, 0xefcdab89, 0x98badcfe, 0x10325476, 0xc3d2e1f0⟩

/-- The word-by-word sum of two states. -/
def State.add (s t : State) : State := ⟨s.a + t.a, s.b + t.b, s.c + t.c, s.d + t.d, s.e + t.e⟩

/-- The words of a state. -/
def State.words (s : State) : List UInt32 := [s.a, s.b, s.c, s.d, s.e]

/-- What round `i` mixes of three words, and its constant. -/
def mix (i : Nat) (b c d : UInt32) : UInt32 × UInt32 :=
  if i < 20 then ((b &&& c) ||| ((~~~ b) &&& d), 0x5a827999)
  else if i < 40 then (b ^^^ c ^^^ d, 0x6ed9eba1)
  else if i < 60 then ((b &&& c) ||| (b &&& d) ||| (c &&& d), 0x8f1bbcdc)
  else (b ^^^ c ^^^ d, 0xca62c1d6)

/-- Round `i` with a word of the message schedule. -/
def round (s : State) (w : UInt32) (i : Nat) : State :=
  let (f, k) := mix i s.b s.c s.d
  ⟨rotr s.a 27 + f + s.e + k + w, s.a, rotr s.b 2, s.c, s.d⟩

/-- Extends the message schedule by `n` words. -/
def extend (w : Array UInt32) : Nat → Array UInt32
  | 0 => w
  | n + 1 =>
    let word (k : Nat) : UInt32 := w.getD (w.size - k) 0
    extend (w.push (rotr (word 3 ^^^ word 8 ^^^ word 14 ^^^ word 16) 31)) n

/-- Takes up one block of sixteen words. -/
def compress (s : State) (block : List UInt32) : State :=
  let schedule := (extend block.toArray 64).toList
  s.add (schedule.zipIdx.foldl (fun s wi => round s wi.1 wi.2) s)

/-- Takes up `n` blocks. -/
def absorb (s : State) (words : List UInt32) : Nat → State
  | 0 => s
  | n + 1 => absorb (compress s (words.take 16)) (words.drop 16) n

/-- The hash of a byte sequence. -/
def digest (s : Bytes) : Bytes :=
  let words := toWords (padded 64 8 s)
  ((absorb .initial words (words.length / 16)).words).flatMap ofWord

end Flotilla.Sha1
