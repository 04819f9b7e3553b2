import Flotilla.Text.Cut

/-!
# UTF-8

`utf8` encodes a text.  `Utf8.read` takes one character off a byte sequence; `Utf8.decode` reads a
whole sequence or tells where it stops being UTF-8, and `Utf8.lossy` replaces each ill-formed part,
taken as long as it could still begin a character, by one replacement character.
-/

namespace Flotilla

/-- A byte sequence. -/
abbrev Bytes := List UInt8

/-- The UTF-8 bytes of a text. -/
def utf8 (s : String) : Bytes := s.toList.flatMap String.utf8EncodeChar

namespace Utf8

/-- What the first byte of a character says: the top bits of the character, how many bytes follow,
and the bounds of the first of them. -/
structure Lead where
  bits : Nat
  tails : Nat
  low : UInt8 := 0x80
  high : UInt8 := 0xBF

/-- What `b` says as the first byte of a character. -/
def Lead.ofByte? (b : UInt8) : Option Lead :=
  let n := b.toNat
  if b < 0x80 then some { bits := n, tails := 0 }
  else if b < 0xC2 then none
  else if b < 0xE0 then some { bits := n % 32, tails := 1 }
  else if b = 0xE0 then some { bits := 0, tails := 2, low := 0xA0 }
  else if b = 0xED then some { bits := 13, tails := 2, high := 0x9F }
  else if b < 0xF0 then some { bits := n % 16, tails := 2 }
  else if b = 0xF0 then some { bits := 0, tails := 3, low := 0x90 }
  else if b < 0xF4 then some { bits := n % 8, tails := 3 }
  else if b = 0xF4 then some { bits := 4, tails := 3, high := 0x8F }
  else none

/-- What a byte sequence starts with. -/
inductive Start (s : Bytes) where
  | char (c : Char) (cut : Cut s)
  /-- Bytes that begin no character. -/
  | invalid (cut : Cut s)
  /-- A character that goes on behind the end of the sequence. -/
  | unfinished

/-- Reads the `count` bytes that follow the first bytes of a character. -/
def readTails {s : Bytes} (value : Nat) (low high : UInt8) (count : Nat) (t : Cut s) : Start s :=
  match count with
  | 0 => .char (Char.ofNat value) t
  | count + 1 =>
    match h : t.back with
    | [] => .unfinished
    | b :: _ =>
      if low ≤ b ∧ b ≤ high then
        readTails (value * 64 + b.toNat % 64) 0x80 0xBF count (t.advance h)
      else .invalid t

/-- Reads one character. -/
def read (b : UInt8) (r : Bytes) : Start (b :: r) :=
  match Lead.ofByte? b with
  | none => .invalid (.one b r)
  | some lead => readTails lead.bits lead.low lead.high lead.tails (.one b r)

/-- Where a byte sequence stops being UTF-8, and the length of the ill-formed part unless the end
of the sequence is what cuts it off. -/
structure Fault where
  validLength : Nat
  length : Option Nat
  deriving Repr, DecidableEq

/-- The text of a fault. -/
def Fault.message (f : Fault) : String :=
  match f.length with
  | some n => s!"invalid utf-8 sequence of {n} bytes from index {f.validLength}"
  | none => s!"incomplete utf-8 byte sequence from index {f.validLength}"

/-- The characters of a byte sequence that starts at index `offset`. -/
def decodeFrom (offset : Nat) (s : Bytes) : Except Fault (List Char) :=
  match s with
  | [] => .ok []
  | b :: r =>
    match read b r with
    | .char c t => do
      return c :: (← decodeFrom (offset + t.front.length) t.back)
    | .invalid t => .error ⟨offset, some t.front.length⟩
    | .unfinished => .error ⟨offset, none⟩
termination_by s.length
decreasing_by exact t.length_back_lt

/-- Reads a byte sequence as a text. -/
def decode (s : Bytes) : Except Fault String := (decodeFrom 0 s).map String.ofList

/-- The characters of a byte sequence, with replacements for what is not UTF-8. -/
def lossyChars (s : Bytes) : List Char :=
  match s with
  | [] => []
  | b :: r =>
    match read b r with
    | .char c t => c :: lossyChars t.back
    | .invalid t => '\uFFFD' :: lossyChars t.back
    | .unfinished => ['\uFFFD']
termination_by s.length
decreasing_by all_goals exact t.length_back_lt

/-- The text of a byte sequence, with a replacement character for each part that is not UTF-8. -/
def lossy (s : Bytes) : String := String.ofList (lossyChars s)

end Utf8

end Flotilla
