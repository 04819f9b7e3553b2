import Flotilla.Text.Utf8

/-!
# Base64

The standard alphabet with padding.  `Base64.encode` writes bytes in groups of three, and
`Base64.decode` accepts exactly what it writes: the last group is padded to four characters, and
the bits that stand for nothing are zero.
-/

namespace Flotilla.Base64

/-- The character of a number below 64. -/
def symbol (n : Nat) : UInt8 :=
  if n < 26 then UInt8.ofNat (n + 65)
  else if n < 52 then UInt8.ofNat (n - 26 + 97)
  else if n < 62 then UInt8.ofNat (n - 52 + 48)
  else if n = 62 then 43
  else 47

/-- The number that a character stands for. -/
def value? (b : UInt8) : Option Nat :=
  if 65 ≤ b ∧ b ≤ 90 then some (b.toNat - 65)
  else if 97 ≤ b ∧ b ≤ 122 then some (b.toNat - 97 + 26)
  else if 48 ≤ b ∧ b ≤ 57 then some (b.toNat - 48 + 52)
  else if b = 43 then some 62
  else if b = 47 then some 63
  else none

/-- The padding character `=`. -/
def padding : UInt8 := 61

/-- The four characters of each three bytes. -/
def encodeBytes : Bytes → Bytes
  | [] => []
  | [a] =>
    let n := a.toNat * 16
    [symbol (n / 64), symbol (n % 64), padding, padding]
  | [a, b] =>
    let n := (a.toNat * 256 + b.toNat) * 4
    [symbol (n / 4096), symbol (n / 64 % 64), symbol (n % 64), padding]
  | a :: b :: c :: r =>
    let n := (a.toNat * 256 + b.toNat) * 256 + c.toNat
    symbol (n / 262144) :: symbol (n / 4096 % 64) :: symbol (n / 64 % 64) :: symbol (n % 64) ::
      encodeBytes r

/-- The text that stands for bytes. -/
def encode (s : Bytes) : String := String.ofList ((encodeBytes s).map fun b => Char.ofNat b.toNat)

/-- Why a text stands for no bytes. -/
inductive Fault where
  /-- A byte that is no character of the alphabet, or padding in the wrong place. -/
  | symbol (byte : UInt8) (offset : Nat)
  /-- A last group of a single character. -/
  | length (length : Nat)
  /-- A last group whose unused bits are not zero. -/
  | lastSymbol (byte : UInt8) (offset : Nat)
  /-- A last group without its padding. -/
  | padding
  deriving Repr, DecidableEq

/-- The text of a fault. -/
def Fault.message : Fault → String
  | .symbol byte offset => s!"Invalid symbol {byte.toNat}, offset {offset}."
  | .length n => s!"Invalid input length: {n}"
  | .lastSymbol byte offset => s!"Invalid last symbol {byte.toNat}, offset {offset}."
  | .padding => "Invalid padding"

/-- The value of the character at `offset`. -/
def readSymbol (offset : Nat) (b : UInt8) : Except Fault Nat :=
  match value? b with
  | some n => .ok n
  | none => .error (.symbol b offset)

/-- Reads the characters of the last group in front of its padding, which starts in place `place`
of the group: their values, and the number of padding characters. -/
def readLast (offset place : Nat) : Bytes → Except Fault (List Nat × Nat)
  | [] => .ok ([], 0)
  | b :: r =>
    if b = padding then
      if place < 2 ∨ ¬ r.all (· = padding) then .error (.symbol b offset)
      else .ok ([], r.length + 1)
    else do
      let n ← readSymbol offset b
      let (values, pads) ← readLast (offset + 1) (place + 1) r
      return (n :: values, pads)

/-- The bytes of a last group, which starts at `offset`. -/
def decodeLast (offset : Nat) (group : Bytes) : Except Fault Bytes := do
  let (values, pads) ← readLast offset 0 group
  if group ≠ [] ∧ values.length < 2 then throw (.length (offset + values.length))
  if (values.length + pads) % 4 ≠ 0 then throw .padding
  let last := fun (n : Nat) => Fault.lastSymbol (group.getD n 0) (offset + n)
  match values with
  | [a, b] =>
    if b % 16 ≠ 0 then throw (last 1)
    return [UInt8.ofNat (a * 4 + b / 16)]
  | [a, b, c] =>
    if c % 4 ≠ 0 then throw (last 2)
    return [UInt8.ofNat (a * 4 + b / 16), UInt8.ofNat (b % 16 * 16 + c / 4)]
  | [a, b, c, d] =>
    return [UInt8.ofNat (a * 4 + b / 16), UInt8.ofNat (b % 16 * 16 + c / 4),
      UInt8.ofNat (c % 4 * 64 + d)]
  | _ => return []

/-- The bytes of groups of which the first starts at `offset`. -/
def decodeGroups (offset : Nat) : Bytes → Except Fault Bytes
  | a :: b :: c :: d :: e :: r => do
    let a ← readSymbol offset a
    let b ← readSymbol (offset + 1) b
    let c ← readSymbol (offset + 2) c
    let d ← readSymbol (offset + 3) d
    let rest ← decodeGroups (offset + 4) (e :: r)
    return UInt8.ofNat (a * 4 + b / 16) :: UInt8.ofNat (b % 16 * 16 + c / 4) ::
      UInt8.ofNat (c % 4 * 64 + d) :: rest
  | group => decodeLast offset group

/-- The fault of a text whose last group is a single byte that is neither in the alphabet nor
padding. -/
def strayFault? (s : Bytes) : Option Fault :=
  match s.getLast? with
  | some b =>
    if s.length % 4 = 1 ∧ b ≠ padding ∧ value? b = none then some (.symbol b (s.length - 1))
    else none
  | none => none

/-- The bytes that a text stands for. -/
def decode (s : String) : Except Fault Bytes :=
  let bytes := utf8 s
  match strayFault? bytes with
  | some f => .error f
  | none => decodeGroups 0 bytes

end Flotilla.Base64
