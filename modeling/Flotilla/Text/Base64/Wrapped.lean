import Flotilla.Text.Base64

/-!
# Base64 in lines

Base64 text that may be broken into lines, as key files and lists of known hosts hold it.  Padding
may end any group of four characters, and a text may go on behind it.
-/

namespace Flotilla.Base64.Wrapped

/-- Why a text stands for no bytes, and where. -/
inductive Fault where
  /-- A last group that lacks characters. -/
  | length (position : Nat)
  /-- A byte that is no character of the alphabet. -/
  | symbol (position : Nat)
  /-- A group whose unused bits are not zero. -/
  | trailing (position : Nat)
  /-- A group with too much padding. -/
  | padding (position : Nat)
  deriving Repr, DecidableEq

/-- The text of a fault. -/
def Fault.message : Fault → String
  | .length n => s!"invalid length at {n}"
  | .symbol n => s!"invalid symbol at {n}"
  | .trailing n => s!"non-zero trailing bits at {n}"
  | .padding n => s!"invalid padding length at {n}"

/-- Reads the characters in front of the padding of a group, each with its position. -/
def readSymbols : List (UInt8 × Nat) → Except Fault (List Nat)
  | [] => .ok []
  | (b, i) :: r =>
    match value? b with
    | none => .error (.symbol i)
    | some n => (readSymbols r).map (n :: ·)

/-- The bytes of a group. -/
def decodeGroup (group : List (UInt8 × Nat)) : Except Fault Bytes := do
  let symbols := (group.reverse.dropWhile fun (b, _) => b = Base64.padding).reverse
  let position (n : Nat) : Nat := (group[n]?.map (·.2)).getD 0
  if symbols.length < 2 then throw (.padding (position symbols.length))
  match ← readSymbols symbols with
  | [a, b] =>
    if b % 16 ≠ 0 then throw (.trailing (position 1))
    return [UInt8.ofNat (a * 4 + b / 16)]
  | [a, b, c] =>
    if c % 4 ≠ 0 then throw (.trailing (position 2))
    return [UInt8.ofNat (a * 4 + b / 16), UInt8.ofNat (b % 16 * 16 + c / 4)]
  | [a, b, c, d] =>
    return [UInt8.ofNat (a * 4 + b / 16), UInt8.ofNat (b % 16 * 16 + c / 4),
      UInt8.ofNat (c % 4 * 64 + d)]
  | _ => return []

/-- The bytes of groups. -/
def decodeGroups : List (UInt8 × Nat) → Except Fault Bytes
  | [] => .ok []
  | a :: b :: c :: d :: r => do
    let bytes ← decodeGroup [a, b, c, d]
    let rest ← decodeGroups r
    return bytes ++ rest
  | (_, i) :: _ => .error (.length i)

/-- Whether a byte is part of a line break. -/
def isLineEnd (b : UInt8) : Bool := b = 13 || b = 10

/-- The bytes that a text stands for. -/
def decode (s : Bytes) : Except Fault Bytes :=
  decodeGroups (s.zipIdx.filter fun (b, _) => ! isLineEnd b)

end Flotilla.Base64.Wrapped
