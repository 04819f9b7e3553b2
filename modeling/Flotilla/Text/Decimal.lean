/-!
# Decimal numbers

`readNat?` reads a non-empty run of decimal digits, and `readBelow?` such a number under a bound,
with an optional plus sign in front.
-/

namespace Flotilla.Text

/-- The number that decimal digits stand for. -/
def digitsValue (s : List Char) : Nat :=
  s.foldl (fun n c => n * 10 + (c.toNat - '0'.toNat)) 0

/-- Reads a text that is all decimal digits, at least one. -/
def readNat? (s : List Char) : Option Nat :=
  if s ≠ [] ∧ s.all Char.isDigit then some (digitsValue s) else none

/-- Reads a number below `bound`, which may have a plus sign in front. -/
def readBelow? (bound : Nat) (s : List Char) : Option Nat :=
  let digits := match s with
    | '+' :: r => r
    | s => s
  (readNat? digits).filter (· < bound)

end Flotilla.Text
