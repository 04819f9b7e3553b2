import Flotilla.Text.Decimal

/-!
# How large numbers may be

A number of a JSON text is read as a double.  `isTooLarge` says whether a literal is beyond all of
them, which makes it no number at all.
-/

namespace Flotilla.Json

/-- The power of ten that an exponent stands for: `e`, a sign if there is one, and digits. -/
def exponentValue (exponent : List Char) : Int :=
  let size : Int := Text.digitsValue (exponent.filter Char.isDigit)
  if exponent.contains '-' then -size else size

/-- The digits of a number literal without its point, and the power of ten to them. -/
def scaled (literal : List Char) : List Char × Int :=
  let (mantissa, exponent) := literal.span fun c => c ≠ 'e' ∧ c ≠ 'E'
  let (whole, fraction) := mantissa.span (· ≠ '.')
  let fraction := fraction.drop 1
  ((whole ++ fraction).filter Char.isDigit, exponentValue exponent - fraction.length)

/-- The least number that is beyond all doubles: half a step above the largest one. -/
def doubleBound : Nat := Nat.pow 2 1024 - Nat.pow 2 970

/-- Whether a literal is beyond all doubles.  Its magnitude tells, unless that is close. -/
def isTooLarge (literal : String) : Bool :=
  let (digits, power) := scaled literal.toList
  let digits := digits.dropWhile (· = '0')
  let magnitude := digits.length + power
  if digits = [] ∨ magnitude < 300 then false
  else if 320 < magnitude then true
  else if 0 ≤ power then doubleBound ≤ Text.digitsValue digits * Nat.pow 10 power.toNat
  else doubleBound * Nat.pow 10 (-power).toNat ≤ Text.digitsValue digits

example : isTooLarge "1e308" = false ∧ isTooLarge "-1e309" = true := by decide +kernel
example : isTooLarge "0e9999" = false ∧ isTooLarge "0.1E+310" = true := by decide +kernel

end Flotilla.Json
