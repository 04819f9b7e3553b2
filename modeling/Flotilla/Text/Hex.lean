import Flotilla.Text.Utf8

/-!
# Hexadecimal text

`Hex.encode` writes each byte as two lower-case digits, and `Hex.decode?` reads such a text.
-/

namespace Flotilla.Hex

/-- The lower-case digit of a number below 16. -/
def digit (n : Nat) : Char := "0123456789abcdef".toList.getD n '0'

/-- The value of a digit of either case. -/
def value? (c : Char) : Option Nat :=
  if c.isDigit then some (c.toNat - '0'.toNat)
  else if 'a' ≤ c ∧ c ≤ 'f' then some (c.toNat - 'a'.toNat + 10)
  else if 'A' ≤ c ∧ c ≤ 'F' then some (c.toNat - 'A'.toNat + 10)
  else none

/-- The number that digits stand for. -/
def number? (s : List Char) : Option Nat :=
  (s.mapM value?).map fun digits => digits.foldl (fun n d => n * 16 + d) 0

/-- The digits of a number, at least one. -/
def ofNat (n : Nat) : List Char := (Nat.toDigits 16 n)

/-- Two digits for each byte. -/
def encode (s : Bytes) : String :=
  String.ofList (s.flatMap fun b => [digit (b.toNat / 16), digit (b.toNat % 16)])

/-- The bytes that pairs of digits stand for. -/
def decodeChars? : List Char → Option Bytes
  | [] => some []
  | [_] => none
  | a :: b :: r => do
    let high ← value? a
    let low ← value? b
    return UInt8.ofNat (high * 16 + low) :: (← decodeChars? r)

/-- The bytes that a hexadecimal text stands for. -/
def decode? (s : String) : Option Bytes := decodeChars? s.toList

end Flotilla.Hex
