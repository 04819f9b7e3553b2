import Flotilla.Text.Hex
import Flotilla.Text.Printable

/-!
# Quoted text

`quoted` shows a text between double quotation marks, unambiguously and without characters that a
terminal would act on.
-/

namespace Flotilla.Text

/-- How a character is shown between double quotation marks. -/
def quotedChar (c : Char) : List Char :=
  if c = '"' ∨ c = '\\' then ['\\', c]
  else if c = '\x00' then ['\\', '0']
  else if c = '\t' then ['\\', 't']
  else if c = '\n' then ['\\', 'n']
  else if c = '\r' then ['\\', 'r']
  else if isPrintable c && ! extendsGrapheme c then [c]
  else ['\\', 'u', '\x7b'] ++ Hex.ofNat c.toNat ++ ['\x7d']

/-- A text between double quotation marks. -/
def quoted (s : String) : String := String.ofList ('"' :: s.toList.flatMap quotedChar ++ ['"'])

end Flotilla.Text
