import Flotilla.Json.Basic
import Flotilla.Text.Hex

/-!
# Writing JSON

`Json.print` writes a value without blanks.  In a string the quotation mark, the backslash and the
control characters are escaped, everything else stands for itself.
-/

namespace Flotilla.Json

/-- How a character is written inside a string. -/
def escapeChar (c : Char) : List Char :=
  if c = '"' then ['\\', '"']
  else if c = '\\' then ['\\', '\\']
  else if c = '\x08' then ['\\', 'b']
  else if c = '\t' then ['\\', 't']
  else if c = '\n' then ['\\', 'n']
  else if c = '\x0c' then ['\\', 'f']
  else if c = '\r' then ['\\', 'r']
  else if c.toNat < 0x20 then
    ['\\', 'u', '0', '0', Hex.digit (c.toNat / 16), Hex.digit (c.toNat % 16)]
  else [c]

/-- A text between quotation marks. -/
def quote (s : String) : String := String.ofList ('"' :: s.toList.flatMap escapeChar ++ ['"'])

/-- Texts with commas between them. -/
def commas (l : List String) : String := ",".intercalate l

mutual

/-- The text of a value. -/
def print : Json → String
  | .null | .broken _ => "null"
  | .bool b => if b then "true" else "false"
  | .number literal => literal
  | .string s => quote s
  | .loneSurrogate => quote "\uFFFD"
  | .array items | .brokenArray items _ => "[" ++ commas (printItems items) ++ "]"
  | .object entries | .brokenObject entries _ => "\x7b" ++ commas (printEntries entries) ++ "\x7d"

/-- The texts of values. -/
def printItems : List Json → List String
  | [] => []
  | j :: r => print j :: printItems r

/-- The texts of entries. -/
def printEntries : List (String × Json) → List String
  | [] => []
  | (k, j) :: r => (quote k ++ ":" ++ print j) :: printEntries r

end

end Flotilla.Json
