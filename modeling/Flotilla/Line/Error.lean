/-!
# Rejected lines

A command line that cannot be read is rejected as a whole, before any part of it runs.
`ParseError` names the cause, and `ParseError.message` words it for the user.
-/

namespace Flotilla.Line

/-- Why a line is rejected. -/
inductive ParseError where
  /-- A quotation that never ends. -/
  | unterminatedQuote (mark : Char)
  /-- A command substitution that never ends. -/
  | unterminatedSubstitution
  /-- A backslash with nothing after it. -/
  | trailingEscape
  /-- A pipe with no command on one side, noticed at a byte offset of the line. -/
  | emptySegment (offset : Nat)
  /-- The local mark with no command after it. -/
  | emptyLocalCommand
  /-- A built-in command with an argument it does not take. -/
  | invalidArgument (command argument : String)
  deriving Repr, DecidableEq

/-- The text shown for a rejected line. -/
def ParseError.message : ParseError → String
  | .unterminatedQuote mark => s!"unterminated {mark} quote"
  | .unterminatedSubstitution => "unterminated command substitution"
  | .trailingEscape => "trailing backslash"
  | .emptySegment offset => s!"empty command around '|' at offset {offset}"
  | .emptyLocalCommand => "empty local command"
  | .invalidArgument command argument => s!"invalid argument for {command}: {argument}"

end Flotilla.Line
