import Flotilla.Line.Error
import Flotilla.Text.Decimal

/-!
# Built-in commands

The commands that the shell answers itself.  `Builtin.ofWords?` recognises one by its first word.
-/

namespace Flotilla.Line

/-- A command that runs inside the shell. -/
inductive Builtin where
  /-- Leaves the shell. -/
  | exit
  /-- Clears the screen. -/
  | clear
  /-- Shows the command log. -/
  | history
  /-- Lists the lines with recorded output. -/
  | outList
  /-- Shows the recorded output of one line, or of the latest. -/
  | out (sequence : Option Nat)
  deriving Repr, DecidableEq

/-- Sequence numbers are 64 bits wide. -/
def sequenceBound : Nat := Nat.pow 2 64

/-- The built-in that the words of a segment name, if they name one. -/
def Builtin.ofWords? : List String → Except ParseError (Option Builtin)
  | [] => .ok none
  | first :: arguments =>
    if first = "exit" ∨ first = "quit" then .ok (some .exit)
    else if first = "clear" then .ok (some .clear)
    else if first = "%history" then .ok (some .history)
    else if first = "%outlist" then .ok (some .outList)
    else if first = "%out" then
      match arguments with
      | [] => .ok (some (.out none))
      | [argument] =>
        match Text.readBelow? sequenceBound argument.toList with
        | some n => .ok (some (.out (some n)))
        | none => .error (.invalidArgument first argument)
      | _ :: extra :: _ => .error (.invalidArgument first extra)
    else .ok none

end Flotilla.Line
