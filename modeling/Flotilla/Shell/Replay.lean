import Flotilla.History.Capture
import Flotilla.History.Log
import Flotilla.Line.Builtin
import Flotilla.Shell.LineWriter
import Flotilla.Text.Lines

/-!
# What built-in commands print

`Builtin.output` is the text of a built-in command.  The recorded output of a line is replayed host
by host, with a tag in front of each line if there are several.
-/

namespace Flotilla

/-- The sequence that clears a terminal and puts its cursor in the first place. -/
def clearScreen : String := "\x1b[2J\x1b[H"

namespace Capture

/-- The replayed text of one host. -/
def replayHost (tagged : Bool) (host : String) (c : Captured) : String :=
  String.join ((Text.lines c.text.toList).map fun line =>
    (if tagged then Shell.LineWriter.hostTag host else "") ++ String.ofList line ++ "\n")

/-- The replayed text of a sequence number. -/
def replayHosts (hosts : Table String Captured) : String :=
  String.join (hosts.entries.map fun (host, c) => replayHost (hosts.entries.length > 1) host c)

/-- The replayed text of the sequence number asked for, or of the latest. -/
def replay (t : Capture) (requested : Option Nat) : String :=
  match requested <|> t.latest? with
  | none => "no recorded output\n"
  | some n =>
    match t.find? n with
    | some hosts => replayHosts hosts
    | none => s!"no output recorded for sequence {n}\n"

end Capture

namespace Line.Builtin

/-- What a built-in prints.  It prints nothing if the log cannot be read. -/
def output (b : Builtin) (log : Except IoFault (List String)) (t : Capture) : String :=
  match b with
  | .exit => ""
  | .clear => clearScreen
  | .history =>
    match log with
    | .ok lines => String.join (lines.map (· ++ "\n"))
    | .error _ => ""
  | .outList => String.join (t.sequences.map fun (n, command) => s!"{n}  {command}\n")
  | .out requested => t.replay requested

end Line.Builtin

end Flotilla
