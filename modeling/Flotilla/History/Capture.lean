import Flotilla.History.Moment
import Flotilla.Json.Print
import Flotilla.Table
import Flotilla.Text.Utf8

/-!
# Captured output

Each line that runs something has a sequence number.  A `Capture` holds, by sequence number and
host, the command and the output so far.
-/

namespace Flotilla

/-- What is captured of one host under one sequence number. -/
structure Captured where
  /-- When the entry was opened. -/
  begun : Moment
  command : String
  output : Bytes
  deriving Repr, DecidableEq

/-- The output as a text. -/
def Captured.text (c : Captured) : String := Utf8.lossy c.output

/-- Captured output by sequence number and host. -/
abbrev Capture := Table Nat (Table String Captured)

namespace Capture

/-- What is captured of a host under a sequence number. -/
def entry? (t : Capture) (sequence : Nat) (host : String) : Option Captured :=
  (t.find? sequence).bind (·.find? host)

/-- Sets what is captured of a host under a sequence number. -/
def setEntry (t : Capture) (sequence : Nat) (host : String) (c : Captured) : Capture :=
  t.insert sequence (((t.find? sequence).getD .empty).insert host c)

/-- Opens the entry of a host, which stays as it is if it is open already. -/
def begin (t : Capture) (now : Moment) (sequence : Nat) (host command : String) : Capture :=
  match t.entry? sequence host with
  | some _ => t
  | none => t.setEntry sequence host ⟨now, command, []⟩

/-- Adds output of a host. -/
def append (t : Capture) (now : Moment) (sequence : Nat) (host : String) (data : Bytes) : Capture :=
  match t.entry? sequence host with
  | some c => t.setEntry sequence host { c with output := c.output ++ data }
  | none => t.setEntry sequence host ⟨now, "", data⟩

/-- The first command that is not empty. -/
def firstCommand (hosts : Table String Captured) : String :=
  ((hosts.values.map (·.command)).find? (· ≠ "")).getD ""

/-- The sequence numbers with their commands, in ascending order. -/
def sequences (t : Capture) : List (Nat × String) :=
  t.entries.map fun (n, hosts) => (n, firstCommand hosts)

/-- The greatest sequence number. -/
def latest? (t : Capture) : Option Nat := t.keys.getLast?

/-- An entry as a JSON record. -/
def record (sequence : Nat) (host : String) (c : Captured) : Json :=
  .object [
    ("sequence", .nat sequence),
    ("host", .string host),
    ("timestamp", .string c.begun.full),
    ("command", .string c.command),
    ("output", .string c.text)]

/-- The entries as JSON records, by sequence number and host. -/
def records (t : Capture) : List Json :=
  t.entries.flatMap fun (n, hosts) => hosts.entries.map fun (host, c) => record n host c

/-- The entries as JSON records, one a line. -/
def exported (t : Capture) : String := "\n".intercalate (t.records.map Json.print)

end Capture

end Flotilla
