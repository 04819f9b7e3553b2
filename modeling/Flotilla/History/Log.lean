import Flotilla.Files
import Flotilla.History.Moment
import Flotilla.Text.Lines

/-!
# The command log

The log is a file to which each submitted line is appended with the time.  A log without a path
keeps nothing.
-/

namespace Flotilla.CommandLog

/-- A command on one line: line breaks are written as escapes. -/
def flat (command : List Char) : List Char :=
  command.flatMap fun c =>
    if c = '\r' then ['\\', 'r'] else if c = '\n' then ['\\', 'n'] else [c]

/-- The line of a command. -/
def line (now : Moment) (command : String) : String :=
  now.short ++ " " ++ String.ofList (flat command.toList)

/-- Appends a command to the log at `path`. -/
def append (path : Option String) (fs : Files) (now : Moment) (command : String) :
    Except IoFault Files :=
  match path with
  | none => .ok fs
  | some path => fs.append path (utf8 (line now command ++ "\n"))

/-- The lines of the log at `path`, oldest first.  A log that is not there has none. -/
def read (path : Option String) (fs : Files) : Except IoFault (List String) :=
  match path with
  | none => .ok []
  | some path =>
    match fs.readText path with
    | .ok s => .ok ((Text.lines s.toList).map String.ofList)
    | .error .missing => .ok []
    | .error e => .error e

end Flotilla.CommandLog
