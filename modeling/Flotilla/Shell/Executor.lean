import Flotilla.Shell.Run

/-!
# Executing lines

An `Executor` runs submitted lines over a fixed set of hosts.  A line that runs anything but
built-ins consumes a sequence number, under which its output is captured.  How its statements go is
up to a `Drive`, which answers each wired statement with events.
-/

namespace Flotilla.Shell

/-- How statements go: the events that happen to a wired statement, before which some number of
statements ran. -/
abbrev Drive := Nat → Run → List Event

/-- A shell over connected hosts. -/
structure Executor where
  hosts : List String
  /-- The character in front of a segment that runs on this machine. -/
  mark : Char
  /-- Where the command log is kept, if anywhere. -/
  logPath : Option String
  files : Files
  capture : Capture := .empty
  /-- The sequence number handed out last.  It has no bound here; a counter of 64 bits is the same
  as long as fewer than `Line.sequenceBound` lines count. -/
  sequence : Nat := 0
  /-- What each statement showed. -/
  shown : List (List Shown) := []

/-- What came of a line. -/
structure Outcome where
  /-- The sequence number of the line, if it has one. -/
  sequence : Option Nat := none
  /-- Whether the shell was asked to leave. -/
  leaving : Bool := false
  deriving Repr, DecidableEq

namespace Executor

/-- Appends a line to the log.  A log that cannot be written is left alone. -/
def logLine (x : Executor) (now : Moment) (line : String) : Executor :=
  match CommandLog.append x.logPath x.files now line with
  | .ok files => { x with files }
  | .error _ => x

/-- A statement that is ready to be wired. -/
def ready (x : Executor) (now : Moment) (sequence : Option Nat) (input : Option LiveInput) :
    Run where
  now
  sequence
  input
  capture := x.capture
  logPath := x.logPath
  files := x.files

/-- Runs a statement: the run when it has ended. -/
def runStatement (x : Executor) (drive : Drive) (now : Moment) (sequence : Option Nat)
    (line : String) (input : Option LiveInput) (s : Line.Statement) : Run :=
  let r := (x.ready now sequence input).start x.hosts line s
  r.steps (drive x.shown.length r)

/-- Takes up what a statement has left behind. -/
def settle (x : Executor) (r : Run) : Executor :=
  { x with capture := r.capture, files := r.files, shown := x.shown ++ [r.shown] }

/-- Runs statements until one asks the shell to leave: what they leave behind, the live input that
is left, and whether the shell leaves. -/
def runStatements (drive : Drive) (now : Moment) (sequence : Option Nat) (line : String)
    (x : Executor) (input : Option LiveInput) :
    List Line.Statement → Executor × Option LiveInput × Bool
  | [] => (x, input, false)
  | s :: later =>
    let r := x.runStatement drive now sequence line input s
    let x := x.settle r
    if r.leaving then (x, r.input, true)
    else runStatements drive now sequence line x r.input later

/-- Whether a line consumes a sequence number. -/
def consumesSequence (statements : List Line.Statement) : Bool :=
  ! statements.all (·.isBuiltinOnly)

/-- What a line leads to. -/
structure Execution where
  executor : Executor
  /-- The live input that is left. -/
  input : Option LiveInput
  result : Except Line.ParseError Outcome

/-- Logs, reads and runs a line.  A blank line is not even logged, and a line that cannot be read
runs nothing. -/
def execute (x : Executor) (drive : Drive) (now : Moment) (line : String)
    (input : Option LiveInput) : Execution :=
  if Text.trim line.toList = [] then ⟨x, input, .ok {}⟩
  else
    let x := x.logLine now line
    match Line.parse x.mark line with
    | .error e => ⟨x, input, .error e⟩
    | .ok statements =>
      let counted := consumesSequence statements
      let x := if counted then { x with sequence := x.sequence + 1 } else x
      let sequence := if counted then some x.sequence else none
      let (x, input, leaving) := runStatements drive now sequence line x input statements
      ⟨x, input, .ok { sequence, leaving }⟩

end Executor

end Flotilla.Shell
