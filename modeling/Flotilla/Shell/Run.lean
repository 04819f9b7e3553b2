import Flotilla.ConnectError
import Flotilla.Line.Statement
import Flotilla.Shell.Display
import Flotilla.Shell.Pipe
import Flotilla.Shell.Replay

/-!
# Running a statement

A `Run` is a statement on its way: a task for each host that runs a segment, the pipes between the
segments, and the live input.  `Run.start` wires it, and `Run.step` says what an event does to it.
Everything that depends on timing, on hosts and on the user is in the events, so a list of events
is one way in which a statement may go.
-/

namespace Flotilla.Shell

open Line (Statement Segment Venue)

/-- Where the input of a task comes from. -/
inductive Source where
  /-- The live input, at a reader's place. -/
  | live (reader : Nat)
  /-- The pipe in front of the task's segment, at a reader's place. -/
  | pipe (pipe reader : Nat)
  /-- Nowhere: a built-in does not read. -/
  | nothing
  deriving Repr, DecidableEq

/-- A segment on one host. -/
structure Task where
  venue : Venue
  host : String
  command : String
  /-- Whether lines that are shown carry the host's name. -/
  tagged : Bool
  source : Source
  /-- The pipe that takes the output.  Without one it is shown. -/
  sink : Option Nat
  running : Bool := true
  deriving Repr, DecidableEq

/-- The name under which segments on this machine appear. -/
def localName : String := "localhost"

/-- Whether a task's output is recorded.  That of built-ins is not. -/
def Task.isRecorded (t : Task) : Bool :=
  match t.venue with
  | .shell _ => false
  | _ => true

/-- The lines that the user types ahead. -/
structure LiveInput where
  lines : List String := []
  /-- Whether more lines may come. -/
  isOpen : Bool := false
  deriving Repr, DecidableEq

/-- A statement on its way. -/
structure Run where
  now : Moment
  /-- The sequence number of the line, if it has one. -/
  sequence : Option Nat
  tasks : List Task := []
  pipes : List Pipe := []
  /-- The readers of the live input. -/
  live : List Reader := []
  /-- The live input.  Without it, its readers are at the end at once. -/
  input : Option LiveInput
  capture : Capture
  /-- Where the command log is kept, if anywhere. -/
  logPath : Option String
  files : Files
  shown : List Shown := []
  /-- Whether the user asked the statement to stop. -/
  interrupted : Bool := false
  /-- Whether a built-in asked the shell to leave. -/
  leaving : Bool := false

namespace Run

/-- The tasks of a segment: one for each host, or one here. -/
def hostsOf (hosts : List String) (g : Segment) : List String :=
  match g.venue with
  | .hosts => hosts
  | _ => [localName]

/-- How many readers a segment has. -/
def readerCount (hosts : List String) (g : Segment) : Nat :=
  match g.venue with
  | .shell _ => 0
  | _ => (hostsOf hosts g).length

/-- Opens the entry of a task, if the line is recorded. -/
def openEntry (line : String) (r : Run) (t : Task) : Run :=
  match r.sequence with
  | some n =>
    if t.isRecorded then { r with capture := r.capture.begin r.now n t.host line } else r
  | none => r

/-- Joins the readers of a segment to what comes before it: a pipe if it is `piped` into, and
otherwise the live input. -/
def joinReaders (r : Run) (piped : Bool) (count : Nat) : Run × (Nat → Source) :=
  if piped then
    let k := r.pipes.length - 1
    ({ r with pipes := r.pipes.modify k (·.join count) }, (.pipe k ·))
  else
    let first := r.live.length
    ({ r with live := r.live ++ List.replicate count {} }, fun i => .live (first + i))

/-- Adds the tasks of a segment. -/
def addSegment (hosts : List String) (line : String) (piped : Bool) (r : Run) (g : Segment) : Run :=
  let (r, source) := r.joinReaders piped (readerCount hosts g)
  let names := hostsOf hosts g
  let sink := if g.piped then some r.pipes.length else none
  let tagged := match g.venue with
    | .hosts => names.length > 1
    | _ => false
  let tasks : List Task := names.mapIdx fun i host => {
    venue := g.venue
    host
    command := g.text
    tagged
    source := match g.venue with
      | .shell _ => .nothing
      | _ => source i
    sink }
  let pipes := if g.piped then r.pipes ++ [.loose tasks.length] else r.pipes
  tasks.foldl (openEntry line) { r with tasks := r.tasks ++ tasks, pipes }

/-- Adds segments, of which the first is `piped` into or not. -/
def addSegments (hosts : List String) (line : String) (piped : Bool) (r : Run) :
    List Segment → Run
  | [] => r
  | g :: gs => addSegments hosts line g.piped (addSegment hosts line piped r g) gs

/-- Ends the live input for those that read it. -/
def endLive (r : Run) : Run := { r with live := r.live.map .starve }

/-- Wires a statement.  All entries are opened before anything runs. -/
def start (r : Run) (hosts : List String) (line : String) (s : Statement) : Run :=
  let r := addSegments hosts line false { r with tasks := [], pipes := [], live := [] } s.segments
  if r.input.isNone then r.endLive else r

/-- Changes the reader of a task. -/
def changeReader (r : Run) (t : Task) (f : Reader → Reader) : Run :=
  match t.source with
  | .live i => { r with live := r.live.modify i f }
  | .pipe k i => { r with pipes := r.pipes.modify k (·.changeReader i f) }
  | .nothing => r

/-- The reader of a task. -/
def reader? (r : Run) (t : Task) : Option Reader :=
  match t.source with
  | .live i => r.live[i]?
  | .pipe k i => (r.pipes[k]?).bind (·.readers[i]?)
  | .nothing => none

/-- Records output of a task, if the line is recorded. -/
def record (r : Run) (t : Task) (data : Bytes) : Run :=
  match r.sequence with
  | some n =>
    if t.isRecorded then { r with capture := r.capture.append r.now n t.host data } else r
  | none => r

/-- The writer that shows what task `i` writes on a stream. -/
def writer (i : Nat) (t : Task) (stream : Stream) : Writer :=
  { id := 3 * i + (match stream with
      | .out => 0
      | .err => 1)
    stream
    host := t.host
    tagged := t.tagged }

/-- The writer that shows how task `i` ended. -/
def reportWriter (i : Nat) (t : Task) : Writer :=
  { id := 3 * i + 2, stream := .err, host := t.host, tagged := t.tagged }

/-- Shows something. -/
def showing (r : Run) (w : Writer) (act : Shown.Act) : Run :=
  { r with shown := r.shown ++ [⟨w, act⟩] }

/-- The text that reports how a task ended, if there is something to report. -/
def report? : Except ConnectError (Option Nat) → Option String
  | .ok none => none
  | .ok (some status) => if status = 0 then none else some s!"exit status {status}\n"
  | .error e => some ("error: " ++ e.message ++ "\n")

/-- How much of a chunk the sink of a task takes: a pipe takes all of it while it carries, and what
shows it takes as much as `accepts` allows. -/
def accepted (r : Run) (t : Task) (data : Bytes) (accepts : Nat) : Bytes :=
  match t.sink with
  | some k =>
    match r.pipes[k]? with
    | some p => if p.carries then data else []
    | none => []
  | none => data.take accepts

/-- Task `i` writes a chunk on its output. -/
def writeOut (r : Run) (i : Nat) (t : Task) (data : Bytes) (accepts : Nat) : Run :=
  let taken := r.accepted t data accepts
  if taken = [] then r
  else
    let r := match t.sink with
      | some k => { r with pipes := r.pipes.modify k (·.write taken) }
      | none => r.showing (writer i t .out) (.write taken)
    r.record t taken

/-- Task `i` ends. -/
def finish (r : Run) (i : Nat) (t : Task) (result : Except ConnectError (Option Nat)) : Run :=
  let r := { r with tasks := r.tasks.modify i fun t => { t with running := false } }
  let r := r.changeReader t .hangUp
  let r := match t.sink with
    | some k => { r with pipes := r.pipes.modify k .finishWriter }
    | none => r
  if ! t.isRecorded then r
  else match report? result with
    | some text =>
      (r.showing (reportWriter i t) (.write (utf8 text))).showing (reportWriter i t) .shutdown
    | none => r.showing (reportWriter i t) .shutdown

/-- Task `i` is a built-in, which runs and ends. -/
def answer (r : Run) (i : Nat) (t : Task) (b : Line.Builtin) : Run :=
  let data := utf8 (b.output (CommandLog.read r.logPath r.files) r.capture)
  let r := r.writeOut i t data data.length
  let r := if t.sink.isSome then r
    else if b = .exit then r.showing (writer i t .out) .shutdown
    else (r.showing (writer i t .out) .flush).showing (writer i t .out) .shutdown
  let r := if b = .exit then { r with leaving := true } else r
  r.finish i t (.ok none)

/-- The live input brings its next line to its readers, or its end. -/
def takeLine (r : Run) : Run :=
  if ! r.live.any (·.fed) then r
  else match r.input with
    | none => r
    | some input =>
      match input.lines with
      | line :: later =>
        { r with
          live := r.live.map (·.bring (utf8 (line ++ "\n")))
          input := some { input with lines := later } }
      | [] => if input.isOpen then r else r.endLive

end Run

/-- Something that happens while a statement runs.  Tasks and pipes are meant by their places. -/
inductive Event where
  /-- A task writes a chunk on its output, of which what shows it accepts this many bytes. -/
  | write (task : Nat) (data : Bytes) (accepts : Nat)
  /-- A task writes a chunk on its error stream. -/
  | complain (task : Nat) (data : Bytes)
  | flush (task : Nat) (stream : Stream)
  | shutdown (task : Nat) (stream : Stream)
  /-- A task reads the next chunk of its input. -/
  | read (task : Nat)
  /-- A task reads no more. -/
  | hangUp (task : Nat)
  /-- A task ends, with its exit status if there is one. -/
  | finish (task : Nat) (result : Except ConnectError (Option Nat))
  /-- A built-in runs. -/
  | answer (task : Nat)
  /-- A pipe carries a chunk, or its end. -/
  | carry (pipe : Nat)
  /-- The live input brings a line, or its end. -/
  | takeLine
  /-- The user types a line. -/
  | type (line : String)
  /-- The user types no more. -/
  | endInput
  /-- Something changes files. -/
  | touch (files : Files)
  | interrupt

namespace Run

/-- Applies `f` to a task that runs. -/
def onTask (r : Run) (i : Nat) (f : Task → Run) : Run :=
  match r.tasks[i]? with
  | some t => if t.running then f t else r
  | none => r

/-- Applies `f` to a command that runs.  A built-in does nothing but answer. -/
def onCommand (r : Run) (i : Nat) (f : Task → Run) : Run :=
  r.onTask i fun t => match t.venue with
    | .shell _ => r
    | _ => f t

/-- What an event does to a run. -/
def step (r : Run) : Event → Run
  | .write i data accepts => r.onCommand i fun t => r.writeOut i t data accepts
  | .complain i data => r.onCommand i fun t =>
    if data = [] then r else r.showing (writer i t .err) (.write data)
  | .flush i stream => r.onCommand i fun t =>
    if stream = .out ∧ t.sink.isSome then r else r.showing (writer i t stream) .flush
  | .shutdown i stream => r.onCommand i fun t =>
    if stream = .out ∧ t.sink.isSome then r else r.showing (writer i t stream) .shutdown
  | .read i => r.onCommand i fun t => r.changeReader t .read
  | .hangUp i => r.onCommand i fun t => r.changeReader t .hangUp
  | .finish i result => r.onCommand i fun t => r.finish i t result
  | .answer i => r.onTask i fun t =>
    match t.venue with
    | .shell b => r.answer i t b
    | _ => r
  | .carry k => { r with pipes := r.pipes.modify k .carry }
  | .takeLine => r.takeLine
  | .type line =>
    { r with input := r.input.map fun input =>
        if input.isOpen then { input with lines := input.lines ++ [line] } else input }
  | .endInput => { r with input := r.input.map fun input => { input with isOpen := false } }
  | .touch files => { r with files }
  | .interrupt => { r with interrupted := true }

/-- What a list of events does to a run. -/
def steps (r : Run) (events : List Event) : Run := events.foldl step r

/-- Whether every task has ended. -/
def isFinished (r : Run) : Bool := r.tasks.all (! ·.running)

end Run

end Flotilla.Shell
