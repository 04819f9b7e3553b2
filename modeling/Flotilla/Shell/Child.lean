import Flotilla.Shell.Display

/-!
# Commands on this machine

A command on this machine is a child process whose two streams are copied out of pipes that hold
only so much.  Once both copies have come to an end, a child whose output is not wanted any more is
killed, and the child is awaited.  An interrupt kills it at once.  `ChildRun.next?` says what each
step leads to, and is `none` for a step that cannot be taken.
-/

namespace Flotilla.Shell

/-- How far the copy of a stream has come. -/
inductive Copying where
  | going
  /-- The child has closed the stream. -/
  | ended
  /-- What was copied was refused. -/
  | failed
  deriving Repr, DecidableEq

/-- A stream of a child, and the copy of it. -/
structure Outlet where
  /-- The bytes in the pipe. -/
  waiting : Bytes := []
  /-- Whether the child has the stream open. -/
  isOpen : Bool := true
  copying : Copying := .going
  /-- What was copied. -/
  copied : Bytes := []
  deriving Repr, DecidableEq

/-- What a child is at. -/
inductive ChildState where
  | running
  /-- It waits for room for the rest of what it writes. -/
  | stuck (stream : Stream) (rest : Bytes)
  /-- It has ended, with a status unless it was killed. -/
  | ended (status : Option Nat)
  deriving Repr, DecidableEq

/-- A command on this machine. -/
structure ChildRun where
  /-- How many bytes a pipe holds. -/
  capacity : Nat
  child : ChildState := .running
  out : Outlet := {}
  err : Outlet := {}
  /-- Whether the child was told to die. -/
  killed : Bool := false
  /-- The status of the command once it is done with. -/
  result : Option (Option Nat) := none
  deriving Repr, DecidableEq

namespace ChildRun

/-- A step of the child. -/
inductive Deed where
  | write (stream : Stream) (data : Bytes)
  /-- It goes on with what it was writing, as there is room again. -/
  | resume
  | close (stream : Stream)
  | exit (status : Nat)
  /-- It dies, as it was told to. -/
  | die
  deriving Repr, DecidableEq

/-- A step of what runs the child. -/
inductive Chore where
  /-- It copies what a pipe holds, which is accepted or not. -/
  | copy (stream : Stream) (accepted : Bool)
  /-- It notices that a stream is closed. -/
  | endCopy (stream : Stream)
  | kill
  /-- It takes up the status of a child that has ended. -/
  | reap
  deriving Repr, DecidableEq

/-- A step of a command. -/
inductive Step where
  | child (deed : Deed)
  | runner (chore : Chore)
  | interrupt
  deriving Repr, DecidableEq

/-- One of the two streams. -/
def outlet (r : ChildRun) : Stream → Outlet
  | .out => r.out
  | .err => r.err

/-- Changes one of the two streams. -/
def setOutlet (r : ChildRun) (stream : Stream) (o : Outlet) : ChildRun :=
  match stream with
  | .out => { r with out := o }
  | .err => { r with err := o }

/-- Whether the child goes on. -/
def isAlive (r : ChildRun) : Bool :=
  match r.child with
  | .ended _ => false
  | _ => true

/-- Puts as much into a pipe as there is room for.  The child is stuck with the rest. -/
def fill (r : ChildRun) (stream : Stream) (data : Bytes) : ChildRun :=
  let o := r.outlet stream
  let room := r.capacity - o.waiting.length
  let r := r.setOutlet stream { o with waiting := o.waiting ++ data.take room }
  { r with child := if data.length ≤ room then .running else .stuck stream (data.drop room) }

/-- The child ends, and with it both streams. -/
def endChild (r : ChildRun) (status : Option Nat) : ChildRun :=
  { r with
    child := .ended status
    out := { r.out with isOpen := false }
    err := { r.err with isOpen := false } }

/-- What a step of the child leads to. -/
def afterDeed (r : ChildRun) : Deed → Option ChildRun
  | .write stream data =>
    if r.child = .running ∧ (r.outlet stream).isOpen then some (r.fill stream data) else none
  | .resume =>
    match r.child with
    | .stuck stream rest =>
      if (r.outlet stream).waiting.length < r.capacity then some (r.fill stream rest) else none
    | _ => none
  | .close stream =>
    if r.child = .running then some (r.setOutlet stream { r.outlet stream with isOpen := false })
    else none
  | .exit status => if r.child = .running then some (r.endChild (some status)) else none
  | .die => if r.killed ∧ r.isAlive then some (r.endChild none) else none

/-- Whether both copies have come to an end. -/
def copiesEnded (r : ChildRun) : Bool := r.out.copying ≠ .going && r.err.copying ≠ .going

/-- Whether a copy was refused. -/
def copyFailed (r : ChildRun) : Bool := r.out.copying = .failed || r.err.copying = .failed

/-- What a step of the runner leads to. -/
def afterChore (r : ChildRun) : Chore → Option ChildRun
  | .copy stream accepted =>
    let o := r.outlet stream
    if o.copying = .going ∧ o.waiting ≠ [] then
      some (r.setOutlet stream
        (if accepted then { o with waiting := [], copied := o.copied ++ o.waiting }
        else { o with waiting := [], copying := .failed }))
    else none
  | .endCopy stream =>
    let o := r.outlet stream
    if o.copying = .going ∧ o.waiting = [] ∧ ! o.isOpen then
      some (r.setOutlet stream { o with copying := .ended })
    else none
  | .kill =>
    if r.copiesEnded ∧ r.copyFailed ∧ ! r.killed then some { r with killed := true } else none
  | .reap =>
    if r.copiesEnded ∧ (r.copyFailed → r.killed) then
      match r.child with
      | .ended status => some { r with result := some status }
      | _ => none
    else none

/-- What a step leads to, if it can be taken.  Nothing happens to a command that is done with. -/
def next? (r : ChildRun) (s : Step) : Option ChildRun :=
  if r.result.isSome then none
  else match s with
    | .child deed => r.afterDeed deed
    | .runner chore => r.afterChore chore
    | .interrupt => some { r.endChild none with killed := true, result := some none }

/-- What a list of steps leads to, if all of them can be taken. -/
def run? (r : ChildRun) : List Step → Option ChildRun
  | [] => some r
  | s :: later => (r.next? s).bind (·.run? later)

/-- What a command over pipes of some capacity can come to. -/
inductive Reachable (capacity : Nat) : ChildRun → Prop where
  | start : Reachable capacity { capacity }
  | step {r r' : ChildRun} {s : Step} :
    Reachable capacity r → r.next? s = some r' → Reachable capacity r'

end ChildRun

end Flotilla.Shell
