import Flotilla.Rehearsal.Host
import Flotilla.Rehearsal.Local
import Flotilla.Shell.Executor

/-!
# Rehearsing a statement

A rehearsal lets the tasks of a statement perform their scripts in the order of the segments, each
as far as its input allows.  When nothing moves any more the user may interrupt.
-/

namespace Flotilla.Rehearsal

open Shell (Run Task Event)

/-- How a rehearsal goes. -/
structure Plan where
  env : Environment := {}
  /-- Whether the user interrupts when nothing moves any more. -/
  interrupts : Bool := false
  /-- The rests, in milliseconds, that last until the user interrupts. -/
  patience : Nat := 0

/-- A rehearsal on its way: the run, the events so far (the last one first), and for each task how
many moves it made and the input it read. -/
structure Progress where
  run : Run
  events : List Event := []
  moved : List Nat
  eaten : List (List Bytes)
  /-- The tasks that rest until they are interrupted. -/
  resting : List Nat := []

namespace Progress

/-- Lets an event happen. -/
def act (r : Progress) (e : Event) : Progress :=
  { r with run := r.run.step e, events := e :: r.events }

/-- Lets events happen. -/
def acts (r : Progress) (es : List Event) : Progress := es.foldl act r

/-- Carries all that the pipe in front of a task holds. -/
def supply (r : Progress) (t : Task) : Progress :=
  match t.source with
  | .pipe k _ =>
    let n := match r.run.pipes[k]? with
      | some p => p.chunks.length + 1
      | none => 0
    r.acts (List.replicate n (.carry k))
  | _ => r

/-- The script of a task. -/
def script (plan : Plan) (t : Task) : Script :=
  match t.venue with
  | .hosts => hostScript (t.command.length + 1) t.host t.command
  | _ => localScript plan.env t.command

/-- The scene that task `i` finds. -/
def scene (r : Progress) (i : Nat) (t : Task) : Scene :=
  let reader := (r.run.reader? t).getD { fed := false }
  { input := r.eaten.getD i [] ++ reader.waiting
    isComplete := ! reader.fed
    interrupted := r.run.interrupted
    files := r.run.files }

/-- Whether task `i` may write a chunk. -/
def mayWrite (r : Progress) (t : Task) : Bool :=
  match t.sink with
  | some k => match r.run.pipes[k]? with
    | some p => p.carries
    | none => false
  | none => true

/-- Counts a move of task `i`. -/
def count (r : Progress) (i : Nat) : Progress := { r with moved := r.moved.modify i (· + 1) }

/-- Lets task `i` make moves.  The answer tells whether it made all of them; a host stops when its
output is refused. -/
def make (plan : Plan) (i : Nat) (t : Task) (r : Progress) : List Move → Progress × Bool
  | [] => (r, true)
  | m :: rest =>
    match m with
    | .write data =>
      if data = [] ∨ r.mayWrite t then
        make plan i t ((r.count i).act (.write i data data.length)) rest
      else if t.venue = .hosts then (r.act (.finish i (.error (.io .brokenPipe))), false)
      else make plan i t (r.count i) rest
    | .complain data => make plan i t ((r.count i).act (.complain i data)) rest
    | .flush stream => make plan i t ((r.count i).act (.flush i stream)) rest
    | .shutdown stream => make plan i t ((r.count i).act (.shutdown i stream)) rest
    | .touch files => make plan i t ((r.count i).act (.touch files)) rest
    | .read =>
      let chunk := ((r.run.reader? t).bind (·.waiting.head?)).toList
      let r := { r with eaten := r.eaten.modify i (· ++ chunk) }
      make plan i t ((r.count i).act (.read i)) rest
    | .rest time =>
      if plan.interrupts ∧ plan.patience ≤ time ∧ ! r.run.interrupted then
        ({ r with resting := i :: r.resting }, false)
      else make plan i t (r.count i) rest

/-- Lets task `i` perform as far as it can. -/
def perform (plan : Plan) (r : Progress) (i : Nat) : Progress :=
  match r.run.tasks[i]? with
  | none => r
  | some t =>
    if ! t.running ∨ i ∈ r.resting then r
    else match t.venue with
      | .shell _ => r.act (.answer i)
      | _ =>
        let r := r.supply t
        let p := script plan t (r.scene i t)
        let (r, all) := make plan i t r (p.moves.drop (r.moved.getD i 0))
        match all, p.ending with
        | true, .ends result => r.act (.finish i result)
        | _, _ => r

/-- Lets every task perform in turn. -/
def round (plan : Plan) (r : Progress) : Progress :=
  (List.range r.run.tasks.length).foldl (perform plan) r

/-- Lets every task perform in turn until nothing moves any more. -/
def rounds (plan : Plan) (fuel : Nat) (r : Progress) : Progress :=
  match fuel with
  | 0 => r
  | fuel + 1 =>
    let next := r.round plan
    let running (r : Progress) : Nat := r.run.tasks.countP (·.running)
    if running next = running r ∨ running next = 0 then next else rounds plan fuel next

/-- Kills a task on this machine that still runs. -/
def kill (r : Progress) (i : Nat) : Progress :=
  match r.run.tasks[i]? with
  | some t =>
    if t.running ∧ t.venue = .here then
      r.acts [.shutdown i .out, .shutdown i .err, .finish i (.ok none)]
    else r
  | none => r

/-- Interrupts the statement: commands on this machine are killed, and hosts go on knowing it. -/
def interrupt (r : Progress) : Progress :=
  (List.range r.run.tasks.length).foldl kill (r.act .interrupt)

end Progress

/-- How a wired statement goes.  The live input comes first, as far as there is any. -/
def drive (plan : Plan) : Shell.Drive := fun _ run =>
  let n := run.tasks.length
  let start : Progress := { run, moved := List.replicate n 0, eaten := List.replicate n [] }
  let lines := match run.input with
    | some input => input.lines.length + 1
    | none => 0
  let r := (start.acts (List.replicate lines .takeLine)).rounds plan (n + 1)
  let r := if plan.interrupts ∧ ! r.run.isFinished then r.interrupt.rounds plan (n + 1) else r
  r.events.reverse

end Flotilla.Rehearsal
