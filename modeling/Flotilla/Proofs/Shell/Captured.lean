import Flotilla.Proofs.Shell.Accounts
import Flotilla.Proofs.Shell.Recording

/-!
# What is captured of lines

`captured_of_calls` says what a line has left in the capture, after all lines that came later: of
each host, statement after statement, what the sinks of its commands have accepted.
-/

namespace Flotilla.Shell

open Line (Statement Segment parse)

/-- A statement as it was wired, and what happened then. -/
structure Passage where
  started : Run
  events : List Event

/-- The statement at its end. -/
def Passage.result (p : Passage) : Run := p.started.steps p.events

/-- The course in which every statement goes through the same events before its tasks end. -/
def Course.through (events : List Event) : Course where
  drive _ r := events ++ (List.range (r.steps events).tasks.length).flatMap Run.ending
  ends _ r := by
    rw [Run.steps, List.foldl_append]
    exact (r.steps events).isFinished_of_endings

namespace Run

/-- Wiring shows nothing, and opens entries without output. -/
structure Silent (r s : Run) : Prop where
  shown : s.shown = r.shown
  output : s.capture.output = r.capture.output

theorem Silent.trans {r s u : Run} (first : Silent r s) (second : Silent s u) : Silent r u :=
  ⟨second.shown.trans first.shown, second.output.trans first.output⟩

theorem silent_openEntry (line : String) (r : Run) (t : Task) : Silent r (openEntry line r t) := by
  unfold openEntry
  repeat' split
  · exact ⟨rfl, Capture.output_begin ..⟩
  all_goals exact ⟨rfl, rfl⟩

theorem silent_foldl_openEntry (line : String) (r : Run) (tasks : List Task) :
    Silent r (tasks.foldl (openEntry line) r) := by
  induction tasks generalizing r with
  | nil => exact ⟨rfl, rfl⟩
  | cons t tasks ih => exact (silent_openEntry line r t).trans (ih _)

theorem silent_addSegment (hosts : List String) (line : String) (piped : Bool) (r : Run)
    (g : Segment) : Silent r (addSegment hosts line piped r g) := by
  have joined : Silent r (r.joinReaders piped (readerCount hosts g)).1 := by
    unfold joinReaders
    split <;> exact ⟨rfl, rfl⟩
  rw [addSegment_eq]
  refine .trans ?_ (silent_foldl_openEntry line _ _)
  exact ⟨joined.shown, joined.output⟩

theorem silent_addSegments (hosts : List String) (line : String) (piped : Bool) (r : Run)
    (gs : List Segment) : Silent r (addSegments hosts line piped r gs) := by
  induction gs generalizing piped r with
  | nil => exact ⟨rfl, rfl⟩
  | cons g gs ih => exact (silent_addSegment hosts line piped r g).trans (ih g.piped _)

theorem silent_start (r : Run) (hosts : List String) (line : String) (s : Statement) :
    Silent r (r.start hosts line s) := by
  have wired := silent_addSegments hosts line false { r with tasks := [], pipes := [], live := [] }
    s.segments
  unfold start
  dsimp only
  split
  · exact ⟨wired.shown, wired.output⟩
  · exact ⟨wired.shown, wired.output⟩

end Run

namespace Executor

variable {now : Moment} {sequence : Option Nat} {line : String}

/-- How statements go when all of them run. -/
def passages (drive : Drive) (now : Moment) (sequence : Option Nat) (line : String) (x : Executor)
    (input : Option LiveInput) : List Statement → List Passage
  | [] => []
  | s :: later =>
    let started := (x.ready now sequence input).start x.hosts line s
    let p : Passage := ⟨started, drive x.shown.length started⟩
    p :: passages drive now sequence line (x.settle p.result) p.result.input later

theorem seats_passages (drive : Drive) (x : Executor) (input : Option LiveInput)
    (ss : List Statement) : (passages drive now sequence line x input ss).map (·.started.seats) =
      ss.map (statementSeats x.hosts) := by
  induction ss generalizing x input with
  | nil => rfl
  | cons s later ih =>
    have wired := Run.start_wired (x.ready now sequence input) x.hosts line s
    simp only [passages, List.map_cons, ih]
    exact congrArg (· :: _) (wired.seats.trans (List.nil_append _))

theorem shown_runAll (drive : Drive) (x : Executor) (input : Option LiveInput)
    (ss : List Statement) : (runAll drive now sequence line x input ss).1.shown =
      x.shown ++ (passages drive now sequence line x input ss).map (·.result.shown) := by
  induction ss generalizing x input with
  | nil => exact (List.append_nil _).symm
  | cons s later ih =>
    simp only [runAll, passages, List.map_cons, ih]
    exact List.append_assoc x.shown _ _

/-- The output that statements leave under a number. -/
theorem output_runAll (drive : Drive) (n : Nat) (host : String) (x : Executor)
    (input : Option LiveInput) (ss : List Statement) : ∃ parts : List (List Bytes),
      List.Forall₂ (fun (p : Passage) chunks => Interleaves (p.started.sunkOf host p.events) chunks)
        (passages drive now (some n) line x input ss) parts ∧
      (runAll drive now (some n) line x input ss).1.capture.output n host =
        x.capture.output n host ++ parts.flatten.flatten := by
  induction ss generalizing x input with
  | nil => exact ⟨[], .nil, (List.append_nil _).symm⟩
  | cons s later ih =>
    have wired := Run.start_wired (x.ready now (some n) input) x.hosts line s
    have silent := Run.silent_start (x.ready now (some n) input) x.hosts line s
    unfold passages runAll runStatement
    dsimp only
    generalize (x.ready now (some n) input).start x.hosts line s = started at wired silent ⊢
    obtain ⟨chunks, woven, grown⟩ :=
      Run.output_steps wired.sequence host (drive x.shown.length started)
    rw [silent.output] at grown
    rw [← Run.sunkOf_eq silent.shown] at woven
    obtain ⟨parts, all, rest⟩ := ih (x.settle (started.steps (drive x.shown.length started)))
      (started.steps (drive x.shown.length started)).input
    refine ⟨chunks :: parts, .cons woven all, ?_⟩
    rw [rest]
    change (started.steps (drive x.shown.length started)).capture.output n host ++ _ = _
    rw [grown, List.flatten_cons, List.flatten_append, List.append_assoc]
    rfl

theorem output_runAll_other (drive : Drive) {n : Nat} (other : sequence ≠ some n) (host : String)
    (x : Executor) (input : Option LiveInput) (ss : List Statement) :
    (runAll drive now sequence line x input ss).1.capture.output n host =
      x.capture.output n host := by
  induction ss generalizing x input with
  | nil => rfl
  | cons s later ih =>
    have wired := Run.start_wired (x.ready now sequence input) x.hosts line s
    have silent := Run.silent_start (x.ready now sequence input) x.hosts line s
    unfold runAll runStatement
    dsimp only
    rw [ih]
    refine (Run.output_steps_other ?_ host _).trans ?_
    · rwa [wired.sequence]
    · rw [silent.output]
      rfl

/-- A line leaves alone what earlier lines have left. -/
theorem output_execution (x : Executor) (c : Call) {n : Nat} (old : n ≤ x.sequence)
    (host : String) : (c.execution x).executor.capture.output n host = x.capture.output n host := by
  unfold Call.execution
  rw [execute_eq]
  dsimp only
  rw [noted_eq]
  refine output_runAll_other c.course.drive ?_ host _ c.input _
  split
  · simp only [ne_eq, Option.some.injEq]
    omega
  · simp

theorem sequence_execution (x : Executor) (c : Call) :
    x.sequence ≤ (c.execution x).executor.sequence := by
  cases counted : counts x.mark c.line with
  | false => exact Nat.le_of_eq (execution_of_not_counts x counted).1.symm
  | true =>
    rw [(execution_of_counts x counted).1]
    omega

theorem output_after (x : Executor) (later : List Call) {n : Nat} (old : n ≤ x.sequence)
    (host : String) : (x.after later).capture.output n host = x.capture.output n host := by
  induction later generalizing x with
  | nil => rfl
  | cons c later ih =>
    rw [← output_execution x c old host]
    exact ih _ (Nat.le_trans old (sequence_execution x c))

/-- A line that is accepted with a number counts, and its number is the next one. -/
theorem number_of_result {x : Executor} {c : Call} {n : Nat} {leaving : Bool}
    (accepted : (c.execution x).result = .ok ⟨some n, leaving⟩) :
    counts x.mark c.line ∧ n = x.sequence + 1 := by
  unfold Call.execution at accepted
  rw [execute_eq] at accepted
  dsimp only at accepted
  cases parsed : parse x.mark c.line with
  | error e => simp [parsed, Except.map] at accepted
  | ok ss =>
    cases counted : counts x.mark c.line with
    | false => simp [parsed, counted, Except.map] at accepted
    | true =>
      simp only [parsed, counted, Except.map, if_true, Except.ok.injEq, Outcome.mk.injEq,
        Option.some.injEq] at accepted
      exact ⟨rfl, accepted.1.symm⟩

theorem sequence_passages {drive : Drive} {x : Executor} {input : Option LiveInput}
    {ss : List Statement} {p : Passage} (member : p ∈ passages drive now sequence line x input ss) :
    p.started.sequence = sequence := by
  induction ss generalizing x input with
  | nil => cases member
  | cons s later ih =>
    rcases List.mem_cons.mp member with rfl | rest
    · exact (Run.start_wired (x.ready now sequence input) x.hosts line s).sequence
    · exact ih rest

/-- A line that is accepted with number `n`, whatever its statements do, and whatever lines come
before it and after it: (1) its statements run as they are wired, a command at every host or here;
(2) in the end the output that is captured under `n` of a host is, statement after statement, what
the sinks of that host's commands have accepted, the chunks of each command in its order, where
commands that run here are those of `localhost`; (3) whenever a command writes a chunk, that part is
captured which the sink accepts, which is all for a pipe that carries and nothing for one that does
not. -/
theorem captured_of_calls (hosts : List String) (mark : Char) (logPath : Option String)
    (files : Files) (past : List Call) (c : Call) (later : List Call) (n : Nat) (leaving : Bool)
    (accepted : (c.execution (after { hosts, mark, logPath, files } past)).result =
      .ok ⟨some n, leaving⟩) :
    let x := after { hosts, mark, logPath, files } past
    let ss := upToExit (statements mark c.line)
    let ps := passages c.course.drive c.now (some n) c.line
      { x.noted c.now c.line with sequence := n } c.input ss
    (ps.map (·.started.seats) = ss.map (statementSeats hosts) ∧
      (c.execution x).executor.shown = x.shown ++ ps.map (·.result.shown)) ∧
    (∀ host, ∃ parts : List (List Bytes),
      List.Forall₂ (fun (p : Passage) chunks =>
        Interleaves (p.started.sunkOf host p.events) chunks) ps parts ∧
      (x.after (c :: later)).capture.output n host = parts.flatten.flatten) ∧
    ∀ p ∈ ps, ∀ (events : List Event) (i : Nat) (data : Bytes) (a : Nat) (host : String),
      let r := p.started.steps events
      (r.step (.write i data a)).capture.output n host = r.capture.output n host ++
        (r.command? i).elim [] fun t =>
          if t.isOf host then
            t.sink.elim (data.take a) fun k => if (r.pipes[k]?).any (·.carries) then data else []
          else [] := by
  have kept := kept_after hosts mark logPath files past
  dsimp only
  generalize after { hosts, mark, logPath, files } past = x at accepted kept ⊢
  obtain ⟨counted, number⟩ := number_of_result accepted
  have outcome : c.execution x = _ := execute_eq c.course x c.now c.line c.input
  rw [counted, if_pos rfl, if_pos rfl, ← number, kept.mark_eq] at outcome
  have desk : ({ x.noted c.now c.line with sequence := n } : Executor).hosts = hosts := by
    rw [noted_eq]
    exact kept.hosts_eq
  refine ⟨⟨?_, ?_⟩, fun host => ?_, fun p member events i data a host => ?_⟩
  · rw [seats_passages, desk]
  · rw [outcome, shown_runAll, noted_eq]
  · obtain ⟨parts, woven, left⟩ := output_runAll c.course.drive n host
      { x.noted c.now c.line with sequence := n } c.input (upToExit (statements mark c.line))
    -- The number has not been given before, so nothing stands under it yet.
    have fresh : x.capture.output n host = [] := by
      refine Capture.output_eq_nil (Option.eq_none_iff_forall_ne_some.mpr fun old here => ?_)
      obtain ⟨-, d, found, -⟩ := (kept.commands n host old).mp here
      rw [number, kept.sequence_eq] at found
      simp at found
    refine ⟨parts, woven, ?_⟩
    change ((c.execution x).executor.after later).capture.output n host = _
    have old : n ≤ (c.execution x).executor.sequence :=
      Nat.le_of_eq (number.trans (execution_of_counts x counted).1.symm)
    rw [output_after _ later old, outcome, left, noted_eq]
    exact congrArg (· ++ _) fresh
  · have numbered : (p.started.steps events).sequence = some n := by
      rw [Run.sequence_steps]
      exact sequence_passages member
    exact Run.output_write numbered i data a host

/-- Two hosts write in turn, the first of them a chunk that is shown in part and a rest.  In the
second statement both write into a pipe, which takes the whole chunk. -/
theorem captured_of_calls_uptime :
    let x : Executor := { hosts := ["web1", "web2"], mark := '!', logPath := none, files := {} }
    let c : Call := {
      course := .through [.write 0 (utf8 "up 1\n") 2, .write 1 (utf8 "up 9\n") 5,
        .write 0 (utf8 " 1\n") 3]
      now := ⟨"2024-05-01", "12:00:00", "+00:00"⟩
      line := "uptime; uptime | !wc"
      input := none }
    (c.execution x).result = .ok ⟨some 1, false⟩ ∧
    (∀ host, ∃ parts : List (List Bytes),
      List.Forall₂ (fun (p : Passage) chunks =>
          Interleaves (p.started.sunkOf host p.events) chunks)
        (passages c.course.drive c.now (some 1) c.line
          { x.noted c.now c.line with sequence := 1 } none
          (upToExit (statements '!' c.line))) parts ∧
      (x.after [c, c]).capture.output 1 host = parts.flatten.flatten) ∧
    (x.after [c, c]).capture.output 1 "web1" = utf8 "up 1\nup 1\n 1\n" := by
  intro x c
  have outcome : (c.execution x).result.toOption = some ⟨some 1, false⟩ := by decide +kernel
  have accepted : (c.execution x).result = .ok ⟨some 1, false⟩ := by
    cases same : (c.execution x).result <;> simp_all [Except.toOption]
  obtain ⟨-, captured, -⟩ :=
    captured_of_calls ["web1", "web2"] '!' none {} [] c [c] 1 false accepted
  exact ⟨accepted, captured, by decide +kernel⟩

end Executor

end Flotilla.Shell
