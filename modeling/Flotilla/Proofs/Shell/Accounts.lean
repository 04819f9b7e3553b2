import Flotilla.Proofs.Line.Lex
import Flotilla.Proofs.Shell.Wiring
import Flotilla.Shell.Executor

/-!
# Keeping accounts of lines

The counter of an executor, the statements that it runs and the entries that it records all follow
from the lines alone, whatever the hosts do and in whatever order their tasks get on.
`accounts_of_calls` states this of every list of calls.
-/

namespace Flotilla.Shell

open Line (Statement Segment Venue parse)

/-- Whether a built-in of the statement asks the shell to leave. -/
def leaves (s : Statement) : Bool := s.segments.any (·.venue = .shell .exit)

/-- The statements up to the first one that asks the shell to leave, and with that one. -/
def upToExit : List Statement → List Statement
  | [] => []
  | s :: later => if leaves s then [s] else s :: upToExit later

/-- The hosts of which the output of a segment is recorded. -/
def recordedHosts (hosts : List String) (g : Segment) : List String :=
  match g.venue with
  | .hosts => hosts
  | .here => [localName]
  | .shell _ => []

/-- The hosts of which something is recorded when statements run. -/
def recordedOf (hosts : List String) (ss : List Statement) : List String :=
  ss.flatMap fun s => s.segments.flatMap (recordedHosts hosts)

theorem recordedAt_segmentSeats (hosts : List String) (g : Segment) :
    recordedAt (segmentSeats hosts g) = recordedHosts hosts g := by
  unfold recordedAt segmentSeats recordedHosts Run.hostsOf
  cases g.venue <;> simp [isRecordedAt, List.filter_map, Function.comp_def]

theorem recordedAt_statementSeats (hosts : List String) (s : Statement) :
    recordedAt (statementSeats hosts s) = s.segments.flatMap (recordedHosts hosts) := by
  unfold statementSeats
  induction s.segments with
  | nil => rfl
  | cons g gs ih =>
    rw [List.flatMap_cons, recordedAt_append, recordedAt_segmentSeats, ih, List.flatMap_cons]

theorem exists_exit_seat (hosts : List String) (s : Statement) :
    (∃ host, (Venue.shell .exit, host) ∈ statementSeats hosts s) ↔ leaves s := by
  simp only [statementSeats, List.mem_flatMap, segmentSeats, List.mem_map, Prod.mk.injEq, leaves,
    List.any_eq_true, decide_eq_true_eq]
  constructor
  · rintro ⟨-, g, member, -, -, venue, -⟩
    exact ⟨g, member, venue⟩
  · rintro ⟨g, member, venue⟩
    exact ⟨localName, g, member, localName, by simp [Run.hostsOf, venue], venue, rfl⟩

/-- How statements go when each of them comes to its end. -/
structure Course where
  drive : Drive
  ends : ∀ (before : Nat) (r : Run), (r.steps (drive before r)).isFinished

/-- The course in which all tasks end in turn and say nothing. -/
instance : Inhabited Course where
  default := ⟨fun _ r => (List.range r.tasks.length).flatMap Run.ending,
    fun _ r => r.isFinished_of_endings⟩

namespace Executor

variable {now : Moment} {sequence : Option Nat} {line : String}

/-- What statements that have come to their ends leave in the capture. -/
structure Left (x : Executor) (sequence : Option Nat) (line : String) (ss : List Statement)
    (c : Capture) : Prop where
  unnumbered : sequence = none → c = x.capture
  commands : ∀ n, sequence = some n → ∀ m host, c.command? m host =
    if m = n ∧ host ∈ recordedOf x.hosts ss then
      some ((x.capture.command? m host).getD line)
    else x.capture.command? m host

theorem start_sound (x : Executor) (input : Option LiveInput) (s : Statement) :
    ((x.ready now sequence input).start x.hosts line s).Sound := by
  have wired := Run.start_wired (x.ready now sequence input) x.hosts line s
  constructor
  · intro n numbered t member command
    have place : t.host ∈ recordedAt (statementSeats x.hosts s) := by
      have seat : Run.seat t ∈ statementSeats x.hosts s := by
        have all := wired.seats
        simp only [Run.seats, List.map_nil, List.nil_append] at all
        rw [← all]
        exact List.mem_map_of_mem member
      exact mem_recordedAt.mpr ⟨t.venue, seat, command⟩
    rw [wired.commands n (wired.sequence ▸ numbered), if_pos ⟨rfl, place⟩]
    rfl
  · have running := wired.running (by simp)
    constructor
    · intro leaving
      rw [wired.leaving] at leaving
      cases leaving
    · rintro ⟨t, member, -, halted⟩
      rw [running t member] at halted
      cases halted

theorem runStatement_left (now : Moment) (sequence : Option Nat) (line : String) (course : Course)
    (x : Executor) (input : Option LiveInput) (s : Statement) :
    (x.runStatement course.drive now sequence line input s).leaving = leaves s ∧
      x.Left sequence line [s]
        (x.runStatement course.drive now sequence line input s).capture := by
  have wired := Run.start_wired (x.ready now sequence input) x.hosts line s
  unfold runStatement
  dsimp only
  generalize started : (x.ready now sequence input).start x.hosts line s = r at wired ⊢
  have before : r.Sound := started ▸ start_sound x input s
  obtain ⟨sound, keeps⟩ := Run.steps_sound (course.drive x.shown.length r) before
  have seats : (r.steps (course.drive x.shown.length r)).seats = statementSeats x.hosts s := by
    rw [keeps.seats, wired.seats]
    rfl
  refine ⟨?_, ?_, ?_⟩
  · have asked := sound.leaving_iff (course.ends x.shown.length r)
    rw [seats, exists_exit_seat] at asked
    exact Bool.eq_iff_iff.mpr asked
  · intro none
    rw [keeps.unnumbered (wired.sequence.trans none), wired.unnumbered none]
    rfl
  · intro n numbered m host
    have recorded : recordedAt (statementSeats x.hosts s) = recordedOf x.hosts [s] := by
      rw [recordedAt_statementSeats]
      simp [recordedOf]
    rw [keeps.commands, wired.commands n numbered, recorded]
    rfl

/-- Runs all of some statements. -/
def runAll (drive : Drive) (now : Moment) (sequence : Option Nat) (line : String) (x : Executor)
    (input : Option LiveInput) : List Statement → Executor × Option LiveInput
  | [] => (x, input)
  | s :: later =>
    let r := x.runStatement drive now sequence line input s
    runAll drive now sequence line (x.settle r) r.input later

/-- The statements that run are those up to the first one that asks the shell to leave. -/
theorem runStatements_eq (course : Course) (x : Executor) (input : Option LiveInput)
    (ss : List Statement) :
    runStatements course.drive now sequence line x input ss =
      ((runAll course.drive now sequence line x input (upToExit ss)).1,
        (runAll course.drive now sequence line x input (upToExit ss)).2, ss.any leaves) := by
  induction ss generalizing x input with
  | nil => rfl
  | cons s later ih =>
    have asked := (runStatement_left now sequence line course x input s).1
    unfold runStatements upToExit
    dsimp only
    rw [asked, ih, List.any_cons]
    cases leaves s <;> rfl

theorem length_shown_runAll (drive : Drive) (x : Executor) (input : Option LiveInput)
    (ss : List Statement) :
    (runAll drive now sequence line x input ss).1.shown.length = x.shown.length + ss.length := by
  induction ss generalizing x input with
  | nil => rfl
  | cons s later ih =>
    unfold runAll
    dsimp only
    rw [ih, settle, List.length_append, List.length_singleton, List.length_cons]
    omega

/-- Statements change nothing of an executor that tells how lines are read and numbered. -/
structure SameDesk (x y : Executor) : Prop where
  hosts : y.hosts = x.hosts
  mark : y.mark = x.mark
  sequence : y.sequence = x.sequence

theorem runAll_sameDesk (drive : Drive) (x : Executor) (input : Option LiveInput)
    (ss : List Statement) : SameDesk x (runAll drive now sequence line x input ss).1 := by
  induction ss generalizing x input with
  | nil => exact ⟨rfl, rfl, rfl⟩
  | cons s later ih =>
    have rest := ih (x.settle (x.runStatement drive now sequence line input s))
      (x.runStatement drive now sequence line input s).input
    exact ⟨rest.hosts, rest.mark, rest.sequence⟩

theorem runAll_left (course : Course) (x : Executor) (input : Option LiveInput)
    (ss : List Statement) :
    x.Left sequence line ss (runAll course.drive now sequence line x input ss).1.capture := by
  induction ss generalizing x input with
  | nil => exact ⟨fun _ => rfl, fun n _ m host => by simp [runAll, recordedOf]⟩
  | cons s later ih =>
    obtain ⟨-, here⟩ := runStatement_left now sequence line course x input s
    unfold runAll
    dsimp only
    generalize x.runStatement course.drive now sequence line input s = r at here ⊢
    have rest := ih (x.settle r) r.input
    refine ⟨fun none => ?_, fun n numbered m host => ?_⟩
    · rw [rest.unnumbered none]
      exact here.unnumbered none
    · have first : (x.settle r).capture.command? m host = _ := here.commands n numbered m host
      rw [rest.commands n numbered, first, ite_some_getD]
      have together : recordedOf x.hosts (s :: later) =
          recordedOf x.hosts [s] ++ recordedOf x.hosts later := by
        simp [recordedOf]
      simp only [together, List.mem_append, ← and_or_left]
      rfl

/-- The statements of a line.  One that cannot be read has none. -/
def statements (mark : Char) (line : String) : List Statement :=
  match parse mark line with
  | .ok ss => ss
  | .error _ => []

/-- Whether a line has a segment other than a built-in. -/
def counts (mark : Char) (line : String) : Bool :=
  (statements mark line).any fun s => s.segments.any (isRecordedAt ·.venue)

theorem consumesSequence_eq (ss : List Statement) :
    consumesSequence ss = ss.any fun s => s.segments.any (isRecordedAt ·.venue) := by
  have statement : ∀ s : Statement, (! s.isBuiltinOnly) = s.segments.any (isRecordedAt ·.venue) := by
    intro s
    unfold Statement.isBuiltinOnly
    rw [List.not_all_eq_any_not]
    congr 1
    funext ⟨venue, _, _, _⟩
    cases venue <;> rfl
  unfold consumesSequence
  rw [List.not_all_eq_any_not]
  exact congrArg (ss.any ·) (funext statement)

/-- An executor that has noted a line in its log.  A blank line is not noted. -/
def noted (x : Executor) (now : Moment) (line : String) : Executor :=
  if Text.trim line.toList = [] then x else x.logLine now line

theorem noted_eq (x : Executor) (now : Moment) (line : String) :
    x.noted now line = { x with files := (x.noted now line).files } := by
  unfold noted logLine
  repeat' split
  all_goals rfl

/-- What executing a line amounts to. -/
theorem execute_eq (course : Course) (x : Executor) (now : Moment) (line : String)
    (input : Option LiveInput) :
    let n := x.sequence + if counts x.mark line then 1 else 0
    let number := if counts x.mark line then some n else none
    let outcome := runAll course.drive now number line { x.noted now line with sequence := n } input
      (upToExit (statements x.mark line))
    x.execute course.drive now line input = ⟨outcome.1, outcome.2,
      (parse x.mark line).map fun ss => { sequence := number, leaving := ss.any leaves }⟩ := by
  dsimp only
  rw [noted_eq]
  unfold execute
  split
  next blank =>
    have noted : (x.noted now line).files = x.files := by rw [Executor.noted, if_pos blank]
    have parsed := Line.parse_of_trim_eq_nil x.mark blank
    have counted : counts x.mark line = false := by simp [counts, statements, parsed]
    have none : statements x.mark line = [] := by rw [statements, parsed]
    simp [counted, none, parsed, noted, upToExit, runAll, Except.map]
  next text =>
    have noted : x.logLine now line = { x with files := (x.noted now line).files } := by
      rw [← noted_eq, Executor.noted, if_neg text]
    have mark : (x.logLine now line).mark = x.mark := by rw [noted]
    dsimp only
    rw [mark]
    cases parsed : parse x.mark line with
    | error e =>
      have counted : counts x.mark line = false := by simp [counts, statements, parsed]
      have none : statements x.mark line = [] := by rw [statements, parsed]
      simp [counted, none, noted, upToExit, runAll, Except.map]
    | ok ss =>
      have all : statements x.mark line = ss := by rw [statements, parsed]
      have counted : counts x.mark line = consumesSequence ss := by
        rw [consumesSequence_eq, counts, all]
      rw [all, counted, noted]
      dsimp only
      rw [runStatements_eq]
      cases consumesSequence ss <;> rfl

end Executor

structure Call where
  course : Course
  now : Moment
  line : String
  input : Option LiveInput

def Call.execution (c : Call) (x : Executor) : Executor.Execution :=
  x.execute c.course.drive c.now c.line c.input

namespace Executor

def after (x : Executor) (calls : List Call) : Executor :=
  calls.foldl (fun x c => (c.execution x).executor) x

/-- The calls with lines that count. -/
def numbered (mark : Char) (calls : List Call) : List Call :=
  calls.filter (counts mark ·.line)

/-- What an executor knows of the calls so far. -/
structure Kept (hosts : List String) (mark : Char) (calls : List Call) (x : Executor) : Prop where
  hosts_eq : x.hosts = hosts
  mark_eq : x.mark = mark
  sequence_eq : x.sequence = (numbered mark calls).length
  commands : ∀ n host command, x.capture.command? n host = some command ↔
    0 < n ∧ ∃ d, (numbered mark calls)[n - 1]? = some d ∧ d.line = command ∧
      host ∈ recordedOf hosts (upToExit (statements mark d.line))

variable {hosts : List String} {mark : Char} {calls : List Call} {x : Executor}

theorem numbered_concat_of_counts {c : Call} (counted : counts mark c.line) :
    numbered mark (calls ++ [c]) = numbered mark calls ++ [c] := by
  simp [numbered, counted]

theorem numbered_concat_of_not_counts {c : Call} (counted : counts mark c.line = false) :
    numbered mark (calls ++ [c]) = numbered mark calls := by
  simp [numbered, counted]

/-- A new call changes nothing about those with other numbers. -/
theorem getElem?_concat_of_ne {c d : Call} {n : Nat} (positive : 0 < n)
    (other : n ≠ calls.length + 1) :
    (calls ++ [c])[n - 1]? = some d ↔ calls[n - 1]? = some d := by
  rcases Nat.lt_or_ge (n - 1) calls.length with before | beyond
  · rw [List.getElem?_append_left before]
  · rw [List.getElem?_eq_none beyond, List.getElem?_eq_none]
    rw [List.length_append, List.length_singleton]
    omega

theorem execution_of_not_counts (x : Executor) {c : Call} (counted : counts x.mark c.line = false) :
    (c.execution x).executor.sequence = x.sequence ∧
      (c.execution x).executor.capture = x.capture := by
  unfold Call.execution
  rw [execute_eq]
  dsimp only
  rw [counted, noted_eq]
  simp only [Bool.false_eq_true, if_false, Nat.add_zero]
  exact ⟨(runAll_sameDesk ..).sequence, (runAll_left ..).unnumbered rfl⟩

/-- A line that counts takes the next number and is recorded under it. -/
theorem execution_of_counts (x : Executor) {c : Call} (counted : counts x.mark c.line) :
    (c.execution x).executor.sequence = x.sequence + 1 ∧
      ∀ m host, (c.execution x).executor.capture.command? m host =
        if m = x.sequence + 1 ∧
            host ∈ recordedOf x.hosts (upToExit (statements x.mark c.line)) then
          some ((x.capture.command? m host).getD c.line)
        else x.capture.command? m host := by
  unfold Call.execution
  rw [execute_eq]
  dsimp only
  rw [counted, noted_eq]
  simp only [if_true]
  exact ⟨(runAll_sameDesk ..).sequence, (runAll_left ..).commands _ rfl⟩

theorem execution_sameDesk (x : Executor) (c : Call) :
    (c.execution x).executor.hosts = x.hosts ∧ (c.execution x).executor.mark = x.mark := by
  unfold Call.execution
  rw [execute_eq]
  dsimp only
  rw [noted_eq]
  exact ⟨(runAll_sameDesk ..).hosts, (runAll_sameDesk ..).mark⟩

theorem Kept.execution (kept : Kept hosts mark calls x) (c : Call) :
    Kept hosts mark (calls ++ [c]) (c.execution x).executor := by
  obtain ⟨sameHosts, sameMark⟩ := execution_sameDesk x c
  refine ⟨sameHosts.trans kept.hosts_eq, sameMark.trans kept.mark_eq, ?_, ?_⟩
  · cases counted : counts mark c.line with
    | false =>
      obtain ⟨sequence, -⟩ := execution_of_not_counts x (kept.mark_eq ▸ counted)
      rw [sequence, kept.sequence_eq, numbered_concat_of_not_counts counted]
    | true =>
      obtain ⟨sequence, -⟩ := execution_of_counts x (kept.mark_eq ▸ counted)
      rw [sequence, kept.sequence_eq, numbered_concat_of_counts counted, List.length_append,
        List.length_singleton]
  · intro n host command
    cases counted : counts mark c.line with
    | false =>
      obtain ⟨-, capture⟩ := execution_of_not_counts x (kept.mark_eq ▸ counted)
      rw [capture, numbered_concat_of_not_counts counted]
      exact kept.commands n host command
    | true =>
      obtain ⟨-, commands⟩ := execution_of_counts x (kept.mark_eq ▸ counted)
      rw [commands, numbered_concat_of_counts counted, kept.hosts_eq, kept.mark_eq,
        kept.sequence_eq]
      by_cases last : n = (numbered mark calls).length + 1
      · subst last
        -- Nothing is recorded under a number that has not been given yet.
        have unused : x.capture.command? ((numbered mark calls).length + 1) host = none := by
          rw [Option.eq_none_iff_forall_ne_some]
          intro old here
          obtain ⟨-, d, found, -⟩ := (kept.commands _ host old).mp here
          simp at found
        rw [unused]
        by_cases recorded : host ∈ recordedOf hosts (upToExit (statements mark c.line))
        · simp [recorded]
        · simp [recorded]
      · rw [if_neg (fun both => last both.1), kept.commands n host command]
        constructor
        · rintro ⟨positive, d, found, rest⟩
          exact ⟨positive, d, (getElem?_concat_of_ne positive last).mpr found, rest⟩
        · rintro ⟨positive, d, found, rest⟩
          exact ⟨positive, d, (getElem?_concat_of_ne positive last).mp found, rest⟩

theorem Kept.executions (kept : Kept hosts mark calls x) (later : List Call) :
    Kept hosts mark (calls ++ later) (x.after later) := by
  induction later generalizing calls x with
  | nil => simpa [after] using kept
  | cons c later ih =>
    have next := ih (kept.execution c)
    rwa [List.append_assoc] at next

theorem kept_after (hosts : List String) (mark : Char) (logPath : Option String) (files : Files)
    (calls : List Call) :
    Kept hosts mark calls (after { hosts, mark, logPath, files } calls) := by
  have fresh : Kept hosts mark [] { hosts, mark, logPath, files } :=
    ⟨rfl, rfl, rfl, by simp [numbered]⟩
  simpa using fresh.executions calls

/-- After any calls of a fresh executor, of which `c` is the last: (1) the counter is the number of
lines so far that count, the line has it as its number if it counts itself, and it is rejected just
if it cannot be read; (2) the statements that ran are those up to the first with an exit, and the
shell is asked to leave if there is one; (3) under a number there is one entry for each host on
which statements of the line with that number ran a command, with the line as its command; (4) a
line that does not count leaves counter and records as they were.

The counter is a natural number.  One of 64 bits agrees with it as long as fewer than
`Line.sequenceBound` lines count. -/
theorem accounts_of_calls (hosts : List String) (mark : Char) (logPath : Option String)
    (files : Files) (past : List Call) (c : Call) :
    let x := after { hosts, mark, logPath, files } past
    let e := c.execution x
    let lines := numbered mark (past ++ [c])
    let number := if counts mark c.line then some lines.length else none
    (e.executor.sequence = lines.length ∧
      e.result = (parse mark c.line).map fun ss =>
        { sequence := number, leaving := ss.any leaves }) ∧
    ((e.executor, e.input) =
        runAll c.course.drive c.now number c.line
          { x.noted c.now c.line with sequence := lines.length } c.input
          (upToExit (statements mark c.line)) ∧
      e.executor.shown.length = x.shown.length + (upToExit (statements mark c.line)).length) ∧
    (∀ n host command, e.executor.capture.command? n host = some command ↔
      0 < n ∧ ∃ d, lines[n - 1]? = some d ∧ d.line = command ∧
        host ∈ recordedOf hosts (upToExit (statements mark d.line))) ∧
    (¬ counts mark c.line →
      e.executor.sequence = x.sequence ∧ e.executor.capture = x.capture) := by
  have before := kept_after hosts mark logPath files past
  have kept := before.execution c
  dsimp only
  generalize after { hosts, mark, logPath, files } past = x at before kept ⊢
  have count : (numbered mark (past ++ [c])).length =
      x.sequence + if counts x.mark c.line then 1 else 0 := by
    rw [before.sequence_eq, before.mark_eq]
    cases counted : counts mark c.line
    · simp [numbered_concat_of_not_counts counted]
    · simp [numbered_concat_of_counts counted]
  have outcome : c.execution x = _ := execute_eq c.course x c.now c.line c.input
  rw [← count, before.mark_eq] at outcome
  refine ⟨⟨kept.sequence_eq, ?_⟩, ⟨?_, ?_⟩, kept.commands, fun counted => ?_⟩
  · rw [outcome]
  · rw [outcome]
  · rw [outcome]
    dsimp only
    rw [length_shown_runAll, noted_eq]
  · rw [← before.mark_eq] at counted
    exact execution_of_not_counts x (by simpa using counted)

end Executor

end Flotilla.Shell
