import Flotilla.Proofs.Shell.Conveyance

/-!
# What is recorded of a running statement

The output of a command goes into its sink and is recorded by that.  `output_steps` says that what
is recorded of a host while a statement runs is what the sinks of its commands have accepted, the
chunks of all of them in one order or another and those of each in its own.
-/

namespace Flotilla.Shell

open Line (Statement Segment)

/-- `all` goes through the sequences of a family, taking the next element of one at a time, until
nothing is left of any. -/
inductive Interleaves {α : Type} : (Nat → List α) → List α → Prop where
  | done {family : Nat → List α} (exhausted : ∀ i, family i = []) : Interleaves family []
  | take {family rest : Nat → List α} {i : Nat} {a : α} {all : List α}
      (first : family i = a :: rest i) (others : ∀ j, j ≠ i → family j = rest j)
      (later : Interleaves rest all) : Interleaves family (a :: all)

/-- Whether a task runs a segment of a host.  A built-in is a segment of nobody. -/
def Task.isOf (t : Task) (host : String) : Bool := t.isRecorded && t.host = host

namespace Run

theorem capture_record_congr {r s : Run} (sequence : s.sequence = r.sequence) (now : s.now = r.now)
    (capture : s.capture = r.capture) (t : Task) (data : Bytes) :
    (s.record t data).capture = (r.record t data).capture := by
  unfold record
  rw [sequence]
  cases r.sequence with
  | none => exact capture
  | some n =>
    cases command : t.isRecorded with
    | false => exact capture
    | true => simp only [if_true, now, capture]

theorem capture_writeOut (r : Run) (i : Nat) (t : Task) (data : Bytes) (n : Nat) :
    (r.writeOut i t data n).capture =
      if r.accepted t data n = [] then r.capture
      else (r.record t (r.accepted t data n)).capture := by
  unfold writeOut
  dsimp only
  split
  · rfl
  split
  all_goals apply capture_record_congr <;> rfl

/-- What an event does to the records: what it has accepted is recorded, and nothing else. -/
theorem capture_step (r : Run) (e : Event) : (r.step e).capture =
    (r.accepts e).elim r.capture fun (_, t, chunk) => (r.record t chunk).capture := by
  have capture_of_books {s : Run} (books : s.books = r.books) : s.capture = r.capture :=
    congrArg (·.2.2.2.1) books
  cases e with
  | write i data n =>
    simp only [step, onCommand_eq, accepts, offer]
    cases r.command? i with
    | none => rfl
    | some t =>
      simp only [Option.elim_some, Option.map_some, Option.bind_some, capture_writeOut]
      split <;> rfl
  | complain i data => exact onCommand_keeps (·.capture) i fun t => by split <;> rfl
  | flush i stream => exact onCommand_keeps (·.capture) i fun t => by split <;> rfl
  | shutdown i stream => exact onCommand_keeps (·.capture) i fun t => by split <;> rfl
  | read i =>
    exact onCommand_keeps (·.capture) i fun t => capture_of_books (books_changeReader r t .read)
  | hangUp i =>
    exact onCommand_keeps (·.capture) i fun t => capture_of_books (books_changeReader r t .hangUp)
  | finish i result =>
    exact onCommand_keeps (·.capture) i fun t => congrArg (·.2.2.2.1) (books_finish r i t result)
  | answer i =>
    rw [step_answer]
    simp only [accepts, offer]
    cases found : r.builtin? i with
    | none => rfl
    | some both =>
      obtain ⟨t, b⟩ := both
      obtain ⟨-, -, venue⟩ := builtin?_eq_some.mp found
      have builtin : t.isRecorded = false := by simp [Task.isRecorded, venue]
      have same : (r.answer i t b).capture = r.capture :=
        congrArg (·.2.2.2.1) (books_answer b builtin)
      simp only [Option.elim_some, Option.map_some, Option.bind_some, same]
      split
      · rfl
      · exact congrArg (·.capture) (record_builtin _ builtin).symm
  | takeLine => exact capture_of_books (books_takeLine r)
  | _ => rfl

theorem sequence_step (r : Run) (e : Event) : (r.step e).sequence = r.sequence := by
  cases step_change r e with
  | quiet books => exact congrArg (·.2.1) books
  | recorded _ _ _ _ books => exact congrArg (·.2.1) books
  | stopped _ books => exact congrArg (·.2.1) books

theorem sequence_steps (r : Run) (events : List Event) :
    (r.steps events).sequence = r.sequence := by
  induction events generalizing r with
  | nil => rfl
  | cons e events ih => exact (ih (r.step e)).trans (sequence_step r e)

theorem output_record (r : Run) (t : Task) (data : Bytes) (n : Nat) (host : String) :
    (r.record t data).capture.output n host = r.capture.output n host ++
      if r.sequence = some n ∧ t.isOf host then data else [] := by
  unfold record Task.isOf
  cases r.sequence with
  | none => simp
  | some m =>
    cases t.isRecorded with
    | false => simp
    | true => simp [Capture.output_append, eq_comm]

/-- What an event adds to the output that is recorded of a host under a number. -/
theorem output_step (r : Run) (e : Event) (n : Nat) (host : String) :
    (r.step e).capture.output n host = r.capture.output n host ++
      (r.accepts e).elim [] fun (_, t, chunk) =>
        if r.sequence = some n ∧ t.isOf host then chunk else [] := by
  rw [capture_step]
  cases r.accepts e with
  | none => exact (List.append_nil _).symm
  | some write => exact output_record r write.2.1 write.2.2 n host

theorem accepted_eq (r : Run) (t : Task) (data : Bytes) (n : Nat) : r.accepted t data n =
    t.sink.elim (data.take n) fun k => if (r.pipes[k]?).any (·.carries) then data else [] := by
  unfold accepted
  cases t.sink with
  | none => rfl
  | some k => cases here : r.pipes[k]? <;> simp [here]

/-- Of a chunk that a command writes, that part is recorded which the sink accepts: all of it or
nothing by a pipe, and what is shown otherwise. -/
theorem output_write {r : Run} {n : Nat} (numbered : r.sequence = some n) (i : Nat) (data : Bytes)
    (a : Nat) (host : String) : (r.step (.write i data a)).capture.output n host =
      r.capture.output n host ++ (r.command? i).elim [] fun t =>
        if t.isOf host then
          t.sink.elim (data.take a) fun k => if (r.pipes[k]?).any (·.carries) then data else []
        else [] := by
  simp only [← accepted_eq]
  rw [output_step, numbered]
  congr 1
  simp only [accepts, offer]
  cases r.command? i with
  | none => rfl
  | some t => by_cases refused : r.accepted t data a = [] <;> simp [refused]

theorem output_steps_other {r : Run} {n : Nat} (other : r.sequence ≠ some n) (host : String)
    (events : List Event) : (r.steps events).capture.output n host = r.capture.output n host := by
  induction events generalizing r with
  | nil => rfl
  | cons e events ih =>
    have still : (r.step e).sequence ≠ some n := by rwa [sequence_step]
    refine (ih still).trans ?_
    rw [output_step]
    cases r.accepts e <;> simp [other]

theorem isOf_step (r : Run) (e : Event) (i : Nat) (host : String) :
    ((r.step e).tasks[i]?).any (·.isOf host) = (r.tasks[i]?).any (·.isOf host) := by
  obtain ⟨f, same, tasks⟩ := getElem?_tasks_step r e i
  rw [tasks]
  cases r.tasks[i]? with
  | none => rfl
  | some t =>
    rcases same t with stays | ends
    · simp [stays]
    · simp [ends, ended, Task.isOf, Task.isRecorded]

/-- The chunks that events have accepted from task `i`, if that is one of a host. -/
def acceptedOf (host : String) (r : Run) (events : List Event) (i : Nat) : List Bytes :=
  if (r.tasks[i]?).any (·.isOf host) then observe step (wrote i) r events else []

theorem acceptedOf_cons (host : String) (r : Run) (e : Event) (events : List Event) (i : Nat) :
    acceptedOf host r (e :: events) i =
      (if (r.tasks[i]?).any (·.isOf host) then wrote i r e else []) ++
        acceptedOf host (r.step e) events i := by
  unfold acceptedOf
  rw [isOf_step]
  split <;> rfl

/-- While events happen, the output that is recorded of a host grows by what they have accepted
from its tasks. -/
theorem output_steps {r : Run} {n : Nat} (numbered : r.sequence = some n) (host : String)
    (events : List Event) : ∃ chunks, Interleaves (acceptedOf host r events) chunks ∧
      (r.steps events).capture.output n host = r.capture.output n host ++ chunks.flatten := by
  induction events generalizing r with
  | nil => exact ⟨[], .done fun i => ite_self _, (List.append_nil _).symm⟩
  | cons e events ih =>
    obtain ⟨chunks, woven, later⟩ := ih ((sequence_step r e).trans numbered)
    change (r.steps (e :: events)).capture.output n host = _ at later
    rw [output_step, numbered] at later
    -- An event that has accepted nothing from the host leaves all sequences as they are.
    have idle (nothing : ∀ i, (r.tasks[i]?).any (·.isOf host) → wrote i r e = []) :
        acceptedOf host r (e :: events) = acceptedOf host (r.step e) events := by
      funext i
      rw [acceptedOf_cons]
      split
      next mine => rw [nothing i mine, List.nil_append]
      next => rfl
    cases accepted : r.accepts e with
    | none =>
      rw [accepted, Option.elim_none, List.append_nil] at later
      exact ⟨chunks, idle (fun i _ => by simp [wrote, accepted]) ▸ woven, later⟩
    | some write =>
      obtain ⟨j, t, chunk⟩ := write
      have here := accepts_eq_some accepted
      rw [accepted, Option.elim_some] at later
      by_cases mine : t.isOf host
      · refine ⟨chunk :: chunks, .take (i := j) ?_ (fun i other => ?_) woven, ?_⟩
        · simp [acceptedOf_cons, here, mine, wrote, accepted]
        · simp [acceptedOf_cons, wrote, accepted, Ne.symm other]
        · simpa [mine] using later
      · refine ⟨chunks, idle (fun i its => ?_) ▸ woven, by simpa [mine] using later⟩
        have other : j ≠ i := by
          rintro rfl
          simp [here, mine] at its
        simp [wrote, accepted, other]

/-- What was shown of the output of task `i`. -/
def outputOf (i : Nat) (t : Task) (shown : List Shown) : List Bytes :=
  shown.filterMap fun s => match s.act with
    | .write data => if s.writer = writer i t .out then some data else none
    | _ => none

@[simp] theorem outputOf_write (i : Nat) (t : Task) (r : Run) (w : Writer) (data : Bytes) :
    outputOf i t (r.showing w (.write data)).shown =
      outputOf i t r.shown ++ if w = writer i t .out then [data] else [] := by
  by_cases same : w = writer i t .out <;> simp [outputOf, showing, same]

@[simp] theorem outputOf_flush (i : Nat) (t : Task) (r : Run) (w : Writer) :
    outputOf i t (r.showing w .flush).shown = outputOf i t r.shown := by
  simp [outputOf, showing]

@[simp] theorem outputOf_shutdown (i : Nat) (t : Task) (r : Run) (w : Writer) :
    outputOf i t (r.showing w .shutdown).shown = outputOf i t r.shown := by
  simp [outputOf, showing]

theorem shown_changeReader (r : Run) (t : Task) (f : Reader → Reader) :
    (r.changeReader t f).shown = r.shown := by
  unfold changeReader
  split <;> rfl

theorem shown_takeLine (r : Run) : r.takeLine.shown = r.shown := by
  unfold takeLine
  repeat' split
  all_goals rfl

theorem shown_record (r : Run) (t : Task) (data : Bytes) : (r.record t data).shown = r.shown := by
  unfold record
  repeat' split
  all_goals rfl

theorem writer_out_inj {i j : Nat} {t u : Task} (same : writer i t .out = writer j u .out) :
    i = j := by
  have ids : 3 * i = 3 * j := congrArg Writer.id same
  omega

theorem ne_writer_out {w : Writer} (stream : w.stream = .err) (i : Nat) (t : Task) :
    w ≠ writer i t .out := by
  rintro rfl
  cases stream

theorem outputOf_finish (r : Run) (i j : Nat) (t u : Task)
    (result : Except ConnectError (Option Nat)) :
    outputOf i t (r.finish j u result).shown = outputOf i t r.shown := by
  have report : reportWriter j u ≠ writer i t .out := ne_writer_out rfl i t
  unfold finish
  dsimp only
  repeat' split
  all_goals simp [shown_changeReader, report]

theorem outputOf_writeOut {r : Run} {i j : Nat} {t u : Task} (here : r.tasks[i]? = some t)
    (there : r.tasks[j]? = some u) (data : Bytes) (n : Nat) :
    outputOf i t (r.writeOut j u data n).shown = outputOf i t r.shown ++
      if r.accepted u data n ≠ [] ∧ t.sink = none ∧ j = i then [r.accepted u data n] else [] := by
  unfold writeOut
  dsimp only
  split
  next refused => simp [refused]
  next taken =>
    rw [shown_record]
    by_cases same : j = i
    · subst same
      obtain rfl : u = t := Option.some.inj (there.symm.trans here)
      cases u.sink <;> simp [taken]
    · have apart : writer j u .out ≠ writer i t .out := fun writers => same (writer_out_inj writers)
      cases u.sink <;> simp [apart, same]

/-- An event shows of a task that is not piped on what it has accepted from it. -/
theorem outputOf_step {r : Run} {i : Nat} {t : Task} (here : r.tasks[i]? = some t) (e : Event) :
    outputOf i t (r.step e).shown =
      outputOf i t r.shown ++ if t.sink = none then wrote i r e else [] := by
  have idle {s : Run} (nothing : r.accepts e = none)
      (same : outputOf i t s.shown = outputOf i t r.shown) :
      outputOf i t s.shown = outputOf i t r.shown ++ if t.sink = none then wrote i r e else [] := by
    simp [same, wrote, nothing]
  have writing (j : Nat) (u : Task) (data : Bytes) (n : Nat)
      (offered : r.offer e = some (j, u, data, n)) (there : r.tasks[j]? = some u) :
      outputOf i t (r.writeOut j u data n).shown =
        outputOf i t r.shown ++ if t.sink = none then wrote i r e else [] := by
    rw [outputOf_writeOut here there, wrote, accepts, offered, Option.bind_some]
    by_cases refused : r.accepted u data n = [] <;> by_cases sink : t.sink = none <;>
      simp [refused, sink]
  have quiet {f : Task → Run} (j : Nat) (nothing : r.accepts e = none)
      (each : ∀ u, outputOf i t (f u).shown = outputOf i t r.shown) :=
    idle nothing (onCommand_keeps (outputOf i t ·.shown) j each)
  cases e with
  | write j data n =>
    rw [step, onCommand_eq]
    cases found : r.command? j with
    | none => exact idle (by simp [accepts, offer, found]) rfl
    | some u => exact writing j u data n (by simp [offer, found]) (command?_eq_some.mp found).1
  | complain j data =>
    have err (u : Task) : writer j u .err ≠ writer i t .out := ne_writer_out rfl i t
    exact quiet j rfl fun u => by split <;> simp [err]
  | flush j stream => exact quiet j rfl fun u => by split <;> simp
  | shutdown j stream => exact quiet j rfl fun u => by split <;> simp
  | read j => exact quiet j rfl fun u => by rw [shown_changeReader]
  | hangUp j => exact quiet j rfl fun u => by rw [shown_changeReader]
  | finish j result => exact quiet j rfl fun u => outputOf_finish r i j t u result
  | answer j =>
    rw [step_answer]
    cases found : r.builtin? j with
    | none => exact idle (by simp [accepts, offer, found]) rfl
    | some both =>
      obtain ⟨u, b⟩ := both
      rw [Option.elim_some, ← writing j u (r.output b) (r.output b).length
        (by simp [offer, found]) (builtin?_eq_some.mp found).1]
      dsimp only
      unfold answer
      dsimp only
      rw [outputOf_finish]
      repeat' split
      all_goals simp [output]
  | takeLine => exact idle rfl (by rw [step, shown_takeLine])
  | _ => exact idle rfl rfl

theorem outputOf_steps {r : Run} {i : Nat} {t : Task} (here : r.tasks[i]? = some t)
    (events : List Event) : outputOf i t (r.steps events).shown =
      outputOf i t r.shown ++ if t.sink = none then observe step (wrote i) r events else [] := by
  induction events generalizing r t with
  | nil => simp [steps, observe]
  | cons e events ih =>
    obtain ⟨f, same, tasks⟩ := getElem?_tasks_step r e i
    have still : (f t).sink = t.sink ∧ outputOf i (f t) = outputOf i t := by
      rcases same t with stays | ends
      · rw [stays]
        exact ⟨rfl, rfl⟩
      · rw [ends]
        exact ⟨rfl, rfl⟩
    have later := ih (t := f t) (by rw [tasks, here]; rfl)
    rw [still.1, still.2, outputOf_step here] at later
    refine later.trans ?_
    rw [observe]
    split <;> simp

/-- What the sink of task `i` has accepted while events happened: what the log of its pipe has from
it, or what was shown of it. -/
def sunk (started : Run) (events : List Event) (i : Nat) (t : Task) : List Bytes :=
  match t.sink with
  | some k => ((log started events k).filter (·.1 = i)).map (·.2)
  | none => outputOf i t (started.steps events).shown

theorem sunk_eq {started : Run} (blank : started.shown = []) {i : Nat} {t : Task}
    (here : started.tasks[i]? = some t) (events : List Event) :
    sunk started events i t = observe step (wrote i) started events := by
  unfold sunk
  cases sink : t.sink with
  | some k => simp [log_of_task here, sink]
  | none =>
    have nothing : outputOf i t started.shown = [] := by
      rw [blank]
      rfl
    simp [outputOf_steps here, sink, nothing]

/-- What the sinks of a host's tasks have accepted, by the places of the tasks. -/
def sunkOf (host : String) (started : Run) (events : List Event) (i : Nat) : List Bytes :=
  match started.tasks[i]? with
  | some t => if t.isOf host then sunk started events i t else []
  | none => []

theorem sunkOf_eq {started : Run} (blank : started.shown = []) (host : String)
    (events : List Event) : sunkOf host started events = acceptedOf host started events := by
  funext i
  unfold sunkOf acceptedOf
  cases here : started.tasks[i]? with
  | none => rfl
  | some t => simp only [Option.any_some, sunk_eq blank here]

end Run

end Flotilla.Shell
