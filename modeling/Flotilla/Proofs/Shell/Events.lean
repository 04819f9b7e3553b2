import Flotilla.Proofs.History.Commands
import Flotilla.Shell.Run

/-!
# What events do

`Change` lists all that one event can do to the tasks of a run, to what is recorded and to the will
to leave, and `step_change` says that there is nothing else.  From it come the laws of whole lists
of events.
-/

namespace Flotilla.Shell.Run

open Line (Venue)

/-- The parts of a run that its tasks and its records are about. -/
def books (r : Run) : Moment × Option Nat × List Task × Capture × Bool :=
  (r.now, r.sequence, r.tasks, r.capture, r.leaving)

def ended (t : Task) : Task := { t with running := false }

/-- What an event can do to the books of a run. -/
inductive Change (r : Run) : Run → Prop where
  | quiet {s : Run} (same : s.books = r.books) : Change r s
  /-- A command puts out something, which is recorded. -/
  | recorded {s : Run} {t : Task} {n : Nat} (data : Bytes) (member : t ∈ r.tasks)
      (command : t.isRecorded) (numbered : r.sequence = some n)
      (books : s.books =
        (r.now, r.sequence, r.tasks, r.capture.append r.now n t.host data, r.leaving)) :
      Change r s
  /-- A task ends.  A built-in may ask to leave by that. -/
  | stopped {s : Run} {t : Task} {i : Nat} (here : r.tasks[i]? = some t)
      (books : s.books = (r.now, r.sequence, r.tasks.modify i ended, r.capture,
        r.leaving || t.venue = .shell .exit)) : Change r s

theorem books_changeReader (r : Run) (t : Task) (f : Reader → Reader) :
    (r.changeReader t f).books = r.books := by
  unfold changeReader
  split <;> rfl

theorem books_takeLine (r : Run) : r.takeLine.books = r.books := by
  unfold takeLine
  repeat' split
  all_goals rfl

theorem books_record_command {r : Run} {t : Task} (data : Bytes) (command : t.isRecorded) :
    (r.record t data).books = match r.sequence with
      | some n => (r.now, r.sequence, r.tasks, r.capture.append r.now n t.host data, r.leaving)
      | none => r.books := by
  unfold record
  cases numbered : r.sequence <;> simp [books, command, numbered]

theorem record_builtin {r : Run} {t : Task} (data : Bytes) (builtin : t.isRecorded = false) :
    r.record t data = r := by
  unfold record
  cases r.sequence <;> simp [builtin]

theorem record_unnumbered {r : Run} (t : Task) (data : Bytes) (unnumbered : r.sequence = none) :
    r.record t data = r := by
  simp [record, unnumbered]

theorem change_record {r : Run} {t : Task} (data : Bytes) (member : t ∈ r.tasks) :
    Change r (r.record t data) := by
  cases numbered : r.sequence with
  | none => exact .quiet (by rw [record_unnumbered t data numbered])
  | some n =>
    cases command : t.isRecorded with
    | false => exact .quiet (by rw [record_builtin data command])
    | true =>
      refine .recorded data member command numbered ?_
      rw [books_record_command data command, numbered]

/-- The books are all that a change is about. -/
theorem Change.congr {r s : Run} (change : Change r s) {r' s' : Run} (before : r'.books = r.books)
    (after : s'.books = s.books) : Change r' s' := by
  simp only [books, Prod.mk.injEq] at before after
  obtain ⟨now, sequence, tasks, capture, leaving⟩ := before
  cases change with
  | quiet same =>
    simp only [books, Prod.mk.injEq] at same
    exact .quiet (by simp [books, *])
  | recorded data member command numbered books' =>
    simp only [books, Prod.mk.injEq] at books'
    exact .recorded data (tasks ▸ member) command (sequence ▸ numbered) (by simp [books, *])
  | stopped here books' =>
    simp only [books, Prod.mk.injEq] at books'
    exact .stopped (tasks ▸ here) (by simp [books, *])

theorem change_writeOut {r : Run} {i : Nat} {t : Task} (data : Bytes) (accepts : Nat)
    (member : t ∈ r.tasks) : Change r (r.writeOut i t data accepts) := by
  unfold writeOut
  dsimp only
  split
  · exact .quiet rfl
  generalize r.accepted t data accepts = taken
  split
  next k _ =>
    let q := { r with pipes := r.pipes.modify k (·.write taken) }
    exact (change_record (r := q) taken member).congr rfl rfl
  next =>
    let q := r.showing (writer i t .out) (.write taken)
    exact (change_record (r := q) taken member).congr rfl rfl

theorem writeOut_builtin {r : Run} {i : Nat} {t : Task} (data : Bytes) (accepts : Nat)
    (builtin : t.isRecorded = false) : (r.writeOut i t data accepts).books = r.books := by
  unfold writeOut
  dsimp only
  split
  · rfl
  rw [record_builtin _ builtin]
  split <;> rfl

theorem books_finish (r : Run) (i : Nat) (t : Task) (result : Except ConnectError (Option Nat)) :
    (r.finish i t result).books =
      (r.now, r.sequence, r.tasks.modify i ended, r.capture, r.leaving) := by
  have closed : (changeReader { r with tasks := r.tasks.modify i ended } t .hangUp).books =
      (r.now, r.sequence, r.tasks.modify i ended, r.capture, r.leaving) :=
    books_changeReader _ t .hangUp
  unfold finish
  rw [← closed]
  dsimp only
  repeat' split
  all_goals rfl

theorem books_answer {r : Run} {i : Nat} {t : Task} (b : Line.Builtin)
    (builtin : t.isRecorded = false) : (r.answer i t b).books =
      (r.now, r.sequence, r.tasks.modify i ended, r.capture, r.leaving || b = .exit) := by
  unfold answer
  dsimp only
  rw [books_finish]
  generalize utf8 (b.output (CommandLog.read r.logPath r.files) r.capture) = data
  have written := writeOut_builtin (r := r) (i := i) data data.length builtin
  simp only [books, Prod.mk.injEq] at written
  obtain ⟨now, sequence, tasks, capture, leaving⟩ := written
  by_cases exit : b = .exit <;> by_cases piped : t.sink.isSome
  all_goals simp [showing, *]

theorem onTask_cases {P : Run → Prop} {r : Run} {i : Nat} {f : Task → Run} (idle : P r)
    (runs : ∀ t, r.tasks[i]? = some t → P (f t)) : P (r.onTask i f) := by
  unfold onTask
  repeat' split
  next t here _ => exact runs t here
  all_goals exact idle

theorem onCommand_cases {P : Run → Prop} {r : Run} {i : Nat} {f : Task → Run} (idle : P r)
    (runs : ∀ t, r.tasks[i]? = some t → t.isRecorded → P (f t)) : P (r.onCommand i f) := by
  refine onTask_cases idle fun t here => ?_
  cases venue : t.venue with
  | shell b => exact idle
  | _ => exact runs t here (by simp [Task.isRecorded, venue])

/-- What a command tells the screen is not in the books. -/
theorem change_showing {r : Run} {p : Prop} [Decidable p] (w : Writer) (act : Shown.Act) :
    Change r (if p then r else r.showing w act) := by
  split <;> exact .quiet rfl

theorem step_change (r : Run) (e : Event) : Change r (r.step e) := by
  have idle : Change r r := .quiet rfl
  cases e with
  | write i data accepts =>
    exact onCommand_cases idle fun t here _ =>
      change_writeOut data accepts (List.mem_of_getElem? here)
  | complain i data => exact onCommand_cases idle fun t _ _ => change_showing _ _
  | flush i stream => exact onCommand_cases idle fun t _ _ => change_showing _ _
  | shutdown i stream => exact onCommand_cases idle fun t _ _ => change_showing _ _
  | read i => exact onCommand_cases idle fun t _ _ => .quiet (books_changeReader r t _)
  | hangUp i => exact onCommand_cases idle fun t _ _ => .quiet (books_changeReader r t _)
  | finish i result =>
    refine onCommand_cases idle fun t here command => .stopped here ?_
    have stays : t.venue ≠ .shell .exit := by
      intro venue
      simp [Task.isRecorded, venue] at command
    rw [books_finish, decide_eq_false stays, Bool.or_false]
  | answer i =>
    refine onTask_cases idle fun t here => ?_
    cases venue : t.venue with
    | shell b =>
      refine .stopped here ?_
      rw [books_answer b (by simp [Task.isRecorded, venue]), venue]
      simp
    | _ => exact idle
  | takeLine => exact .quiet (books_takeLine r)
  | _ => exact .quiet rfl

/-- Where a task runs. -/
def seat (t : Task) : Venue × String := (t.venue, t.host)

/-- Where the tasks run, in the order of their places. -/
def seats (r : Run) : List (Venue × String) := r.tasks.map seat

/-- What holds of a run from its wiring on: there is an entry for all that is recorded, and the
shell is to leave once a task that asks for it has ended. -/
structure Sound (r : Run) : Prop where
  opened : ∀ n, r.sequence = some n → ∀ t ∈ r.tasks, t.isRecorded →
    (r.capture.command? n t.host).isSome
  left : r.leaving = true ↔ ∃ t ∈ r.tasks, t.venue = .shell .exit ∧ t.running = false

/-- What events leave as it is. -/
structure Keeps (r s : Run) : Prop where
  now : s.now = r.now
  sequence : s.sequence = r.sequence
  seats : s.seats = r.seats
  /-- Commands that are recorded stay so, and no others come to be. -/
  commands : s.capture.command? = r.capture.command?
  /-- Nothing is recorded of a line without a number. -/
  unnumbered : r.sequence = none → s.capture = r.capture

theorem Keeps.refl (r : Run) : Keeps r r := ⟨rfl, rfl, rfl, rfl, fun _ => rfl⟩

theorem Keeps.trans {r s u : Run} (first : Keeps r s) (second : Keeps s u) : Keeps r u where
  now := second.now.trans first.now
  sequence := second.sequence.trans first.sequence
  seats := second.seats.trans first.seats
  commands := second.commands.trans first.commands
  unnumbered none :=
    (second.unnumbered (first.sequence.trans none)).trans (first.unnumbered none)

theorem mem_seats {r : Run} {venue : Venue} {host : String} :
    (venue, host) ∈ r.seats ↔ ∃ t ∈ r.tasks, t.venue = venue ∧ t.host = host := by
  simp [seats, seat]

theorem map_modify_ended {α : Type} {f : Task → α} (kept : ∀ t, f (ended t) = f t)
    (tasks : List Task) (i : Nat) : (tasks.modify i ended).map f = tasks.map f := by
  induction tasks generalizing i with
  | nil => simp
  | cons t tasks ih =>
    cases i with
    | zero => simp [kept]
    | succ i => simp [ih]

theorem Change.keeps {r s : Run} (change : Change r s) (sound : Sound r) : Keeps r s := by
  cases change with
  | quiet same =>
    simp only [books, Prod.mk.injEq] at same
    obtain ⟨now, sequence, tasks, capture, -⟩ := same
    exact ⟨now, sequence, by rw [seats, tasks, seats], by rw [capture], fun _ => capture⟩
  | recorded data member command numbered same =>
    simp only [books, Prod.mk.injEq] at same
    obtain ⟨now, sequence, tasks, capture, -⟩ := same
    have opened := sound.opened _ numbered _ member command
    refine ⟨now, sequence, by rw [seats, tasks, seats], ?_, fun none => ?_⟩
    · rw [capture, Capture.command?_append _ _ _ _ _ opened]
    · rw [none] at numbered
      cases numbered
  | stopped here same =>
    simp only [books, Prod.mk.injEq] at same
    obtain ⟨now, sequence, tasks, capture, -⟩ := same
    exact ⟨now, sequence, by rw [seats, tasks, map_modify_ended (fun _ => rfl), seats], by rw [capture],
      fun _ => capture⟩

theorem opened_of_keeps {r s : Run} (sound : Sound r) (keeps : Keeps r s) (n : Nat)
    (numbered : s.sequence = some n) (t : Task) (member : t ∈ s.tasks) (command : t.isRecorded) :
    (s.capture.command? n t.host).isSome := by
  have place : (t.venue, t.host) ∈ r.seats := by
    rw [← keeps.seats]
    exact mem_seats.mpr ⟨t, member, rfl, rfl⟩
  obtain ⟨u, before, venue, host⟩ := mem_seats.mp place
  have recorded : u.isRecorded := by
    unfold Task.isRecorded at command ⊢
    rwa [venue]
  rw [keeps.commands, ← host]
  exact sound.opened n (keeps.sequence ▸ numbered) u before recorded

theorem exists_ended_modify {tasks : List Task} {i : Nat} {t : Task} (here : tasks[i]? = some t) :
    (∃ u ∈ tasks.modify i ended, u.venue = .shell .exit ∧ u.running = false) ↔
      (∃ u ∈ tasks, u.venue = .shell .exit ∧ u.running = false) ∨ t.venue = .shell .exit := by
  induction tasks generalizing i with
  | nil => simp at here
  | cons a tasks ih =>
    cases i with
    | zero =>
      obtain rfl : a = t := by simpa using here
      simp only [List.modify_zero_cons, List.mem_cons, exists_eq_or_imp, ended, and_true]
      constructor
      · rintro (asks | other)
        · exact .inr asks
        · exact .inl (.inr other)
      · rintro ((⟨asks, -⟩ | other) | asks)
        · exact .inl asks
        · exact .inr other
        · exact .inl asks
    | succ i =>
      have there : tasks[i]? = some t := by simpa using here
      simp only [List.modify_succ_cons, List.mem_cons, exists_eq_or_imp, ih there, or_assoc]

/-- A change ends one task at most, and that alone can be a reason to leave. -/
theorem Change.tasks {r s : Run} (change : Change r s) :
    (s.tasks = r.tasks ∧ s.leaving = r.leaving) ∨
      ∃ i t, r.tasks[i]? = some t ∧ s.tasks = r.tasks.modify i ended ∧
        s.leaving = (r.leaving || t.venue = .shell .exit) := by
  cases change with
  | quiet same =>
    simp only [books, Prod.mk.injEq] at same
    obtain ⟨-, -, tasks, -, leaving⟩ := same
    exact .inl ⟨tasks, leaving⟩
  | recorded data _ _ _ same =>
    simp only [books, Prod.mk.injEq] at same
    obtain ⟨-, -, tasks, -, leaving⟩ := same
    exact .inl ⟨tasks, leaving⟩
  | stopped here same =>
    simp only [books, Prod.mk.injEq] at same
    obtain ⟨-, -, tasks, -, leaving⟩ := same
    exact .inr ⟨_, _, here, tasks, leaving⟩

theorem Change.sound {r s : Run} (change : Change r s) (sound : Sound r) : Sound s := by
  refine ⟨opened_of_keeps sound (change.keeps sound), ?_⟩
  rcases change.tasks with ⟨tasks, leaving⟩ | ⟨i, t, here, tasks, leaving⟩
  · rw [tasks, leaving]
    exact sound.left
  · rw [tasks, leaving, exists_ended_modify here, ← sound.left]
    simp

/-- Whatever happens keeps a sound run sound. -/
theorem steps_sound {r : Run} (events : List Event) (sound : Sound r) :
    Sound (r.steps events) ∧ Keeps r (r.steps events) := by
  induction events generalizing r with
  | nil => exact ⟨sound, .refl r⟩
  | cons e events ih =>
    have change := step_change r e
    obtain ⟨after, keeps⟩ := ih (change.sound sound)
    exact ⟨after, (change.keeps sound).trans keeps⟩

/-- When all tasks have ended, the shell is to leave if one of them asks for it. -/
theorem Sound.leaving_iff {r : Run} (sound : Sound r) (finished : r.isFinished) :
    r.leaving = true ↔ ∃ host, (.shell .exit, host) ∈ r.seats := by
  have halted : ∀ t ∈ r.tasks, t.running = false := by simpa [isFinished] using finished
  rw [sound.left]
  constructor
  · rintro ⟨t, member, venue, -⟩
    exact ⟨t.host, mem_seats.mpr ⟨t, member, venue, rfl⟩⟩
  · rintro ⟨host, place⟩
    obtain ⟨t, member, venue, -⟩ := mem_seats.mp place
    exact ⟨t, member, venue, halted t member⟩

/-- Whether no task runs at place `i`. -/
def IsOver (r : Run) (i : Nat) : Prop := ∀ t, r.tasks[i]? = some t → t.running = false

theorem Change.isOver {r s : Run} (change : Change r s) {i : Nat} (halted : r.IsOver i) :
    s.IsOver i := by
  intro t here
  rcases change.tasks with ⟨tasks, -⟩ | ⟨j, _, -, tasks, -⟩
  · exact halted t (tasks ▸ here)
  · rw [tasks, List.getElem?_modify] at here
    obtain ⟨u, before, rfl⟩ := Option.map_eq_some_iff.mp here
    split
    · rfl
    · exact halted u before

theorem isOver_of_books {r s : Run} {i : Nat} {leaving : Bool}
    (books : s.books = (r.now, r.sequence, r.tasks.modify i ended, r.capture, leaving)) :
    s.IsOver i := by
  intro t here
  simp only [Run.books, Prod.mk.injEq] at books
  rw [books.2.2.1, List.getElem?_modify] at here
  obtain ⟨u, -, rfl⟩ := Option.map_eq_some_iff.mp here
  rw [if_pos rfl]
  rfl

/-- The events by which task `i` ends, be it a built-in or a command. -/
def ending (i : Nat) : List Event := [.answer i, .finish i (.ok none)]

theorem isOver_ending (r : Run) (i : Nat) : (r.steps (ending i)).IsOver i := by
  have finish_keeps (s : Run) (halted : s.IsOver i) : (s.step (.finish i (.ok none))).IsOver i :=
    (step_change s _).isOver halted
  show ((r.step (.answer i)).step (.finish i (.ok none))).IsOver i
  cases here : r.tasks[i]? with
  | none => exact finish_keeps _ ((step_change r _).isOver fun t other => by simp [here] at other)
  | some t =>
    cases running : t.running with
    | false =>
      refine finish_keeps _ ((step_change r _).isOver fun u other => ?_)
      obtain rfl : t = u := by simpa [here] using other
      exact running
    | true =>
      cases venue : t.venue with
      | shell b =>
        refine finish_keeps _ ?_
        have answered : r.step (.answer i) = r.answer i t b := by
          simp [step, onTask, here, running, venue]
        rw [answered]
        exact isOver_of_books (books_answer b (by simp [Task.isRecorded, venue]))
      -- A command does not answer, and so ends by the second event.
      | _ =>
        have idle : r.step (.answer i) = r := by simp [step, onTask, here, running, venue]
        have finished : r.step (.finish i (.ok none)) = r.finish i t (.ok none) := by
          simp [step, onCommand, onTask, here, running, venue]
        rw [idle, finished]
        exact isOver_of_books (books_finish r i t _)

/-- Every run has a way to its end. -/
theorem isFinished_of_endings (r : Run) :
    (r.steps ((List.range r.tasks.length).flatMap ending)).isFinished := by
  have each (places : List Nat) (r : Run) (i : Nat) (mine : i ∈ places ∨ r.IsOver i) :
      (r.steps (places.flatMap ending)).IsOver i := by
    induction places generalizing r with
    | nil => simpa [steps] using mine
    | cons j places ih =>
      have split : r.steps ((j :: places).flatMap ending) =
          (r.steps (ending j)).steps (places.flatMap ending) := by
        simp [steps, List.foldl_append]
      rw [split]
      apply ih
      rcases mine with member | halted
      · rcases List.mem_cons.mp member with rfl | later
        · exact .inr (isOver_ending r i)
        · exact .inl later
      · have answered := (step_change r (.answer j)).isOver halted
        exact .inr ((step_change _ (.finish j (.ok none))).isOver answered)
  unfold isFinished
  rw [List.all_eq_true]
  intro t member
  obtain ⟨i, here⟩ := List.mem_iff_getElem?.mp member
  have halted := each (List.range r.tasks.length) r i
    (by
      rcases Nat.lt_or_ge i r.tasks.length with inside | outside
      · exact .inl (List.mem_range.mpr inside)
      · exact .inr fun u other => by simp [List.getElem?_eq_none outside] at other)
  simp [halted t here]

end Flotilla.Shell.Run
