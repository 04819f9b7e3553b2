import Flotilla.Proofs.Shell.Events

/-!
# Which task an event is about

Only a task that runs does something.  `tasks_step` and `live_step` say what an event does to the
tasks and to the readers of the live input.
-/

namespace Flotilla.Shell.Run

open Line (Venue)

/-- The command that runs at place `i`. -/
def command? (r : Run) (i : Nat) : Option Task :=
  (r.tasks[i]?).filter fun t => t.running && t.isRecorded

/-- The built-in that is about to run at place `i`. -/
def builtin? (r : Run) (i : Nat) : Option (Task × Line.Builtin) :=
  (r.tasks[i]?).bind fun t => match t.venue with
    | .shell b => if t.running then some (t, b) else none
    | _ => none

theorem command?_eq_some {r : Run} {i : Nat} {t : Task} :
    r.command? i = some t ↔ r.tasks[i]? = some t ∧ t.running = true ∧ t.isRecorded = true := by
  simp [command?, Option.filter_eq_some_iff]

theorem builtin?_eq_some {r : Run} {i : Nat} {t : Task} {b : Line.Builtin} :
    r.builtin? i = some (t, b) ↔
      r.tasks[i]? = some t ∧ t.running = true ∧ t.venue = .shell b := by
  unfold builtin?
  cases here : r.tasks[i]? with
  | none => simp
  | some u =>
    cases venue : u.venue <;> cases running : u.running <;>
      simp only [Option.bind_some, venue, running] <;> grind

theorem onCommand_eq (r : Run) (i : Nat) (f : Task → Run) :
    r.onCommand i f = (r.command? i).elim r f := by
  unfold onCommand onTask command?
  cases here : r.tasks[i]? with
  | none => rfl
  | some t => cases running : t.running <;> cases venue : t.venue <;>
      simp [Option.filter, Task.isRecorded, running, venue]

/-- What commands keep, whichever of them does something. -/
theorem onCommand_keeps {α : Type} (what : Run → α) {r : Run} {f : Task → Run} (i : Nat)
    (each : ∀ t, what (f t) = what r) : what (r.onCommand i f) = what r := by
  rw [onCommand_eq]
  cases r.command? i with
  | none => rfl
  | some t => exact each t

theorem step_answer (r : Run) (i : Nat) :
    r.step (.answer i) = (r.builtin? i).elim r fun (t, b) => r.answer i t b := by
  simp only [step]
  unfold onTask builtin?
  cases here : r.tasks[i]? with
  | none => rfl
  | some t => cases running : t.running <;> cases venue : t.venue <;> simp [running, venue]

/-- The task that an event ends. -/
def ends (r : Run) : Event → Option (Nat × Task)
  | .finish i _ => (r.command? i).map (i, ·)
  | .answer i => (r.builtin? i).map fun (t, _) => (i, t)
  | _ => none

theorem ends_eq_some {r : Run} {e : Event} {i : Nat} {t : Task} (ending : ends r e = some (i, t)) :
    r.tasks[i]? = some t ∧ t.running = true := by
  cases e with
  | finish j result =>
    obtain ⟨u, found, same⟩ := Option.map_eq_some_iff.mp ending
    obtain ⟨rfl, rfl⟩ := Prod.mk.inj same
    obtain ⟨here, running, -⟩ := command?_eq_some.mp found
    exact ⟨here, running⟩
  | answer j =>
    obtain ⟨⟨u, b⟩, found, same⟩ := Option.map_eq_some_iff.mp ending
    obtain ⟨rfl, rfl⟩ := Prod.mk.inj same
    obtain ⟨here, running, -⟩ := builtin?_eq_some.mp found
    exact ⟨here, running⟩
  | _ => cases ending

theorem tasks_step (r : Run) (e : Event) : (r.step e).tasks =
    (ends r e).elim r.tasks fun (i, _) => r.tasks.modify i ended := by
  have tasks_of_books {s : Run} {tasks : List Task} {capture : Capture} {leaving : Bool}
      (books : s.books = (r.now, r.sequence, tasks, capture, leaving)) : s.tasks = tasks :=
    congrArg (·.2.2.1) books
  cases e with
  | write i data accepts =>
    refine onCommand_keeps (·.tasks) i fun t => ?_
    unfold writeOut record
    dsimp only
    repeat' split
    all_goals rfl
  | complain i data => exact onCommand_keeps (·.tasks) i fun t => by split <;> rfl
  | flush i stream => exact onCommand_keeps (·.tasks) i fun t => by split <;> rfl
  | shutdown i stream => exact onCommand_keeps (·.tasks) i fun t => by split <;> rfl
  | read i =>
    exact onCommand_keeps (·.tasks) i fun t => tasks_of_books (books_changeReader r t .read)
  | hangUp i =>
    exact onCommand_keeps (·.tasks) i fun t => tasks_of_books (books_changeReader r t .hangUp)
  | finish i result =>
    simp only [step, onCommand_eq, ends]
    cases r.command? i with
    | none => rfl
    | some t => exact tasks_of_books (books_finish r i t result)
  | answer i =>
    rw [step_answer, ends]
    cases found : r.builtin? i with
    | none => rfl
    | some both =>
      obtain ⟨-, -, venue⟩ := builtin?_eq_some.mp found
      exact tasks_of_books (books_answer both.2 (by simp [Task.isRecorded, venue]))
  | takeLine => exact tasks_of_books (books_takeLine r)
  | _ => rfl

theorem getElem?_tasks_step (r : Run) (e : Event) (i : Nat) : ∃ f : Task → Task,
    (∀ t, f t = t ∨ f t = ended t) ∧ (r.step e).tasks[i]? = (r.tasks[i]?).map f := by
  rw [tasks_step]
  cases ends r e with
  | none => exact ⟨id, fun _ => .inl rfl, by simp⟩
  | some both =>
    rw [Option.elim_some, List.getElem?_modify]
    refine ⟨_, fun t => ?_, rfl⟩
    split
    · exact .inr rfl
    · exact .inl rfl

/-- A task stays what it is, but for its end. -/
theorem getElem?_tasks_steps {r : Run} {i : Nat} {t : Task} (here : r.tasks[i]? = some t)
    (events : List Event) :
    ∃ u, (r.steps events).tasks[i]? = some u ∧ (u = t ∨ u = ended t) := by
  induction events generalizing r t with
  | nil => exact ⟨t, here, .inl rfl⟩
  | cons e events ih =>
    obtain ⟨f, same, tasks⟩ := getElem?_tasks_step r e i
    have next : (r.step e).tasks[i]? = some (f t) := by
      rw [tasks, here]
      rfl
    obtain ⟨u, there, or⟩ := ih next
    refine ⟨u, there, ?_⟩
    rcases same t with stays | ends
    · rwa [stays] at or
    · rw [ends] at or
      exact .inr (or.elim id id)

/-- The chunk that task `j` gets by an event. -/
def gets (j : Nat) (r : Run) : Event → List Bytes
  | .read i =>
    if i = j then (((r.command? i).bind r.reader?).bind (·.waiting.head?)).toList else []
  | _ => []

/-- What an event does with the reader of a task. -/
def handles (r : Run) : Event → Option (Task × (Reader → Reader))
  | .read i => (r.command? i).map (·, .read)
  | .hangUp i => (r.command? i).map (·, .hangUp)
  | .finish i _ => (r.command? i).map (·, .hangUp)
  | .answer i => (r.builtin? i).map fun (t, _) => (t, .hangUp)
  | _ => none

/-- What a task that does `f` with its reader leaves of the readers of the live input. -/
def useLive (t : Task) (f : Reader → Reader) (live : List Reader) : List Reader :=
  match t.source with
  | .live i => live.modify i f
  | _ => live

theorem live_changeReader (r : Run) (t : Task) (f : Reader → Reader) :
    (r.changeReader t f).live = useLive t f r.live := by
  unfold changeReader useLive
  cases t.source <;> rfl

theorem live_writeOut (r : Run) (i : Nat) (t : Task) (data : Bytes) (accepts : Nat) :
    (r.writeOut i t data accepts).live = r.live := by
  unfold writeOut record
  dsimp only
  repeat' split
  all_goals rfl

/-- A task after its reader has hung up. -/
def hungUp (r : Run) (i : Nat) (t : Task) : Run :=
  changeReader { r with tasks := r.tasks.modify i ended } t .hangUp

theorem finish_eq (r : Run) (i : Nat) (t : Task) (result : Except ConnectError (Option Nat)) :
    r.finish i t result = { r.hungUp i t with
      pipes := t.sink.elim (r.hungUp i t).pipes ((r.hungUp i t).pipes.modify · .finishWriter)
      shown := (r.finish i t result).shown } := by
  have shape : ∃ shown, r.finish i t result = { r.hungUp i t with
      pipes := t.sink.elim (r.hungUp i t).pipes ((r.hungUp i t).pipes.modify · .finishWriter)
      shown } := by
    unfold finish
    cases t.sink
    all_goals
      dsimp only
      repeat' split
      all_goals exact ⟨_, rfl⟩
  obtain ⟨shown, same⟩ := shape
  rw [same]

theorem live_finish (r : Run) (i : Nat) (t : Task) (result : Except ConnectError (Option Nat)) :
    (r.finish i t result).live = useLive t .hangUp r.live := by
  rw [finish_eq]
  exact live_changeReader _ t .hangUp

theorem answer_eq (r : Run) (i : Nat) (t : Task) (b : Line.Builtin) :
    ∃ (shown : List Shown) (leaving : Bool), r.answer i t b = finish { r.writeOut i t
      (utf8 (b.output (CommandLog.read r.logPath r.files) r.capture))
      (utf8 (b.output (CommandLog.read r.logPath r.files) r.capture)).length with shown, leaving }
      i t (.ok none) := by
  unfold answer
  dsimp only
  repeat' split
  all_goals exact ⟨_, _, rfl⟩

theorem live_answer (r : Run) (i : Nat) (t : Task) (b : Line.Builtin) :
    (r.answer i t b).live = useLive t .hangUp r.live := by
  obtain ⟨shown, leaving, same⟩ := answer_eq r i t b
  rw [same, live_finish]
  exact congrArg (useLive t .hangUp) (live_writeOut r i t _ _)

theorem live_step (r : Run) (e : Event) (other : e ≠ .takeLine) : (r.step e).live =
    (handles r e).elim r.live fun (t, f) => useLive t f r.live := by
  have handling {f : Task → Run} {g : Reader → Reader} (i : Nat)
      (each : ∀ t, (f t).live = useLive t g r.live) : (r.onCommand i f).live =
        ((r.command? i).map (·, g)).elim r.live fun (t, f) => useLive t f r.live := by
    rw [onCommand_eq]
    cases r.command? i with
    | none => rfl
    | some t => exact each t
  cases e with
  | write i data accepts =>
    exact onCommand_keeps (·.live) i fun t => live_writeOut r i t data accepts
  | complain i data => exact onCommand_keeps (·.live) i fun t => by split <;> rfl
  | flush i stream => exact onCommand_keeps (·.live) i fun t => by split <;> rfl
  | shutdown i stream => exact onCommand_keeps (·.live) i fun t => by split <;> rfl
  | read i => exact handling i fun t => live_changeReader r t .read
  | hangUp i => exact handling i fun t => live_changeReader r t .hangUp
  | finish i result => exact handling i fun t => live_finish r i t result
  | answer i =>
    rw [step_answer]
    simp only [handles]
    cases r.builtin? i with
    | none => rfl
    | some both => exact live_answer r i both.1 both.2
  | takeLine => exact absurd rfl other
  | _ => rfl

/-- Only the user, and what takes a line, have to do with the input. -/
theorem input_step (r : Run) {e : Event} (taking : e ≠ .takeLine) (typing : ∀ line, e ≠ .type line)
    (ending : e ≠ .endInput) : (r.step e).input = r.input := by
  have changing (q : Run) (t : Task) (f : Reader → Reader) :
      (q.changeReader t f).input = q.input := by
    unfold changeReader
    split <;> rfl
  have writing (i : Nat) (t : Task) (data : Bytes) (accepts : Nat) :
      (r.writeOut i t data accepts).input = r.input := by
    unfold writeOut record
    dsimp only
    repeat' split
    all_goals rfl
  have finishing (q : Run) (i : Nat) (t : Task) (result : Except ConnectError (Option Nat)) :
      (q.finish i t result).input = q.input := by
    rw [finish_eq]
    exact changing _ t .hangUp
  cases e with
  | write i data accepts => exact onCommand_keeps (·.input) i fun t => writing i t data accepts
  | complain i data => exact onCommand_keeps (·.input) i fun t => by split <;> rfl
  | flush i stream => exact onCommand_keeps (·.input) i fun t => by split <;> rfl
  | shutdown i stream => exact onCommand_keeps (·.input) i fun t => by split <;> rfl
  | read i => exact onCommand_keeps (·.input) i fun t => changing r t .read
  | hangUp i => exact onCommand_keeps (·.input) i fun t => changing r t .hangUp
  | finish i result => exact onCommand_keeps (·.input) i fun t => finishing r i t result
  | answer i =>
    rw [step_answer]
    cases r.builtin? i with
    | none => rfl
    | some both =>
      obtain ⟨t, b⟩ := both
      obtain ⟨shown, leaving, same⟩ := answer_eq r i t b
      rw [Option.elim_some]
      dsimp only
      rw [same, finishing]
      exact writing i t _ _
  | takeLine => exact absurd rfl taking
  | type line => exact absurd rfl (typing line)
  | endInput => exact absurd rfl ending
  | _ => rfl

end Flotilla.Shell.Run
