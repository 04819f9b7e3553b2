import Flotilla.Proofs.Shell.Piping

/-!
# Nothing is lost in a pipe

Whatever happens while a statement runs, each of its pipes brings what was accepted from the tasks
before it to the tasks behind it, once and in order.  The proof weighs the acts that a pipe goes
through, its `history`, and reads from the events who has caused them.
-/

namespace Flotilla.Shell.Run

open Line (Statement)

/-- All chunks that pipe `k` has accepted, each after the place of its writer. -/
def log (started : Run) (events : List Event) (k : Nat) : List (Nat × Bytes) :=
  observe step (puts k) started events

/-- All that has happened to pipe `k`. -/
def history (started : Run) (events : List Event) (k : Nat) : List Pipe.Act :=
  observe step (traffic k) started events

/-- How task `j` is served, which reads from pipe `k` at place `i` and has the reader `rd` there. -/
structure Served (started : Run) (events : List Event) (k j i : Nat) (rd : Reader) : Prop where
  /-- It listens until it hangs up. -/
  closes : rd.listening = false ↔ .hangUp i ∈ history started events k
  /-- It has got the first of the chunks that were accepted. -/
  part : observe step (gets j) started events <+: (log started events k).map (·.2)
  /-- If it listens it has got all of them but those on their way, which are then the last. -/
  whole : rd.listening = true → ∃ p, (started.steps events).pipes[k]? = some p ∧
    observe step (gets j) started events ++ rd.waiting ++ p.chunks =
      (log started events k).map (·.2)
  /-- And these can come to it, and the end after them once no writer runs. -/
  later : rd.listening = true →
    (∀ t, (started.steps events).tasks[j]? = some t → t.running = true) →
    ∃ more : List Event, (∀ e ∈ more, e = .carry k ∨ e = .read j) ∧
      observe step (gets j) started (events ++ more) = (log started events k).map (·.2) ∧
      ((∀ t ∈ (started.steps events).tasks, t.sink = some k → t.running = false) →
        ∃ p last, (started.steps (events ++ more)).pipes[k]? = some p ∧
          p.readers[i]? = some last ∧ last.isAtEnd = true)
  /-- It does not see the end before it has got everything and no writer runs. -/
  atEnd : rd.listening = true → rd.isAtEnd = true →
    observe step (gets j) started events = (log started events k).map (·.2) ∧
      ∀ t ∈ (started.steps events).tasks, t.sink = some k → t.running = false
  /-- Had another reader not hung up, all would be the same for this one. -/
  others : ∀ p, started.pipes[k]? = some p → ∀ c ≠ i,
    let without := (history started events k).filter (· ≠ .hangUp c)
    observe Pipe.act (Pipe.gave i) p without = observe step (gets j) started events ∧
      Pipe.view i (p.acts without) = Pipe.view i (p.acts (history started events k))

/-- What is to be said of pipe `k` after some events. -/
structure Conveys (started : Run) (events : List Event) (k : Nat) : Prop where
  /-- Of each task that writes into the pipe it has accepted what the task has had accepted, in
  its order, and nothing of any other. -/
  writers : ∀ i t, started.tasks[i]? = some t →
    ((log started events k).filter (·.1 = i)).map (·.2) =
      if t.sink = some k then observe step (wrote i) started events else []
  readers : ∀ j t i, started.tasks[j]? = some t → t.source = .pipe k i →
    ∃ p rd, (started.steps events).pipes[k]? = some p ∧ p.readers[i]? = some rd ∧
      Served started events k j i rd
  /-- A chunk of a task that runs is refused only if no reader listens. -/
  refused : ∀ p t, (started.steps events).pipes[k]? = some p →
    t ∈ (started.steps events).tasks → t.running = true → t.sink = some k →
    ∀ data n, data ≠ [] → (started.steps events).accepted t data n = [] →
      ∀ rd ∈ p.readers, rd.listening = false

theorem accepts_eq_some {r : Run} {e : Event} {i : Nat} {t : Task} {chunk : Bytes}
    (accepted : r.accepts e = some (i, t, chunk)) : r.tasks[i]? = some t := by
  obtain ⟨⟨j, u, data, n⟩, offered, taken⟩ := Option.bind_eq_some_iff.mp accepted
  dsimp only at taken
  split at taken
  · cases taken
  obtain ⟨rfl, rfl, -⟩ : j = i ∧ u = t ∧ _ := by simpa using taken
  cases e with
  | write i' data' n' =>
    obtain ⟨v, found, same⟩ := Option.map_eq_some_iff.mp offered
    obtain ⟨rfl, rfl, -⟩ : i' = j ∧ v = u ∧ _ := by simpa using same
    exact (command?_eq_some.mp found).1
  | answer i' =>
    obtain ⟨⟨v, b⟩, found, same⟩ := Option.map_eq_some_iff.mp offered
    obtain ⟨rfl, rfl, -⟩ : i' = j ∧ v = u ∧ _ := by simpa using same
    exact (builtin?_eq_some.mp found).1
  | _ => cases offered

theorem puts_of_task {r : Run} {k i : Nat} {t : Task} (here : r.tasks[i]? = some t) (e : Event) :
    ((puts k r e).filter (·.1 = i)).map (·.2) = if t.sink = some k then wrote i r e else [] := by
  unfold puts wrote
  cases accepted : r.accepts e with
  | none => simp
  | some write =>
    obtain ⟨j, u, chunk⟩ := write
    have there := accepts_eq_some accepted
    by_cases same : j = i
    · subst same
      obtain rfl : u = t := Option.some.inj (there.symm.trans here)
      by_cases mine : u.sink = some k <;> simp [mine]
    · by_cases mine : u.sink = some k <;> simp [mine, same]

theorem log_of_task {r : Run} {k i : Nat} {t : Task} (here : r.tasks[i]? = some t)
    (events : List Event) : ((log r events k).filter (·.1 = i)).map (·.2) =
      if t.sink = some k then observe step (wrote i) r events else [] := by
  induction events generalizing r t with
  | nil => exact (ite_self _).symm
  | cons e events ih =>
    obtain ⟨f, same, tasks⟩ := getElem?_tasks_step r e i
    have still : (f t).sink = t.sink := by
      rcases same t with stays | ends
      · rw [stays]
      · rw [ends]
        rfl
    have later := ih (t := f t) (by rw [tasks, here]; rfl)
    rw [log, observe, List.filter_append, List.map_append, puts_of_task here, observe]
    rw [log, still] at later
    rw [later]
    split <;> rfl

/-- What has come of a pipe, in terms of the events. -/
theorem history_balanced {started : Run} (laid : Laid started) {k : Nat} {p : Pipe}
    (here : started.pipes[k]? = some p) (b : p.Balanced [] fun _ => []) (events : List Event) :
    (p.acts (history started events k)).Balanced ((log started events k).map (·.2))
      fun i => observe Pipe.act (Pipe.gave i) p (history started events k) :=
  (b.acts (history started events k)).of_eq
    ((observe_traffic laid here events).1.symm.trans (List.nil_append _).symm)
    fun _ => (List.nil_append _).symm

/-- The event by which a task reads, or its pipe carries. -/
def serving (k j : Nat) : Pipe.Act → Event
  | .read _ => .read j
  | _ => .carry k

theorem history_serving {r : Run} {k j i : Nat} {t : Task} (found : r.command? j = some t)
    (mine : t.placeAt (some k) = some i) {as : List Pipe.Act}
    (serves : ∀ a ∈ as, a = .carry ∨ a = .read i) :
    history r (as.map (serving k j)) k = as := by
  induction as generalizing r with
  | nil => rfl
  | cons a as ih =>
    have act : traffic k r (serving k j a) = [a] ∧ ends r (serving k j a) = none := by
      rcases serves a List.mem_cons_self with rfl | rfl
      · simp [serving, traffic, ends]
      · simp [serving, traffic, ends, found, uses, mine]
    have tasks : (r.step (serving k j a)).tasks = r.tasks := by
      rw [tasks_step, act.2]
      rfl
    have still : (r.step (serving k j a)).command? j = some t := by
      rw [command?, tasks]
      exact found
    have later := ih still fun b member => serves b (List.mem_cons_of_mem a member)
    rw [history] at later ⊢
    rw [List.map_cons, observe, act.1, later]
    rfl

theorem took_serving {i : Nat} {as : List Pipe.Act} (serves : ∀ a ∈ as, a = .carry ∨ a = .read i)
    (p : Pipe) : observe Pipe.act Pipe.took p as = [] := by
  induction as generalizing p with
  | nil => rfl
  | cons a as ih =>
    have later := ih (fun b member => serves b (List.mem_cons_of_mem a member)) (p.act a)
    rcases serves a List.mem_cons_self with rfl | rfl
    · exact later
    · exact later

theorem history_append (started : Run) (events more : List Event) (k : Nat) :
    history started (events ++ more) k =
      history started events k ++ history (started.steps events) more k :=
  observe_append step (traffic k) started events more

/-- A run all of whose pipes have just been joined. -/
structure Joined (started : Run) : Prop where
  laid : Laid started
  pipes : ∀ (k : Nat) p, started.pipes[k]? = some p →
    p.Balanced [] (fun _ => []) ∧ ∀ rd ∈ p.readers, rd.listening = true

variable {started : Run}

theorem Joined.pipe_of_reader (joined : Joined started) {k j i : Nat} {t : Task}
    (here : started.tasks[j]? = some t) (source : t.source = .pipe k i) :
    ∃ p rd, started.pipes[k]? = some p ∧ p.readers[i]? = some rd := by
  have mine : t.placeAt (some k) = some i := placeAt_eq_some.mpr source
  obtain ⟨rd, reader⟩ := joined.laid.reader_of_place (List.mem_of_getElem? here) mine
  cases pipe : started.pipes[k]? with
  | none => simp [readersAt, pipe] at reader
  | some p => exact ⟨p, rd, rfl, by simpa [readersAt, pipe] using reader⟩

theorem no_writer_runs {r : Run} (laid : Laid r) {k : Nat} {p : Pipe}
    (here : r.pipes[k]? = some p) :
    p.writers = 0 ↔ ∀ t ∈ r.tasks, t.sink = some k → t.running = false := by
  rw [laid.writers k p here, List.countP_eq_zero]
  refine forall_congr' fun t => forall_congr' fun _ => ?_
  cases t.running <;> simp

theorem Joined.command?_of_running (joined : Joined started) {k j i : Nat} {t : Task}
    (here : started.tasks[j]? = some t) (source : t.source = .pipe k i) {events : List Event}
    (running : ∀ t, (started.steps events).tasks[j]? = some t → t.running = true) :
    (started.steps events).command? j = some t := by
  obtain ⟨u, there, same⟩ := getElem?_tasks_steps here events
  have runs := running u there
  obtain rfl : u = t := by
    rcases same with same | rfl
    · exact same
    · cases runs
  -- A built-in would read from nowhere.
  have command : u.isRecorded = true := by
    unfold Task.isRecorded
    split
    next b venue =>
      have nowhere := joined.laid.builtins u (List.mem_of_getElem? here) b venue
      rw [source] at nowhere
      cases nowhere
    next => rfl
  exact command?_eq_some.mpr ⟨there, runs, command⟩

/-- How a pipe has served one of its readers. -/
theorem Joined.served (joined : Joined started) {events : List Event} {k j i : Nat} {t : Task}
    {p₀ : Pipe} {rd : Reader} (here : started.tasks[j]? = some t) (source : t.source = .pipe k i)
    (wired : started.pipes[k]? = some p₀)
    (reader : (p₀.acts (history started events k)).readers[i]? = some rd) :
    Served started events k j i rd := by
  have mine : t.placeAt (some k) = some i := placeAt_eq_some.mpr source
  obtain ⟨fresh, listened⟩ := joined.pipes k p₀ wired
  have got (events : List Event) : observe Pipe.act (Pipe.gave i) p₀ (history started events k) =
      observe step (gets j) started events :=
    (observe_traffic joined.laid wired events).2 j i t here mine
  have put (events : List Event) : observe Pipe.act Pipe.took p₀ (history started events k) =
      (log started events k).map (·.2) := (observe_traffic joined.laid wired events).1
  have b (events : List Event) := history_balanced joined.laid wired fresh events
  have pipe (events : List Event) : (started.steps events).pipes[k]? =
      some (p₀.acts (history started events k)) := by
    rw [pipes_steps, wired]
    rfl
  constructor
  case closes =>
    obtain ⟨old, before, listens⟩ := Pipe.listening_acts reader
    rw [listened old (List.mem_of_getElem? before)] at listens
    rw [← Bool.not_eq_true, listens]
    simp
  case part =>
    rw [← got]
    exact (b events).got_isPrefix reader
  case whole =>
    intro listens
    refine ⟨_, pipe events, ?_⟩
    rw [← got]
    exact ((b events).listening i rd reader listens).1
  case later =>
    intro listens running
    obtain ⟨as, last, serves, there, listening, read, empty, finished⟩ :=
      (b events).serve_out reader listens
    have whole : history started (events ++ as.map (serving k j)) k =
        history started events k ++ as := by
      have found := joined.command?_of_running here source running
      rw [history_append, history_serving found mine serves]
    rw [← Pipe.acts_append, ← whole] at there empty
    refine ⟨as.map (serving k j), fun e member => ?_, ?_, fun stopped => ?_⟩
    · obtain ⟨a, act, rfl⟩ := List.mem_map.mp member
      rcases serves a act with rfl | rfl
      · exact .inl rfl
      · exact .inr rfl
    · obtain ⟨all, -⟩ := (b (events ++ as.map (serving k j))).listening i last there listening
      rw [read, empty, List.append_nil, List.append_nil, got] at all
      rw [all, ← put, ← put, whole, observe_append, took_serving serves, List.append_nil]
    · have ended := finished ((no_writer_runs (joined.laid.steps events) (pipe events)).mpr stopped)
      exact ⟨_, last, pipe _, there, by simp [Reader.isAtEnd, read, ended]⟩
  case atEnd =>
    intro listens ended
    obtain ⟨read, unfed⟩ : rd.waiting = [] ∧ rd.fed = false := by
      simpa [Reader.isAtEnd] using ended
    obtain ⟨all, fed⟩ := (b events).listening i rd reader listens
    obtain ⟨empty, finished⟩ := (b events).stopped (fed.symm.trans unfed)
    rw [read, empty, List.append_nil, List.append_nil] at all
    refine ⟨(got events).symm.trans all, ?_⟩
    exact (no_writer_runs (joined.laid.steps events) (pipe events)).mp
      (finished rd (List.mem_of_getElem? reader) listens)
  case others =>
    intro p same c other
    obtain rfl : p₀ = p := Option.some.inj (wired.symm.trans same)
    dsimp only
    rw [← got]
    exact (fresh.closing_unnoticed other _).symm

theorem start_joined (r : Run) (hosts : List String) (line : String) (s : Statement) :
    Joined (r.start hosts line s) := by
  refine ⟨start_laid r hosts line s, fun k p here => ?_⟩
  obtain ⟨readers, rfl⟩ := (start_plumbed r hosts line s).2.1 k p here
  refine ⟨Pipe.balanced_join _ _, fun rd member => ?_⟩
  obtain ⟨-, rfl⟩ := List.mem_replicate.mp member
  rfl

/-- Every pipe of a statement brings what it accepts to all that read from it, whatever happens. -/
theorem start_conveys (r : Run) (hosts : List String) (line : String) (s : Statement)
    (events : List Event) (k : Nat) : Conveys (r.start hosts line s) events k := by
  have joined := start_joined r hosts line s
  generalize r.start hosts line s = started at joined
  have pipe {p₀ : Pipe} (wired : started.pipes[k]? = some p₀) :
      (started.steps events).pipes[k]? = some (p₀.acts (history started events k)) := by
    rw [pipes_steps, wired]
    rfl
  constructor
  case writers => exact fun i t here => log_of_task here events
  case readers =>
    intro j t i here source
    obtain ⟨p₀, rd₀, wired, before⟩ := joined.pipe_of_reader here source
    have inside : i < (p₀.acts (history started events k)).readers.length := by
      rw [length_readers_acts]
      exact (List.getElem?_eq_some_iff.mp before).1
    have reader := List.getElem?_eq_getElem inside
    exact ⟨_, _, pipe wired, reader, joined.served here source wired reader⟩
  case refused =>
    intro p t here member running sink data n some_ refused rd reader
    rw [Bool.eq_false_iff]
    intro listens
    have laid := joined.laid.steps events
    have halted : p.carries = false := by
      cases carries : p.carries with
      | false => rfl
      | true => exact absurd (by simpa [accepted, sink, here, carries] using refused) some_
    obtain ⟨p₀, wired, rfl⟩ : ∃ p₀, started.pipes[k]? = some p₀ ∧
        p₀.acts (history started events k) = p := by
      rw [pipes_steps] at here
      exact Option.map_eq_some_iff.mp here
    have b := history_balanced joined.laid wired (joined.pipes k p₀ wired).1 events
    have finished := (b.stopped halted).2 rd reader listens
    have ended := (no_writer_runs laid here).mp finished t member sink
    rw [ended] at running
    cases running

end Flotilla.Shell.Run
