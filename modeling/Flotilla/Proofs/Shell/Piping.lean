import Flotilla.Proofs.Shell.Plumbing
import Flotilla.Proofs.Shell.Steps
import Flotilla.Proofs.Shell.Traffic

/-!
# What the pipes of a running statement bring

An event of a run is for each of its pipes a list of acts, its `traffic`.
-/

namespace Flotilla.Shell.Run

open Line (Statement Segment Venue)

/-- What a built-in puts out. -/
def output (r : Run) (b : Line.Builtin) : Bytes :=
  utf8 (b.output (CommandLog.read r.logPath r.files) r.capture)

/-- What pipe `k` has of a chunk that a task writes. -/
def writes (k : Nat) (t : Task) (data : Bytes) : List Pipe.Act :=
  if t.sink = some k ∧ data ≠ [] then [.write data] else []

/-- What pipe `k` has of what a task does with its reader. -/
def uses (k : Nat) (t : Task) (act : Nat → Pipe.Act) : List Pipe.Act :=
  ((t.placeAt (some k)).map act).toList

/-- What pipe `k` has of the end of a task. -/
def leaves (k : Nat) (t : Task) : List Pipe.Act :=
  uses k t .hangUp ++ if t.sink = some k then [.finishWriter] else []

/-- What pipe `k` has of an event. -/
def traffic (k : Nat) (r : Run) : Event → List Pipe.Act
  | .write i data _ => (r.command? i).elim [] (writes k · data)
  | .read i => (r.command? i).elim [] (uses k · .read)
  | .hangUp i => (r.command? i).elim [] (uses k · .hangUp)
  | .finish i _ => (r.command? i).elim [] (leaves k)
  | .answer i => (r.builtin? i).elim [] fun (t, b) => writes k t (r.output b) ++ leaves k t
  | .carry j => if j = k then [.carry] else []
  | _ => []

theorem pipes_changeReader (k : Nat) (r : Run) (t : Task) (f : Reader → Reader)
    (act : Nat → Pipe.Act) (acts : ∀ (p : Pipe) i, p.act (act i) = p.changeReader i f) :
    (r.changeReader t f).pipes[k]? = (r.pipes[k]?).map (·.acts (uses k t act)) := by
  unfold changeReader uses Task.placeAt
  cases source : t.source with
  | pipe j i =>
    by_cases same : k = j
    · subst same
      simp [Pipe.acts, acts]
    · simp [Ne.symm same, same, Pipe.acts]
  | _ => simp [Pipe.acts]

theorem pipes_record (r : Run) (t : Task) (data : Bytes) : (r.record t data).pipes = r.pipes := by
  unfold record
  repeat' split
  all_goals rfl

theorem pipes_writeOut (k : Nat) (r : Run) (i : Nat) (t : Task) (data : Bytes) (accepts : Nat) :
    (r.writeOut i t data accepts).pipes[k]? = (r.pipes[k]?).map (·.acts (writes k t data)) := by
  have id_acts : (r.pipes[k]?).map (·.acts []) = r.pipes[k]? := by simp [Pipe.acts]
  by_cases mine : t.sink = some k
  · cases here : r.pipes[k]? with
    | none => simp [writeOut, accepted, mine, here]
    | some p =>
      have taken : r.accepted t data accepts = if p.carries then data else [] := by
        simp [accepted, mine, here]
      unfold writeOut
      rw [taken]
      cases carries : p.carries <;> by_cases empty : data = [] <;>
        simp [carries, empty, writes, mine, here, Pipe.acts, Pipe.act, Pipe.write, pipes_record]
  · have elsewhere : writes k t data = [] := if_neg fun both => mine both.1
    rw [elsewhere, id_acts]
    unfold writeOut
    dsimp only
    split
    · rfl
    rw [pipes_record]
    split
    next j sink =>
      have different : j ≠ k := fun same => mine (same ▸ sink)
      simp [different]
    next => rfl

theorem pipes_hungUp (k : Nat) (r : Run) (i : Nat) (t : Task) :
    (r.hungUp i t).pipes[k]? = (r.pipes[k]?).map (·.acts (uses k t .hangUp)) :=
  pipes_changeReader k { r with tasks := r.tasks.modify i ended } t .hangUp .hangUp fun _ _ => rfl

theorem pipes_finish (k : Nat) (r : Run) (i : Nat) (t : Task)
    (result : Except ConnectError (Option Nat)) :
    (r.finish i t result).pipes[k]? = (r.pipes[k]?).map (·.acts (leaves k t)) := by
  have hung := pipes_hungUp k r i t
  rw [finish_eq, leaves]
  dsimp only
  cases sink : t.sink with
  | none => simpa using hung
  | some j =>
    by_cases same : j = k
    · subst same
      simp only [Option.elim_some, List.getElem?_modify_eq, hung, if_true]
      cases r.pipes[j]? with
      | none => rfl
      | some p =>
        exact congrArg some (Pipe.acts_append p (uses j t .hangUp) [.finishWriter]).symm
    · simp [same, hung]

theorem pipes_answer (k : Nat) (r : Run) (i : Nat) (t : Task) (b : Line.Builtin) :
    (r.answer i t b).pipes[k]? =
      (r.pipes[k]?).map (·.acts (writes k t (r.output b) ++ leaves k t)) := by
  have wrote := pipes_writeOut k r i t (r.output b) (r.output b).length
  obtain ⟨shown, leaving, same⟩ := answer_eq r i t b
  rw [same, pipes_finish]
  change ((r.writeOut i t (r.output b) (r.output b).length).pipes[k]?).map _ = _
  rw [wrote, Option.map_map]
  congr 1
  funext p
  exact (Pipe.acts_append p _ _).symm

/-- What an event does to a pipe. -/
theorem pipes_step (k : Nat) (r : Run) (e : Event) :
    (r.step e).pipes[k]? = (r.pipes[k]?).map (·.acts (traffic k r e)) := by
  have idle : r.pipes[k]? = (r.pipes[k]?).map (·.acts []) := by simp [Pipe.acts]
  have onCommand {f : Task → Run} {g : Task → List Pipe.Act} (i : Nat)
      (each : ∀ t, (f t).pipes[k]? = (r.pipes[k]?).map (·.acts (g t))) :
      (r.onCommand i f).pipes[k]? = (r.pipes[k]?).map (·.acts ((r.command? i).elim [] g)) := by
    rw [onCommand_eq]
    cases r.command? i with
    | none => exact idle
    | some t => exact each t
  have quiet {f : Task → Run} (i : Nat) (each : ∀ t, (f t).pipes = r.pipes) :
      (r.onCommand i f).pipes[k]? = (r.pipes[k]?).map (·.acts []) := by
    rw [← idle]
    exact congrArg (·[k]?) (onCommand_keeps (·.pipes) i each)
  cases e with
  | write i data accepts => exact onCommand i fun t => pipes_writeOut k r i t data accepts
  | complain i data => exact quiet i fun t => by split <;> rfl
  | flush i stream => exact quiet i fun t => by split <;> rfl
  | shutdown i stream => exact quiet i fun t => by split <;> rfl
  | read i => exact onCommand i fun t => pipes_changeReader k r t .read .read fun _ _ => rfl
  | hangUp i => exact onCommand i fun t => pipes_changeReader k r t .hangUp .hangUp fun _ _ => rfl
  | finish i result => exact onCommand i fun t => pipes_finish k r i t result
  | answer i =>
    rw [step_answer, traffic]
    cases r.builtin? i with
    | none => exact idle
    | some both => exact pipes_answer k r i both.1 both.2
  | carry j =>
    by_cases same : j = k
    · subst same
      simp [step, traffic, Pipe.acts, Pipe.act]
    · simp [step, traffic, same, Pipe.acts]
  | takeLine =>
    have same : r.takeLine.pipes = r.pipes := by
      unfold takeLine
      repeat' split
      all_goals rfl
    exact (congrArg (·[k]?) same).trans idle
  | _ => exact idle

theorem writers_act (p : Pipe) (a : Pipe.Act) :
    (p.act a).writers = p.writers - if a = .finishWriter then 1 else 0 := by
  cases a with
  | write chunk =>
    simp only [Pipe.act, Pipe.write]
    split <;> rfl
  | carry =>
    simp only [Pipe.act, Pipe.carry]
    repeat' split
    all_goals first | rfl | contradiction
  | _ => rfl

theorem writers_acts (p : Pipe) (as : List Pipe.Act) :
    (p.acts as).writers = p.writers - as.count .finishWriter := by
  induction as generalizing p with
  | nil => rfl
  | cons a as ih =>
    rw [Pipe.acts_cons, ih, writers_act, List.count_cons, Nat.sub_sub]
    simp [Nat.add_comm]

theorem count_traffic (k : Nat) (r : Run) (e : Event) :
    (traffic k r e).count .finishWriter =
      (ends r e).elim 0 fun (_, t) => if t.sink = some k then 1 else 0 := by
  have leaving (t : Task) : (leaves k t).count .finishWriter = if t.sink = some k then 1 else 0 := by
    unfold leaves uses
    cases t.placeAt (some k) <;> split <;> simp
  have writing (t : Task) (data : Bytes) : (writes k t data).count .finishWriter = 0 := by
    unfold writes
    split <;> simp
  cases e with
  | write i data accepts =>
    simp only [traffic, ends]
    cases r.command? i <;> simp [writing]
  | read i =>
    simp only [traffic, ends, uses]
    cases r.command? i with
    | none => rfl
    | some t => cases placed : t.placeAt (some k) <;> simp [placed]
  | hangUp i =>
    simp only [traffic, ends, uses]
    cases r.command? i with
    | none => rfl
    | some t => cases placed : t.placeAt (some k) <;> simp [placed]
  | finish i result =>
    simp only [traffic, ends]
    cases r.command? i <;> simp [leaving]
  | answer i =>
    simp only [traffic, ends]
    cases r.builtin? i <;> simp [leaving, writing]
  | carry j =>
    simp only [traffic, ends]
    split <;> rfl
  | _ => rfl

theorem length_readers_acts (p : Pipe) (as : List Pipe.Act) :
    (p.acts as).readers.length = p.readers.length := by
  induction as generalizing p with
  | nil => rfl
  | cons a as ih =>
    rw [Pipe.acts_cons, ih]
    cases a with
    | write chunk =>
      simp only [Pipe.act, Pipe.write]
      split <;> rfl
    | carry =>
      obtain ⟨f, -, readers⟩ := Pipe.readers_carry p
      rw [Pipe.act, readers, List.length_map]
    | finishWriter => rfl
    | read i => exact List.length_modify _ _ _
    | hangUp i => exact List.length_modify _ _ _

theorem length_live_step (r : Run) (e : Event) : (r.step e).live.length = r.live.length := by
  by_cases taking : e = .takeLine
  · subst taking
    simp only [step, takeLine, endLive]
    repeat' split
    all_goals first | rfl | exact List.length_map _
  · rw [live_step r e taking]
    cases handles r e with
    | none => rfl
    | some both =>
      simp only [Option.elim_some, useLive]
      split
      · exact List.length_modify _ _ _
      · rfl

theorem length_readersAt_step (r : Run) (e : Event) (inlet : Option Nat) :
    ((r.step e).readersAt inlet).length = (r.readersAt inlet).length := by
  cases inlet with
  | none => exact length_live_step r e
  | some k =>
    rw [readersAt, readersAt, pipes_step]
    cases r.pipes[k]? with
    | none => rfl
    | some p => exact length_readers_acts p _

theorem places_modify_ended (tasks : List Task) (i : Nat) (inlet : Option Nat) :
    (tasks.modify i ended).filterMap (·.placeAt inlet) = tasks.filterMap (·.placeAt inlet) := by
  induction tasks generalizing i with
  | nil => rw [List.modify_nil]
  | cons t tasks ih =>
    cases i with
    | zero => rfl
    | succ i =>
      rw [List.modify_succ_cons, List.filterMap_cons, List.filterMap_cons, ih]

theorem countP_modify_ended {tasks : List Task} {i : Nat} {t : Task} (here : tasks[i]? = some t)
    (running : t.running = true) (k : Nat) :
    ((tasks.modify i ended).countP fun t => t.running && t.sink = some k) =
      (tasks.countP fun t => t.running && t.sink = some k) - if t.sink = some k then 1 else 0 := by
  induction tasks generalizing i with
  | nil => cases here
  | cons u tasks ih =>
    cases i with
    | zero =>
      obtain rfl : u = t := by simpa using here
      simp [List.countP_cons, ended, running]
    | succ i =>
      have there : tasks[i]? = some t := by simpa using here
      have counted : (if t.sink = some k then 1 else 0) ≤
          tasks.countP fun t => t.running && t.sink = some k := by
        split
        next sink =>
          refine List.countP_pos_iff.mpr ⟨t, List.mem_of_getElem? there, ?_⟩
          simp [running, sink]
        next => exact Nat.zero_le _
      rw [List.modify_succ_cons, List.countP_cons, List.countP_cons, ih there]
      omega

/-- What wiring has laid stays so. -/
theorem Laid.step {r : Run} (laid : Laid r) (e : Event) : Laid (r.step e) := by
  have tasks := tasks_step r e
  refine ⟨fun inlet => ?_, fun k p here => ?_, fun t member b venue => ?_⟩
  · rw [length_readersAt_step, ← laid.places, tasks]
    cases ends r e with
    | none => rfl
    | some both => exact places_modify_ended _ _ _
  · rw [pipes_step] at here
    obtain ⟨q, before, rfl⟩ := Option.map_eq_some_iff.mp here
    rw [writers_acts, count_traffic, laid.writers k q before, tasks]
    cases ending : ends r e with
    | none => rfl
    | some both =>
      obtain ⟨found, running⟩ := ends_eq_some ending
      exact (countP_modify_ended found running k).symm
  · obtain ⟨i, here⟩ := List.mem_iff_getElem?.mp member
    obtain ⟨f, same, tasks⟩ := getElem?_tasks_step r e i
    obtain ⟨u, before, rfl⟩ := Option.map_eq_some_iff.mp (tasks ▸ here)
    rcases same u with stays | ends
    · rw [stays] at venue ⊢
      exact laid.builtins u (List.mem_of_getElem? before) b venue
    · rw [ends] at venue ⊢
      exact laid.builtins u (List.mem_of_getElem? before) b venue

theorem Laid.steps {r : Run} (laid : Laid r) (events : List Event) : Laid (r.steps events) := by
  induction events generalizing r with
  | nil => exact laid
  | cons e events ih => exact ih (laid.step e)

theorem pipes_steps (k : Nat) (r : Run) (events : List Event) : (r.steps events).pipes[k]? =
    (r.pipes[k]?).map (·.acts (observe step (traffic k) r events)) := by
  induction events generalizing r with
  | nil => simp [steps, observe, Pipe.acts]
  | cons e events ih =>
    have later := ih (r.step e)
    rw [pipes_step, Option.map_map] at later
    refine later.trans ?_
    congr 1
    funext p
    exact (Pipe.acts_append p _ _).symm

/-- What an event offers to the output of a task: the task with its place, the chunk, and how much
of it would be shown. -/
def offer (r : Run) : Event → Option (Nat × Task × Bytes × Nat)
  | .write i data accepts => (r.command? i).map (i, ·, data, accepts)
  | .answer i => (r.builtin? i).map fun (t, b) => (i, t, r.output b, (r.output b).length)
  | _ => none

/-- What of that is accepted. -/
def accepts (r : Run) (e : Event) : Option (Nat × Task × Bytes) :=
  (r.offer e).bind fun (i, t, data, n) =>
    if r.accepted t data n = [] then none else some (i, t, r.accepted t data n)

/-- The chunk of task `i` that an event has accepted. -/
def wrote (i : Nat) (r : Run) (e : Event) : List Bytes :=
  match r.accepts e with
  | some (j, _, chunk) => if j = i then [chunk] else []
  | none => []

/-- The chunk that an event has accepted into pipe `k`, after the place of its writer. -/
def puts (k : Nat) (r : Run) (e : Event) : List (Nat × Bytes) :=
  match r.accepts e with
  | some (i, t, chunk) => if t.sink = some k then [(i, chunk)] else []
  | none => []

theorem took_leaves (k : Nat) (t : Task) (p : Pipe) :
    observe Pipe.act Pipe.took p (leaves k t) = [] := by
  unfold leaves uses
  cases t.placeAt (some k) <;> split <;> rfl

theorem took_writes {k : Nat} {r : Run} {p : Pipe} (here : r.pipes[k]? = some p) (t : Task)
    (data : Bytes) (n : Nat) :
    observe Pipe.act Pipe.took p (writes k t data) =
      if t.sink = some k ∧ r.accepted t data n ≠ [] then [r.accepted t data n] else [] := by
  by_cases mine : t.sink = some k
  · have taken : r.accepted t data n = if p.carries then data else [] := by
      simp [accepted, mine, here]
    rw [taken]
    cases carries : p.carries <;> by_cases empty : data = [] <;>
      simp [writes, mine, empty, carries, observe, Pipe.took]
  · simp [writes, mine, observe]

/-- What a pipe takes in by an event. -/
theorem took_traffic {k : Nat} {r : Run} {p : Pipe} (here : r.pipes[k]? = some p) (e : Event) :
    observe Pipe.act Pipe.took p (traffic k r e) = (puts k r e).map (·.2) := by
  have writing (i : Nat) (t : Task) (data : Bytes) (n : Nat)
      (offered : r.offer e = some (i, t, data, n)) :
      observe Pipe.act Pipe.took p (writes k t data) = (puts k r e).map (·.2) := by
    rw [took_writes here t data n, puts, accepts, offered, Option.bind_some]
    by_cases refused : r.accepted t data n = [] <;> by_cases mine : t.sink = some k <;>
      simp [refused, mine]
  have silent (none : r.offer e = none) : [] = (puts k r e).map (·.2) := by
    simp [puts, accepts, none]
  cases e with
  | write i data n =>
    cases found : r.command? i with
    | none => simpa [traffic, found, observe] using silent (by simp [offer, found])
    | some t => simpa [traffic, found] using writing i t data n (by simp [offer, found])
  | answer i =>
    cases found : r.builtin? i with
    | none => simpa [traffic, found, observe] using silent (by simp [offer, found])
    | some both =>
      obtain ⟨t, b⟩ := both
      have wrote := writing i t (r.output b) (r.output b).length (by simp [offer, found])
      simp only [traffic, found, Option.elim_some]
      rw [observe_append, took_leaves, List.append_nil, wrote]
  | finish i result =>
    refine Eq.trans ?_ (silent rfl)
    simp only [traffic]
    cases r.command? i with
    | none => rfl
    | some t => exact took_leaves k t p
  | read i =>
    refine Eq.trans ?_ (silent rfl)
    simp only [traffic, uses]
    cases r.command? i with
    | none => rfl
    | some t => cases placed : t.placeAt (some k) <;> simp [placed, observe, Pipe.took]
  | hangUp i =>
    refine Eq.trans ?_ (silent rfl)
    simp only [traffic, uses]
    cases r.command? i with
    | none => rfl
    | some t => cases placed : t.placeAt (some k) <;> simp [placed, observe, Pipe.took]
  | carry j =>
    refine Eq.trans ?_ (silent rfl)
    simp only [traffic]
    split <;> rfl
  | _ => exact silent rfl

theorem gave_hushed {i : Nat} {as : List Pipe.Act} (hushed : ∀ a ∈ as, ∀ j, a ≠ .read j)
    (p : Pipe) : observe Pipe.act (Pipe.gave i) p as = [] := by
  induction as generalizing p with
  | nil => rfl
  | cons a as ih =>
    have none : p.gave i a = [] := by
      cases a with
      | read j => exact absurd rfl (hushed _ List.mem_cons_self j)
      | _ => rfl
    rw [observe, none, ih fun b member => hushed b (List.mem_cons_of_mem a member)]
    rfl

theorem leaves_hushed {k : Nat} {t : Task} : ∀ a ∈ leaves k t, ∀ j, a ≠ .read j := by
  intro a member j
  unfold leaves uses at member
  cases t.placeAt (some k) <;> split at member <;> simp at member <;> grind

theorem writes_hushed {k : Nat} {t : Task} {data : Bytes} :
    ∀ a ∈ writes k t data, ∀ j, a ≠ .read j := by
  intro a member j
  unfold writes at member
  split at member <;> simp_all

/-- What a pipe gives to the reader of task `j` by an event. -/
theorem gave_traffic {k : Nat} {r : Run} (laid : Laid r) {p : Pipe} (here : r.pipes[k]? = some p)
    {j i : Nat} {t : Task} (there : r.tasks[j]? = some t) (mine : t.placeAt (some k) = some i)
    (e : Event) : observe Pipe.act (Pipe.gave i) p (traffic k r e) = gets j r e := by
  cases e with
  | read j' =>
    simp only [traffic, gets]
    cases found : r.command? j' with
    | none => simp [observe]
    | some u =>
      obtain ⟨where_, -, -⟩ := command?_eq_some.mp found
      by_cases same : j' = j
      · subst same
        obtain rfl : t = u := Option.some.inj (there.symm.trans where_)
        have source := placeAt_eq_some.mp mine
        simp [uses, mine, observe, Pipe.gave, reader?, source, Source.at, here]
      · -- No other task reads at that place.
        have apart (i' : Nat) (placed : u.placeAt (some k) = some i') : i' ≠ i := by
          rintro rfl
          exact same (place_unique (laid.places (some k)) where_ there placed mine)
        cases placed : u.placeAt (some k) with
        | none => simp [uses, placed, observe, same]
        | some i' => simp [uses, placed, observe, Pipe.gave, same, apart i' placed]
  | write i data n =>
    simp only [traffic, gets]
    cases r.command? i with
    | none => rfl
    | some u => exact gave_hushed writes_hushed p
  | answer i =>
    simp only [traffic, gets]
    cases r.builtin? i with
    | none => rfl
    | some both =>
      refine gave_hushed (fun a member => ?_) p
      rcases List.mem_append.mp member with first | second
      · exact writes_hushed a first
      · exact leaves_hushed a second
  | finish i result =>
    simp only [traffic, gets]
    cases r.command? i with
    | none => rfl
    | some u => exact gave_hushed leaves_hushed p
  | hangUp i =>
    simp only [traffic, gets, uses]
    cases r.command? i with
    | none => rfl
    | some u => cases placed : u.placeAt (some k) <;> simp [placed, observe, Pipe.gave]
  | carry j =>
    simp only [traffic, gets]
    split <;> rfl
  | _ => rfl

/-- What a pipe takes in and gives is what its writers have accepted and its readers get. -/
theorem observe_traffic {k : Nat} {r : Run} (laid : Laid r) {p : Pipe}
    (here : r.pipes[k]? = some p) (events : List Event) :
    observe Pipe.act Pipe.took p (observe step (traffic k) r events) =
        (observe step (puts k) r events).map (·.2) ∧
      ∀ j i t, r.tasks[j]? = some t → t.placeAt (some k) = some i →
        observe Pipe.act (Pipe.gave i) p (observe step (traffic k) r events) =
          observe step (gets j) r events := by
  induction events generalizing r p with
  | nil => exact ⟨rfl, fun _ _ _ _ _ => rfl⟩
  | cons e events ih =>
    have next : (r.step e).pipes[k]? = some (p.acts (traffic k r e)) := by
      rw [pipes_step, here]
      rfl
    obtain ⟨took, gave⟩ := ih (laid.step e) next
    refine ⟨?_, fun j i t there mine => ?_⟩
    · rw [observe, observe, observe_append, List.map_append, took_traffic here]
      exact congrArg _ took
    · obtain ⟨f, same, tasks⟩ := getElem?_tasks_step r e j
      have still : (f t).placeAt (some k) = some i := by
        rcases same t with stays | ends
        · rw [stays, mine]
        · rw [ends, ← mine]
          rfl
      have later := gave j i (f t) (by rw [tasks, there]; rfl) still
      rw [observe, observe, observe_append, gave_traffic laid here there mine]
      exact congrArg _ later

end Flotilla.Shell.Run
