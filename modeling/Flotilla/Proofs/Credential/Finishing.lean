import Flotilla.Proofs.Credential.Resolving
import Mathlib.Algebra.Order.BigOperators.Group.List
import Mathlib.Algebra.Order.Ring.Nat

/-!
# Calls come to an end

Tasks that share methods never wait for each other in a circle: whatever turns were taken, there are
turns after which every task has ended (`Sound.exists_finish`), and one task after the other is one
way to get there (`isFinished_inOrder`).
-/

namespace Flotilla

variable {derive : Derivation} {env : Environment} {offer : String → List Credential}
variable {names : List String}

/-- How much a task has still to do. -/
def ResolvingTask.weight (t : ResolvingTask) : Nat :=
  3 * t.pending.length - match t.stage with
    | .ready => 0
    | .working _ => 1
    | .waiting => 1
    | .told _ => 2

namespace Resolving

/-- How much all tasks have still to do. -/
def weight (r : Resolving) : Nat := (r.tasks.map (·.weight)).sum

theorem weight_set_lt {l : List ResolvingTask} {i : Nat} {t t' : ResolvingTask}
    (here : l[i]? = some t) (less : t'.weight < t.weight) :
    ((l.set i t').map (·.weight)).sum < (l.map (·.weight)).sum := by
  induction l generalizing i with
  | nil => simp at here
  | cons u l ih =>
    cases i with
    | zero =>
      obtain rfl : u = t := by simpa using here
      simpa using less
    | succ i => simpa using ih (by simpa using here)

theorem weight_tell_le (env : Environment) (key : Credential.Key)
    (outcome : Except String SharedMethod) (t : ResolvingTask) :
    (t.tell env key outcome).weight ≤ t.weight := by
  rcases t.tell_cases env key outcome with ⟨waiting, -, told⟩ | ⟨-, told⟩
  · rw [told, ResolvingTask.weight, ResolvingTask.weight, waiting]
    dsimp only
    omega
  · rw [told]

theorem weight_take {t : ResolvingTask} {c : Credential} {later : List Credential}
    (next : t.pending = c :: later) (outcome : Except String SharedMethod) :
    (t.take outcome).weight < t.weight := by
  have rest : (t.take outcome).weight = 3 * later.length := by
    unfold ResolvingTask.take
    rw [next]
    cases outcome <;> rfl
  rw [rest, ResolvingTask.weight, next, List.length_cons]
  split <;> omega

variable {r : Resolving}

/-- A turn of a task that does not wait and has something left to do brings all tasks closer to
their end. -/
theorem weight_step_lt {i : Nat} {t : ResolvingTask} (here : r.tasks[i]? = some t)
    (open_ : t.pending ≠ []) (active : t.stage ≠ .waiting) :
    (r.step derive env i).weight < r.weight := by
  have only {u : ResolvingTask} (there : r.tasks[i]? = some u) : u = t :=
    Option.some.inj (there.symm.trans here)
  have moved := moves_step derive env r i
  generalize r.step derive env i = after at moved
  cases moved with
  | rests idle =>
    rcases idle t here with ⟨none, -⟩ | waiting
    · exact absurd none open_
    · exact absurd waiting active
  | ends there none =>
    rw [only there] at none
    exact absurd none open_
  | takes there next =>
    obtain rfl := only there
    exact weight_set_lt here (weight_take next _)
  | @waits u c later there next ready =>
    obtain rfl := only there
    refine weight_set_lt here ?_
    rw [ResolvingTask.weight, ResolvingTask.weight, ready, next, List.length_cons]
    dsimp only
    omega
  | @begins u c later there next ready =>
    obtain rfl := only there
    refine weight_set_lt here ?_
    rw [ResolvingTask.weight, ResolvingTask.weight, ready, next, List.length_cons]
    dsimp only
    omega
  | @finishes u c later derivation there next =>
    obtain rfl := only there
    have taken := weight_set_lt here (weight_take next
      ((derive c).map fun method => { method, derivation }))
    refine Nat.lt_of_le_of_lt ?_ taken
    rw [weight, finish, List.map_map]
    exact List.sum_le_sum fun v _ => weight_tell_le ..

/-- Some task can always move on. -/
theorem Sound.exists_step (sound : r.Sound derive env offer names)
    (open_ : ∃ t ∈ r.tasks, t.pending ≠ []) : ∃ i, (r.step derive env i).weight < r.weight := by
  obtain ⟨t, member, open_⟩ := open_
  obtain ⟨i, here⟩ := List.mem_iff_getElem?.mp member
  by_cases waiting : t.stage = .waiting
  · -- The task that derives what this one waits for is not waiting itself.
    obtain ⟨c, later, next⟩ := List.exists_cons_of_ne_nil open_
    obtain ⟨u, member', works⟩ := sound.watched i t here waiting c (by rw [next]; rfl)
    obtain ⟨j, there⟩ := List.mem_iff_getElem?.mp member'
    refine ⟨j, weight_step_lt there ?_ ?_⟩
    · intro none
      simp [ResolvingTask.worksOn, ResolvingTask.next?, none] at works
    · intro waits
      simp [ResolvingTask.worksOn, ResolvingTask.isWorking, waits] at works
  · exact ⟨i, weight_step_lt here open_ waiting⟩

theorem run_append (first second : List Turn) :
    r.run derive env (first ++ second) = (r.run derive env first).run derive env second :=
  List.foldl_append

theorem Sound.exists_done (keyed : IsKeyed derive env offer)
    (sound : r.Sound derive env offer names) :
    ∃ turns, ∀ t ∈ (r.run derive env turns).tasks, t.pending = [] := by
  induction bound : r.weight using Nat.strongRecOn generalizing r with
  | ind n ih =>
    by_cases open_ : ∃ t ∈ r.tasks, t.pending ≠ []
    · obtain ⟨i, less⟩ := sound.exists_step open_
      obtain ⟨turns, done⟩ := ih _ (bound ▸ less) (sound.step keyed i) rfl
      exact ⟨i :: turns, done⟩
    · refine ⟨[], fun t member => ?_⟩
      by_contra left
      exact open_ ⟨t, member, left⟩

/-- A task with nothing left to do ends when it is its turn. -/
theorem step_of_done (derive : Derivation) (env : Environment) {i : Nat} {t : ResolvingTask}
    (here : r.tasks[i]? = some t) (none : t.pending = []) :
    (r.step derive env i).tasks = r.tasks ∧
      ∀ j, j ∈ (r.step derive env i).ended ↔ j ∈ r.ended ∨ j = i := by
  have same : r.step derive env i =
      if i ∈ r.ended then r else { r with ended := r.ended ++ [i] } := by
    rw [step, here]
    dsimp only
    rw [none]
  rw [same]
  split
  next ended => exact ⟨rfl, fun j => ⟨.inl, fun member => member.elim id (· ▸ ended)⟩⟩
  next => exact ⟨rfl, fun j => by simp⟩

theorem run_of_done (derive : Derivation) (env : Environment) {turns : List Turn}
    (done : ∀ i ∈ turns, ∃ t, r.tasks[i]? = some t ∧ t.pending = []) :
    (r.run derive env turns).tasks = r.tasks ∧
      ∀ j, j ∈ (r.run derive env turns).ended ↔ j ∈ r.ended ∨ j ∈ turns := by
  induction turns generalizing r with
  | nil => exact ⟨rfl, fun j => by simp [run]⟩
  | cons i turns ih =>
    obtain ⟨t, here, none⟩ := done i List.mem_cons_self
    obtain ⟨same, now⟩ := step_of_done derive env here none
    obtain ⟨same', then_⟩ := ih (r := r.step derive env i)
      (fun j later => same ▸ done j (List.mem_cons_of_mem i later))
    refine ⟨same'.trans same, fun j => (then_ j).trans ?_⟩
    rw [now, List.mem_cons, or_assoc]

theorem isFinished_iff : r.isFinished ↔ ∀ i < r.tasks.length, i ∈ r.ended := by
  simp [isFinished]

/-- Whatever turns were taken, there are turns after which every task has ended. -/
theorem Sound.exists_finish (keyed : IsKeyed derive env offer)
    (sound : r.Sound derive env offer names) :
    ∃ turns, (r.run derive env turns).isFinished := by
  obtain ⟨turns, done⟩ := sound.exists_done keyed
  generalize after : r.run derive env turns = r' at done
  have there : ∀ i ∈ List.range r'.tasks.length, ∃ t, r'.tasks[i]? = some t ∧ t.pending = [] := by
    intro i member
    have here := List.getElem?_eq_getElem (List.mem_range.mp member)
    exact ⟨_, here, done _ (List.mem_of_getElem? here)⟩
  obtain ⟨same, ended⟩ := run_of_done derive env there
  refine ⟨turns ++ List.range r'.tasks.length, ?_⟩
  rw [run_append, after, isFinished_iff]
  intro i bound
  rw [same] at bound
  exact (ended i).mpr (.inr (List.mem_range.mpr bound))

/-- When every task has ended, each has gone through all credentials of its server. -/
theorem Sound.methods_of_finished (sound : r.Sound derive env offer names)
    (finished : r.isFinished) {t : ResolvingTask} (member : t ∈ r.tasks) :
    (∀ c ∈ offer t.server, KnownMethods.Settles derive env r.store.known c) ∧
      t.methods = (offer t.server).filterMap fun c => r.store.known.lookup (c.key env) := by
  obtain ⟨i, here⟩ := List.mem_iff_getElem?.mp member
  have ended := isFinished_iff.mp finished i (List.getElem?_eq_some_iff.mp here).1
  obtain ⟨done, whole, settled, methods⟩ := (sound.tasks i t here).behind
  rw [sound.ended i ended t here, List.append_nil] at whole
  subst whole
  exact ⟨settled, methods⟩

theorem Sound.countP_of_finished (sound : r.Sound derive env offer names)
    (finished : r.isFinished) : r.tasks.countP (·.isWorking) = 0 := by
  refine List.countP_eq_zero.mpr fun t member => ?_
  obtain ⟨i, here⟩ := List.mem_iff_getElem?.mp member
  have ended := isFinished_iff.mp finished i (List.getElem?_eq_some_iff.mp here).1
  rcases (sound.tasks i t here).busy with ready | open_
  · simp [ResolvingTask.isWorking, ready]
  · exact absurd (sound.ended i ended t here) open_

theorem mem_results_iff (finished : r.isFinished) {t : ResolvingTask} :
    t ∈ r.results ↔ t ∈ r.tasks := by
  rw [results, List.mem_filterMap]
  constructor
  · rintro ⟨i, -, here⟩
    exact List.mem_of_getElem? here
  · intro member
    obtain ⟨i, here⟩ := List.mem_iff_getElem?.mp member
    exact ⟨i, isFinished_iff.mp finished i (List.getElem?_eq_some_iff.mp here).1, here⟩

/-! ### One task after the other -/

/-- Whether no task is in the middle of a credential. -/
def AtRest (r : Resolving) : Prop := ∀ t ∈ r.tasks, t.stage = .ready

/-- The task in place `i` has ended, and the other tasks are where they were. -/
structure Completes (i : Nat) (before after : Resolving) : Prop where
  rest : after.AtRest
  length : after.tasks.length = before.tasks.length
  others : ∀ j, j ≠ i → after.tasks[j]? = before.tasks[j]?
  ended : ∀ j, j ∈ before.ended ∨ j = i → j ∈ after.ended

variable {i : Nat} {t : ResolvingTask}

theorem exists_take (t : ResolvingTask) {c : Credential} {later : List Credential}
    (next : t.pending = c :: later) (outcome : Except String SharedMethod) :
    (t.take outcome).stage = .ready ∧ (t.take outcome).pending = later := by
  unfold ResolvingTask.take
  rw [next]
  cases outcome <;> exact ⟨rfl, rfl⟩

/-- A task goes through a credential in one turn or two while the others rest. -/
theorem AtRest.exists_next (derive : Derivation) (env : Environment) (rest : r.AtRest)
    (here : r.tasks[i]? = some t) {c : Credential} {later : List Credential}
    (next : t.pending = c :: later) : ∃ n ≤ 1, ∃ t' : ResolvingTask,
      (r.run derive env (List.replicate (n + 1) i)).tasks = r.tasks.set i t' ∧
      (r.run derive env (List.replicate (n + 1) i)).ended = r.ended ∧
      t'.stage = .ready ∧ t'.pending = later := by
  have ready := rest t (List.mem_of_getElem? here)
  have asks : r.step derive env i = r.ask env i t (c.key env) := by
    rw [step, here]
    dsimp only
    rw [next, ready]
  cases found : r.store.known.lookup (c.key env) with
  | some m =>
    refine ⟨0, by omega, t.take (.ok m), ?_, ?_, exists_take t next _⟩ <;>
      simp [run, asks, ask, found]
  | none =>
    have free : r.tasks.any (·.worksOn env (c.key env)) = false := by
      rw [List.any_eq_false]
      intro u member
      simp [ResolvingTask.worksOn, ResolvingTask.isWorking, rest u member]
    have begins : r.step derive env i = { r with
        store := { r.store with derivations := r.store.derivations + 1 }
        tasks := r.tasks.set i { t with stage := .working (r.store.derivations + 1) } } := by
      simp [asks, ask, found, free]
    have inPlace : i < r.tasks.length := (List.getElem?_eq_some_iff.mp here).1
    generalize (r.store.derivations + 1 : Nat) = derivation at begins
    generalize working : ({ t with stage := .working derivation } : ResolvingTask) = u at begins
    have pending : u.pending = c :: later := by rw [← working, next]
    have finishes : (r.step derive env i).step derive env i =
        (r.step derive env i).finish derive env i u c derivation := by
      rw [begins, step]
      simp only [List.getElem?_set_self inPlace]
      rw [pending, ← working]
    refine ⟨1, by omega, u.take ((derive c).map fun method => ⟨method, derivation⟩), ?_, ?_,
      exists_take u pending _⟩
    · have calm : ∀ v ∈ r.tasks.set i (u.take ((derive c).map fun method => ⟨method, derivation⟩)),
          v.stage = .ready := by
        intro v member
        rcases List.mem_or_eq_of_mem_set member with member | rfl
        · exact rest v member
        · exact (exists_take u pending _).1
      show ((r.step derive env i).step derive env i).tasks = _
      rw [finishes, finish, begins]
      dsimp only
      rw [List.set_set]
      -- Nobody waits, so nobody is told.
      refine (List.map_congr_left fun v member => ?_).trans (List.map_id _)
      rcases v.tell_cases env (c.key env) ((derive c).map fun method => ⟨method, derivation⟩) with
        ⟨waiting, -, -⟩ | ⟨-, told⟩
      · rw [calm v member] at waiting
        cases waiting
      · exact told
    · show ((r.step derive env i).step derive env i).ended = _
      rw [finishes, finish, begins]

/-- With a turn to end and two for each credential, a task that is alone comes to its end. -/
theorem AtRest.completes (derive : Derivation) (env : Environment) (rest : r.AtRest)
    (here : r.tasks[i]? = some t) {k : Nat} (enough : 2 * t.pending.length + 1 ≤ k) :
    Completes i r (r.run derive env (List.replicate k i)) := by
  induction pending : t.pending generalizing r t k with
  | nil =>
    have spent : ∀ j ∈ List.replicate k i, ∃ t, r.tasks[j]? = some t ∧ t.pending = [] := by
      intro j member
      rw [(List.mem_replicate.mp member).2]
      exact ⟨t, here, pending⟩
    obtain ⟨same, ended⟩ := run_of_done derive env spent
    refine ⟨?_, by rw [same], fun j _ => by rw [same], fun j member => (ended j).mpr ?_⟩
    · rw [AtRest, same]
      exact rest
    · refine member.imp_right fun at_i => ?_
      rw [at_i, List.mem_replicate]
      exact ⟨by omega, rfl⟩
  | cons c later ih =>
    obtain ⟨n, short, t', tasks, ended, ready, left⟩ := rest.exists_next derive env here pending
    obtain ⟨k', rfl⟩ : ∃ k', k = n + 1 + k' := ⟨k - (n + 1), by
      rw [pending, List.length_cons] at enough
      omega⟩
    have inPlace : i < r.tasks.length := (List.getElem?_eq_some_iff.mp here).1
    rw [List.replicate_add, run_append]
    generalize r.run derive env (List.replicate (n + 1) i) = r' at tasks ended
    have rest' : r'.AtRest := by
      intro u member
      rw [tasks] at member
      rcases List.mem_or_eq_of_mem_set member with member | rfl
      · exact rest u member
      · exact ready
    have done := ih rest' (t := t') (k := k') (by rw [tasks, List.getElem?_set_self inPlace])
      (by
        rw [pending, List.length_cons] at enough
        rw [left]
        omega) left
    refine ⟨done.rest, done.length.trans (by rw [tasks, List.length_set]), fun j other => ?_,
      fun j member => done.ended j (ended ▸ member)⟩
    rw [done.others j other, tasks, List.getElem?_set_ne (Ne.symm other)]

/-- One task after the other comes to its end. -/
theorem AtRest.runs (derive : Derivation) (env : Environment) (rest : r.AtRest)
    {l : List (ResolvingTask × Nat)} (here : ∀ e ∈ l, r.tasks[e.2]? = some e.1)
    (once : (l.map (·.2)).Nodup) :
    let r' := r.run derive env
      (l.map fun (t, i) => List.replicate (2 * t.pending.length + 1) i).flatten
    r'.tasks.length = r.tasks.length ∧ ∀ j, j ∈ r.ended ∨ j ∈ l.map (·.2) → j ∈ r'.ended := by
  induction l generalizing r with
  | nil => exact ⟨rfl, fun j => by simp [run]⟩
  | cons e l ih =>
    obtain ⟨t, i⟩ := e
    obtain ⟨apart, once⟩ := List.nodup_cons.mp once
    have done := rest.completes derive env (here _ List.mem_cons_self) (Nat.le_refl _)
    dsimp only
    rw [List.map_cons, List.flatten_cons, run_append]
    obtain ⟨length, ended⟩ := ih done.rest (fun d member => by
      have other : d.2 ≠ i := fun same => apart (List.mem_map.mpr ⟨d, member, same⟩)
      rw [done.others _ other]
      exact here d (List.mem_cons_of_mem _ member)) once
    refine ⟨length.trans done.length, fun j member => ended j ?_⟩
    rw [List.map_cons, List.mem_cons, ← or_assoc] at member
    exact member.imp_left (done.ended j)

/-- Letting one task after the other go through all its credentials brings them to their end. -/
theorem AtRest.isFinished_inOrder (derive : Derivation) (env : Environment) (rest : r.AtRest) :
    (r.run derive env r.inOrder).isFinished := by
  have numbers : r.tasks.zipIdx.map (·.2) = List.range r.tasks.length := by
    rw [List.zipIdx_map_snd, List.range_eq_range']
  obtain ⟨length, ended⟩ := rest.runs derive env (l := r.tasks.zipIdx)
    (fun e member => by simpa using List.mk_mem_zipIdx_iff_getElem?.mp member)
    (numbers ▸ List.nodup_range)
  rw [isFinished_iff]
  intro i bound
  refine ended i (.inr ?_)
  rw [numbers, List.mem_range, ← length]
  exact bound

end Resolving

end Flotilla
