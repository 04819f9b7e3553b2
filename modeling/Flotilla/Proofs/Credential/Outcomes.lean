import Flotilla.Proofs.Credential.Resolving

/-!
# What comes of the credentials of a call

Whether or not credentials with one key are alike, each task of a call ends up with something for
each credential of its server: the method that was known of it before the call, or what was derived
in the call of a credential with its key (`Resolving.Draws.methods_of_isFinished`).
-/

namespace Flotilla

section

variable (derive : Derivation) (env : Environment) (offer : String → List Credential)
variable (names : List String) (before : KnownMethods)

/-- Whether this may come of the credentials with a key. -/
def KnownMethods.Gives (key : Credential.Key) (outcome : Except String Method) : Prop :=
  match before.lookup key with
  | some m => outcome = .ok m.method
  | none => ∃ name ∈ names, ∃ c ∈ offer name, c.key env = key ∧ derive c = outcome

/-- Whether a task has drawn its methods from what may come of the credentials behind it. -/
structure ResolvingTask.Draws (t : ResolvingTask) : Prop where
  asked : t.server ∈ names
  behind : ∃ done outcomes, done ++ t.pending = offer t.server ∧
    List.Forall₂ (fun c o => before.Gives derive env offer names (c.key env) o) done outcomes ∧
    t.methods.map (·.method) = outcomes.filterMap Except.toOption
  /-- What was known before is not derived. -/
  fresh : t.isWorking → ∀ key ∈ t.next? env, before.lookup key = none
  told : ∀ outcome, t.stage = .told outcome → ∀ key ∈ t.next? env,
    before.Gives derive env offer names key (outcome.map (·.method))

/-- What holds of the tasks of a call and what they have derived, if `before` was known. -/
structure Resolving.Draws (r : Resolving) : Prop where
  grows : ∀ key m, before.lookup key = some m → r.store.known.lookup key = some m
  known : ∀ key m, r.store.known.lookup key = some m →
    before.Gives derive env offer names key (.ok m.method)
  tasks : ∀ t ∈ r.tasks, t.Draws derive env offer names before
  ended : ∀ i ∈ r.ended, ∀ t : ResolvingTask, r.tasks[i]? = some t → t.pending = []

end

variable {derive : Derivation} {env : Environment} {offer : String → List Credential}
variable {names : List String} {before known : KnownMethods}

theorem outcomeOf_method (derive : Derivation) (c : Credential) (derivation : Nat) :
    (outcomeOf derive c derivation).map (·.method) = derive c := by
  unfold outcomeOf
  cases derive c <;> rfl

namespace KnownMethods

theorem lookup_learn_of_ne {key other : Credential.Key} (differs : other ≠ key)
    (outcome : Except String SharedMethod) :
    (known.learn key outcome).lookup other = known.lookup other := by
  unfold learn
  cases outcome with
  | ok m =>
    have other_ : (other == key) = false := by simpa using differs
    simp [Except.toOption, List.lookup_cons, other_]
  | error => rfl

theorem of_lookup_learn {key other : Credential.Key} {outcome : Except String SharedMethod}
    {m : SharedMethod} (found : (known.learn key outcome).lookup other = some m) :
    other = key ∧ outcome = .ok m ∨ known.lookup other = some m := by
  by_cases same : other = key
  · subst same
    cases outcome with
    | ok made =>
      left
      simpa [learn, Except.toOption] using found
    | error => exact .inr found
  · right
    rwa [lookup_learn_of_ne same] at found

end KnownMethods

namespace ResolvingTask

variable {t : ResolvingTask} {c : Credential} {later : List Credential}
variable {outcome : Except String SharedMethod}

theorem next?_eq (next : t.pending = c :: later) : t.next? env = some (c.key env) := by
  rw [next?, next]
  rfl

theorem Draws.offered (draws : t.Draws derive env offer names before)
    (next : t.pending = c :: later) : c ∈ offer t.server := by
  obtain ⟨done, -, whole, -⟩ := draws.behind
  rw [← whole, next]
  exact List.mem_append_right _ List.mem_cons_self

theorem Draws.take (draws : t.Draws derive env offer names before) (next : t.pending = c :: later)
    (gives : before.Gives derive env offer names (c.key env) (outcome.map (·.method))) :
    (t.take outcome).Draws derive env offer names before := by
  obtain ⟨asked, ⟨done, outcomes, whole, each, methods⟩, -, -⟩ := draws
  have rest : done ++ [c] ++ later = offer t.server := by
    rw [← whole, next, List.append_assoc, List.singleton_append]
  have each' := List.rel_append each (List.Forall₂.cons gives .nil)
  rw [ResolvingTask.take, next]
  cases outcome with
  | ok m =>
    refine ⟨asked, ⟨done ++ [c], _, rest, each', ?_⟩, by simp [isWorking], by simp⟩
    simp [methods, Except.map, Except.toOption]
  | error reason =>
    refine ⟨asked, ⟨done ++ [c], _, rest, each', ?_⟩, by simp [isWorking], by simp⟩
    simp [methods, Except.map, Except.toOption]

theorem Draws.tell (draws : t.Draws derive env offer names before) {key : Credential.Key}
    (gives : before.Gives derive env offer names key (outcome.map (·.method))) :
    (t.tell env key outcome).Draws derive env offer names before := by
  rcases t.tell_cases env key outcome with ⟨-, same, told⟩ | ⟨-, told⟩
  · rw [told]
    refine ⟨draws.asked, draws.behind, by simp [isWorking], ?_⟩
    intro outcome' stage key' there
    cases stage
    obtain rfl : key = key' := Option.some.inj (same.symm.trans there)
    exact gives
  · rwa [told]

end ResolvingTask

namespace Resolving

variable {r : Resolving} {i : Nat} {t t' : ResolvingTask}

/-- A task moves on, and nothing more becomes known. -/
theorem Draws.set (draws : r.Draws derive env offer names before) (here : r.tasks[i]? = some t)
    (open_ : t.pending ≠ []) {store : MethodStore} (same : store.known = r.store.known)
    (way : t'.Draws derive env offer names before) :
    ({ r with store, tasks := r.tasks.set i t' } : Resolving).Draws derive env offer names
      before := by
  constructor
  case grows => exact same ▸ draws.grows
  case known => exact same ▸ draws.known
  case tasks =>
    intro u member
    rcases List.mem_or_eq_of_mem_set member with old | rfl
    · exact draws.tasks u old
    · exact way
  case ended =>
    intro j member u there
    rcases cases_of_set there with ⟨rfl, -⟩ | ⟨-, there⟩
    · exact absurd (draws.ended i member t here) open_
    · exact draws.ended j member u there

/-- A task tells what it has derived. -/
theorem Draws.finish (draws : r.Draws derive env offer names before) (here : r.tasks[i]? = some t)
    {c : Credential} {later : List Credential} (next : t.pending = c :: later) {derivation : Nat}
    (working : t.stage = .working derivation) :
    (r.finish derive env i t c derivation).Draws derive env offer names before := by
  have way := draws.tasks t (List.mem_of_getElem? here)
  have fresh : before.lookup (c.key env) = none := by
    apply way.fresh
    · rw [ResolvingTask.isWorking, working]
    · exact ResolvingTask.next?_eq next
  have gives : before.Gives derive env offer names (c.key env)
      ((outcomeOf derive c derivation).map (·.method)) := by
    rw [outcomeOf_method, KnownMethods.Gives, fresh]
    exact ⟨t.server, way.asked, c, way.offered next, rfl, rfl⟩
  rw [finish_eq]
  generalize outcomeOf derive c derivation = outcome at gives ⊢
  constructor
  case grows =>
    intro key m found
    have differs : key ≠ c.key env := by
      rintro rfl
      rw [fresh] at found
      cases found
    show (KnownMethods.learn r.store.known (c.key env) outcome).lookup key = some m
    rw [KnownMethods.lookup_learn_of_ne differs]
    exact draws.grows key m found
  case known =>
    intro key m found
    rcases KnownMethods.of_lookup_learn found with ⟨rfl, rfl⟩ | old
    · exact gives
    · exact draws.known key m old
  case tasks =>
    intro v member
    obtain ⟨u, old, rfl⟩ := List.mem_map.mp member
    apply ResolvingTask.Draws.tell _ gives
    rcases List.mem_or_eq_of_mem_set old with old | rfl
    · exact draws.tasks u old
    · exact way.take next gives
  case ended =>
    intro j member v there
    obtain ⟨u, rfl, source⟩ := cases_of_tell there
    rcases source with ⟨rfl, -⟩ | ⟨-, old⟩
    · have none := draws.ended i member t here
      rw [next] at none
      cases none
    · rcases u.tell_cases env (c.key env) outcome with ⟨-, -, told⟩ | ⟨-, told⟩ <;> rw [told] <;>
        exact draws.ended j member u old

theorem Draws.step (draws : r.Draws derive env offer names before) (i : Turn) :
    (r.step derive env i).Draws derive env offer names before := by
  have way {t : ResolvingTask} (here : r.tasks[i]? = some t) :=
    draws.tasks t (List.mem_of_getElem? here)
  have moved := moves_step derive env r i
  generalize r.step derive env i = after at moved
  cases moved with
  | rests => exact draws
  | @ends t here none =>
    refine { draws with ended := fun j member u there => ?_ }
    rcases List.mem_append.mp member with member | member
    · exact draws.ended j member u there
    · obtain rfl := List.mem_singleton.mp member
      rwa [← Option.some.inj (here.symm.trans there)]
  | @takes t c later outcome here next source =>
    have gives : before.Gives derive env offer names (c.key env) (outcome.map (·.method)) := by
      rcases source with ⟨-, m, rfl, found⟩ | told
      · exact draws.known _ m found
      · exact (way here).told outcome told _ (ResolvingTask.next?_eq next)
    exact draws.set here (by simp [next]) rfl ((way here).take next gives)
  | @waits t c later here next ready busy =>
    obtain ⟨asked, behind, -, -⟩ := way here
    exact draws.set here (by simp [next]) rfl ⟨asked, behind, by simp [ResolvingTask.isWorking], by simp⟩
  | @begins t c later here next ready unknown free =>
    obtain ⟨asked, behind, -, -⟩ := way here
    refine draws.set here (by simp [next]) rfl ⟨asked, behind, ?_, by simp⟩
    intro _ key there
    obtain rfl : c.key env = key :=
      Option.some.inj ((ResolvingTask.next?_eq next).symm.trans there)
    -- What was known before the call would still be known.
    by_contra known
    obtain ⟨m, found⟩ := Option.ne_none_iff_exists'.mp known
    rw [draws.grows _ m found] at unknown
    cases unknown
  | finishes here next working => exact draws.finish here next working

/-- However the tasks of a call take turns, they draw on what may come of their credentials. -/
theorem Draws.run (draws : r.Draws derive env offer names before) (turns : List Turn) :
    (r.run derive env turns).Draws derive env offer names before := by
  induction turns generalizing r with
  | nil => exact draws
  | cons i turns ih => exact ih (draws.step i)

/-- When every task has ended, each has gone through all credentials of its server. -/
theorem Draws.methods_of_isFinished (draws : r.Draws derive env offer names before)
    (finished : r.isFinished) (member : t ∈ r.tasks) :
    ∃ outcomes, List.Forall₂ (fun c o => before.Gives derive env offer names (c.key env) o)
      (offer t.server) outcomes ∧ t.methods.map (·.method) = outcomes.filterMap Except.toOption := by
  obtain ⟨i, here⟩ := List.mem_iff_getElem?.mp member
  have bound := (List.getElem?_eq_some_iff.mp here).1
  have ended := List.all_eq_true.mp finished i (List.mem_range.mpr bound)
  obtain ⟨done, outcomes, whole, each, methods⟩ := (draws.tasks t member).behind
  rw [draws.ended i (by simpa using ended) t here, List.append_nil] at whole
  exact ⟨outcomes, whole ▸ each, methods⟩

end Resolving

end Flotilla
