import Flotilla.Credential.Cache
import Mathlib.Data.List.Nodup

/-!
# Tasks that share methods

What holds of the tasks of a call and of the methods that they share, however the tasks take turns
(`Sound.run`): a credential is derived by one task at a time, what was made of it is kept under its
key, and each task has the methods of the credentials behind it.
-/

namespace Flotilla

/-- Methods by the keys of the credentials that they were made from. -/
abbrev KnownMethods := List (Credential.Key × SharedMethod)

section

variable (derive : Derivation) (env : Environment) (offer : String → List Credential)

/-- Whether what comes of a credential depends on its key only. -/
def IsKeyed : Prop :=
  ∀ name, ∀ c ∈ offer name, ∀ name', ∀ c' ∈ offer name', c.key env = c'.key env →
    derive c = derive c'

/-- Whether methods are known as what they are: each was made from a credential of one of these
servers and is kept under its key, under which there is no other. -/
structure KnownMethods.IsMade (names : List String) (known : KnownMethods) : Prop where
  made : ∀ key m, known.lookup key = some m →
    ∃ name ∈ names, ∃ c ∈ offer name, c.key env = key ∧ derive c = .ok m.method
  once : (known.map (·.1)).Nodup

/-- Whether all that comes of a credential is known. -/
def KnownMethods.Settles (known : KnownMethods) (c : Credential) : Prop :=
  (known.lookup (c.key env)).map (·.method) = (derive c).toOption

/-- Whether this is what comes of a credential. -/
def KnownMethods.Yields (known : KnownMethods) (c : Credential) :
    Except String SharedMethod → Prop
  | .ok m => known.lookup (c.key env) = some m
  | .error reason => derive c = .error reason

/-- What comes of a credential by a derivation. -/
def outcomeOf (c : Credential) (derivation : Nat) : Except String SharedMethod :=
  (derive c).map fun method => { method, derivation }

/-- Whether a task has come as far as it says: behind it are the first credentials of its server,
with the methods that were made of them. -/
structure ResolvingTask.IsOnWay (names : List String) (known : KnownMethods) (t : ResolvingTask) :
    Prop where
  asked : t.server ∈ names
  behind : ∃ done, done ++ t.pending = offer t.server ∧
    (∀ c ∈ done, known.Settles derive env c) ∧
    t.methods = done.filterMap fun c => known.lookup (c.key env)
  busy : t.stage = .ready ∨ t.pending ≠ []
  told : ∀ outcome, t.stage = .told outcome →
    ∀ c ∈ t.pending.head?, known.Yields derive env c outcome

end

variable {derive : Derivation} {env : Environment} {offer : String → List Credential}
variable {names : List String} {known known' : KnownMethods} {c : Credential}

/-! ### Methods that are known -/

namespace KnownMethods

/-- What comes of a credential settles it. -/
theorem IsMade.settles (keyed : IsKeyed derive env offer)
    (sound : known.IsMade derive env offer names) {name : String} (offered : c ∈ offer name)
    {outcome : Except String SharedMethod} (yields : known.Yields derive env c outcome) :
    known.Settles derive env c ∧ known.lookup (c.key env) = outcome.toOption := by
  cases outcome with
  | ok m =>
    have here : known.lookup (c.key env) = some m := yields
    obtain ⟨name', -, c', offered', same, made⟩ := sound.made _ m here
    rw [Settles, here, keyed _ c offered _ c' offered' same.symm, made]
    exact ⟨rfl, rfl⟩
  | error reason =>
    have failed : derive c = .error reason := yields
    have none : known.lookup (c.key env) = none := by
      cases here : known.lookup (c.key env) with
      | none => rfl
      | some m =>
        obtain ⟨name', -, c', offered', same, made⟩ := sound.made _ m here
        rw [keyed _ c offered _ c' offered' same.symm, made] at failed
        cases failed
    rw [Settles, none, failed]
    exact ⟨rfl, rfl⟩

/-- What is known of a credential that is settled does not change when more becomes known. -/
theorem Settles.lookup_eq (keyed : IsKeyed derive env offer)
    (settled : known.Settles derive env c) {name : String} (offered : c ∈ offer name)
    (grows : ∀ key m, known.lookup key = some m → known'.lookup key = some m)
    (sound : known'.IsMade derive env offer names) :
    known'.lookup (c.key env) = known.lookup (c.key env) := by
  cases here : known.lookup (c.key env) with
  | some m => exact grows _ m here
  | none =>
    rw [Settles, here] at settled
    cases there : known'.lookup (c.key env) with
    | none => rfl
    | some m =>
      obtain ⟨name', -, c', offered', same, made⟩ := sound.made _ m there
      rw [keyed _ c offered _ c' offered' same.symm, made] at settled
      cases settled

/-- What is known with what came of one credential more. -/
def learn (known : KnownMethods) (key : Credential.Key) (outcome : Except String SharedMethod) :
    KnownMethods :=
  outcome.toOption.toList.map (key, ·) ++ known

theorem lookup_learn {key : Credential.Key} (none : known.lookup key = none)
    (outcome : Except String SharedMethod) (other : Credential.Key) :
    (known.learn key outcome).lookup other =
      if other = key then outcome.toOption else known.lookup other := by
  unfold learn
  cases outcome with
  | ok m =>
    by_cases same : other = key
    · simp [Except.toOption, same]
    · have differs : (other == key) = false := by simpa using same
      simp [Except.toOption, List.lookup_cons, same, differs]
  | error reason =>
    split
    next same => simpa [Except.toOption, same] using none
    next => rfl

theorem lookup_learn_of_known {key other : Credential.Key} (none : known.lookup key = none)
    (outcome : Except String SharedMethod) {m : SharedMethod}
    (found : known.lookup other = some m) : (known.learn key outcome).lookup other = some m := by
  rw [lookup_learn none, if_neg, found]
  rintro rfl
  rw [none] at found
  cases found

theorem IsMade.learn (sound : known.IsMade derive env offer names) {name : String}
    (asked : name ∈ names) (offered : c ∈ offer name) (none : known.lookup (c.key env) = none)
    (derivation : Nat) :
    (known.learn (c.key env) (outcomeOf derive c derivation)).IsMade derive env offer names := by
  constructor
  · intro key m here
    rw [lookup_learn none] at here
    split at here
    next same =>
      refine ⟨name, asked, c, offered, same.symm, ?_⟩
      cases made : derive c with
      | ok method =>
        simp only [outcomeOf, made, Except.map, Except.toOption, Option.some.injEq] at here
        rw [← here]
      | error reason => simp [outcomeOf, made, Except.map, Except.toOption] at here
    next => exact sound.made key m here
  · have fresh : c.key env ∉ known.map (·.1) := by
      intro member
      obtain ⟨e, there, same⟩ := List.mem_map.mp member
      have differs := List.lookup_eq_none_iff.mp none e there
      simp [same] at differs
    unfold KnownMethods.learn
    cases outcomeOf derive c derivation with
    | ok m => exact List.nodup_cons.mpr ⟨fresh, sound.once⟩
    | error reason => exact sound.once

/-- What comes of a credential comes of all with its key. -/
theorem yields_learn (keyed : IsKeyed derive env offer) {name name' : String}
    (offered : c ∈ offer name) (none : known.lookup (c.key env) = none) (derivation : Nat)
    {d : Credential} (there : d ∈ offer name') (same : d.key env = c.key env) :
    (known.learn (c.key env) (outcomeOf derive c derivation)).Yields derive env d
      (outcomeOf derive c derivation) := by
  have here := lookup_learn none (outcomeOf derive c derivation) (c.key env)
  rw [if_pos rfl] at here
  cases outcome : outcomeOf derive c derivation with
  | ok m =>
    rw [outcome] at here
    rwa [Yields, same]
  | error reason =>
    rw [Yields, keyed name' d there name c offered same]
    cases failed : derive c with
    | ok method => simp [outcomeOf, failed, Except.map] at outcome
    | error reason' => simpa [outcomeOf, failed, Except.map] using outcome

end KnownMethods

/-! ### Tasks -/

namespace ResolvingTask

variable {t : ResolvingTask}

theorem IsOnWay.mono (keyed : IsKeyed derive env offer)
    (way : t.IsOnWay derive env offer names known)
    (grows : ∀ key m, known.lookup key = some m → known'.lookup key = some m)
    (sound : known'.IsMade derive env offer names) :
    t.IsOnWay derive env offer names known' := by
  obtain ⟨asked, ⟨done, whole, settled, methods⟩, busy, told⟩ := way
  have same : ∀ c ∈ done, known'.lookup (c.key env) = known.lookup (c.key env) := by
    intro c member
    have offered : c ∈ offer t.server := whole ▸ List.mem_append_left _ member
    exact (settled c member).lookup_eq keyed offered grows sound
  refine ⟨asked, ⟨done, whole, ?_, ?_⟩, busy, ?_⟩
  · intro c member
    rw [KnownMethods.Settles, same c member]
    exact settled c member
  · rw [methods]
    exact List.filterMap_congr fun c member => (same c member).symm
  · intro outcome stage c next
    have yields := told outcome stage c next
    cases outcome with
    | ok m => exact grows _ m yields
    | error reason => exact yields

theorem IsOnWay.take (keyed : IsKeyed derive env offer)
    (sound : known.IsMade derive env offer names)
    (way : t.IsOnWay derive env offer names known) {later : List Credential}
    (next : t.pending = c :: later) {outcome : Except String SharedMethod}
    (yields : known.Yields derive env c outcome) :
    (t.take outcome).IsOnWay derive env offer names known := by
  obtain ⟨asked, ⟨done, whole, settled, methods⟩, -, -⟩ := way
  rw [next] at whole
  have offered : c ∈ offer t.server := whole ▸ List.mem_append_right _ List.mem_cons_self
  obtain ⟨settles, found⟩ := sound.settles keyed offered yields
  have settled' : ∀ d ∈ done ++ [c], known.Settles derive env d := by
    intro d member
    rcases List.mem_append.mp member with member | member
    · exact settled d member
    · rwa [List.mem_singleton.mp member]
  unfold ResolvingTask.take
  rw [next]
  cases outcome with
  | ok m =>
    refine ⟨asked, ⟨done ++ [c], by simpa using whole, settled', ?_⟩, .inl rfl, by simp⟩
    simp [methods, found, Except.toOption]
  | error reason =>
    refine ⟨asked, ⟨done ++ [c], by simpa using whole, settled', ?_⟩, .inl rfl, by simp⟩
    simp [methods, found, Except.toOption]

theorem isWorking_take (c : Credential) (later : List Credential) (next : t.pending = c :: later)
    (outcome : Except String SharedMethod) : (t.take outcome).isWorking = false := by
  unfold ResolvingTask.take
  rw [next]
  cases outcome <;> rfl

theorem worksOn_of_working {later : List Credential} (next : t.pending = c :: later)
    {derivation : Nat} (working : t.stage = .working derivation) : t.worksOn env (c.key env) := by
  simp [worksOn, isWorking, next?, working, next]

theorem key_eq_of_worksOn {key : Credential.Key} (works : t.worksOn env key) :
    t.next? env = some key := by
  simpa using (Bool.and_eq_true_iff.mp works).2

theorem IsOnWay.offered (way : t.IsOnWay derive env offer names known)
    (next : c ∈ t.pending.head?) : c ∈ offer t.server := by
  obtain ⟨done, whole, -⟩ := way.behind
  rw [← whole]
  exact List.mem_append_right _ (List.mem_of_mem_head? next)

/-- A task that waits is told what came of its next credential; the others are left alone. -/
theorem tell_cases (env : Environment) (key : Credential.Key) (outcome : Except String SharedMethod)
    (t : ResolvingTask) :
    (t.stage = .waiting ∧ t.next? env = some key ∧
      t.tell env key outcome = { t with stage := .told outcome }) ∨
    ((t.stage = .waiting → t.next? env ≠ some key) ∧ t.tell env key outcome = t) := by
  unfold tell
  split
  next waiting =>
    split
    next same => exact .inl ⟨waiting, same, rfl⟩
    next other => exact .inr ⟨fun _ => other, rfl⟩
  next other => exact .inr ⟨fun waiting => absurd waiting other, rfl⟩

theorem isWorking_tell (env : Environment) (key : Credential.Key)
    (outcome : Except String SharedMethod) (t : ResolvingTask) :
    (t.tell env key outcome).isWorking = t.isWorking := by
  rcases t.tell_cases env key outcome with ⟨waiting, -, told⟩ | ⟨-, told⟩
  · rw [told, isWorking, isWorking, waiting]
  · rw [told]

theorem worksOn_tell (env : Environment) (key other : Credential.Key)
    (outcome : Except String SharedMethod) (t : ResolvingTask) :
    (t.tell env key outcome).worksOn env other = t.worksOn env other := by
  rcases t.tell_cases env key outcome with ⟨waiting, -, told⟩ | ⟨-, told⟩
  · rw [told, worksOn, worksOn, isWorking, isWorking, waiting]
    rfl
  · rw [told]

theorem IsOnWay.tell (way : t.IsOnWay derive env offer names known) {key : Credential.Key}
    {outcome : Except String SharedMethod}
    (yields : ∀ name, ∀ c ∈ offer name, c.key env = key → known.Yields derive env c outcome) :
    (t.tell env key outcome).IsOnWay derive env offer names known := by
  rcases t.tell_cases env key outcome with ⟨-, same, told⟩ | ⟨-, told⟩
  · obtain ⟨c, next, here⟩ := Option.map_eq_some_iff.mp same
    rw [told]
    refine ⟨way.asked, way.behind, .inr ?_, ?_⟩
    · intro none
      rw [none] at next
      cases next
    · intro outcome' stage d there
      cases stage
      obtain rfl : c = d := Option.some.inj (next.symm.trans there)
      exact yields _ c (way.offered next) here
  · rwa [told]

end ResolvingTask

namespace Resolving

/-! ### Turns -/

/-- What a turn of the task in place `i` can do. -/
inductive Moves (derive : Derivation) (env : Environment) (r : Resolving) (i : Turn) :
    Resolving → Prop where
  /-- There is no such task, or it has ended, or it waits. -/
  | rests (idle : ∀ t, r.tasks[i]? = some t → t.pending = [] ∧ i ∈ r.ended ∨ t.stage = .waiting) :
      Moves derive env r i r
  | ends {t : ResolvingTask} (here : r.tasks[i]? = some t) (none : t.pending = []) :
      Moves derive env r i { r with ended := r.ended ++ [i] }
  /-- It takes a method that is known, or what it was told. -/
  | takes {t : ResolvingTask} {c : Credential} {later : List Credential}
      {outcome : Except String SharedMethod} (here : r.tasks[i]? = some t)
      (next : t.pending = c :: later)
      (source : t.stage = .ready ∧ (∃ m, outcome = .ok m ∧
        r.store.known.lookup (c.key env) = some m) ∨ t.stage = .told outcome) :
      Moves derive env r i { r with tasks := r.tasks.set i (t.take outcome) }
  | waits {t : ResolvingTask} {c : Credential} {later : List Credential}
      (here : r.tasks[i]? = some t) (next : t.pending = c :: later) (ready : t.stage = .ready)
      (busy : r.tasks.any (·.worksOn env (c.key env))) :
      Moves derive env r i { r with tasks := r.tasks.set i { t with stage := .waiting } }
  | begins {t : ResolvingTask} {c : Credential} {later : List Credential}
      (here : r.tasks[i]? = some t) (next : t.pending = c :: later) (ready : t.stage = .ready)
      (unknown : r.store.known.lookup (c.key env) = none)
      (free : ∀ u ∈ r.tasks, ¬ u.worksOn env (c.key env)) :
      Moves derive env r i
        { r with
          store := { r.store with derivations := r.store.derivations + 1 }
          tasks := r.tasks.set i { t with stage := .working (r.store.derivations + 1) } }
  | finishes {t : ResolvingTask} {c : Credential} {later : List Credential} {derivation : Nat}
      (here : r.tasks[i]? = some t) (next : t.pending = c :: later)
      (working : t.stage = .working derivation) :
      Moves derive env r i (r.finish derive env i t c derivation)

theorem moves_step (derive : Derivation) (env : Environment) (r : Resolving) (i : Turn) :
    Moves derive env r i (r.step derive env i) := by
  unfold step
  split
  next none => exact .rests (by simp [none])
  next t here =>
    have only {p : ResolvingTask → Prop} (holds : p t) : ∀ u, r.tasks[i]? = some u → p u := by
      intro u there
      rwa [← Option.some.inj (here.symm.trans there)]
    split
    next none =>
      split
      next ended => exact .rests (only (.inl ⟨none, ended⟩))
      next => exact .ends here none
    next c later pending ready =>
      unfold ask
      split
      next m known => exact .takes here pending (.inl ⟨ready, m, rfl, known⟩)
      next unknown =>
        split
        next busy => exact .waits here pending ready busy
        next free => exact .begins here pending ready unknown (by simpa using free)
    next c later derivation pending working => exact .finishes here pending working
    next waiting => exact .rests (only (.inr waiting))
    next c later outcome pending told => exact .takes here pending (.inr told)

/-! ### What holds throughout -/

/-- What holds of tasks that share methods, however they take turns. -/
structure Sound (derive : Derivation) (env : Environment) (offer : String → List Credential)
    (names : List String) (r : Resolving) : Prop where
  store : KnownMethods.IsMade derive env offer names r.store.known
  tasks : ∀ (i : Nat) (t : ResolvingTask), r.tasks[i]? = some t →
    t.IsOnWay derive env offer names r.store.known
  /-- What is derived is not known yet. -/
  fresh : ∀ (i : Nat) (t : ResolvingTask) key, r.tasks[i]? = some t → t.worksOn env key →
    r.store.known.lookup key = none
  /-- No two tasks derive a credential with the same key. -/
  alone : ∀ (i : Nat) (t : ResolvingTask) (j : Nat) (u : ResolvingTask) key,
    r.tasks[i]? = some t → r.tasks[j]? = some u →
    t.worksOn env key → u.worksOn env key → i = j
  /-- What a task waits for is being derived. -/
  watched : ∀ (i : Nat) (t : ResolvingTask), r.tasks[i]? = some t → t.stage = .waiting →
    ∀ c ∈ t.pending.head?, ∃ u ∈ r.tasks, u.worksOn env (c.key env)
  ended : ∀ i ∈ r.ended, ∀ t : ResolvingTask, r.tasks[i]? = some t → t.pending = []
  /-- If nothing fails, each derivation made a method or is under way. -/
  counted : (∀ name ∈ names, ∀ c ∈ offer name, (derive c).toOption.isSome) →
    r.store.derivations = r.store.known.length + r.tasks.countP (·.isWorking)

variable {r : Resolving} {i : Nat} {t t' : ResolvingTask}

theorem cases_of_set {l : List ResolvingTask} {j : Nat} {u : ResolvingTask}
    (there : (l.set i t')[j]? = some u) : i = j ∧ u = t' ∨ i ≠ j ∧ l[j]? = some u := by
  rw [List.getElem?_set] at there
  split at there
  next same =>
    split at there
    · exact .inl ⟨same, (Option.some.inj there).symm⟩
    · cases there
  next other => exact .inr ⟨other, there⟩

theorem mem_set_of_worksOn {l : List ResolvingTask} (here : l[i]? = some t)
    (idle : ¬ t.isWorking) {u : ResolvingTask} (member : u ∈ l) (works : u.isWorking) :
    u ∈ l.set i t' := by
  obtain ⟨j, there⟩ := List.mem_iff_getElem?.mp member
  have other : i ≠ j := by
    rintro rfl
    rw [here] at there
    exact idle (Option.some.inj there ▸ works)
  exact List.mem_iff_getElem?.mpr ⟨j, by rw [List.getElem?_set_ne other, there]⟩

/-- A task that derives nothing moves on, and no other task notices. -/
theorem Sound.set (sound : r.Sound derive env offer names) (here : r.tasks[i]? = some t)
    (idle : ¬ t.isWorking) (open_ : t.pending ≠ []) {store : MethodStore}
    (same : store.known = r.store.known)
    (way : t'.IsOnWay derive env offer names r.store.known)
    (fresh : ∀ key, t'.worksOn env key → r.store.known.lookup key = none)
    (free : ∀ key, t'.worksOn env key → ∀ u ∈ r.tasks, ¬ u.worksOn env key)
    (watched : t'.stage = .waiting →
      ∀ c ∈ t'.pending.head?, ∃ u ∈ r.tasks, u.worksOn env (c.key env))
    (counted : store.derivations = r.store.derivations + if t'.isWorking then 1 else 0) :
    ({ r with store, tasks := r.tasks.set i t' } : Resolving).Sound derive env offer names := by
  have keeps {key : Credential.Key} (works : ∃ u ∈ r.tasks, u.worksOn env key) :
      ∃ u ∈ r.tasks.set i t', u.worksOn env key := by
    obtain ⟨u, member, works⟩ := works
    exact ⟨u, mem_set_of_worksOn here idle member (Bool.and_eq_true_iff.mp works).1, works⟩
  constructor
  case store => exact same ▸ sound.store
  case tasks =>
    intro j u there
    rw [same]
    rcases cases_of_set there with ⟨-, rfl⟩ | ⟨-, there⟩
    · exact way
    · exact sound.tasks j u there
  case fresh =>
    intro j u key there works
    rw [same]
    rcases cases_of_set there with ⟨-, rfl⟩ | ⟨-, there⟩
    · exact fresh key works
    · exact sound.fresh j u key there works
  case alone =>
    intro j u k v key there there' works works'
    rcases cases_of_set there with ⟨rfl, rfl⟩ | ⟨-, old⟩ <;>
      rcases cases_of_set there' with ⟨rfl, rfl⟩ | ⟨-, old'⟩
    · rfl
    · exact absurd works' (free key works v (List.mem_of_getElem? old'))
    · exact absurd works (free key works' u (List.mem_of_getElem? old))
    · exact sound.alone j u k v key old old' works works'
  case watched =>
    intro j u there waiting c next
    rcases cases_of_set there with ⟨-, rfl⟩ | ⟨-, there⟩
    · exact keeps (watched waiting c next)
    · exact keeps (sound.watched j u there waiting c next)
  case ended =>
    intro j member u there
    rcases cases_of_set there with ⟨rfl, -⟩ | ⟨-, there⟩
    · exact absurd (sound.ended i member t here) open_
    · exact sound.ended j member u there
  case counted =>
    intro derivable
    obtain ⟨bound, at_i⟩ := List.getElem?_eq_some_iff.mp here
    have before := sound.counted derivable
    have after := List.countP_set (p := (·.isWorking)) (l := r.tasks) (a := t') bound
    rw [at_i] at after
    simp only [same, counted, after, before]
    simp [idle]
    omega

theorem finish_eq (derive : Derivation) (env : Environment) (r : Resolving) (i : Nat)
    (t : ResolvingTask) (c : Credential) (derivation : Nat) :
    let outcome := outcomeOf derive c derivation
    r.finish derive env i t c derivation = { r with
      store := { r.store with known := KnownMethods.learn r.store.known (c.key env) outcome }
      tasks := (r.tasks.set i (t.take outcome)).map (·.tell env (c.key env) outcome) } :=
  rfl

/-- After a task has told what it derived, each task is as it was but for what it was told. -/
theorem cases_of_tell {l : List ResolvingTask} {key : Credential.Key}
    {outcome : Except String SharedMethod} {j : Nat} {v : ResolvingTask}
    (there : ((l.set i t').map (·.tell env key outcome))[j]? = some v) :
    ∃ u : ResolvingTask, v = u.tell env key outcome ∧
      (i = j ∧ u = t' ∨ i ≠ j ∧ l[j]? = some u) := by
  rw [List.getElem?_map] at there
  obtain ⟨u, old, told⟩ := Option.map_eq_some_iff.mp there
  exact ⟨u, told.symm, cases_of_set old⟩

/-- A task that still waits was not told, so it waits for another credential, and that is still
being derived. -/
theorem Sound.watched_finish (sound : r.Sound derive env offer names) (here : r.tasks[i]? = some t)
    {later : List Credential} (next : t.pending = c :: later) {derivation : Nat}
    (working : t.stage = .working derivation) (outcome : Except String SharedMethod) {j : Nat}
    {v : ResolvingTask} (there : ((r.tasks.set i (t.take outcome)).map
      (·.tell env (c.key env) outcome))[j]? = some v) (waiting : v.stage = .waiting)
    {d : Credential} (there' : d ∈ v.pending.head?) :
    ∃ w ∈ (r.tasks.set i (t.take outcome)).map (·.tell env (c.key env) outcome),
      w.worksOn env (d.key env) := by
  have works : t.worksOn env (c.key env) := ResolvingTask.worksOn_of_working next working
  obtain ⟨u, rfl, source⟩ := cases_of_tell there
  obtain ⟨other, told⟩ : (u.stage = .waiting → u.next? env ≠ some (c.key env)) ∧
      u.tell env (c.key env) outcome = u := by
    rcases u.tell_cases env (c.key env) outcome with ⟨-, -, told⟩ | untold
    · rw [told] at waiting
      cases waiting
    · exact untold
  rw [told] at waiting there'
  rcases source with ⟨-, rfl⟩ | ⟨-, old⟩
  · rw [ResolvingTask.take, next] at waiting
    cases outcome <;> cases waiting
  · obtain ⟨w, member, works'⟩ := sound.watched j u old waiting d there'
    obtain ⟨k, found⟩ := List.mem_iff_getElem?.mp member
    have apart : i ≠ k := by
      rintro rfl
      obtain rfl := Option.some.inj (here.symm.trans found)
      have same := (ResolvingTask.key_eq_of_worksOn works).symm.trans
        (ResolvingTask.key_eq_of_worksOn works')
      refine other waiting ?_
      rw [same, ResolvingTask.next?, Option.mem_def.mp there']
      rfl
    refine ⟨w.tell env (c.key env) outcome, List.mem_map_of_mem ?_, ?_⟩
    · exact List.mem_iff_getElem?.mpr ⟨k, by rw [List.getElem?_set_ne apart, found]⟩
    · rwa [ResolvingTask.worksOn_tell]

/-- A derivation that has made a method is no longer under way. -/
theorem Sound.counted_finish (sound : r.Sound derive env offer names) (here : r.tasks[i]? = some t)
    {later : List Credential} (next : t.pending = c :: later) {derivation : Nat}
    (working : t.stage = .working derivation)
    (derivable : ∀ name ∈ names, ∀ c ∈ offer name, (derive c).toOption.isSome) :
    let after := r.finish derive env i t c derivation
    after.store.derivations = after.store.known.length + after.tasks.countP (·.isWorking) := by
  intro after
  obtain ⟨bound, at_i⟩ := List.getElem?_eq_some_iff.mp here
  have active : t.isWorking := by rw [ResolvingTask.isWorking, working]
  have positive : 0 < r.tasks.countP (·.isWorking) :=
    List.countP_pos_iff.mpr ⟨t, List.mem_of_getElem? here, active⟩
  have way := sound.tasks i t here
  obtain ⟨method, made⟩ := Option.isSome_iff_exists.mp
    (derivable t.server way.asked c (way.offered (by rw [next]; rfl)))
  have outcome : outcomeOf derive c derivation = .ok ⟨method, derivation⟩ := by
    cases derived : derive c <;> simp_all [outcomeOf, Except.map, Except.toOption]
  have count := List.countP_set (p := (·.isWorking)) (l := r.tasks)
    (a := t.take (.ok ⟨method, derivation⟩)) bound
  rw [at_i, ResolvingTask.isWorking_take c later next] at count
  have known : after.store.known.length = r.store.known.length + 1 := by
    simp only [after, finish_eq, outcome]
    rfl
  have derivations : after.store.derivations = r.store.derivations := rfl
  rw [known, derivations, sound.counted derivable]
  simp only [after, finish_eq, outcome, List.countP_map, Function.comp_def,
    ResolvingTask.isWorking_tell, count]
  simp [active]
  omega

/-- A task that has derived a credential keeps what came of it and tells those that wait for it. -/
theorem Sound.finish (keyed : IsKeyed derive env offer) (sound : r.Sound derive env offer names)
    (here : r.tasks[i]? = some t) {later : List Credential} (next : t.pending = c :: later)
    {derivation : Nat} (working : t.stage = .working derivation) :
    (r.finish derive env i t c derivation).Sound derive env offer names := by
  have way := sound.tasks i t here
  have works : t.worksOn env (c.key env) := ResolvingTask.worksOn_of_working next working
  have none : r.store.known.lookup (c.key env) = none := sound.fresh i t _ here works
  have offered : c ∈ offer t.server := way.offered (by rw [next]; rfl)
  have made := sound.store.learn way.asked offered none derivation
  have grows : ∀ key m, r.store.known.lookup key = some m → _ = some m :=
    fun _ _ found => KnownMethods.lookup_learn_of_known none (outcomeOf derive c derivation) found
  have yields : ∀ name, ∀ d ∈ offer name, d.key env = c.key env → _ :=
    fun _ _ there same => KnownMethods.yields_learn keyed offered none derivation there same
  have counted := sound.counted_finish here next working
  rw [finish_eq] at counted ⊢
  generalize outcomeOf derive c derivation = outcome at made grows yields counted ⊢
  have rests : ∀ key, ¬ (t.take outcome).worksOn env key := by
    intro key works
    rw [ResolvingTask.worksOn, ResolvingTask.isWorking_take c later next] at works
    cases works
  constructor
  case store => exact made
  case tasks =>
    intro j v there
    obtain ⟨u, rfl, ⟨-, rfl⟩ | ⟨-, old⟩⟩ := cases_of_tell there
    · exact ((way.mono keyed grows made).take keyed made next (yields _ c offered rfl)).tell yields
    · exact ((sound.tasks j u old).mono keyed grows made).tell yields
  case fresh =>
    intro j v key there works'
    obtain ⟨u, rfl, ⟨-, rfl⟩ | ⟨other, old⟩⟩ := cases_of_tell there <;>
      rw [ResolvingTask.worksOn_tell] at works'
    · exact absurd works' (rests key)
    · rw [KnownMethods.lookup_learn none, if_neg]
      · exact sound.fresh j u key old works'
      · rintro rfl
        exact other (sound.alone i t j u _ here old works works')
  case alone =>
    intro j v k w key there there' works works'
    obtain ⟨u, rfl, ⟨-, rfl⟩ | ⟨-, old⟩⟩ := cases_of_tell there <;>
      rw [ResolvingTask.worksOn_tell] at works
    · exact absurd works (rests key)
    · obtain ⟨u', rfl, ⟨-, rfl⟩ | ⟨-, old'⟩⟩ := cases_of_tell there' <;>
        rw [ResolvingTask.worksOn_tell] at works'
      · exact absurd works' (rests key)
      · exact sound.alone j u k u' key old old' works works'
  case watched =>
    intro j v there waiting d there'
    exact sound.watched_finish here next working outcome there waiting there'
  case ended =>
    intro j member v there
    obtain ⟨u, rfl, source⟩ := cases_of_tell there
    have kept : (u.tell env (c.key env) outcome).pending = u.pending := by
      rcases u.tell_cases env (c.key env) outcome with ⟨-, -, told⟩ | ⟨-, told⟩ <;> rw [told]
    rw [kept]
    rcases source with ⟨rfl, -⟩ | ⟨-, old⟩
    · have := sound.ended i member t here
      rw [next] at this
      cases this
    · exact sound.ended j member u old
  case counted => exact counted

theorem Sound.step (keyed : IsKeyed derive env offer) (sound : r.Sound derive env offer names)
    (i : Turn) : (r.step derive env i).Sound derive env offer names := by
  have idle {t : ResolvingTask} (ready : t.stage = .ready) : ¬ t.isWorking := by
    rw [ResolvingTask.isWorking, ready]
    exact Bool.false_ne_true
  have way {t : ResolvingTask} (here : r.tasks[i]? = some t) := sound.tasks i t here
  have moved := moves_step derive env r i
  generalize r.step derive env i = after at moved
  cases moved with
  | rests => exact sound
  | @ends t here none =>
    refine { sound with ended := fun j member u there => ?_ }
    rcases List.mem_append.mp member with member | member
    · exact sound.ended j member u there
    · obtain rfl := List.mem_singleton.mp member
      rwa [← Option.some.inj (here.symm.trans there)]
  | @takes t c later outcome here next source =>
    have yields : KnownMethods.Yields derive env r.store.known c outcome := by
      rcases source with ⟨-, m, rfl, found⟩ | told
      · exact found
      · exact (way here).told outcome told c (by rw [next]; rfl)
    have rests : ¬ t.isWorking := by
      rcases source with ⟨ready, -⟩ | told
      · exact idle ready
      · simp [ResolvingTask.isWorking, told]
    have rested := ResolvingTask.isWorking_take c later next outcome
    refine sound.set here rests (by simp [next]) rfl ((way here).take keyed sound.store next yields)
      ?_ ?_ ?_ (by simp [rested])
    · simp [ResolvingTask.worksOn, rested]
    · simp [ResolvingTask.worksOn, rested]
    · rw [ResolvingTask.take, next]
      cases outcome <;> simp
  | @waits t c later here next ready busy =>
    obtain ⟨asked, behind, -, -⟩ := way here
    refine sound.set here (idle ready) (by simp [next]) rfl
      ⟨asked, behind, .inr (by simp [next]), by simp⟩ (by simp [ResolvingTask.worksOn,
        ResolvingTask.isWorking]) (by simp [ResolvingTask.worksOn, ResolvingTask.isWorking]) ?_ rfl
    intro _ d there
    obtain rfl : c = d := by simpa [next] using there
    simpa using busy
  | @begins t c later here next ready unknown free =>
    obtain ⟨asked, behind, -, -⟩ := way here
    have only {key : Credential.Key} (works : ({ t with
        stage := .working (r.store.derivations + 1) } : ResolvingTask).worksOn env key) :
        key = c.key env := by
      simpa [ResolvingTask.next?, next, eq_comm] using ResolvingTask.key_eq_of_worksOn works
    refine sound.set here (idle ready) (by simp [next]) rfl
      ⟨asked, behind, .inr (by simp [next]), by simp⟩ ?_ ?_ (by simp) rfl
    · intro key works
      rwa [only works]
    · intro key works
      rw [only works]
      exact free
  | finishes here next working => exact sound.finish keyed here next working

/-- What holds of tasks that share methods holds after any turns. -/
theorem Sound.run (keyed : IsKeyed derive env offer) (sound : r.Sound derive env offer names)
    (turns : List Turn) : (r.run derive env turns).Sound derive env offer names := by
  induction turns generalizing r with
  | nil => exact sound
  | cons i turns ih => exact ih (sound.step keyed i)

/-! ### What turns leave -/

theorem map_server_set {l : List ResolvingTask} (here : l[i]? = some t)
    (same : t'.server = t.server) : (l.set i t').map (·.server) = l.map (·.server) := by
  refine List.ext_getElem? fun j => ?_
  rw [List.getElem?_map, List.getElem?_map]
  by_cases at_i : i = j
  · subst at_i
    rw [List.getElem?_set_self (List.getElem?_eq_some_iff.mp here).1, here]
    exact congrArg some same
  · rw [List.getElem?_set_ne at_i]

theorem server_take (t : ResolvingTask) (outcome : Except String SharedMethod) :
    (t.take outcome).server = t.server := by
  unfold ResolvingTask.take
  split
  · rfl
  · cases outcome <;> rfl

/-- A turn leaves each task with its server. -/
theorem servers_step (derive : Derivation) (env : Environment) (r : Resolving) (i : Turn) :
    (r.step derive env i).tasks.map (·.server) = r.tasks.map (·.server) := by
  have moved := moves_step derive env r i
  generalize r.step derive env i = after at moved
  cases moved with
  | rests => rfl
  | ends => rfl
  | takes here => exact map_server_set here (server_take ..)
  | waits here => exact map_server_set here rfl
  | begins here => exact map_server_set here rfl
  | @finishes t c later derivation here =>
    have told (key : Credential.Key) (outcome : Except String SharedMethod) (u : ResolvingTask) :
        (u.tell env key outcome).server = u.server := by
      rcases u.tell_cases env key outcome with ⟨-, -, told⟩ | ⟨-, told⟩ <;> rw [told]
    rw [finish, List.map_map]
    simp only [Function.comp_def, told]
    exact map_server_set here (server_take ..)

theorem servers_run (derive : Derivation) (env : Environment) (r : Resolving) (turns : List Turn) :
    (r.run derive env turns).tasks.map (·.server) = r.tasks.map (·.server) := by
  induction turns generalizing r with
  | nil => rfl
  | cons i turns ih => exact (ih (r.step derive env i)).trans (servers_step ..)

/-- A turn leaves all methods that are known. -/
theorem Sound.lookup_step (sound : r.Sound derive env offer names) (i : Turn)
    {key : Credential.Key} {m : SharedMethod} (found : r.store.known.lookup key = some m) :
    (r.step derive env i).store.known.lookup key = some m := by
  have moved := moves_step derive env r i
  generalize r.step derive env i = after at moved
  cases moved with
  | @finishes t c later derivation here next working =>
    have none := sound.fresh i t _ here (ResolvingTask.worksOn_of_working next working)
    exact KnownMethods.lookup_learn_of_known none (outcomeOf derive c derivation) found
  | _ => exact found

theorem Sound.lookup_run (keyed : IsKeyed derive env offer) (sound : r.Sound derive env offer names)
    (turns : List Turn) {key : Credential.Key} {m : SharedMethod}
    (found : r.store.known.lookup key = some m) :
    (r.run derive env turns).store.known.lookup key = some m := by
  induction turns generalizing r with
  | nil => exact found
  | cons i turns ih => exact ih (sound.step keyed i) (sound.lookup_step i found)

end Resolving

end Flotilla
