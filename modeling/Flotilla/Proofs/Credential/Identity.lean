import Flotilla.Proofs.Credential.Material
import Flotilla.Proofs.Credential.Ready

/-!
# Credentials behind shared methods

What the servers of a cache have in common was derived once, and is kept under one key
(`Resolving.Traces`).  So it was made for credentials that are alike, unless two hashes are the same
by accident (`Cache.shares_alike`).  Credentials with one key need not come to the same thing here.
-/

namespace Flotilla

/-! ### Derivations -/

/-- The numbers of the derivations that made what is known. -/
def KnownMethods.numbers (known : KnownMethods) : List Nat := known.map (·.2.derivation)

section

variable (env : Environment) (offer : String → List Credential) (known : KnownMethods)

/-- Whether a task has its methods from what is known of credentials of its server. -/
structure ResolvingTask.Traces (t : ResolvingTask) : Prop where
  pending : ∀ d ∈ t.pending, d ∈ offer t.server
  methods : ∀ m ∈ t.methods, ∃ d ∈ offer t.server, (d.key env, m) ∈ known
  told : ∀ m, t.stage = .told (.ok m) → ∀ key ∈ t.next? env, (key, m) ∈ known

/-- What holds of tasks that number their derivations: no number is given twice. -/
structure Resolving.Traces (r : Resolving) : Prop where
  once : (KnownMethods.numbers r.store.known).Nodup
  bounded : ∀ n ∈ KnownMethods.numbers r.store.known, n ≤ r.store.derivations
  /-- The number of what is derived is not that of what is known. -/
  busy : ∀ t ∈ r.tasks, ∀ n, t.stage = .working n →
    n ≤ r.store.derivations ∧ n ∉ KnownMethods.numbers r.store.known
  alone : ∀ (i : Nat) (t : ResolvingTask) (j : Nat) (u : ResolvingTask) n,
    r.tasks[i]? = some t → r.tasks[j]? = some u →
    t.stage = .working n → u.stage = .working n → i = j
  tasks : ∀ t ∈ r.tasks, t.Traces env offer r.store.known

end

variable {derive : Derivation} {env : Environment} {offer : String → List Credential}
variable {known known' : KnownMethods}

namespace KnownMethods

theorem subset_learn (known : KnownMethods) (key : Credential.Key)
    (outcome : Except String SharedMethod) : known ⊆ known.learn key outcome :=
  fun _ member => List.mem_append_right _ member

theorem numbers_learn_ok (known : KnownMethods) (key : Credential.Key) (m : SharedMethod) :
    (known.learn key (.ok m)).numbers = m.derivation :: known.numbers :=
  rfl

theorem numbers_learn_error (known : KnownMethods) (key : Credential.Key) (reason : String) :
    (known.learn key (.error reason)).numbers = known.numbers :=
  rfl

/-- A derivation makes a method for one key only. -/
theorem eq_of_numbers (once : known.numbers.Nodup) {key key' : Credential.Key} {m : SharedMethod}
    (here : (key, m) ∈ known) (there : (key', m) ∈ known) : key = key' :=
  congrArg Prod.fst (List.inj_on_of_nodup_map once here there rfl)

end KnownMethods

namespace ResolvingTask

variable {t : ResolvingTask} {outcome : Except String SharedMethod}

theorem Traces.mono (traces : t.Traces env offer known) (more : known ⊆ known') :
    t.Traces env offer known' := by
  obtain ⟨pending, methods, told⟩ := traces
  refine ⟨pending, fun m member => ?_, fun m stage key next => more (told m stage key next)⟩
  obtain ⟨d, offered, there⟩ := methods m member
  exact ⟨d, offered, more there⟩

theorem stage_take {c : Credential} {later : List Credential} (next : t.pending = c :: later)
    (outcome : Except String SharedMethod) : (t.take outcome).stage = .ready := by
  rw [take, next]
  cases outcome <;> rfl

theorem Traces.take (traces : t.Traces env offer known) {c : Credential} {later : List Credential}
    (next : t.pending = c :: later) (there : ∀ m, outcome = .ok m → (c.key env, m) ∈ known) :
    (t.take outcome).Traces env offer known := by
  obtain ⟨pending, methods, -⟩ := traces
  rw [next, List.forall_mem_cons] at pending
  rw [ResolvingTask.take, next]
  cases outcome with
  | ok m =>
    refine ⟨pending.2, fun m' member => ?_, by simp⟩
    rcases List.mem_append.mp member with before | last
    · exact methods m' before
    · obtain rfl := List.mem_singleton.mp last
      exact ⟨c, pending.1, there m' rfl⟩
  | error reason => exact ⟨pending.2, methods, by simp⟩

theorem Traces.tell (traces : t.Traces env offer known) {key : Credential.Key}
    (there : ∀ m, outcome = .ok m → (key, m) ∈ known) :
    (t.tell env key outcome).Traces env offer known := by
  rcases t.tell_cases env key outcome with ⟨-, same, told⟩ | ⟨-, told⟩
  · rw [told]
    refine ⟨traces.pending, traces.methods, fun m stage key' next => ?_⟩
    cases stage
    obtain rfl : key = key' := Option.some.inj (same.symm.trans next)
    exact there m rfl
  · rwa [told]

/-- Being told something makes no task derive a credential. -/
theorem working_of_tell {key : Credential.Key} {n : Nat}
    (working : (t.tell env key outcome).stage = .working n) : t.stage = .working n := by
  rcases t.tell_cases env key outcome with ⟨-, -, told⟩ | ⟨-, told⟩
  · rw [told] at working
    cases working
  · rwa [told] at working

end ResolvingTask

namespace Resolving

variable {r : Resolving} {i : Nat} {t t' : ResolvingTask}

/-- A task moves on, and nothing more becomes known. -/
theorem Traces.set (traces : r.Traces env offer) {store : MethodStore}
    (same : store.known = r.store.known) (more : r.store.derivations ≤ store.derivations)
    (way : t'.Traces env offer r.store.known)
    (fresh : ∀ n, t'.stage = .working n → r.store.derivations < n ∧ n ≤ store.derivations) :
    ({ r with store, tasks := r.tasks.set i t' } : Resolving).Traces env offer := by
  have free {u : ResolvingTask} {n : Nat} (member : u ∈ r.tasks) (working : u.stage = .working n) :
      ¬ t'.stage = .working n := fun works =>
    Nat.not_lt.mpr (traces.busy u member n working).1 (fresh n works).1
  constructor
  case once => exact same ▸ traces.once
  case bounded => exact fun n member => (traces.bounded n (same ▸ member)).trans more
  case busy =>
    intro u member n working
    rw [same]
    rcases List.mem_or_eq_of_mem_set member with old | rfl
    · obtain ⟨small, unknown⟩ := traces.busy u old n working
      exact ⟨small.trans more, unknown⟩
    · obtain ⟨large, small⟩ := fresh n working
      exact ⟨small, fun member => Nat.not_lt.mpr (traces.bounded n member) large⟩
  case alone =>
    intro j u k v n there there' working working'
    rcases cases_of_set there with ⟨rfl, rfl⟩ | ⟨-, old⟩ <;>
      rcases cases_of_set there' with ⟨rfl, rfl⟩ | ⟨-, old'⟩
    · rfl
    · exact absurd working (free (List.mem_of_getElem? old') working')
    · exact absurd working' (free (List.mem_of_getElem? old) working)
    · exact traces.alone j u k v n old old' working working'
  case tasks =>
    intro u member
    rw [same]
    rcases List.mem_or_eq_of_mem_set member with old | rfl
    · exact traces.tasks u old
    · exact way

/-- A task tells what it has derived, which has its number from then on. -/
theorem Traces.finish (traces : r.Traces env offer) (here : r.tasks[i]? = some t) {c : Credential}
    {later : List Credential} (next : t.pending = c :: later) {derivation : Nat}
    (working : t.stage = .working derivation) :
    (r.finish derive env i t c derivation).Traces env offer := by
  obtain ⟨small, unknown⟩ := traces.busy t (List.mem_of_getElem? here) derivation working
  have number : ∀ m, outcomeOf derive c derivation = .ok m → m.derivation = derivation := by
    intro m made
    unfold outcomeOf at made
    obtain ⟨method, -, rfl⟩ := map_eq_ok.mp made
    rfl
  rw [finish_eq]
  generalize outcomeOf derive c derivation = outcome at number ⊢
  have more := KnownMethods.subset_learn r.store.known (c.key env) outcome
  have learned : ∀ m, outcome = .ok m →
      (c.key env, m) ∈ KnownMethods.learn r.store.known (c.key env) outcome := by
    rintro m rfl
    exact List.mem_cons_self
  have numbers {n : Nat}
      (member : n ∈ KnownMethods.numbers (KnownMethods.learn r.store.known (c.key env) outcome)) :
      n = derivation ∨ n ∈ KnownMethods.numbers r.store.known := by
    cases outcome with
    | ok m =>
      rw [KnownMethods.numbers_learn_ok, number m rfl] at member
      exact List.mem_cons.mp member
    | error =>
      rw [KnownMethods.numbers_learn_error] at member
      exact .inr member
  -- The other tasks that derive something do so under other numbers.
  have others {j : Nat} {v : ResolvingTask} {n : Nat}
      (there : ((r.tasks.set i (t.take outcome)).map (·.tell env (c.key env) outcome))[j]? = some v)
      (working' : v.stage = .working n) :
      ∃ u, r.tasks[j]? = some u ∧ u.stage = .working n ∧ n ≠ derivation := by
    obtain ⟨u, rfl, source⟩ := cases_of_tell there
    have works := ResolvingTask.working_of_tell working'
    rcases source with ⟨-, rfl⟩ | ⟨apart, old⟩
    · rw [ResolvingTask.stage_take next] at works
      cases works
    · refine ⟨u, old, works, ?_⟩
      rintro rfl
      exact apart (traces.alone i t j u n here old working works)
  constructor
  case once =>
    cases outcome with
    | ok m =>
      show (KnownMethods.numbers (KnownMethods.learn _ _ _)).Nodup
      rw [KnownMethods.numbers_learn_ok, number m rfl]
      exact List.nodup_cons.mpr ⟨unknown, traces.once⟩
    | error => exact traces.once
  case bounded =>
    intro n member
    rcases numbers member with rfl | before
    · exact small
    · exact traces.bounded n before
  case busy =>
    intro v member n working'
    obtain ⟨j, there⟩ := List.mem_iff_getElem?.mp member
    obtain ⟨u, old, works, other⟩ := others there working'
    obtain ⟨small, unknown⟩ := traces.busy u (List.mem_of_getElem? old) n works
    exact ⟨small, fun member => (numbers member).elim other unknown⟩
  case alone =>
    intro j v k w n there there' working' working''
    obtain ⟨u, old, works, -⟩ := others there working'
    obtain ⟨u', old', works', -⟩ := others there' working''
    exact traces.alone j u k u' n old old' works works'
  case tasks =>
    intro v member
    obtain ⟨u, old, rfl⟩ := List.mem_map.mp member
    apply ResolvingTask.Traces.tell _ learned
    rcases List.mem_or_eq_of_mem_set old with old | rfl
    · exact (traces.tasks u old).mono more
    · exact ((traces.tasks t (List.mem_of_getElem? here)).mono more).take next learned

theorem Traces.step (traces : r.Traces env offer) (i : Turn) :
    (r.step derive env i).Traces env offer := by
  have way {t : ResolvingTask} (here : r.tasks[i]? = some t) :=
    traces.tasks t (List.mem_of_getElem? here)
  have moved := moves_step derive env r i
  generalize r.step derive env i = after at moved
  cases moved with
  | rests => exact traces
  | ends => exact { traces with }
  | @takes t c later outcome here next source =>
    refine traces.set rfl (Nat.le_refl _) ((way here).take next ?_) ?_
    · rintro m rfl
      rcases source with ⟨-, m', made, found⟩ | told
      · cases made
        obtain ⟨before, behind, whole, -⟩ := List.lookup_eq_some_iff.mp found
        rw [whole]
        exact List.mem_append_right _ List.mem_cons_self
      · exact (way here).told m told _ (ResolvingTask.next?_eq next)
    · rw [ResolvingTask.stage_take next]
      simp
  | waits here next =>
    obtain ⟨pending, methods, -⟩ := way here
    exact traces.set rfl (Nat.le_refl _) ⟨pending, methods, by simp⟩ (by simp)
  | begins here next =>
    obtain ⟨pending, methods, -⟩ := way here
    exact traces.set rfl (Nat.le_succ _) ⟨pending, methods, by simp⟩ (by simp)
  | finishes here next working => exact traces.finish here next working

theorem Traces.run (traces : r.Traces env offer) (turns : List Turn) :
    (r.run derive env turns).Traces env offer := by
  induction turns generalizing r with
  | nil => exact traces
  | cons i turns ih => exact ih (traces.step i)

theorem known_subset_step (derive : Derivation) (env : Environment) (r : Resolving) (i : Turn) :
    r.store.known ⊆ (r.step derive env i).store.known := by
  have moved := moves_step derive env r i
  generalize r.step derive env i = after at moved
  cases moved with
  | finishes => exact KnownMethods.subset_learn ..
  | _ => exact fun _ member => member

/-- Nothing that is known is lost. -/
theorem known_subset_run (derive : Derivation) (env : Environment) (r : Resolving)
    (turns : List Turn) : r.store.known ⊆ (r.run derive env turns).store.known := by
  induction turns generalizing r with
  | nil => exact fun _ member => member
  | cons i turns ih => exact List.Subset.trans (known_subset_step derive env r i) (ih _)

end Resolving

namespace Cache

/-- A cache after calls in one environment, the latest one first. -/
inductive Served (env : Environment) : Cache → List Call → Prop where
  | new : Served env {} []
  | call {c : Cache} {calls : List Call} (served : Served env c calls) (call : Call)
      (same : call.machine.env = env) (ended : call.IsOver c) :
      Served env (call.answer c).1 (call :: calls)

/-- Whether a method is listed of a server. -/
def Has (c : Cache) (name : String) (m : SharedMethod) : Prop :=
  ∃ methods, c.servers.find? name = some methods ∧ m ∈ methods

/-- Whether a method is kept under the key of a credential that a call found for a server. -/
structure Origin (env : Environment) (c : Cache) (calls : List Call) (name : String)
    (m : SharedMethod) (d : Credential) : Prop where
  offered : ∃ call ∈ calls, name ∈ call.servers ∧ d ∈ call.offer name
  kept : (d.key env, m) ∈ c.store.known

/-- What holds of a cache whose derivations are numbered. -/
structure Traces (env : Environment) (c : Cache) (calls : List Call) : Prop where
  once : (KnownMethods.numbers c.store.known).Nodup
  bounded : ∀ n ∈ KnownMethods.numbers c.store.known, n ≤ c.store.derivations
  listed : ∀ name m, c.Has name m → ∃ d, Origin env c calls name m d

variable {env : Environment} {c : Cache} {calls : List Call} {call : Call}

theorem Traces.start (traces : Traces env c calls) (call : Call) :
    (c.start call.machine.env call.inventory call.servers).Traces call.machine.env call.offer := by
  have idle : ∀ t ∈ (c.start call.machine.env call.inventory call.servers).tasks,
      ∃ name, t = { server := name, pending := call.offer name } := by
    intro t member
    obtain ⟨name, -, rfl⟩ := eq_of_mem_start member
    exact ⟨name, rfl⟩
  constructor
  case once => exact traces.once
  case bounded => exact traces.bounded
  case busy =>
    intro t member n working
    obtain ⟨name, rfl⟩ := idle t member
    cases working
  case alone =>
    intro i t j u n here _ working _
    obtain ⟨name, rfl⟩ := idle t (List.mem_of_getElem? here)
    cases working
  case tasks =>
    intro t member
    obtain ⟨name, rfl⟩ := idle t member
    exact ⟨fun d offered => offered, by simp, by simp⟩

/-- Numbers go on through a call, and what it lists is kept under the keys of what it found. -/
theorem Traces.answer (traces : Traces call.machine.env c calls) (ended : call.IsOver c) :
    Traces call.machine.env (call.answer c).1 (call :: calls) := by
  have run : (call.work c).Traces call.machine.env call.offer := (traces.start call).run call.turns
  have more : c.store.known ⊆ (call.work c).store.known :=
    Resolving.known_subset_run call.derive call.machine.env
      (c.start call.machine.env call.inventory call.servers) call.turns
  have store := call.store_answer c
  constructor
  case once => exact store ▸ run.once
  case bounded => exact store ▸ run.bounded
  case listed =>
    rintro name m ⟨methods, found, member⟩
    rw [Call.find?_answer ended] at found
    rcases Option.or_eq_some_iff.mp found with gained | ⟨-, before⟩
    · have asked := Call.gains_isSome_of ended (Option.isSome_iff_exists.mpr ⟨methods, gained⟩)
      obtain ⟨found, finds, same⟩ := Option.bind_eq_some_iff.mp gained
      obtain rfl : found = methods := by
        cases found with
        | nil => cases same
        | cons => exact Option.some.inj same
      obtain ⟨t, there, rfl, rfl⟩ := Call.mem_of_finds ended finds
      obtain ⟨d, offered, kept⟩ := (run.tasks t there).methods m member
      exact ⟨d, ⟨call, List.mem_cons_self, asked, offered⟩, store ▸ kept⟩
    · obtain ⟨d, ⟨earlier, there, offered⟩, kept⟩ := traces.listed name m ⟨methods, before, member⟩
      exact ⟨d, ⟨earlier, List.mem_cons_of_mem _ there, offered⟩, store ▸ more kept⟩

theorem Served.traces (served : Served env c calls) : Traces env c calls := by
  induction served with
  | new =>
    refine ⟨List.nodup_nil, fun n member => ?_, fun name m has => ?_⟩
    · cases member
    · obtain ⟨methods, found, -⟩ := has
      cases found
  | call served call same ended ih =>
    subst same
    exact ih.answer ended

/-- Just credentials that are alike have one kind and hash the same bytes.  So however calls in one
environment went, what servers have in common was made for credentials of theirs that are alike,
unless the hashes of different material are the same. -/
theorem shares_alike (env : Environment) :
    (∀ d e : Credential, d.HasFramableParts env → e.HasFramableParts env →
      (d.kind = e.kind ∧ d.material env = e.material env ↔ d.Alike e)) ∧
    ∀ c calls, Served env c calls → ∀ a b m, c.Has a m → c.Has b m →
      (∃ d, Origin env c calls a m d) ∧ (∃ e, Origin env c calls b m e) ∧
      ∀ d e, Origin env c calls a m d → Origin env c calls b m e →
        d.HasFramableParts env → e.HasFramableParts env → ¬ Credential.Collide env d e →
          d.Alike e := by
  refine ⟨fun d e framable framable' => Credential.material_eq_iff framable framable', ?_⟩
  intro c calls served a b m has has'
  have traces := served.traces
  refine ⟨traces.listed a m has, traces.listed b m has', ?_⟩
  intro d e origin origin' framable framable' apart
  apply Credential.alike_of_key framable framable' apart
  exact KnownMethods.eq_of_numbers traces.once origin.kept origin'.kept

/-- Two servers with one password, which one of them has obfuscated. -/
def twoForms : Call where
  machine := .bare
  inventory :=
    { servers := .ofList [("a", { password := some "pw", agent := some false }),
        ("b", { password := some "b64:cHc=", agent := some false })] }
  servers := ["a", "b"]
  turns := [0, 0, 0, 1, 1]

/-- They share it: the second server takes what the first one has derived. -/
theorem shares_alike_twoForms :
    let c := (twoForms.answer {}).1
    let m : SharedMethod := ⟨.password "pw", 1⟩
    let d : Credential := .password ⟨"pw", "pw"⟩
    let e : Credential := .password ⟨"b64:cHc=", "pw"⟩
    Served {} c [twoForms] ∧ c.Has "a" m ∧ c.Has "b" m ∧ Origin {} c [twoForms] "a" m d ∧
      Origin {} c [twoForms] "b" m e ∧ d.Alike e ∧ d.material {} = e.material {} := by
  intro c m d e
  have outcome : twoForms.IsOver {} ∧ c.servers.find? "a" = some [m] ∧
      c.servers.find? "b" = some [m] ∧ c.store.known = [(d.key {}, m)] := by
    decide +kernel
  obtain ⟨ended, listed, listed', known⟩ := outcome
  have served : Served {} c [twoForms] := Served.new.call twoForms rfl ended
  have here : c.Has "a" m := ⟨[m], listed, List.mem_singleton_self m⟩
  have there : c.Has "b" m := ⟨[m], listed', List.mem_singleton_self m⟩
  have offered : d ∈ twoForms.offer "a" ∧ e ∈ twoForms.offer "b" := by decide +kernel
  have kept : (d.key {}, m) ∈ c.store.known := by
    rw [known]
    exact List.mem_singleton_self _
  have origin : Origin {} c [twoForms] "a" m d :=
    ⟨⟨twoForms, List.mem_cons_self, by decide, offered.1⟩, kept⟩
  have origin' : Origin {} c [twoForms] "b" m e :=
    ⟨⟨twoForms, List.mem_cons_self, by decide, offered.2⟩, kept⟩
  have framable : d.HasFramableParts {} ∧ e.HasFramableParts {} := by
    unfold Credential.HasFramableParts IsFramable
    decide +kernel
  obtain ⟨hashed, shared⟩ := shares_alike {}
  obtain ⟨-, -, alike⟩ := shared c [twoForms] served "a" "b" m here there
  have same := alike d e origin origin' framable.1 framable.2 fun collide => collide.1 rfl
  exact ⟨served, here, there, origin, origin', same,
    ((hashed d e framable.1 framable.2).mpr same).2⟩

end Cache

end Flotilla
