import Flotilla.Proofs.Credential.Finishing
import Mathlib

/-!
# What a cache knows after its calls

After any calls, each in any order of turns, the methods of a server are those of its own
credentials, in the order of their kinds; credentials with the same key share one method, and if
nothing failed, each key was derived once (`Cache.exact_of_reached`).
-/

namespace Flotilla

/-! ### The credentials of a server -/

namespace Credential

/-- Whether credentials stand in the order of their kinds, which come before the kind of this
rank. -/
def AreBelow (n : Nat) (l : List Credential) : Prop :=
  l.Pairwise (fun a b => a.kind.rank < b.kind.rank) ∧ ∀ c ∈ l, c.kind.rank < n

theorem AreBelow.append {n : Nat} {l m : List Credential} (below : AreBelow n l)
    (next : ∀ c ∈ m, c.kind.rank = n) (single : m.length ≤ 1) : AreBelow (n + 1) (l ++ m) := by
  obtain ⟨ascending, smaller⟩ := below
  constructor
  · refine List.pairwise_append.mpr ⟨ascending, ?_, fun a here b there => ?_⟩
    · match m, single with
      | [], _ => exact .nil
      | [c], _ => exact List.pairwise_singleton _ c
    · rw [next b there]
      exact smaller a here
  · intro c member
    rcases List.mem_append.mp member with member | member
    · exact Nat.lt_succ_of_lt (smaller c member)
    · rw [next c member]
      exact Nat.lt_succ_self n

theorem AreBelow.option {α : Type} {n : Nat} {l : List Credential} (below : AreBelow n l)
    (f : α → Credential) (rank : ∀ a, (f a).kind.rank = n) (o : Option α) :
    AreBelow (n + 1) (l ++ o.toList.map f) := by
  refine below.append ?_ (by cases o <;> simp)
  intro c member
  obtain ⟨a, -, rfl⟩ := List.mem_map.mp member
  exact rank a

end Credential

namespace Server

variable (s : Server) (env : Environment) (name : String)

theorem certificate_single (passphrase : Option Secret) :
    (∀ c ∈ (s.certificate env name passphrase).1, c.kind.rank = 3) ∧
      (s.certificate env name passphrase).1.length ≤ 1 := by
  unfold Server.certificate
  split
  · simp
  · exact ⟨List.forall_mem_singleton.mpr rfl, Nat.le_refl 1⟩
  · simp

theorem providerKeys_single :
    (∀ c ∈ (s.providerKeys name).1, c.kind.rank = 4) ∧ (s.providerKeys name).1.length ≤ 1 := by
  unfold Server.providerKeys
  split
  · simp
  · exact ⟨List.forall_mem_singleton.mpr rfl, Nat.le_refl 1⟩

/-- The credentials of a server stand in the order of their kinds, with one of each at most. -/
theorem credentials_ascending :
    (s.credentials env name).usable.Pairwise (fun a b => a.kind.rank < b.kind.rank) := by
  have start : Credential.AreBelow 0 [] := ⟨.nil, by simp⟩
  unfold Server.credentials
  dsimp only
  generalize (secret name .keyFile s.keyPassphrase).1 = passphrase
  have passwords := start.option .password (fun _ => rfl) (secret name .password s.password).1
  have files := passwords.option (fun key => .keyFile (env.expandPath key) passphrase)
    (fun _ => rfl) s.key
  have commands := files.option (fun command => .keyCommand command passphrase)
    (fun _ => rfl) s.keyCommand
  obtain ⟨kind, single⟩ := s.certificate_single env name passphrase
  have certificates := commands.append kind single
  obtain ⟨kind, single⟩ := s.providerKeys_single name
  have provided := certificates.append kind single
  refine (provided.append (m := if s.usesAgent env then [.agent] else []) ?_ ?_).1
  · split
    · exact List.forall_mem_singleton.mpr rfl
    · simp
  · split <;> simp

end Server

/-! ### The tasks of a call -/

/-- The credentials that an inventory has for a server. -/
def Inventory.offer (inv : Inventory) (env : Environment) (name : String) : List Credential :=
  match inv.server name with
  | .ok s => (s.credentials env name).usable
  | .error _ => []

variable {derive : Derivation} {env : Environment} {inv : Inventory}

theorem Inventory.knows_eq (inv : Inventory) (name : String) :
    inv.knows name = (inv.server name).toOption.isSome := by
  unfold knows server Table.contains
  cases inv.servers.find? name <;> rfl

theorem Inventory.offer_ascending (inv : Inventory) (env : Environment) (name : String) :
    (inv.offer env name).Pairwise (fun a b => a.kind.rank < b.kind.rank) := by
  unfold Inventory.offer
  split
  · exact Server.credentials_ascending ..
  · exact .nil

namespace Cache

/-- What one server more adds to the plan. -/
theorem plan_concat (env : Environment) (inv : Inventory) (servers : List String) (name : String) :
    plan env inv (servers ++ [name]) =
      let (tasks, report) := plan env inv servers
      match inv.server name with
      | .error e =>
        (tasks, { report with
          failures := report.failures ++ [(name, e)], excluded := report.excluded ++ [name] })
      | .ok s =>
        (tasks ++ [{ server := name, pending := (s.credentials env name).usable }],
          { report with
            failures := report.failures ++ (s.credentials env name).failures.map (name, ·) }) := by
  rw [plan, List.foldl_append]
  rfl

/-- There is a task for each server that the inventory knows. -/
theorem plan_tasks (env : Environment) (inv : Inventory) (servers : List String) :
    (plan env inv servers).1 = servers.filterMap fun name => (inv.server name).toOption.map
      fun _ => { server := name, pending := inv.offer env name } := by
  induction servers using List.reverseRecOn with
  | nil => rfl
  | append_singleton servers name ih =>
    rw [plan_concat, List.filterMap_append, ← ih]
    cases known : inv.server name <;> simp [known, Inventory.offer, Except.toOption]

/-- Each task begins with all credentials of a server. -/
theorem eq_of_mem_start {c : Cache} {servers : List String} {t : ResolvingTask}
    (member : t ∈ (c.start env inv servers).tasks) :
    ∃ name ∈ servers, t = { server := name, pending := inv.offer env name } := by
  rw [start, plan_tasks] at member
  obtain ⟨name, here, made⟩ := List.mem_filterMap.mp member
  obtain ⟨s, -, rfl⟩ := Option.map_eq_some_iff.mp made
  exact ⟨name, here, rfl⟩

/-- What is listed of a server, which is nothing unless it has one method at least. -/
def entry {α : Type} : List α → Option (List α)
  | [] => none
  | methods => some methods

/-- What a server has after the tasks of a call were taken up. -/
theorem settle_servers (found : Table String (List SharedMethod)) (c : Cache)
    (report : ResolutionReport) (servers : List String) :
    (settle found c report servers).1.store = c.store ∧
    ∀ name, (settle found c report servers).1.servers.find? name =
      if name ∈ servers then ((found.find? name).bind entry).or (c.servers.find? name)
      else c.servers.find? name := by
  induction servers generalizing found c report with
  | nil => simp [settle]
  | cons first later ih =>
    have elsewhere {name : String} (other : name ≠ first) :
        (name ∈ first :: later ↔ name ∈ later) := by simp [other]
    rw [settle]
    split
    next none =>
      refine ⟨(ih ..).1, fun name => ?_⟩
      rw [(ih ..).2]
      by_cases same : name = first
      · simp [same, none]
      · simp only [elsewhere same]
    next none =>
      refine ⟨(ih ..).1, fun name => ?_⟩
      rw [(ih ..).2]
      by_cases same : name = first
      · simp [same, none, Table.find?_erase, entry]
      · simp only [elsewhere same, Table.find?_erase, if_neg same]
    next methods some_ there =>
      refine ⟨(ih ..).1, fun name => ?_⟩
      rw [(ih ..).2]
      by_cases same : name = first
      · have listed : entry methods = some methods := by
          cases methods with
          | nil => exact absurd rfl some_
          | cons => rfl
        simp [same, there, Table.find?_erase, Table.find?_insert, listed]
      · simp only [elsewhere same, Table.find?_erase, Table.find?_insert, if_neg same]

/-- What was found for a server of some tasks, if they agree on it. -/
theorem find?_foldl {name : String} (methods : List SharedMethod) {tasks : List ResolvingTask}
    (agree : ∀ t ∈ tasks, t.server = name → t.methods = methods)
    (found : Table String (List SharedMethod)) :
    (tasks.foldl (fun found t => found.insert t.server t.methods) found).find? name =
      if name ∈ tasks.map (·.server) then some methods else found.find? name := by
  induction tasks generalizing found with
  | nil => simp
  | cons t tasks ih =>
    rw [List.foldl_cons, ih fun u member => agree u (List.mem_cons_of_mem t member),
      Table.find?_insert]
    by_cases same : name = t.server
    · simp [same, agree t List.mem_cons_self same.symm]
    · simp [same]

/-! ### Calls -/

/-- What holds of a cache after calls for these servers. -/
structure Kept (derive : Derivation) (env : Environment) (inv : Inventory) (covered : List String)
    (c : Cache) : Prop where
  store : KnownMethods.IsMade derive env (inv.offer env) covered c.store.known
  settled : ∀ name ∈ covered, ∀ credential ∈ inv.offer env name,
    KnownMethods.Settles derive env c.store.known credential
  listed : ∀ name, c.servers.find? name = if name ∈ covered then
    entry ((inv.offer env name).filterMap fun d => c.store.known.lookup (d.key env)) else none
  counted : (∀ name ∈ covered, ∀ d ∈ inv.offer env name, (derive d).toOption.isSome) →
    c.store.derivations = c.store.known.length

variable {covered : List String} {c : Cache}

theorem Kept.start (kept : Kept derive env inv covered c) (servers : List String) :
    (c.start env inv servers).Sound derive env (inv.offer env) (covered ++ servers) := by
  have idle {t : ResolvingTask} {i : Nat} (here : (c.start env inv servers).tasks[i]? = some t)
      (key : Credential.Key) : ¬ t.worksOn env key := by
    obtain ⟨name, -, rfl⟩ := eq_of_mem_start (List.mem_of_getElem? here)
    simp [ResolvingTask.worksOn, ResolvingTask.isWorking]
  constructor
  case store =>
    refine ⟨fun key m found => ?_, kept.store.once⟩
    obtain ⟨name, member, rest⟩ := kept.store.made key m found
    exact ⟨name, List.mem_append_left _ member, rest⟩
  case tasks =>
    intro i t here
    obtain ⟨name, member, rfl⟩ := eq_of_mem_start (List.mem_of_getElem? here)
    exact ⟨List.mem_append_right _ member, ⟨[], rfl, by simp, rfl⟩, .inl rfl, by simp⟩
  case fresh => exact fun i t key here works => absurd works (idle here key)
  case alone => exact fun i t j u key here _ works => absurd works (idle here key)
  case watched =>
    intro i t here waiting
    obtain ⟨name, -, rfl⟩ := eq_of_mem_start (List.mem_of_getElem? here)
    cases waiting
  case ended => exact fun i member => absurd member List.not_mem_nil
  case counted =>
    intro derivable
    have none : (c.start env inv servers).tasks.countP (·.isWorking) = 0 := by
      refine List.countP_eq_zero.mpr fun t member => ?_
      obtain ⟨name, -, rfl⟩ := eq_of_mem_start member
      exact Bool.false_ne_true
    rw [none]
    exact kept.counted fun name member => derivable name (List.mem_append_left _ member)

/-- There is a task for the servers of a call that the inventory knows, and for no others. -/
theorem exists_task_iff (derive : Derivation) (env : Environment) (inv : Inventory) (c : Cache)
    (servers : List String) (turns : List Turn) (name : String) :
    (∃ t ∈ ((c.start env inv servers).run derive env turns).tasks, t.server = name) ↔
      name ∈ servers ∧ inv.knows name := by
  rw [← List.mem_map, Resolving.servers_run, Cache.start, plan_tasks, List.map_filterMap,
    List.mem_filterMap, Inventory.knows_eq]
  constructor
  · rintro ⟨other, member, made⟩
    cases known : inv.server other <;> simp_all [Except.toOption]
  · rintro ⟨member, known⟩
    refine ⟨name, member, ?_⟩
    cases there : inv.server name <;> simp_all [Except.toOption]

/-- A server has its task unless the inventory has no credentials for it. -/
theorem exists_task (derive : Derivation) (env : Environment) (inv : Inventory) (c : Cache)
    (servers : List String) (turns : List Turn) (name : String) (member : name ∈ servers) :
    inv.offer env name = [] ∨
      ∃ t ∈ ((c.start env inv servers).run derive env turns).tasks, t.server = name := by
  cases known : inv.server name with
  | error e =>
    left
    rw [Inventory.offer, known]
  | ok s =>
    right
    apply (exists_task_iff ..).mpr
    rw [Inventory.knows_eq, known]
    exact ⟨member, rfl⟩

/-- What the servers of a call have once it is over. -/
theorem collect_servers {names servers : List String} {r : Resolving}
    (sound : r.Sound derive env (inv.offer env) names) (finished : r.isFinished)
    (task : ∀ name ∈ servers, inv.offer env name = [] ∨ ∃ t ∈ r.tasks, t.server = name)
    (c : Cache) :
    (c.collect env inv servers r).1.store = r.store ∧
    ∀ name, (c.collect env inv servers r).1.servers.find? name = if name ∈ servers then
      (entry ((inv.offer env name).filterMap fun d => r.store.known.lookup (d.key env))).or
        (c.servers.find? name)
      else c.servers.find? name := by
  unfold collect
  dsimp only
  refine ⟨(settle_servers ..).1, fun name => ?_⟩
  rw [(settle_servers ..).2, find?_foldl ((inv.offer env name).filterMap fun d =>
    r.store.known.lookup (d.key env))]
  · split
    next member =>
      congr 1
      split
      next => rfl
      next absent =>
        rcases task name member with none | ⟨t, there, same⟩
        · rw [none]
          rfl
        · refine absurd (List.mem_map.mpr ⟨t, ?_, same⟩) absent
          exact (Resolving.mem_results_iff finished).mpr there
    next => rfl
  · rintro t member rfl
    exact (sound.methods_of_finished finished
      ((Resolving.mem_results_iff finished).mp member)).2

/-- A call keeps what holds of a cache, in whatever order its tasks take turns. -/
theorem Kept.resolveBy (keyed : IsKeyed derive env (inv.offer env))
    (kept : Kept derive env inv covered c) {servers : List String} {turns : List Turn}
    (finished : ((c.start env inv servers).run derive env turns).isFinished) :
    Kept derive env inv (covered ++ servers)
      (c.resolveBy (fun _ => turns) derive env inv servers).1 := by
  have begun := kept.start servers
  have task := exists_task derive env inv c servers turns
  have grows : ∀ key m, c.store.known.lookup key = some m → _ :=
    fun _ _ found => begun.lookup_run keyed turns found
  have sound := begun.run keyed turns
  unfold Cache.resolveBy
  dsimp only
  generalize (c.start env inv servers).run derive env turns = r at finished task grows sound
  obtain ⟨store, listed⟩ := collect_servers sound finished task c
  -- What was known of the servers of earlier calls is still known.
  have same : ∀ name ∈ covered, ∀ d ∈ inv.offer env name,
      r.store.known.lookup (d.key env) = c.store.known.lookup (d.key env) :=
    fun name member d offered =>
      (kept.settled name member d offered).lookup_eq keyed offered grows sound.store
  have entries : ∀ name ∈ covered,
      ((inv.offer env name).filterMap fun d => r.store.known.lookup (d.key env)) =
        (inv.offer env name).filterMap fun d => c.store.known.lookup (d.key env) :=
    fun name member => List.filterMap_congr (same name member)
  constructor
  case store => exact store ▸ sound.store
  case settled =>
    intro name member d offered
    rw [store]
    rcases List.mem_append.mp member with member | member
    · rw [KnownMethods.Settles, same name member d offered]
      exact kept.settled name member d offered
    · rcases task name member with none | ⟨t, there, rfl⟩
      · rw [none] at offered
        cases offered
      · exact (sound.methods_of_finished finished there).1 d offered
  case listed =>
    intro name
    rw [listed, store]
    rw [kept.listed name]
    by_cases early : name ∈ covered
    · simp only [early, List.mem_append, true_or, if_true, entries name early]
      split
      · cases entry _ <;> rfl
      · rfl
    · simp [early]
  case counted =>
    intro derivable
    rw [store, sound.counted derivable, sound.countP_of_finished finished, Nat.add_zero]

/-- A cache after calls, with the servers that they were for.  In each call the tasks took turns in
some way that brought them to their end. -/
inductive Reached (derive : Derivation) (env : Environment) (inv : Inventory) :
    Cache → List String → Prop where
  | new : Reached derive env inv {} []
  | call {c : Cache} {covered : List String} (reached : Reached derive env inv c covered)
      (servers : List String) (turns : List Turn)
      (finished : ((c.start env inv servers).run derive env turns).isFinished) :
      Reached derive env inv (c.resolveBy (fun _ => turns) derive env inv servers).1
        (covered ++ servers)

theorem atRest_start (env : Environment) (c : Cache) (inv : Inventory) (servers : List String) :
    (c.start env inv servers).AtRest := by
  intro t member
  obtain ⟨name, -, rfl⟩ := eq_of_mem_start member
  rfl

/-- Resolving one server after the other is one way to make a call. -/
theorem Reached.resolve (reached : Reached derive env inv c covered) (servers : List String) :
    Reached derive env inv (c.resolve derive env inv servers).1 (covered ++ servers) :=
  reached.call servers _ ((atRest_start env c inv servers).isFinished_inOrder derive env)

theorem Reached.kept (keyed : IsKeyed derive env (inv.offer env))
    (reached : Reached derive env inv c covered) : Kept derive env inv covered c := by
  induction reached with
  | new =>
    refine ⟨⟨fun key m found => ?_, List.nodup_nil⟩, by simp, fun name => rfl, fun _ => rfl⟩
    cases found
  | call _ servers turns finished ih => exact ih.resolveBy keyed finished

/-- What is known of the credentials of a server is what comes of them. -/
theorem Kept.methods (kept : Kept derive env inv covered c) {name : String}
    (member : name ∈ covered) :
    ((inv.offer env name).filterMap fun d => c.store.known.lookup (d.key env)).map (·.method) =
      (inv.offer env name).filterMap fun d => (derive d).toOption := by
  rw [List.map_filterMap]
  exact List.filterMap_congr fun d offered => kept.settled name member d offered

theorem mem_keys_iff {known : KnownMethods} {key : Credential.Key} :
    key ∈ known.map (·.1) ↔ ∃ m, known.lookup key = some m := by
  rw [← Option.isSome_iff_exists, List.lookup_isSome_iff, List.mem_map]
  exact exists_congr fun e => and_congr_right fun _ => by rw [beq_iff_eq, eq_comm]

/-- If nothing fails, there is one method for each key. -/
theorem Kept.length_known (kept : Kept derive env inv covered c)
    (derivable : ∀ name ∈ covered, ∀ d ∈ inv.offer env name, (derive d).toOption.isSome) :
    c.store.known.length = ((covered.flatMap (inv.offer env)).map (·.key env)).dedup.length := by
  have keys : (c.store.known.map (·.1)).Perm
      ((covered.flatMap (inv.offer env)).map (·.key env)).dedup := by
    refine (List.perm_ext_iff_of_nodup kept.store.once (List.nodup_dedup _)).mpr fun key => ?_
    rw [mem_keys_iff, List.mem_dedup, List.mem_map]
    constructor
    · rintro ⟨m, found⟩
      obtain ⟨name, here, d, offered, same, -⟩ := kept.store.made key m found
      exact ⟨d, List.mem_flatMap.mpr ⟨name, here, offered⟩, same⟩
    · rintro ⟨d, member, rfl⟩
      obtain ⟨name, here, offered⟩ := List.mem_flatMap.mp member
      have settled := kept.settled name here d offered
      obtain ⟨method, made⟩ := Option.isSome_iff_exists.mp (derivable name here d offered)
      rw [KnownMethods.Settles, made] at settled
      obtain ⟨m, found, -⟩ := Option.map_eq_some_iff.mp settled
      exact ⟨m, found⟩
  rw [← List.length_map (·.1), keys.length_eq]

/-- After any calls, each with any order of turns, a server that a call was for has the methods of
exactly those of its credentials that can be derived, in the order of their kinds, whatever the
other servers were.  Credentials with the same key have one method in common.  If all of them can
be derived, each key was derived once.  And whatever turns the tasks of the next call have taken,
there are turns that bring it to its end. -/
theorem exact_of_reached (keyed : IsKeyed derive env (inv.offer env))
    (reached : Reached derive env inv c covered) :
    (∀ name ∈ covered,
      (inv.offer env name).Pairwise (fun a b => a.kind.rank < b.kind.rank) ∧
      c.methodsFor name = entry ((inv.offer env name).filterMap fun d => (derive d).toOption) ∧
      c.servers.find? name =
        entry ((inv.offer env name).filterMap fun d => c.store.known.lookup (d.key env))) ∧
    ((∀ name ∈ covered, ∀ d ∈ inv.offer env name, (derive d).toOption.isSome) →
      c.store.derivations =
        ((covered.flatMap (inv.offer env)).map (·.key env)).dedup.length) ∧
    ∀ servers turns, ∃ more,
      ((c.start env inv servers).run derive env (turns ++ more)).isFinished := by
  have kept := reached.kept keyed
  refine ⟨fun name member => ⟨inv.offer_ascending env name, ?_, ?_⟩, fun derivable => ?_,
    fun servers turns => ?_⟩
  · rw [methodsFor, kept.listed, if_pos member, ← kept.methods member]
    cases (inv.offer env name).filterMap fun d => c.store.known.lookup (d.key env) <;> rfl
  · rw [kept.listed, if_pos member]
  · rw [kept.counted derivable, kept.length_known derivable]
  · obtain ⟨more, finished⟩ := ((kept.start servers).run keyed turns).exists_finish keyed
    exact ⟨more, by rwa [Resolving.run_append]⟩

/-- Two servers with one password, one of them with a key file too. -/
def pair : Inventory :=
  { servers := .ofList [("a", { password := some "pw", key := some "/k", agent := some false }),
      ("b", { password := some "pw", agent := some false })] }

/-- Nothing but passwords can be used. -/
def passwordsOnly : Derivation
  | .password secret => .ok (.password secret.plain)
  | _ => .error "no such file"

/-- The second server waits while the first one derives the password that they have in common. -/
theorem exact_of_reached_pair :
    let turns := [0, 1, 0, 1, 0, 0, 0, 1]
    let c := (({} : Cache).resolveBy (fun _ => turns) passwordsOnly {} pair ["a", "b"]).1
    IsKeyed passwordsOnly {} (pair.offer {}) ∧ Reached passwordsOnly {} pair c ["a", "b"] ∧
      c.methodsFor "a" = some [.password "pw"] ∧ c.methodsFor "b" = some [.password "pw"] ∧
      c.servers.find? "a" = c.servers.find? "b" := by
  intro turns c
  have a : pair.offer {} "a" = [.password ⟨"pw", "pw"⟩, .keyFile "/k" none] := by decide +kernel
  have b : pair.offer {} "b" = [.password ⟨"pw", "pw"⟩] := by decide +kernel
  have offered : ∀ name, ∀ d ∈ pair.offer {} name,
      d = .password ⟨"pw", "pw"⟩ ∨ d = .keyFile "/k" none := by
    intro name d member
    by_cases first : name = "a"
    · simpa [first, a] using member
    by_cases second : name = "b"
    · exact .inl (by simpa [second, b] using member)
    simp [Inventory.offer, Inventory.server, pair, Table.ofList, Table.find?_insert, first, second]
      at member
  have keyed : IsKeyed passwordsOnly {} (pair.offer {}) := by
    intro name d here name' d' there same
    have kind := congrArg Credential.Key.kind same
    rcases offered name d here with rfl | rfl <;> rcases offered name' d' there with rfl | rfl
    · rfl
    · cases kind
    · cases kind
    · rfl
  have reached : Reached passwordsOnly {} pair c ["a", "b"] :=
    Reached.new.call ["a", "b"] turns (by decide +kernel)
  obtain ⟨exact_, -, -⟩ := exact_of_reached keyed reached
  obtain ⟨-, methods, listed⟩ := exact_ "a" (by decide)
  obtain ⟨-, methods', listed'⟩ := exact_ "b" (by decide)
  have underived : c.store.known.lookup (Credential.key {} (.keyFile "/k" none)) = none :=
    Option.map_eq_none_iff.mp ((reached.kept keyed).settled "a" (by decide) _ (by simp [a]))
  rw [a] at methods listed
  rw [b] at methods' listed'
  refine ⟨keyed, reached, methods, methods', ?_⟩
  rw [listed, listed', List.filterMap_cons, List.filterMap_cons, List.filterMap_cons, underived]

end Cache

end Flotilla
