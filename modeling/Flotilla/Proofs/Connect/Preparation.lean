import Flotilla.Proofs.Connect.Report
import Flotilla.Proofs.Credential.Reports

/-!
# Preparing for targets

The credentials that are resolved before targets are connected are those of all servers on their
routes.  `prepare_splits` says which servers these are and in which order, and that each of them is
resolved or excluded, once, however the tasks for them take turns.
-/

namespace Flotilla

/-! ### What is resolved and what is excluded -/

namespace Cache

/-- A report lists different servers in the order in which they were asked for. -/
theorem settle_of_nodup (found : Table String (List SharedMethod)) (c : Cache)
    (report : ResolutionReport) {servers : List String} (distinct : servers.Nodup) :
    (settle found c report servers).2.resolved =
      report.resolved ++ servers.filter (fun n => ((found.find? n).bind entry).isSome) ∧
    (settle found c report servers).2.excluded =
      report.excluded ++ servers.filter (fun n => found.find? n = some []) := by
  induction servers generalizing found c report with
  | nil => simp [settle]
  | cons first later ih =>
    obtain ⟨apart, distinct⟩ := List.nodup_cons.mp distinct
    -- What is taken up of the first server is none of the others'.
    have others : ∀ n ∈ later, (found.erase first).find? n = found.find? n := by
      intro n member
      have other : n ≠ first := fun same => apart (same ▸ member)
      rw [Table.find?_erase, if_neg other]
    have resolved : later.filter (fun n => (((found.erase first).find? n).bind entry).isSome) =
        later.filter (fun n => ((found.find? n).bind entry).isSome) :=
      List.filter_congr fun n member => by rw [others n member]
    have excluded : later.filter (fun n => (found.erase first).find? n = some []) =
        later.filter (fun n => found.find? n = some []) :=
      List.filter_congr fun n member => by rw [others n member]
    rw [settle]
    split
    next none => simp [ih found c report distinct, none]
    next none =>
      obtain ⟨here, there⟩ := ih (found.erase first) c
        { report with excluded := report.excluded ++ [first] } distinct
      rw [here, there, resolved, excluded]
      simp [none, entry]
    next methods some_ there =>
      obtain ⟨here, there'⟩ := ih (found.erase first)
        { c with servers := c.servers.insert first methods }
        { report with resolved := report.resolved ++ [first] } distinct
      rw [here, there', resolved, excluded]
      cases methods <;> simp_all [entry]

namespace Call

variable {call : Call} {c : Cache}

/-- A call for different servers resolves those for which it gains methods, in their order. -/
theorem resolved_of_nodup (distinct : call.servers.Nodup) :
    (call.answer c).2.resolved = call.servers.filter (fun n => (call.gains c n).isSome) := by
  obtain ⟨found, report, same, resolved, -, answer⟩ := call.answer_eq c
  rw [answer, (settle_of_nodup found _ report distinct).1, resolved, List.nil_append]
  exact List.filter_congr fun n _ => by rw [same, gains]

/-- It excludes the servers that are unknown and those without a method, each once. -/
theorem nodup_excluded (ended : call.IsOver c) (distinct : call.servers.Nodup) :
    (call.answer c).2.excluded.Nodup := by
  obtain ⟨found, report, same, -, excluded, answer⟩ := call.answer_eq c
  rw [answer, (settle_of_nodup found _ report distinct).2, excluded]
  apply (distinct.filter _).append (distinct.filter _)
  intro n unknown bare
  have found_ : call.finds c n = some [] := by
    rw [← same]
    simpa using (List.mem_filter.mp bare).2
  have known := (finds_isSome ended).mp (found_ ▸ rfl : (call.finds c n).isSome)
  simp [known.2] at unknown

/-- Each of its servers is resolved or excluded, once. -/
theorem splits_of_nodup (ended : call.IsOver c) (distinct : call.servers.Nodup) :
    ((call.answer c).2.resolved ++ (call.answer c).2.excluded).Nodup ∧
      (∀ name, name ∈ (call.answer c).2.resolved ++ (call.answer c).2.excluded ↔
        name ∈ call.servers) ∧
      (call.answer c).2.resolved.Sublist call.servers := by
  have resolved := resolved_of_nodup (c := c) distinct
  refine ⟨?_, fun name => ?_, ?_⟩
  · apply List.Nodup.append
    · rw [resolved]
      exact distinct.filter _
    · exact nodup_excluded ended distinct
    · intro name here there
      have gained := (mem_resolved ended).mp here
      rw [((mem_excluded ended).mp there).2] at gained
      cases gained
  · rw [List.mem_append, mem_resolved ended, mem_excluded ended]
    constructor
    · rintro (gained | ⟨member, -⟩)
      · exact gains_isSome_of ended gained
      · exact member
    · intro member
      cases gained : call.gains c name with
      | none => exact .inr ⟨member, rfl⟩
      | some => exact .inl rfl
  · rw [resolved]
    exact List.filter_sublist

end Call

end Cache

/-! ### Preparing -/

/-- What a preparation for targets says of them.  The names of the SSH hops on their routes are
parted into those that are resolved and those that are excluded. -/
structure Preparation.Splits (inv : Inventory) (targets : List String) (p : Preparation) :
    Prop where
  routeFailures : p.routeFailures = targets.filterMap inv.stray?
  once : (p.resolution.resolved ++ p.resolution.excluded).Nodup
  names : ∀ name, name ∈ p.resolution.resolved ++ p.resolution.excluded ↔
    ∃ t ∈ targets, ∃ r, inv.route t = .ok r ∧ ∃ h ∈ r.hops, h.kind = .ssh ∧ h.name = name
  order : p.resolution.resolved.Sublist (inv.sshNames targets).eraseDups

namespace Factory

/-- Resolves the credentials of targets and of all servers on their routes, the tasks for these
taking turns as `turns` says. -/
def prepareBy (turns : List Turn) (f : Factory) (m : Machine) (targets : List String) :
    Factory × Preparation :=
  let scope := f.inventory.authScope targets
  let (cache, resolution) :=
    f.cache.resolveBy (fun _ => turns) (Credential.derive m) m.env f.inventory scope.servers
  ({ f with cache }, { resolution, routeFailures := scope.failures })

/-- The call of the cache with which a factory prepares. -/
def preparing (turns : List Turn) (f : Factory) (m : Machine) (targets : List String) :
    Cache.Call :=
  let servers := (f.inventory.authScope targets).servers
  { machine := m, inventory := f.inventory, servers, turns }

theorem prepareBy_splits {turns : List Turn} {f : Factory} {m : Machine} {targets : List String}
    (ended : (f.preparing turns m targets).IsOver f.cache) :
    (f.prepareBy turns m targets).2.Splits f.inventory targets := by
  have servers : (f.preparing turns m targets).servers =
      (f.inventory.sshNames targets).eraseDups := by
    show (f.inventory.authScope targets).servers = _
    rw [Inventory.authScope_eq]
  obtain ⟨once, names, order⟩ :=
    Cache.Call.splits_of_nodup ended (servers ▸ Inventory.nodup_eraseDups _)
  constructor
  case routeFailures =>
    show (f.inventory.authScope targets).failures = _
    rw [Inventory.authScope_eq]
  case once => exact once
  case names =>
    intro name
    have listed := names name
    rw [servers, List.mem_eraseDups, Inventory.mem_sshNames] at listed
    exact listed
  case order => exact servers ▸ order

/-- Preparing for targets returns the targets without a route as failures, each as often as it was
asked for.  However the tasks take turns until they have ended, the servers on the routes of the
others are parted into resolved and excluded ones, and one server after the other is such a way.
More targets at the end only add servers at the end. -/
theorem prepare_splits (f : Factory) (m : Machine) (targets : List String) :
    (f.prepare m targets).2.Splits f.inventory targets ∧
    (∀ turns, (f.preparing turns m targets).IsOver f.cache →
      (f.prepareBy turns m targets).2.Splits f.inventory targets) ∧
    ∀ more, (f.inventory.authScope targets).servers <+:
      (f.inventory.authScope (targets ++ more)).servers := by
  refine ⟨?_, fun turns => prepareBy_splits, f.inventory.servers_authScope_prefix targets⟩
  obtain ⟨ended, -⟩ := Cache.Call.isOver_resolve m f.inventory
    (f.inventory.authScope targets).servers f.cache
  exact prepareBy_splits ended

/-- A bastion with a password, and a server behind it without credentials. -/
def depot : Factory where
  inventory :=
    { servers := .ofList [("b1", { password := some "pw", agent := some false }),
        ("web1", { proxy := some "b1", agent := some false })] }

theorem route_depot :
    depot.inventory.route "b1" = .ok ⟨[], ⟨"b1", .ssh, 22⟩⟩ ∧
      depot.inventory.route "web1" = .ok ⟨[⟨"b1", .ssh, 22⟩], ⟨"web1", .ssh, 22⟩⟩ ∧
      depot.inventory.route "ghost" = .error (.unknownServer "ghost") := by
  have b1 : depot.inventory.servers.find? "b1" =
      some { password := some "pw", agent := some false } := rfl
  have web1 : depot.inventory.servers.find? "web1" =
      some { proxy := some "b1", agent := some false } := rfl
  have bastion : depot.inventory.Way ["web1"] "b1" _ := .direct (by decide) b1 rfl rfl
  refine ⟨bastion.anew, (Inventory.Way.server List.not_mem_nil web1 rfl rfl rfl bastion).anew, ?_⟩
  rw [Inventory.route, Inventory.walk, dif_neg List.not_mem_nil]
  rfl

/-- The bastion is asked for by name too, and the server behind it ends first. -/
theorem prepare_splits_depot :
    let targets := ["web1", "ghost", "b1", "ghost"]
    let turns := [0, 1, 0, 0]
    (depot.preparing turns .bare targets).IsOver depot.cache ∧
      (depot.prepareBy turns .bare targets).2.Splits depot.inventory targets ∧
      (depot.prepareBy turns .bare targets).2.routeFailures =
        [("ghost", .unknownServer "ghost"), ("ghost", .unknownServer "ghost")] ∧
      (depot.inventory.sshNames targets).eraseDups = ["b1", "web1"] := by
  intro targets turns
  obtain ⟨b1, web1, ghost⟩ := route_depot
  have names : depot.inventory.sshNames targets = ["b1", "web1", "b1"] := by
    simp [targets, Inventory.sshNames, b1, web1, ghost, Route.hops]
  have strays : targets.filterMap depot.inventory.stray? =
      [("ghost", .unknownServer "ghost"), ("ghost", .unknownServer "ghost")] := by
    simp [targets, Inventory.stray?, b1, web1, ghost]
  have ended : (depot.preparing turns .bare targets).IsOver depot.cache := by
    unfold preparing
    rw [Inventory.authScope_eq, names]
    decide +kernel
  have splits := (prepare_splits depot .bare targets).2.1 turns ended
  exact ⟨ended, splits, splits.routeFailures.trans strays, by rw [names]; decide⟩

end Factory

end Flotilla
