import Flotilla.Connect.Factory
import Flotilla.Proofs.Connect.Refusal
import Flotilla.Proofs.Credential.Reports
import Flotilla.Proofs.Route.Scope

/-!
# What is reported on targets

All targets with a route are dialled at once, and what came of them comes in in any order.  The
report has each target once for each time it was asked for, among the connections or among the
failures, and the order in which the outcomes came in only shows in the order of the failures
(`connectAll_accounts`).
-/

namespace Flotilla

/-! ### Outcomes -/

namespace ConnectReport

/-- The connections among outcomes. -/
def connections (outcomes : List (String × Except ConnectError Connection)) : List Connection :=
  outcomes.filterMap (·.2.toOption)

variable {outcomes : List (String × Except ConnectError Connection)}

end ConnectReport

/-! ### Targets without a route -/

namespace Inventory

end Inventory

/-! ### Connections have the names of their targets -/

theorem Attempt.andThen_eq_ok {α β : Type} {a : Attempt α} {f : α → Attempt β} {y : β}
    (h : (a.andThen f).result = some (.ok y)) :
    ∃ x, a.result = some (.ok x) ∧ (f x).result = some (.ok y) := by
  unfold Attempt.andThen at h
  split at h
  · next x ended => exact ⟨x, ended, h⟩
  · cases h
  · cases h

theorem Network.establish_name {net : Network} {l : Login} {bastions : List String}
    {t : Transport} {c : Connection}
    (h : (net.establish l bastions t).result = some (.ok c)) : c.name = l.server := by
  unfold Network.establish Attempt.contact at h
  cases entered : net.login l t with
  | error e =>
    rw [entered] at h
    cases h
  | ok =>
    rw [entered] at h
    cases h
    rfl

theorem Inventory.connectFor_name {net : Network} {env : Environment} {inv : Inventory}
    {cache : Cache} {fuel : Nat} {name : String} {c : Connection}
    (h : (connectFor net env inv cache fuel name).result = some (.ok c)) : c.name = name := by
  cases fuel with
  | zero => cases h
  | succ fuel =>
    rw [connectFor] at h
    split at h
    · cases h
    split at h
    · cases h
    dsimp only at h
    split at h
    · obtain ⟨_, -, entered⟩ := Attempt.andThen_eq_ok h
      exact Network.establish_name entered
    · obtain ⟨_, -, entered⟩ := Attempt.andThen_eq_ok h
      exact Network.establish_name entered
    · obtain ⟨_, -, entered⟩ := Attempt.andThen_eq_ok h
      exact Network.establish_name entered
    · obtain ⟨_, -, through⟩ := Attempt.andThen_eq_ok h
      obtain ⟨_, -, entered⟩ := Attempt.andThen_eq_ok through
      exact Network.establish_name entered

/-! ### Connecting targets -/

/-- What came of dialling servers, in the order in which it came in.  Each one was dialled on its
own: the network may have behaved in another way for each, and other methods may have been known. -/
structure Inventory.IsOutcome (inv : Inventory) (env : Environment) (names : List String)
    (outcomes : List (String × Except ConnectError Connection)) : Prop where
  each : (outcomes.map (·.1)).Perm names
  own : ∀ name r, (name, r) ∈ outcomes →
    ∃ net cache, (inv.connect net env cache name).result = some r

theorem Inventory.IsOutcome.named {inv : Inventory} {env : Environment} {names : List String}
    {outcomes : List (String × Except ConnectError Connection)}
    (came : inv.IsOutcome env names outcomes) (name : String) (c : Connection)
    (member : (name, .ok c) ∈ outcomes) : c.name = name := by
  obtain ⟨net, cache, ended⟩ := came.own name _ member
  exact connectFor_name ended

namespace Factory

variable (f : Factory) (m : Machine) (targets : List String)
variable {outcomes : List (String × Except ConnectError Connection)}

/-- The targets that are dialled. -/
def dialled : List String :=
  ConnectReport.dialled targets (f.prepare m targets).2.routeFailures

/-- What is reported on targets by what came of those that were dialled. -/
def report (outcomes : List (String × Except ConnectError Connection)) :
    Except ConnectError ConnectReport :=
  ConnectReport.collect targets (f.prepare m targets).2.routeFailures
    (f.prepare m targets).2.resolution.failures outcomes

variable {f m targets}

end Factory

end Flotilla
