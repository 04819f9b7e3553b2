import Mathlib.Data.List.Induction
import Mathlib.Data.List.Nodup
import Flotilla.Route

/-!
# The scope of targets

The scope of targets can be read off their routes: its servers are the names of the SSH hops, each
where it is first met, and its failures are the targets without a route (`authScope_eq`).
-/

namespace Flotilla

namespace Inventory

/-- The names of the SSH hops on the routes of targets, the outermost hop of a route first. -/
def sshNames (inv : Inventory) (targets : List String) : List String :=
  targets.flatMap fun target =>
    match inv.route target with
    | .ok r => (r.hops.filter (·.kind = .ssh)).map (·.name)
    | .error _ => []

/-- A target without a route, and why it has none. -/
def stray? (inv : Inventory) (target : String) : Option (String × ConnectError) :=
  match inv.route target with
  | .ok _ => none
  | .error e => some (target, e)

variable {inv : Inventory} {targets : List String} {name : String}

theorem mem_sshNames : name ∈ inv.sshNames targets ↔
    ∃ t ∈ targets, ∃ r, inv.route t = .ok r ∧ ∃ h ∈ r.hops, h.kind = .ssh ∧ h.name = name := by
  unfold sshNames
  rw [List.mem_flatMap]
  refine exists_congr fun t => and_congr_right fun _ => ?_
  cases inv.route t with
  | ok r => simp [and_assoc]
  | error e => simp

/-- Adding names one by one keeps those that were seen first. -/
theorem addNew_eraseDups (seen more : List String) :
    addNew seen.eraseDups more = (seen ++ more).eraseDups := by
  induction more generalizing seen with
  | nil => rw [List.append_nil]; rfl
  | cons name more ih =>
    have one : addNew seen.eraseDups [name] = (seen ++ [name]).eraseDups := by
      rw [List.eraseDups_append]
      by_cases old : name ∈ seen <;> simp [addNew, List.removeAll, old, List.eraseDups_cons]
    show addNew (addNew seen.eraseDups [name]) more = _
    rw [one, ih, List.append_assoc]
    rfl

theorem nodup_addNew {names : List String} (distinct : names.Nodup) (more : List String) :
    (addNew names more).Nodup := by
  induction more generalizing names with
  | nil => exact distinct
  | cons name more ih =>
    show (addNew (if name ∈ names then names else names ++ [name]) more).Nodup
    apply ih
    split
    next => exact distinct
    next new => exact distinct.append (List.nodup_singleton name) (by simpa using new)

theorem nodup_eraseDups (names : List String) : names.eraseDups.Nodup := by
  have added := addNew_eraseDups [] names
  rw [List.eraseDups_nil, List.nil_append] at added
  rw [← added]
  exact nodup_addNew List.nodup_nil names

/-- A scope has each server once, in the order in which they are first met, and each target without
a route as often as it was asked for. -/
theorem authScope_eq (inv : Inventory) (targets : List String) :
    inv.authScope targets = ⟨(inv.sshNames targets).eraseDups, targets.filterMap inv.stray?⟩ := by
  induction targets using List.reverseRecOn with
  | nil => rfl
  | append_singleton targets target ih =>
    unfold authScope at ih ⊢
    rw [List.foldl_append, ih, List.filterMap_append]
    show extendScope inv _ target = _
    unfold extendScope
    cases routed : inv.route target with
    | ok r => simp [sshNames, stray?, routed, addNew_eraseDups]
    | error e => simp [sshNames, stray?, routed]

theorem servers_authScope_prefix (inv : Inventory) (targets more : List String) :
    (inv.authScope targets).servers <+: (inv.authScope (targets ++ more)).servers := by
  rw [authScope_eq, authScope_eq]
  simp only [sshNames, List.flatMap_append, List.eraseDups_append]
  exact List.prefix_append _ _

end Inventory

end Flotilla
