import Flotilla.Proofs.Failure
import Flotilla.Route

/-!
# Walks

`Way` is the walk back from a target as a derivation, and `walk_eq_ok_iff` says that `walk` finds
exactly these ways.  What a walk finds does not depend on where it came from (`Way.anew`), so each
server on a route has its own route to there.
-/

namespace Flotilla

/-- The hop over a server. -/
def Server.hop (s : Server) (name : String) : Hop := ⟨name, .ssh, s.effectivePort⟩

namespace Inventory

/-- The routes to a server on a walk that has visited some names. -/
inductive Way (inv : Inventory) : List String → String → Route → Prop where
  | direct {visited : List String} {name : String} {s : Server} (new : name ∉ visited)
      (known : inv.servers.find? name = some s) (bare : s.proxyCommand = none)
      (last : s.proxy = none) : Way inv visited name ⟨[], s.hop name⟩
  | relay {visited : List String} {name command : String} {s : Server} (new : name ∉ visited)
      (known : inv.servers.find? name = some s) (relayed : s.proxyCommand = some command) :
      Way inv visited name ⟨[⟨command, .command, 0⟩], s.hop name⟩
  | service {visited : List String} {name p : String} {s : Server} {service : Proxy}
      (new : name ∉ visited) (known : inv.servers.find? name = some s)
      (bare : s.proxyCommand = none) (proxied : s.proxy = some p)
      (kind : s.proxyKind.isService = true) (found : inv.proxies.find? p = some service)
      (fresh : p ∉ name :: visited) :
      Way inv visited name ⟨[⟨p, .proxied service.kind, service.port⟩], s.hop name⟩
  | server {visited : List String} {name p : String} {s : Server} {q : Route}
      (new : name ∉ visited) (known : inv.servers.find? name = some s)
      (bare : s.proxyCommand = none) (proxied : s.proxy = some p)
      (kind : s.proxyKind.isService = false) (outer : Way inv (name :: visited) p q) :
      Way inv visited name ⟨q.hops, s.hop name⟩

theorem proxy_eq_ok {inv : Inventory} {p : String} {service : Proxy} :
    inv.proxy p = .ok service ↔ inv.proxies.find? p = some service := by
  unfold proxy
  split <;> simp_all

theorem server_eq_ok {inv : Inventory} {name : String} {s : Server} :
    inv.server name = .ok s ↔ inv.servers.find? name = some s := by
  unfold server
  split <;> simp_all

theorem walk_of_way {inv : Inventory} {target name : String} {visited : List String} {r : Route}
    (way : Way inv visited name r) : inv.walk target visited name = .ok r := by
  induction way with
  | direct new known bare last =>
    rw [walk, dif_neg new]
    split <;> simp_all [Server.hop]
  | relay new known relayed =>
    rw [walk, dif_neg new]
    split <;> simp_all [Server.hop]
  | service new known bare proxied kind found fresh =>
    rw [walk, dif_neg new]
    split
    · simp_all
    · next found' =>
      obtain rfl := Option.some.inj (known.symm.trans found')
      simp only [bare, proxied, kind, proxy_eq_ok.2 found, if_true, ok_bind, if_neg fresh]
      rfl
  | server new known bare proxied kind outer ih =>
    rw [walk, dif_neg new]
    split
    · simp_all
    · next found' =>
      obtain rfl := Option.some.inj (known.symm.trans found')
      simp only [bare, proxied, kind, ih]
      rfl

theorem way_of_walk {inv : Inventory} {target name : String} {visited : List String} {r : Route}
    (h : inv.walk target visited name = .ok r) : Way inv visited name r := by
  fun_induction walk inv target visited name generalizing r with
  | case1 => cases h
  | case2 => cases h
  | case3 visited name new s known hop command =>
    rename_i relayed
    cases h
    exact .relay new known relayed
  | case4 visited name new s known hop last =>
    rename_i bare
    cases h
    exact .direct new known bare last
  | case5 visited name new s known hop p proxied bare =>
    rename_i kind
    obtain ⟨service, found, h⟩ := bind_eq_ok.1 h
    by_cases fresh : p ∈ name :: visited
    · simp only [if_pos fresh, throw_eq_error, error_bind] at h
      cases h
    · simp only [if_neg fresh, pure_eq_ok] at h
      cases h
      exact .service new known bare proxied kind (proxy_eq_ok.1 found) fresh
  | case6 visited name new s known hop p proxied bare kind =>
    rename_i ih
    obtain ⟨q, found, h⟩ := bind_eq_ok.1 h
    cases h
    exact .server new known bare proxied (by simpa using kind) (ih found)

/-- `walk` finds the ways and nothing else. -/
theorem walk_eq_ok_iff {inv : Inventory} {target name : String} {visited : List String}
    {r : Route} : inv.walk target visited name = .ok r ↔ Way inv visited name r :=
  ⟨way_of_walk, walk_of_way⟩

theorem route_eq_ok_iff {inv : Inventory} {name : String} {r : Route} :
    inv.route name = .ok r ↔ Way inv [] name r := walk_eq_ok_iff

namespace Way

variable {inv : Inventory} {visited : List String} {name : String} {r : Route}

theorem mono (way : Way inv visited name r) {fewer : List String} (sub : fewer ⊆ visited) :
    Way inv fewer name r := by
  induction way generalizing fewer with
  | direct new known bare last => exact .direct (fun h => new (sub h)) known bare last
  | relay new known relayed => exact .relay (fun h => new (sub h)) known relayed
  | service new known bare proxied kind found fresh =>
    exact .service (fun h => new (sub h)) known bare proxied kind found
      fun h => fresh (List.cons_subset_cons _ sub h)
  | server new known bare proxied kind outer ih =>
    exact .server (fun h => new (sub h)) known bare proxied kind
      (ih (List.cons_subset_cons _ sub))

/-- A way on a walk is a route of its own. -/
theorem anew (way : Way inv visited name r) : inv.route name = .ok r :=
  route_eq_ok_iff.2 (way.mono (List.nil_subset visited))

theorem known (way : Way inv visited name r) : ∃ s, inv.servers.find? name = some s := by
  cases way <;> exact ⟨_, ‹_›⟩

/-- A way is no longer than the servers that are left, and a hop in front of them. -/
theorem hops_length_le (way : Way inv visited name r) :
    r.hops.length ≤ (inv.unvisited visited).length + 1 := by
  induction way with
  | direct => simp [Route.hops]
  | relay new known =>
    have fewer := unvisited_cons_lt new (mem_keys_of_find? known)
    simp only [Route.hops, List.cons_append, List.nil_append, List.length_cons, List.length_nil]
    omega
  | service new known =>
    have fewer := unvisited_cons_lt new (mem_keys_of_find? known)
    simp only [Route.hops, List.cons_append, List.nil_append, List.length_cons, List.length_nil]
    omega
  | server new known _ _ _ _ ih =>
    have fewer := unvisited_cons_lt new (mem_keys_of_find? known)
    simp only [Route.hops, List.length_append, List.length_cons, List.length_nil] at ih ⊢
    omega

end Way

theorem unvisited_length_le (inv : Inventory) (visited : List String) :
    (inv.unvisited visited).length ≤ inv.servers.keys.length :=
  List.length_filter_le _ _

end Inventory

end Flotilla
