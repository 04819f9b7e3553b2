import Mathlib.Data.List.Induction
import Mathlib.Data.List.Nodup
import Mathlib.Data.List.Perm.Subperm
import Flotilla.Proofs.Route.Walk

/-!
# The hops of a route

What a route is made of can be read off the entries one by one: each entry names the hop in front
of it (`IsDescribed`).  A walk that finds no route has come to the first name at which it cannot go
on (`Comes`, `Fails`).  `route_characterized` says that there is nothing else to routes.
-/

namespace Flotilla

/-- What a server entry says of the way to the server. -/
inductive Approach where
  | direct
  | relay (command : String)
  | service (proxy : String)
  | server (name : String)
  deriving Repr, DecidableEq

namespace Server

variable {s : Server} {command p : String}

/-- What an entry says of the way to its server.  A relay command takes precedence over a proxy. -/
def approach (s : Server) : Approach :=
  match s.proxyCommand, s.proxy with
  | some command, _ => .relay command
  | none, none => .direct
  | none, some p => if s.proxyKind.isService then .service p else .server p

theorem approach_eq_direct : s.approach = .direct ↔ s.proxyCommand = none ∧ s.proxy = none := by
  unfold approach
  cases s.proxyCommand <;> cases s.proxy <;> grind

theorem approach_eq_relay : s.approach = .relay command ↔ s.proxyCommand = some command := by
  unfold approach
  cases s.proxyCommand <;> cases s.proxy <;> grind

theorem approach_eq_service : s.approach = .service p ↔
    s.proxyCommand = none ∧ s.proxy = some p ∧ s.proxyKind.isService = true := by
  unfold approach
  cases s.proxyCommand <;> cases s.proxy <;> grind

theorem approach_eq_server : s.approach = .server p ↔
    s.proxyCommand = none ∧ s.proxy = some p ∧ s.proxyKind.isService = false := by
  unfold approach
  cases s.proxyCommand <;> cases s.proxy <;> grind

end Server

theorem Route.hops_inj {q r : Route} (same : q.hops = r.hops) : q = r := by
  obtain ⟨outer, target⟩ := List.append_inj' same rfl
  cases q
  cases r
  cases outer
  cases target
  rfl

namespace Inventory

variable {inv : Inventory} {target name : String} {visited : List String} {r : Route}
  {hops : List Hop} {s : Server}

/-! ### Hops that entries describe -/

/-- The hop that an entry names as the one in front of it. -/
inductive Names (inv : Inventory) : Approach → Hop → Prop where
  | relay {command : String} : Names inv (.relay command) ⟨command, .command, 0⟩
  | service {p : String} {service : Proxy} (found : inv.proxies.find? p = some service) :
      Names inv (.service p) ⟨p, .proxied service.kind, service.port⟩
  | server {p : String} {s : Server} (known : inv.servers.find? p = some s) :
      Names inv (.server p) (s.hop p)

/-- The names of servers and proxy services among hops. -/
def stations (hops : List Hop) : List String :=
  (hops.filter (·.kind ≠ .command)).map (·.name)

/-- Hops to a target of which each is as the entry behind it says. -/
structure IsDescribed (inv : Inventory) (target : String) (hops : List Hop) : Prop where
  /-- The last hop is the target. -/
  last : ∃ s, inv.servers.find? target = some s ∧ hops.getLast? = some (s.hop target)
  /-- Every hop but the first is a server whose entry names the hop in front of it.  This is a
  server too, unless it is the first hop. -/
  later : ∀ i h, hops[i + 1]? = some h → ∃ s g, inv.servers.find? h.name = some s ∧
    h = s.hop h.name ∧ hops[i]? = some g ∧ inv.Names s.approach g ∧
    (i ≠ 0 → ∃ p, s.approach = .server p)
  /-- The first hop is a server that is approached directly, or else the second one names it as a
  relay command or a proxy service. -/
  first : ∀ g, hops[0]? = some g →
    (∃ s, inv.servers.find? g.name = some s ∧ g = s.hop g.name ∧ s.approach = .direct) ∨
    ∃ h s, hops[1]? = some h ∧ inv.servers.find? h.name = some s ∧
      (s.approach = .relay g.name ∨ s.approach = .service g.name)
  /-- No server and no proxy service is passed twice. -/
  distinct : (stations hops).Nodup

@[simp] theorem stations_append (hops ks : List Hop) :
    stations (hops ++ ks) = stations hops ++ stations ks := by
  simp [stations]

@[simp] theorem stations_hop (s : Server) (name : String) : stations [s.hop name] = [name] := rfl

theorem Way.stations_not_visited (way : Way inv visited name r) :
    ∀ n ∈ stations r.hops, n ∉ visited := by
  induction way with
  | direct new => simpa [Route.hops] using new
  | relay new => simpa [Route.hops, stations, Server.hop] using new
  | @service visited name p s service new known bare proxied kind found fresh =>
    simp only [List.mem_cons, not_or] at fresh
    simpa [Route.hops, stations, Server.hop] using ⟨fresh.2, new⟩
  | @server visited name p s q new known bare proxied kind outer ih =>
    intro n member
    simp only [Route.hops, stations_append, stations_hop, List.mem_append,
      List.mem_singleton] at member ih
    rcases member with before | rfl
    · exact fun seen => ih n before (List.mem_cons_of_mem _ seen)
    · exact new

/-- A server can be put behind the hops to the server that its entry names. -/
theorem IsDescribed.extend {p : String} (outer : inv.IsDescribed p hops)
    (known : inv.servers.find? name = some s) (named : s.approach = .server p)
    (new : name ∉ stations hops) : inv.IsDescribed name (hops ++ [s.hop name]) := by
  obtain ⟨t, found, ends⟩ := outer.last
  have some_ : 0 < hops.length := by
    cases hops with
    | nil => cases ends
    | cons => exact Nat.succ_pos _
  constructor
  case last => exact ⟨s, known, List.getLast?_concat⟩
  case later =>
    intro i h there
    by_cases inside : i + 1 < hops.length
    · rw [List.getElem?_append_left inside] at there
      obtain ⟨s, g, found, same, before, names, deeper⟩ := outer.later i h there
      refine ⟨s, g, found, same, ?_, names, deeper⟩
      rwa [List.getElem?_append_left (by omega)]
    · have end_ : i + 1 = hops.length := by
        have bound := (List.getElem?_eq_some_iff.mp there).1
        simp only [List.length_append, List.length_singleton] at bound
        omega
      rw [end_, List.getElem?_concat_length] at there
      cases there
      rw [List.getLast?_eq_getElem?, ← end_] at ends
      refine ⟨s, t.hop p, known, rfl, ?_, ?_, fun _ => ⟨p, named⟩⟩
      · rw [List.getElem?_append_left (by omega)]
        exact ends
      · rw [named]
        exact .server found
  case first =>
    intro g there
    rw [List.getElem?_append_left some_] at there
    rcases outer.first g there with direct | ⟨h, s, second, rest⟩
    · exact .inl direct
    · have inside := (List.getElem?_eq_some_iff.mp second).1
      refine .inr ⟨h, s, ?_, rest⟩
      rwa [List.getElem?_append_left inside]
  case distinct =>
    rw [stations_append, stations_hop]
    exact outer.distinct.append (List.nodup_singleton name) (by simpa using new)

/-- A relay command or a proxy service and the server that is reached over it. -/
theorem isDescribed_pair {g : Hop} (known : inv.servers.find? name = some s)
    (names : inv.Names s.approach g)
    (front : s.approach = .relay g.name ∨ s.approach = .service g.name)
    (distinct : (stations [g, s.hop name]).Nodup) : inv.IsDescribed name [g, s.hop name] := by
  constructor
  case last => exact ⟨s, known, rfl⟩
  case later =>
    rintro (_ | i) h there
    · cases there
      exact ⟨s, g, known, rfl, rfl, names, nofun⟩
    · cases there
  case first =>
    rintro g ⟨⟩
    exact .inr ⟨s.hop name, s, rfl, known, front⟩
  case distinct => exact distinct

/-- The hops of a way are as the entries say. -/
theorem Way.isDescribed (way : Way inv visited name r) : inv.IsDescribed name r.hops := by
  induction way with
  | @direct visited name s new known bare last =>
    have direct := Server.approach_eq_direct.mpr ⟨bare, last⟩
    constructor
    case last => exact ⟨s, known, rfl⟩
    case later => exact nofun
    case first =>
      rintro g ⟨⟩
      exact .inl ⟨s, known, rfl, direct⟩
    case distinct => exact List.nodup_singleton name
  | @relay visited name command s new known relayed =>
    have relay := Server.approach_eq_relay.mpr relayed
    exact isDescribed_pair known (relay ▸ .relay) (.inl relay) (List.nodup_singleton name)
  | @service visited name p s service new known bare proxied kind found fresh =>
    have named := Server.approach_eq_service.mpr ⟨bare, proxied, kind⟩
    refine isDescribed_pair known (named ▸ .service found) (.inr named) ?_
    have other : p ≠ name := fun same => fresh (same ▸ List.mem_cons_self)
    simpa [stations, Server.hop] using other
  | @server visited name p s q new known bare proxied kind outer ih =>
    have named := Server.approach_eq_server.mpr ⟨bare, proxied, kind⟩
    refine ih.extend known named fun member => ?_
    exact outer.stations_not_visited name member List.mem_cons_self

/-- The last of several hops names the one in front of it. -/
theorem IsDescribed.names_last {g : Hop} (whole : inv.IsDescribed name (hops ++ [g, s.hop name]))
    (known : inv.servers.find? name = some s) :
    inv.Names s.approach g ∧ (hops ≠ [] → ∃ p, s.approach = .server p) := by
  have there : (hops ++ [g, s.hop name])[hops.length + 1]? = some (s.hop name) := by simp
  obtain ⟨t, g', known', -, before, names, deeper⟩ := whole.later hops.length _ there
  obtain rfl := Option.some.inj (known.symm.trans known')
  have same : some g = some g' := by simpa using before
  cases same
  exact ⟨names, fun some_ => deeper (by simpa using some_)⟩

/-- The hops in front of a server are a description of the way to the server that it names. -/
theorem IsDescribed.init {p : String} {g : Hop}
    (whole : inv.IsDescribed name (hops ++ [g, s.hop name]))
    (known : inv.servers.find? name = some s) (named : s.approach = .server p) :
    inv.IsDescribed p (hops ++ [g]) := by
  have split : hops ++ [g, s.hop name] = (hops ++ [g]) ++ [s.hop name] := by simp
  have names := (whole.names_last known).1
  rw [split] at whole
  constructor
  case last =>
    rw [named] at names
    cases names with
    | @server _ t found => exact ⟨t, found, List.getLast?_concat⟩
  case later =>
    intro i h there
    have inside := (List.getElem?_eq_some_iff.mp there).1
    obtain ⟨s, g, found, same, before, names, deeper⟩ :=
      whole.later i h (by rwa [List.getElem?_append_left inside])
    refine ⟨s, g, found, same, ?_, names, deeper⟩
    rwa [List.getElem?_append_left (by omega)] at before
  case first =>
    intro g' there
    have some_ : 0 < (hops ++ [g]).length := by simp
    rcases whole.first g' (by rwa [List.getElem?_append_left some_]) with
      direct | ⟨h, t, second, found, front⟩
    · exact .inl direct
    · refine .inr ⟨h, t, ?_, found, front⟩
      by_cases inside : 1 < (hops ++ [g]).length
      · rwa [List.getElem?_append_left inside] at second
      · -- The second hop would be the last one, which names a server.
        have one : (hops ++ [g]).length = 1 := by omega
        rw [← one, List.getElem?_concat_length] at second
        cases second
        obtain rfl := Option.some.inj (known.symm.trans found)
        rw [named] at front
        rcases front with relay | service
        · cases relay
        · cases service
  case distinct =>
    have distinct := whole.distinct
    rw [stations_append] at distinct
    exact distinct.of_append_left

/-- Hops that are as the entries say are walked back. -/
theorem IsDescribed.exists_way (described : inv.IsDescribed name hops)
    (new : ∀ n ∈ stations hops, n ∉ visited) : ∃ r, Way inv visited name r ∧ r.hops = hops := by
  induction hops using List.reverseRecOn generalizing name visited with
  | nil =>
    obtain ⟨_, _, ends⟩ := described.last
    cases ends
  | append_singleton hops h ih =>
    obtain ⟨s, known, ends⟩ := described.last
    rw [List.getLast?_concat] at ends
    cases ends
    have here : name ∉ visited := new name (by simp)
    rcases List.eq_nil_or_concat' hops with rfl | ⟨hops, g, rfl⟩
    · rcases described.first _ rfl with ⟨t, found, -, direct⟩ | ⟨_, _, none, _⟩
      · obtain rfl := Option.some.inj (known.symm.trans found)
        obtain ⟨bare, last⟩ := Server.approach_eq_direct.mp direct
        exact ⟨_, .direct here known bare last, rfl⟩
      · cases none
    · have whole : inv.IsDescribed name (hops ++ [g, s.hop name]) := by simpa using described
      obtain ⟨names, deeper⟩ := whole.names_last known
      cases approach : s.approach with
      | direct =>
        rw [approach] at names
        cases names
      | relay command =>
        rw [approach] at names deeper
        cases names
        obtain rfl : hops = [] := by
          by_contra some_
          obtain ⟨p, other⟩ := deeper some_
          cases other
        exact ⟨_, .relay here known (Server.approach_eq_relay.mp approach), rfl⟩
      | service p =>
        rw [approach] at names deeper
        cases names with
        | @service _ service found =>
        obtain rfl : hops = [] := by
          by_contra some_
          obtain ⟨p, other⟩ := deeper some_
          cases other
        obtain ⟨bare, proxied, kind⟩ := Server.approach_eq_service.mp approach
        have fresh : p ∉ name :: visited := by
          have other : p ≠ name := by simpa [stations, Server.hop] using whole.distinct
          have unseen : p ∉ visited := new p (by simp [stations])
          simp [other, unseen]
        exact ⟨_, .service here known bare proxied kind found fresh, rfl⟩
      | server p =>
        obtain ⟨bare, proxied, kind⟩ := Server.approach_eq_server.mp approach
        have distinct := described.distinct
        rw [stations_append, stations_hop] at distinct
        have behind : ∀ n ∈ stations (hops ++ [g]), n ∉ name :: visited := by
          intro n member seen
          rcases List.mem_cons.mp seen with rfl | seen
          · exact List.disjoint_of_nodup_append distinct member (List.mem_singleton_self n)
          · exact new n (by rw [stations_append]; exact List.mem_append_left _ member) seen
        obtain ⟨q, outer, same⟩ := ih (whole.init known approach) behind
        refine ⟨_, .server here known bare proxied kind outer, ?_⟩
        rw [Route.hops, same]

/-- A route is a description of the way to its target, and every description is a route. -/
theorem route_eq_ok_iff_isDescribed :
    inv.route target = .ok r ↔ inv.IsDescribed target r.hops := by
  rw [route_eq_ok_iff]
  constructor
  · exact Way.isDescribed
  · intro described
    obtain ⟨q, way, same⟩ := described.exists_way fun _ _ => List.not_mem_nil
    rwa [← Route.hops_inj same]

/-! ### Routes of the servers on a route -/

/-- The hops up to a server on a route are the route of that server. -/
theorem Way.route_take (way : Way inv visited name r) {i : Nat} {h : Hop}
    (there : r.hops[i + 1]? = some h) :
    ∃ q, inv.route h.name = .ok q ∧ q.hops = r.hops.take (i + 2) := by
  induction way with
  | direct => cases there
  | relay new known relayed =>
    cases i with
    | zero =>
      cases there
      exact ⟨_, (Way.relay new known relayed).anew, rfl⟩
    | succ => cases there
  | service new known bare proxied kind found fresh =>
    cases i with
    | zero =>
      cases there
      exact ⟨_, (Way.service new known bare proxied kind found fresh).anew, rfl⟩
    | succ => cases there
  | @server visited name p s q new known bare proxied kind outer ih =>
    have whole : (⟨q.hops, s.hop name⟩ : Route).hops = q.hops ++ [s.hop name] := rfl
    rw [whole] at there ⊢
    by_cases inside : i + 1 < q.hops.length
    · rw [List.getElem?_append_left inside] at there
      obtain ⟨q', routed, same⟩ := ih there
      exact ⟨q', routed, by rw [same, List.take_append_of_le_length (by omega)]⟩
    · have bound := (List.getElem?_eq_some_iff.mp there).1
      simp only [List.length_append, List.length_singleton] at bound
      have end_ : i + 1 = q.hops.length := by omega
      rw [end_, List.getElem?_concat_length] at there
      cases there
      refine ⟨_, (Way.server new known bare proxied kind outer).anew, ?_⟩
      rw [List.take_of_length_le (by simp [← end_])]
      rfl

/-! ### Walks that fail -/

/-- The walk back from a target has visited some servers, the last one first, without a problem,
and comes to the next one. -/
inductive Comes (inv : Inventory) (target : String) : List String → String → Prop where
  | start : Comes inv target [] target
  | onward {visited : List String} {name p : String} {s : Server}
      (before : Comes inv target visited name) (new : name ∉ visited)
      (known : inv.servers.find? name = some s) (named : s.approach = .server p) :
      Comes inv target (name :: visited) p

/-- The problem that a walk meets where it has come to. -/
inductive Fails (inv : Inventory) (target : String) (visited : List String) (name : String) :
    ConnectError → Prop where
  | loop (seen : name ∈ visited) : Fails inv target visited name (.proxyLoop target name)
  | unknownServer (new : name ∉ visited) (unknown : inv.servers.find? name = none) :
      Fails inv target visited name (.unknownServer name)
  | unknownProxy {s : Server} {p : String} (new : name ∉ visited)
      (known : inv.servers.find? name = some s) (named : s.approach = .service p)
      (unknown : inv.proxies.find? p = none) : Fails inv target visited name (.unknownProxy p)
  | serviceLoop {s : Server} {p : String} {service : Proxy} (new : name ∉ visited)
      (known : inv.servers.find? name = some s) (named : s.approach = .service p)
      (found : inv.proxies.find? p = some service) (seen : p ∈ name :: visited) :
      Fails inv target visited name (.proxyLoop target p)

/-- A walk goes on in one way only, so it fails where it goes on if it fails behind that. -/
theorem walk_eq_error_of_server {p : String} {e : ConnectError} (new : name ∉ visited)
    (known : inv.servers.find? name = some s) (named : s.approach = .server p) :
    inv.walk target visited name = .error e ↔
      inv.walk target (name :: visited) p = .error e := by
  obtain ⟨bare, proxied, kind⟩ := Server.approach_eq_server.mp named
  rw [walk, dif_neg new]
  split
  · simp_all
  · next found =>
    obtain rfl := Option.some.inj (known.symm.trans found)
    simp [bare, proxied, kind, bind_eq_error]

theorem Comes.walk_eq_error (comes : inv.Comes target visited name) {e : ConnectError} :
    inv.walk target visited name = .error e ↔ inv.route target = .error e := by
  induction comes with
  | start => exact Iff.rfl
  | onward _ new known named ih => rw [← ih, walk_eq_error_of_server new known named]

theorem Fails.walk_eq_error {e : ConnectError} (fails : inv.Fails target visited name e) :
    inv.walk target visited name = .error e := by
  rw [walk]
  cases fails with
  | loop seen => rw [dif_pos seen]
  | unknownServer new unknown =>
    rw [dif_neg new]
    split <;> simp_all
  | unknownProxy new known named unknown =>
    obtain ⟨bare, proxied, kind⟩ := Server.approach_eq_service.mp named
    rw [dif_neg new]
    split
    · simp_all
    · next found =>
      obtain rfl := Option.some.inj (known.symm.trans found)
      simp [bare, proxied, kind, proxy, unknown]
  | serviceLoop new known named found seen =>
    obtain ⟨bare, proxied, kind⟩ := Server.approach_eq_service.mp named
    rw [dif_neg new]
    split
    · simp_all
    · next found' =>
      obtain rfl := Option.some.inj (known.symm.trans found')
      simp only [bare, proxied, kind, proxy_eq_ok.mpr found, if_true, ok_bind, if_pos seen]
      rfl

/-- A walk that fails goes on to where it meets a problem. -/
theorem Comes.exists_fails {e : ConnectError} (comes : inv.Comes target visited name)
    (failed : inv.walk target visited name = .error e) :
    ∃ seen last, inv.Comes target seen last ∧ inv.Fails target seen last e := by
  fun_induction walk inv target visited name with
  | case1 visited name seen =>
    cases failed
    exact ⟨visited, name, comes, .loop seen⟩
  | case2 visited name new unknown =>
    cases failed
    exact ⟨visited, name, comes, .unknownServer new unknown⟩
  | case3 => cases failed
  | case4 => cases failed
  | case5 visited name new s known hop p proxied bare =>
    rename_i kind
    have named := Server.approach_eq_service.mpr ⟨bare, proxied, kind⟩
    refine ⟨visited, name, comes, ?_⟩
    cases found : inv.proxies.find? p with
    | none =>
      simp only [proxy, found, error_bind] at failed
      cases failed
      exact .unknownProxy new known named found
    | some service =>
      simp only [proxy_eq_ok.mpr found, ok_bind] at failed
      split at failed
      next seen =>
        cases failed
        exact .serviceLoop new known named found seen
      next => cases failed
  | case6 visited name new s known hop p proxied bare kind =>
    rename_i ih
    have named := Server.approach_eq_server.mpr ⟨bare, proxied, by simpa using kind⟩
    refine ih (comes.onward new known named) ?_
    rcases bind_eq_error.mp failed with failed | ⟨_, -, failed⟩
    · exact failed
    · cases failed

/-- A target has no route if and only if the walk back from it comes to a problem. -/
theorem route_eq_error_iff {e : ConnectError} : inv.route target = .error e ↔
    ∃ visited name, inv.Comes target visited name ∧ inv.Fails target visited name e := by
  constructor
  · exact Comes.exists_fails .start
  · rintro ⟨visited, name, comes, fails⟩
    exact comes.walk_eq_error.mp fails.walk_eq_error

/-- A walk visits different servers of the inventory. -/
theorem Comes.visited_known (comes : inv.Comes target visited name) :
    visited.Nodup ∧ visited ⊆ inv.servers.keys := by
  induction comes with
  | start => exact ⟨List.nodup_nil, List.nil_subset _⟩
  | onward _ new known _ ih =>
    obtain ⟨distinct, configured⟩ := ih
    exact ⟨distinct.cons new, List.cons_subset.mpr ⟨mem_keys_of_find? known, configured⟩⟩

/-- Every walk back from a target ends, as it goes over no more servers than there are.  There is a
route if and only if its hops are what the entries say, one behind the other, and up to each server
on it a route is the route of that server.  Otherwise the failure is the first problem of the
walk. -/
theorem route_characterized (inv : Inventory) (target : String) :
    (∀ visited name, inv.Comes target visited name →
      visited.length ≤ inv.servers.keys.length) ∧
    (∀ r, inv.route target = .ok r ↔ inv.IsDescribed target r.hops) ∧
    (∀ r, inv.route target = .ok r → ∀ i h, r.hops[i + 1]? = some h →
      ∃ q, inv.route h.name = .ok q ∧ q.hops = r.hops.take (i + 2)) ∧
    ∀ e, inv.route target = .error e ↔
      ∃ visited name, inv.Comes target visited name ∧ inv.Fails target visited name e := by
  refine ⟨?_, fun r => route_eq_ok_iff_isDescribed, ?_, fun e => route_eq_error_iff⟩
  · intro visited name comes
    obtain ⟨distinct, configured⟩ := comes.visited_known
    exact (distinct.subperm configured).length_le
  · intro r routed i h there
    exact (route_eq_ok_iff.mp routed).route_take there

/-- A server behind another one and a proxy service, and two that name each other. -/
def crossing : Inventory where
  servers := .ofList [("a", { proxy := some "b" }), ("b", { proxy := some "a" }),
    ("b1", { proxy := some "corp", proxyKind? := some .socks5, port := some 2222 }),
    ("web1", { proxy := some "b1" })]
  proxies := .ofList [("corp", { addr := "10.0.0.1", port := 1080, kind := .socks5 })]

theorem route_characterized_crossing :
    (∃ r, crossing.route "web1" = .ok r ∧ crossing.IsDescribed "web1" r.hops ∧
      ∃ q, crossing.route "b1" = .ok q ∧ q.hops = r.hops.take 2) ∧
    crossing.route "a" = .error (.proxyLoop "a" "a") := by
  have b1 : crossing.servers.find? "b1" =
      some { proxy := some "corp", proxyKind? := some .socks5, port := some 2222 } := rfl
  have web1 : crossing.servers.find? "web1" = some { proxy := some "b1" } := rfl
  have corp : crossing.proxies.find? "corp" =
      some { addr := "10.0.0.1", port := 1080, kind := .socks5 } := rfl
  have bastion : crossing.Way ["web1"] "b1" _ :=
    .service (by decide) b1 rfl rfl rfl corp (by decide)
  have routed := (Way.server List.not_mem_nil web1 rfl rfl rfl bastion).anew
  have a : crossing.servers.find? "a" = some { proxy := some "b" } := rfl
  have b : crossing.servers.find? "b" = some { proxy := some "a" } := rfl
  have comes : crossing.Comes "a" ["b", "a"] "a" :=
    .onward (.onward .start List.not_mem_nil a rfl) (by decide) b rfl
  obtain ⟨-, described, taken, -⟩ := route_characterized crossing "web1"
  obtain ⟨-, -, -, failed⟩ := route_characterized crossing "a"
  exact ⟨⟨_, routed, (described _).mp routed, taken _ routed 0 _ rfl⟩,
    (failed _).mpr ⟨_, _, comes, .loop (by decide)⟩⟩

end Inventory

end Flotilla
