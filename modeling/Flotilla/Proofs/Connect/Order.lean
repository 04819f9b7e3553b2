import Mathlib
import Flotilla.Connect.Dial
import Flotilla.Proofs.Route.Walk

/-!
# The order of dialling

`connect` finds a plan anew for every bastion.  As long as the hop that is dialled first is no
server in disguise (`IsEntered`), each bastion's own route is the route behind it, so dialling ends
and reaches out for the hops of the route in their order: `Attempt.KeepsTo`.
-/

namespace Flotilla

namespace Contact

/-- Whether a contact is made to get over a hop. -/
def IsFor (h : Hop) : Contact → Prop
  | .dialled name _ port => name = h.name ∧ port = h.port ∧ h.kind ≠ .command
  | .asked proxy _ _ => proxy = h.name ∧ h.kind ≠ .command ∧ h.kind ≠ .ssh
  | .started template _ => template = h.name ∧ h.kind = .command
  | .tunnelled _ _ port => port = h.port ∧ h.kind = .ssh
  | .greeted server => server = h.name ∧ h.kind = .ssh

/-- Contacts that get over hops one after the other. -/
inductive Along : List Contact → List Hop → Prop where
  | nil : Along [] []
  | cons {h : Hop} {block later : List Contact} {hops : List Hop} (some_ : block ≠ [])
      (here : ∀ c ∈ block, c.IsFor h) (rest : Along later hops) : Along (block ++ later) (h :: hops)

theorem Along.append {cs ds : List Contact} {hs ks : List Hop} (first : Along cs hs)
    (second : Along ds ks) : Along (cs ++ ds) (hs ++ ks) := by
  induction first with
  | nil => exact second
  | cons some_ here _ ih =>
    rw [List.append_assoc, List.cons_append]
    exact .cons some_ here ih

end Contact

namespace Attempt

variable {α β : Type}

/-- An attempt that comes to an end and reaches out for one hop alone. -/
def StaysAt (a : Attempt α) (h : Hop) : Prop :=
  ∃ outcome, a.result = some outcome ∧ (∀ c ∈ a.contacts, c.IsFor h) ∧
    ∀ x, outcome = .ok x → a.contacts ≠ []

/-- An attempt that comes to an end and reaches out for hops in their order, for all of them if it
succeeds. -/
def KeepsTo (a : Attempt α) (hops : List Hop) : Prop :=
  ∃ outcome reached, a.result = some outcome ∧ reached <+: hops ∧
    Contact.Along a.contacts reached ∧ ∀ x, outcome = .ok x → reached = hops

theorem staysAt_contact {c : Contact} {h : Hop} (here : c.IsFor h) (r : Except ConnectError α) :
    (contact c r).StaysAt h :=
  ⟨r, rfl, fun _ member => List.mem_singleton.1 member ▸ here, fun _ _ => List.cons_ne_nil c []⟩

theorem staysAt_error (e : ConnectError) (h : Hop) : (done (.error e) : Attempt α).StaysAt h :=
  ⟨.error e, rfl, nofun, nofun⟩

theorem keepsTo_error (e : ConnectError) (hops : List Hop) :
    (done (.error e) : Attempt α).KeepsTo hops :=
  ⟨.error e, [], rfl, List.nil_prefix, .nil, nofun⟩

theorem StaysAt.andThen {a : Attempt α} {f : α → Attempt β} {h : Hop} (first : a.StaysAt h)
    (second : ∀ x, (f x).StaysAt h) : (a.andThen f).StaysAt h := by
  obtain ⟨outcome, ended, here, some_⟩ := first
  unfold Attempt.andThen
  rw [ended]
  cases outcome with
  | error e => exact ⟨.error e, rfl, here, nofun⟩
  | ok x =>
    obtain ⟨outcome, ended', here', _⟩ := second x
    refine ⟨outcome, ended', ?_, ?_⟩
    · intro c member
      rcases List.mem_append.1 member with member | member
      · exact here c member
      · exact here' c member
    · intro _ _
      exact List.append_ne_nil_of_left_ne_nil (some_ x rfl) _

theorem StaysAt.keepsTo {a : Attempt α} {h : Hop} (stays : a.StaysAt h) : a.KeepsTo [h] := by
  obtain ⟨outcome, ended, here, some_⟩ := stays
  by_cases silent : a.contacts = []
  · refine ⟨outcome, [], ended, List.nil_prefix, silent ▸ .nil, ?_⟩
    intro x h
    exact absurd silent (some_ x h)
  · refine ⟨outcome, [h], ended, List.prefix_rfl, ?_, fun _ _ => rfl⟩
    have along := Contact.Along.cons silent here .nil
    rwa [List.append_nil] at along

theorem KeepsTo.andThen {a : Attempt α} {f : α → Attempt β} {hs ks : List Hop}
    (first : a.KeepsTo hs) (second : ∀ x, (f x).KeepsTo ks) :
    (a.andThen f).KeepsTo (hs ++ ks) := by
  obtain ⟨outcome, reached, ended, front, along, all⟩ := first
  unfold Attempt.andThen
  rw [ended]
  cases outcome with
  | error e => exact ⟨.error e, reached, rfl, front.trans (List.prefix_append hs ks), along, nofun⟩
  | ok x =>
    obtain ⟨outcome, later, ended', front', along', all'⟩ := second x
    obtain rfl := all x rfl
    refine ⟨outcome, reached ++ later, ended', ?_, along.append along', ?_⟩
    · exact (List.prefix_append_right_inj reached).2 front'
    · intro y h
      exact congrArg (reached ++ ·) (all' y h)

end Attempt

namespace Network

variable (net : Network)

theorem dialAddress_staysAt {h : Hop} (host : String) (kind : h.kind ≠ .command) :
    (net.dialAddress h.name host h.port).StaysAt h := by
  refine Attempt.staysAt_contact ?_ _
  exact ⟨rfl, rfl, kind⟩

theorem dialProxy_staysAt {p : Proxy} (name host : String) (port : UInt16) (kind : p.kind ≠ .ssh) :
    (net.dialProxy name p host port).StaysAt ⟨name, .proxied p.kind, p.port⟩ := by
  refine (net.dialAddress_staysAt (h := ⟨name, .proxied p.kind, p.port⟩) p.addr nofun).andThen ?_
  intro peer
  split
  · exact Attempt.staysAt_error _ _
  · refine Attempt.staysAt_contact ?_ _
    exact ⟨rfl, nofun, fun same => kind (Hop.Kind.proxied.inj same)⟩

theorem startRelay_staysAt (template host : String) (port : UInt16) :
    (net.startRelay template host port).StaysAt ⟨template, .command, 0⟩ := by
  unfold startRelay
  split
  · exact Attempt.staysAt_error _ _
  · refine Attempt.staysAt_contact ?_ _
    exact ⟨rfl, rfl⟩

theorem openTunnel_staysAt (c : Connection) {h : Hop} (host : String) (kind : h.kind = .ssh) :
    (net.openTunnel c host h.port).StaysAt h := by
  refine Attempt.staysAt_contact ?_ _
  exact ⟨rfl, kind⟩

theorem establish_staysAt {l : Login} {h : Hop} (bastions : List String) (t : Transport)
    (name : l.server = h.name) (kind : h.kind = .ssh) :
    (net.establish l bastions t).StaysAt h := by
  refine Attempt.staysAt_contact ?_ _
  exact ⟨name, kind⟩

theorem tunnel_staysAt (c : Connection) {l : Login} {h : Hop} (host : String)
    (name : l.server = h.name) (kind : h.kind = .ssh) :
    ((net.openTunnel c host h.port).andThen
      (net.establish l (c.name :: c.bastions))).StaysAt h := by
  refine (net.openTunnel_staysAt c host kind).andThen fun t => ?_
  exact net.establish_staysAt _ t name kind

end Network

namespace Inventory

/-- What a route says about dialling its target. -/
inductive Planned (inv : Inventory) (name : String) : Route → DialPlan → Prop where
  | direct (s : Server) : Planned inv name ⟨[], s.hop name⟩ ⟨s, .direct⟩
  | relay (s : Server) (command : String) :
      Planned inv name ⟨[⟨command, .command, 0⟩], s.hop name⟩ ⟨s, .relay command⟩
  | service {s : Server} {p : String} {service : Proxy} (kind : service.kind ≠ .ssh) :
      Planned inv name ⟨[⟨p, .proxied service.kind, service.port⟩], s.hop name⟩
        ⟨s, .service p service⟩
  /-- A proxy service whose kind is that of a server is taken for one. -/
  | disguised (s : Server) (b : String) (port : UInt16) :
      Planned inv name ⟨[⟨b, .ssh, port⟩], s.hop name⟩ ⟨s, .bastion b⟩
  | bastion {s : Server} {b : String} {q : Route} (outer : inv.route b = .ok q) :
      Planned inv name ⟨q.hops, s.hop name⟩ ⟨s, .bastion b⟩

theorem route_target {inv : Inventory} {name : String} {r : Route} (h : inv.route name = .ok r) :
    ∃ s, inv.servers.find? name = some s ∧ r.target = s.hop name := by
  cases route_eq_ok_iff.1 h <;> exact ⟨_, ‹_›, rfl⟩

/-- A server is dialled over the last hop in front of it, if that is a server. -/
theorem plan_eq_bastion {inv : Inventory} {name : String} {r : Route} {s : Server} {h : Hop}
    (routed : inv.route name = .ok r) (known : inv.servers.find? name = some s)
    (last : r.outer.getLast? = some h) (kind : h.kind = .ssh) :
    inv.plan name = .ok ⟨s, .bastion h.name⟩ := by
  unfold plan
  rw [routed, ok_bind, server_eq_ok.2 known, ok_bind, last]
  simp only [kind]
  rfl

theorem getLast?_hops (q : Route) : q.hops.getLast? = some q.target := List.getLast?_concat

theorem planned_of_route {inv : Inventory} {name : String} {r : Route}
    (h : inv.route name = .ok r) : ∃ p, inv.plan name = .ok p ∧ Planned inv name r p := by
  cases route_eq_ok_iff.1 h with
  | direct new known =>
    refine ⟨_, ?_, .direct _⟩
    rw [plan, h, ok_bind, server_eq_ok.2 known]
    rfl
  | relay new known =>
    refine ⟨_, ?_, .relay _ _⟩
    rw [plan, h, ok_bind, server_eq_ok.2 known]
    rfl
  | service new known bare proxied kind found fresh =>
    rename_i p s service
    by_cases disguise : service.kind = .ssh
    · refine ⟨_, plan_eq_bastion h known rfl (congrArg Hop.Kind.proxied disguise), ?_⟩
      exact disguise ▸ .disguised s p service.port
    · refine ⟨⟨s, .service p service⟩, ?_, .service disguise⟩
      rw [plan, h, ok_bind, server_eq_ok.2 known]
      simp [proxy_eq_ok.2 found]
  | server new known bare proxied kind outer =>
    rename_i p s q
    obtain ⟨t, _, target⟩ := route_target outer.anew
    refine ⟨_, plan_eq_bastion h known (getLast?_hops q) (by rw [target]; rfl), ?_⟩
    rw [target]
    exact .bastion outer.anew

theorem route_of_plan {inv : Inventory} {name : String} {p : DialPlan}
    (h : inv.plan name = .ok p) : ∃ r, inv.route name = .ok r :=
  (bind_eq_ok.1 h).imp fun _ => And.left

/-- A route is entered well if a hop of kind `ssh` that is dialled first is a server that is dialled
directly. -/
def IsEntered (inv : Inventory) (r : Route) : Prop :=
  ∀ h, r.hops.head? = some h → h.kind = .ssh → inv.route h.name = .ok ⟨[], h⟩

/-- The servers that are dialled on the way to a server: itself, and the bastion of each. -/
inductive Calls (inv : Inventory) (name : String) : String → Prop where
  | self : Calls inv name name
  | bastion {b c : String} {p : DialPlan} (call : Calls inv name b) (planned : inv.plan b = .ok p)
      (across : p.outer = .bastion c) : Calls inv name c

/-- Every bastion on the way to a server is a server whose route is that of the server behind it
without its last hop. -/
def BastionsKeepTo (inv : Inventory) (name : String) : Prop :=
  ∀ b c p, inv.Calls name b → inv.plan b = .ok p → p.outer = .bastion c →
    inv.knows c ∧ ∃ r q, inv.route b = .ok r ∧ inv.route c = .ok q ∧ q.hops = r.hops.dropLast

theorem Calls.trans {inv : Inventory} {a b c : String} (first : inv.Calls a b)
    (second : inv.Calls b c) : inv.Calls a c := by
  induction second with
  | self => exact first
  | bastion _ planned across ih => exact .bastion ih planned across

theorem knows_of_route {inv : Inventory} {name : String} {r : Route}
    (h : inv.route name = .ok r) : inv.knows name := by
  obtain ⟨s, known, _⟩ := route_target h
  simp [knows, Table.contains, known]

theorem head?_hops_append (q : Route) (h : Hop) : (q.hops ++ [h]).head? = q.hops.head? := by
  cases outer : q.outer <;> simp [Route.hops, outer]

/-- Behind a bastion lies its own route, and a route that is entered well stays so. -/
theorem Planned.bastion_route {inv : Inventory} {name b : String} {r : Route} {p : DialPlan}
    (planned : Planned inv name r p) (across : p.outer = .bastion b) (entered : inv.IsEntered r) :
    ∃ q, inv.route b = .ok q ∧ q.hops = r.outer ∧ inv.IsEntered q := by
  cases planned with
  | direct | relay | service => cases across
  | disguised s b' port =>
    cases across
    have direct := entered ⟨b, .ssh, port⟩ rfl rfl
    refine ⟨_, direct, rfl, ?_⟩
    rintro h ⟨⟩ -
    exact direct
  | bastion outer =>
    cases across
    refine ⟨_, outer, rfl, ?_⟩
    intro h first kind
    refine entered h ?_ kind
    rw [Route.hops, head?_hops_append]
    exact first

theorem calls_entered {inv : Inventory} {name b : String} {r : Route}
    (h : inv.route name = .ok r) (entered : inv.IsEntered r) (call : inv.Calls name b) :
    ∃ q, inv.route b = .ok q ∧ inv.IsEntered q := by
  induction call with
  | self => exact ⟨r, h, entered⟩
  | bastion _ plan across ih =>
    obtain ⟨q, hq, entered'⟩ := ih
    obtain ⟨p', plan', planned⟩ := planned_of_route hq
    obtain rfl := Except.ok.inj (plan.symm.trans plan')
    obtain ⟨q', hq', _, entered''⟩ := planned.bastion_route across entered'
    exact ⟨q', hq', entered''⟩

theorem bastionsKeepTo_of_isEntered {inv : Inventory} {name : String} {r : Route}
    (h : inv.route name = .ok r) (entered : inv.IsEntered r) : inv.BastionsKeepTo name := by
  intro b c p call plan across
  obtain ⟨q, hq, entered'⟩ := calls_entered h entered call
  obtain ⟨p', plan', planned⟩ := planned_of_route hq
  obtain rfl := Except.ok.inj (plan.symm.trans plan')
  obtain ⟨q', hq', outer, _⟩ := planned.bastion_route across entered'
  refine ⟨knows_of_route hq', q, q', hq, hq', ?_⟩
  rw [outer, Route.hops, List.dropLast_concat]

theorem isEntered_of_bastionsKeepTo {inv : Inventory} {visited : List String} {name : String}
    {r : Route} (way : Way inv visited name r) (keeps : inv.BastionsKeepTo name) :
    inv.IsEntered r := by
  induction way with
  | direct new known bare last =>
    rintro h ⟨⟩ -
    exact (Way.direct new known bare last).anew
  | relay =>
    rintro h ⟨⟩ kind
    cases kind
  | service new known bare proxied kind found fresh =>
    rintro h ⟨⟩ disguise
    have routed := (Way.service new known bare proxied kind found fresh).anew
    have plan := plan_eq_bastion routed known rfl disguise
    obtain ⟨_, r, q, hr, hq, hops⟩ := keeps _ _ _ .self plan rfl
    obtain rfl := Except.ok.inj (hr.symm.trans routed)
    obtain ⟨outer, target⟩ := q
    have split : outer ++ [target] = [] ++ [_] := hops
    obtain ⟨rfl, same⟩ := List.append_inj' split rfl
    cases same
    exact hq
  | server new known bare proxied kind outer ih =>
    rename_i p s q
    have routed := (Way.server new known bare proxied kind outer).anew
    obtain ⟨t, _, target⟩ := route_target outer.anew
    have plan := plan_eq_bastion routed known (getLast?_hops q) (by rw [target]; rfl)
    rw [target] at plan
    have behind : inv.BastionsKeepTo p :=
      fun b c p' call => keeps b c p' (.trans (.bastion .self plan rfl) call)
    intro h first kind
    rw [Route.hops, head?_hops_append] at first
    exact ih behind h first kind

variable (net : Network) (env : Environment) (cache : Cache)

/-- Over a route that is entered well, dialling ends within as many calls as there are hops. -/
theorem connectFor_keepsTo {inv : Inventory} {fuel : Nat} {name : String} {r : Route}
    (h : inv.route name = .ok r) (entered : inv.IsEntered r) (enough : r.hops.length ≤ fuel) :
    (connectFor net env inv cache fuel name).KeepsTo r.hops := by
  induction fuel generalizing name r with
  | zero => simp [Route.hops] at enough
  | succ fuel ih =>
    obtain ⟨p, plan, planned⟩ := planned_of_route h
    have outer : ∀ b, p.outer = .bastion b →
        (connectFor net env inv cache fuel b).KeepsTo r.outer := by
      intro b across
      obtain ⟨q, hq, hops, entered'⟩ := planned.bastion_route across entered
      rw [← hops]
      refine ih hq entered' ?_
      rw [hops]
      simpa [Route.hops] using enough
    rw [connectFor, plan]
    dsimp only
    split
    · exact Attempt.keepsTo_error _ _
    cases planned with
    | direct s =>
      refine Attempt.StaysAt.keepsTo (Attempt.StaysAt.andThen ?_ fun peer => ?_)
      · exact net.dialAddress_staysAt (h := s.hop name) _ (by rintro ⟨⟩)
      · exact net.establish_staysAt _ _ rfl rfl
    | relay s command =>
      refine (net.startRelay_staysAt command _ _).keepsTo.andThen fun t => ?_
      exact (net.establish_staysAt _ _ rfl rfl).keepsTo
    | service kind =>
      refine (net.dialProxy_staysAt _ _ _ kind).keepsTo.andThen fun t => ?_
      exact (net.establish_staysAt _ _ rfl rfl).keepsTo
    | disguised s b port =>
      refine (outer b rfl).andThen fun c => ?_
      exact (net.tunnel_staysAt c (h := Server.hop _ name) _ rfl rfl).keepsTo
    | bastion =>
      refine (outer _ rfl).andThen fun c => ?_
      exact (net.tunnel_staysAt c (h := Server.hop _ name) _ rfl rfl).keepsTo

/-- Dialling a server ends within as many calls as the route has hops, and keeps to the route. -/
def DialsAlong (inv : Inventory) (name : String) (r : Route) : Prop :=
  ∀ net env cache, (inv.connect net env cache name).KeepsTo r.hops ∧
    ∀ fuel, r.hops.length ≤ fuel → (connectFor net env inv cache fuel name).KeepsTo r.hops

theorem dialsAlong_of_isEntered {inv : Inventory} {name : String} {r : Route}
    (h : inv.route name = .ok r) (entered : inv.IsEntered r) : inv.DialsAlong name r := by
  intro net env cache
  refine ⟨connectFor_keepsTo net env cache h entered ?_,
    fun _ => connectFor_keepsTo net env cache h entered⟩
  have bound := (route_eq_ok_iff.1 h).hops_length_le
  have servers := inv.unvisited_length_le []
  omega

/-- Proxy services that are none of them called servers leave every route entered well. -/
theorem isEntered_of_services {inv : Inventory} {visited : List String} {name : String} {r : Route}
    (services : ∀ p service, inv.proxies.find? p = some service → service.kind ≠ .ssh)
    (way : Way inv visited name r) : inv.IsEntered r := by
  induction way with
  | direct new known bare last =>
    rintro h ⟨⟩ -
    exact (Way.direct new known bare last).anew
  | relay =>
    rintro h ⟨⟩ kind
    cases kind
  | service new known bare proxied kind found fresh =>
    rintro h ⟨⟩ disguise
    exact absurd (Hop.Kind.proxied.inj disguise) (services _ _ found)
  | server new known bare proxied kind outer ih =>
    intro h first kind
    rw [Route.hops, head?_hops_append] at first
    exact ih h first kind

/-- The bastions on the way to a server keep to its route exactly if the route is entered well, and
then dialling ends and keeps to it too.  Only a proxy service of kind `ssh` can prevent that. -/
theorem bastionsKeepTo_iff_isEntered {inv : Inventory} {name : String} {p : DialPlan}
    (planned : inv.plan name = .ok p) :
    ∃ r, inv.route name = .ok r ∧ (inv.BastionsKeepTo name ↔ inv.IsEntered r) ∧
      (inv.IsEntered r → inv.DialsAlong name r) ∧
      ((∀ p service, inv.proxies.find? p = some service → service.kind ≠ .ssh) →
        inv.IsEntered r) := by
  obtain ⟨r, h⟩ := route_of_plan planned
  have way := route_eq_ok_iff.1 h
  refine ⟨r, h, ⟨?_, ?_⟩, ?_, ?_⟩
  · exact isEntered_of_bastionsKeepTo way
  · exact bastionsKeepTo_of_isEntered h
  · exact dialsAlong_of_isEntered h
  · exact fun services => isEntered_of_services services way

/-- A target behind two bastions, the outer one behind a proxy service. -/
def chain : Inventory where
  servers := .ofList [("b1", { proxy := some "corp", proxyKind? := some .http }),
    ("b2", { proxy := some "b1" }), ("web1", { proxy := some "b2" })]
  proxies := .ofList [("corp", { addr := "10.0.0.1", port := 3128, kind := .http })]

theorem bastionsKeepTo_chain :
    chain.plan "web1" = .ok ⟨{ proxy := some "b2" }, .bastion "b2"⟩ ∧
      ∃ r, chain.route "web1" = .ok r ∧ (chain.BastionsKeepTo "web1" ↔ chain.IsEntered r) ∧
        (chain.IsEntered r → chain.DialsAlong "web1" r) ∧
        ((∀ p service, chain.proxies.find? p = some service → service.kind ≠ .ssh) →
          chain.IsEntered r) := by
  have planned : chain.plan "web1" = .ok ⟨{ proxy := some "b2" }, .bastion "b2"⟩ := by cbv
  exact ⟨planned, bastionsKeepTo_iff_isEntered planned⟩

/-- A server behind a proxy service that is called a server. -/
def disguised : Inventory where
  servers := .ofList [("a", { proxy := some "p", proxyKind? := some .http })]
  proxies := .ofList [("p", { addr := "127.0.0.1", port := 1, kind := .ssh })]

/-- A plan may lead over a bastion that is no server at all. -/
theorem not_bastionsKeepTo_disguised :
    disguised.plan "a" = .ok ⟨{ proxy := some "p", proxyKind? := some .http }, .bastion "p"⟩ ∧
      disguised.knows "p" = false ∧ ¬ disguised.BastionsKeepTo "a" := by
  have planned : disguised.plan "a" =
      .ok ⟨{ proxy := some "p", proxyKind? := some .http }, .bastion "p"⟩ := by cbv
  refine ⟨planned, rfl, fun keeps => ?_⟩
  have known := (keeps _ _ _ .self planned rfl).1
  cases known

/-- Two servers, each behind a proxy service that is called a server and has the other's name. -/
def twins : Inventory where
  servers := .ofList [("a", { proxy := some "b", proxyKind? := some .http }),
    ("b", { proxy := some "a", proxyKind? := some .http })]
  proxies := .ofList [("a", { addr := "127.0.0.1", port := 1, kind := .ssh }),
    ("b", { addr := "127.0.0.1", port := 1, kind := .ssh })]

/-- Both twins have a route, and dialling either has no end. -/
theorem connectFor_twins (net : Network) (env : Environment) (cache : Cache)
    (readyA : (cache.methodsFor "a").isSome) (readyB : (cache.methodsFor "b").isSome)
    (fuel : Nat) :
    (connectFor net env twins cache fuel "a").result = none ∧
      (connectFor net env twins cache fuel "b").result = none := by
  have planA : twins.plan "a" =
      .ok ⟨{ proxy := some "b", proxyKind? := some .http }, .bastion "b"⟩ := by cbv
  have planB : twins.plan "b" =
      .ok ⟨{ proxy := some "a", proxyKind? := some .http }, .bastion "a"⟩ := by cbv
  obtain ⟨forA, readyA⟩ := Option.isSome_iff_exists.1 readyA
  obtain ⟨forB, readyB⟩ := Option.isSome_iff_exists.1 readyB
  induction fuel with
  | zero => exact ⟨rfl, rfl⟩
  | succ fuel ih =>
    obtain ⟨endlessA, endlessB⟩ := ih
    rw [connectFor, connectFor, planA, planB]
    simp only [readyA, readyB, Attempt.andThen, endlessA, endlessB, and_self]

end Inventory

end Flotilla
