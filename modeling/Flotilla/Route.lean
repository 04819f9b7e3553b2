import Flotilla.Inventory.Basic

/-!
# Routes

A route lists the hops to be dialled for a target, outermost first.  `Inventory.route` finds it by
walking the proxy references back from the target.  The walk ends because it never visits a server
twice, and the servers are finitely many.
-/

namespace Flotilla

/-- How a hop is reached or traversed. -/
inductive Hop.Kind where
  | proxied (kind : ProxyKind)
  /-- A relay command that runs on this machine. -/
  | command
  deriving Repr, DecidableEq

/-- A hop over an SSH server. -/
abbrev Hop.Kind.ssh : Hop.Kind := .proxied .ssh

/-- The name of a hop's kind. -/
def Hop.Kind.name : Hop.Kind → String
  | .proxied .ssh => "ssh"
  | .proxied .http => "http"
  | .proxied .https => "https"
  | .proxied .socks => "socks"
  | .proxied .socks5 => "socks5"
  | .command => "command"

/-- A step of a route.  Its name is that of a server or of a proxy service, or it is a relay
command. -/
structure Hop where
  name : String
  kind : Hop.Kind
  port : UInt16
  deriving Repr, DecidableEq

/-- The hops to be dialled, outermost first, of which the last is the target. -/
structure Route where
  outer : List Hop
  target : Hop
  deriving Repr, DecidableEq

namespace Route

/-- The hops, outermost first. -/
def hops (r : Route) : List Hop := r.outer ++ [r.target]

/-- Whether the target is dialled without any hop before it. -/
def isDirect (r : Route) : Bool := r.outer.isEmpty

/-- The route in words. -/
def path (r : Route) : String :=
  " -> ".intercalate (r.hops.map fun h => s!"{h.name}({h.kind.name})")

end Route

namespace Inventory

/-- The servers that a walk has not visited. -/
def unvisited (inv : Inventory) (visited : List String) : List String :=
  inv.servers.keys.filter (· ∉ visited)

theorem mem_keys_of_find? {inv : Inventory} {name : String} {s : Server}
    (h : inv.servers.find? name = some s) : name ∈ inv.servers.keys :=
  List.mem_map.2 ⟨(name, s), (inv.servers.find?_eq_some_iff name s).1 h, rfl⟩

theorem unvisited_cons_lt {inv : Inventory} {visited : List String} {name : String}
    (new : name ∉ visited) (known : name ∈ inv.servers.keys) :
    (inv.unvisited (name :: visited)).length < (inv.unvisited visited).length := by
  have split : inv.unvisited (name :: visited) = (inv.unvisited visited).filter (· ≠ name) := by
    simp [unvisited, List.filter_filter, not_or]
  rw [split]
  refine Nat.lt_of_le_of_ne (List.length_filter_le _ _) fun same => ?_
  have all := List.length_filter_eq_length_iff.1 same
  have member : name ∈ inv.unvisited visited := List.mem_filter.2 ⟨known, by simpa using new⟩
  simpa using all name member

/-- The route of server `name` on a walk from `target` that has visited `visited`. -/
def walk (inv : Inventory) (target : String) (visited : List String) (name : String) :
    Except ConnectError Route :=
  if _ : name ∈ visited then .error (.proxyLoop target name)
  else
    match _ : inv.servers.find? name with
    | none => .error (.unknownServer name)
    | some s =>
      let hop : Hop := ⟨name, .ssh, s.effectivePort⟩
      match s.proxyCommand, s.proxy with
      | some command, _ => .ok ⟨[⟨command, .command, 0⟩], hop⟩
      | none, none => .ok ⟨[], hop⟩
      | none, some p =>
        if s.proxyKind.isService then do
          let service ← inv.proxy p
          if p ∈ name :: visited then throw (.proxyLoop target p)
          return ⟨[⟨p, .proxied service.kind, service.port⟩], hop⟩
        else do
          let outer ← inv.walk target (name :: visited) p
          return ⟨outer.hops, hop⟩
termination_by (inv.unvisited visited).length
decreasing_by exact unvisited_cons_lt ‹_› (mem_keys_of_find? ‹_›)

/-- The route of a target.  A relay command takes precedence over a proxy, and both a relay command
and a proxy service end the walk. -/
def route (inv : Inventory) (target : String) : Except ConnectError Route :=
  inv.walk target [] target

/-- Adds the names of a list that are not there yet. -/
def addNew (names : List String) (more : List String) : List String :=
  more.foldl (fun names name => if name ∈ names then names else names ++ [name]) names

/-- The servers that need credentials before the targets can be reached, and the targets without a
route. -/
structure AuthScope where
  /-- The SSH hops of all routes in order, each once. -/
  servers : List String := []
  failures : List (String × ConnectError) := []

/-- Takes up a target in a scope. -/
def extendScope (inv : Inventory) (scope : AuthScope) (target : String) : AuthScope :=
  match inv.route target with
  | .ok r =>
    { scope with
      servers := addNew scope.servers ((r.hops.filter (·.kind = .ssh)).map (·.name)) }
  | .error e => { scope with failures := scope.failures ++ [(target, e)] }

/-- The servers that need credentials before the targets can be reached. -/
def authScope (inv : Inventory) (targets : List String) : AuthScope :=
  targets.foldl inv.extendScope {}

end Inventory

end Flotilla
