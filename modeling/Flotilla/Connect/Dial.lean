import Flotilla.Connect.Network
import Flotilla.Credential.Cache
import Flotilla.Route
import Flotilla.Tunnel.Relay

/-!
# Dialling a server

`Inventory.plan` says what a server is dialled through, and `Inventory.connect` dials it.  A server
behind a bastion is dialled through a connection to the bastion, which is dialled first in the same
way.  Routes, and so plans, are found anew for every bastion.
-/

namespace Flotilla

/-- What a server is dialled through. -/
inductive Outer where
  /-- Nothing: its address is dialled. -/
  | direct
  | relay (template : String)
  | service (name : String) (proxy : Proxy)
  /-- A connection to another server. -/
  | bastion (name : String)
  deriving Repr, DecidableEq

/-- All that is needed to dial a server. -/
structure DialPlan where
  server : Server
  outer : Outer
  deriving Repr, DecidableEq

/-- What comes of dialling: what was reached out for, and the result, unless there is no end to
it. -/
structure Attempt (α : Type) where
  contacts : List Contact := []
  result : Option (Except ConnectError α)

namespace Attempt

/-- An attempt that ends at once. -/
def done (r : Except ConnectError α) : Attempt α := { result := some r }

/-- Reaches out for something. -/
def contact (c : Contact) (r : Except ConnectError α) : Attempt α :=
  { contacts := [c], result := some r }

/-- Goes on after a success. -/
def andThen (a : Attempt α) (f : α → Attempt β) : Attempt β :=
  match a.result with
  | some (.ok x) =>
    let b := f x
    { contacts := a.contacts ++ b.contacts, result := b.result }
  | some (.error e) => { contacts := a.contacts, result := some (.error e) }
  | none => { contacts := a.contacts, result := none }

end Attempt

/-- The user name and the password for a proxy called `name`. -/
def Proxy.credentials (p : Proxy) (name : String) :
    Except ConnectError (Option (String × String)) :=
  match p.user with
  | none => .ok none
  | some user =>
    match Secret.parse (p.password.getD "") with
    | .ok secret => .ok (some (user, secret.plain))
    | .error f => .error (.proxyRefused name f.message)

namespace Network

/-- Dials the address of `name`. -/
def dialAddress (net : Network) (name host : String) (port : UInt16) : Attempt Peer :=
  .contact (.dialled name host port) ((net.dial host port).mapError (·.toError name))

/-- Asks an HTTP proxy for a tunnel. -/
def askHttp (peer : Peer) (r : TunnelRequest) : Except ConnectError Transport :=
  match peer.answer (utf8 (Http.request r.host r.port r.credentials)) with
  | none => .error (.timeout r.proxy)
  | some stream => do return { peer, early := ← Http.readAnswer r.proxy stream }

/-- Asks a proxy of some kind for a tunnel. -/
def ask (net : Network) (p : Proxy) (peer : Peer) (r : TunnelRequest) :
    Except ConnectError Transport :=
  match p.kind with
  | .http => askHttp peer r
  | .https => do askHttp (← net.encrypt p.addr peer) r
  | .socks | .socks5 => net.socks p.kind peer r
  | .ssh => .error (.internal s!"{r.proxy} is a server, not a proxy service")

/-- Dials a proxy and asks it for a tunnel.  Its password is read once it is reached. -/
def dialProxy (net : Network) (name : String) (p : Proxy) (host : String) (port : UInt16) :
    Attempt Transport :=
  (net.dialAddress name p.addr p.port).andThen fun peer =>
    match p.credentials name with
    | .error e => .done (.error e)
    | .ok credentials =>
      .contact (.asked name host port) (net.ask p peer { proxy := name, host, port, credentials })

/-- Starts a relay command. -/
def startRelay (net : Network) (template host : String) (port : UInt16) : Attempt Transport :=
  match Relay.words template host port with
  | .error e => .done (.error e)
  | .ok words =>
    .contact (.started template words) (((net.start words).mapError .io).map ({ peer := · }))

/-- Opens a tunnel through a connection. -/
def openTunnel (net : Network) (c : Connection) (host : String) (port : UInt16) :
    Attempt Transport :=
  .contact (.tunnelled c.name host port) ((net.tunnel c host port).map ({ peer := · }))

/-- Logs in at the end of a transport. -/
def establish (net : Network) (l : Login) (bastions : List String) (t : Transport) :
    Attempt Connection :=
  .contact (.greeted l.server)
    ((net.login l t).map fun _ => { name := l.server, bastions })

end Network

namespace Inventory

/-- All that is needed to dial a server. -/
def plan (inv : Inventory) (name : String) : Except ConnectError DialPlan := do
  let route ← inv.route name
  let server ← inv.server name
  match route.outer.getLast? with
  | none => return ⟨server, .direct⟩
  | some hop =>
    match hop.kind with
    | .proxied .ssh => return ⟨server, .bastion hop.name⟩
    | .command => return ⟨server, .relay hop.name⟩
    | .proxied _ => return ⟨server, .service hop.name (← inv.proxy hop.name)⟩

/-- Dials a server over at most `fuel` servers. -/
def connectFor (net : Network) (env : Environment) (inv : Inventory) (cache : Cache) (fuel : Nat)
    (name : String) : Attempt Connection :=
  match fuel with
  | 0 => { result := none }
  | fuel + 1 =>
    match inv.plan name with
    | .error e => .done (.error e)
    | .ok p =>
      match cache.methodsFor name with
      | none => .done (.error (.noMethods name))
      | some methods =>
        let host := p.server.address name
        let port := p.server.effectivePort
        let login : Login :=
          { server := name, host, port, user := p.server.effectiveUser env, methods }
        match p.outer with
        | .direct =>
          (net.dialAddress name host port).andThen fun peer => net.establish login [] { peer }
        | .relay template => (net.startRelay template host port).andThen (net.establish login [])
        | .service service proxy =>
          (net.dialProxy service proxy host port).andThen (net.establish login [])
        | .bastion b =>
          (connectFor net env inv cache fuel b).andThen fun c =>
            (net.openTunnel c host port).andThen (net.establish login (c.name :: c.bastions))

/-- Dials a server.  A way that leads over more servers than there are goes on without end. -/
def connect (net : Network) (env : Environment) (inv : Inventory) (cache : Cache)
    (name : String) : Attempt Connection :=
  connectFor net env inv cache (inv.servers.keys.length + 1) name

end Inventory

end Flotilla
