import Flotilla.Credential.Method
import Flotilla.Inventory.Basic
import Flotilla.Tunnel.Http

/-!
# The network

What the program meets outside: peers that answer, proxies and servers that let it in or do not.
A `Network` stands for all of it, and a list of `Contact` says what was reached out for.
-/

namespace Flotilla

/-- The far end of an open connection. -/
structure Peer where
  /-- The chunks that it sends once it was sent some bytes, if it ever ends to answer. -/
  answer : Bytes → Option (List Bytes)

/-- What a session runs over: a peer, and what it sent ahead of time. -/
structure Transport where
  peer : Peer
  early : List Bytes := []

/-- Why an address cannot be reached. -/
inductive DialFault where
  /-- There was no answer in time. -/
  | late
  | io (fault : IoFault)
  deriving Repr, DecidableEq

/-- The failure of dialling `name`. -/
def DialFault.toError (name : String) : DialFault → ConnectError
  | .late => .timeout name
  | .io fault => .io fault

/-- A connection to a server. -/
structure Connection where
  name : String
  /-- The servers that it is tunnelled through, the nearest one first. -/
  bastions : List String := []
  deriving Repr, DecidableEq

/-- The server that a connection is tunnelled through. -/
def Connection.via (c : Connection) : Option String := c.bastions.head?

/-- A login at the end of a transport. -/
structure Login where
  server : String
  host : String
  port : UInt16
  user : String
  methods : List Method

/-- A request to a proxy for a tunnel. -/
structure TunnelRequest where
  proxy : String
  host : String
  port : UInt16
  credentials : Option (String × String)
  deriving Repr, DecidableEq

/-- How the world outside behaves. -/
structure Network where
  /-- Opens a connection to an address. -/
  dial : String → UInt16 → Except DialFault Peer
  /-- Encrypts a connection to the host of a proxy. -/
  encrypt : String → Peer → Except ConnectError Peer
  /-- Asks a SOCKS proxy for a tunnel. -/
  socks : ProxyKind → Peer → TunnelRequest → Except ConnectError Transport
  /-- Starts a relay command. -/
  start : List String → Except IoFault Peer
  /-- Opens a tunnel through a connection. -/
  tunnel : Connection → String → UInt16 → Except ConnectError Peer
  /-- Shakes hands with a server and logs in. -/
  login : Login → Transport → Except ConnectError Unit

/-- Something that was reached out for. -/
inductive Contact where
  /-- The address of a server or of a proxy. -/
  | dialled (name host : String) (port : UInt16)
  /-- A proxy, asked for a tunnel. -/
  | asked (proxy host : String) (port : UInt16)
  /-- A relay command, started. -/
  | started (template : String) (words : List String)
  /-- A server, asked for a tunnel. -/
  | tunnelled (bastion host : String) (port : UInt16)
  /-- A server, to log in. -/
  | greeted (server : String)
  deriving Repr, DecidableEq

end Flotilla
