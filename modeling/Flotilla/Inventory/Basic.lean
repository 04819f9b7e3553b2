import Flotilla.Inventory.Server
import Flotilla.Table

/-!
# Inventories

An `Inventory` holds the configured servers and proxy services by name, and defaults for the
servers.
-/

namespace Flotilla

/-- A proxy service. -/
structure Proxy where
  addr : String
  port : UInt16
  kind : ProxyKind
  user : Option String := none
  password : Option String := none
  deriving Repr, DecidableEq

/-- The configured servers and proxy services. -/
structure Inventory where
  common : Server := {}
  servers : Table String Server := .empty
  proxies : Table String Proxy := .empty

namespace Inventory

instance : Inhabited Inventory := ⟨{}⟩

/-- Fills the unset fields of every server from the defaults. -/
def mergeCommon (inv : Inventory) : Inventory :=
  { inv with servers := inv.servers.map (·.inheritFrom inv.common) }

/-- The server of a name. -/
def server (inv : Inventory) (name : String) : Except ConnectError Server :=
  match inv.servers.find? name with
  | some s => .ok s
  | none => .error (.unknownServer name)

/-- The proxy service of a name. -/
def proxy (inv : Inventory) (name : String) : Except ConnectError Proxy :=
  match inv.proxies.find? name with
  | some p => .ok p
  | none => .error (.unknownProxy name)

/-- Whether a name is that of a server. -/
def knows (inv : Inventory) (name : String) : Bool := inv.servers.contains name

/-- The names of the servers that carry a label, in ascending order. -/
def group (inv : Inventory) (label : String) : List String :=
  (inv.servers.entries.filter (·.2.inGroup label)).map (·.1)

/-- Stores a server under a name. -/
def remember (inv : Inventory) (name : String) (s : Server) : Inventory :=
  { inv with servers := inv.servers.insert name s }

/-- Removes a server. -/
def forget (inv : Inventory) (name : String) : Inventory :=
  { inv with servers := inv.servers.erase name }

end Inventory

end Flotilla
