import Flotilla.ConnectError
import Flotilla.Environment
import Flotilla.Secret

/-!
# Server entries

A `Server` says how to reach a host and how to log in.  Every field may be unset; `inheritFrom`
fills unset fields from defaults, and `sealSecrets` obfuscates the secrets.
-/

namespace Flotilla

/-- How a server reaches what its `proxy` field names. -/
inductive ProxyKind where
  /-- Another server, through which connections are tunnelled. -/
  | ssh
  | http
  | https
  | socks
  | socks5
  deriving Repr, DecidableEq

/-- Whether a proxy of this kind is a service of its own, and not a server. -/
def ProxyKind.isService (k : ProxyKind) : Bool := k ≠ .ssh

/-- A server entry. -/
structure Server where
  addr : Option String := none
  port : Option UInt16 := none
  user : Option String := none
  password : Option String := none
  key : Option String := none
  keyPassphrase : Option String := none
  keyCommand : Option String := none
  cert : Option String := none
  certKey : Option String := none
  pkcs11Provider : Option String := none
  pkcs11Pin : Option String := none
  agent : Option Bool := none
  proxy : Option String := none
  proxyKind? : Option ProxyKind := none
  proxyCommand : Option String := none
  groups : List String := []
  deriving Repr, DecidableEq

namespace Server

/-- Fills each unset field from `defaults`.  Groups are not inherited. -/
def inheritFrom (s defaults : Server) : Server where
  addr := s.addr <|> defaults.addr
  port := s.port <|> defaults.port
  user := s.user <|> defaults.user
  password := s.password <|> defaults.password
  key := s.key <|> defaults.key
  keyPassphrase := s.keyPassphrase <|> defaults.keyPassphrase
  keyCommand := s.keyCommand <|> defaults.keyCommand
  cert := s.cert <|> defaults.cert
  certKey := s.certKey <|> defaults.certKey
  pkcs11Provider := s.pkcs11Provider <|> defaults.pkcs11Provider
  pkcs11Pin := s.pkcs11Pin <|> defaults.pkcs11Pin
  agent := s.agent <|> defaults.agent
  proxy := s.proxy <|> defaults.proxy
  proxyKind? := s.proxyKind? <|> defaults.proxyKind?
  proxyCommand := s.proxyCommand <|> defaults.proxyCommand
  groups := s.groups

/-- The form at rest of a configured secret of server `name`, if it is set. -/
def sealed? (name : String) (kind : Credential.Kind) :
    Option String → Except ConnectError (Option String)
  | none => .ok none
  | some stored =>
    match Secret.parse stored with
    | .ok secret => .ok (some secret.toStored)
    | .error f => .error (.credential name kind f.message)

/-- Obfuscates the secrets of server `name` in the order password, passphrase, PIN.  The first one
that cannot be read stops it; the ones before stay obfuscated. -/
def sealSecrets (s : Server) (name : String) : Server × Option ConnectError :=
  match sealed? name .password s.password with
  | .error e => (s, some e)
  | .ok password =>
    let s := { s with password }
    match sealed? name .keyFile s.keyPassphrase with
    | .error e => (s, some e)
    | .ok keyPassphrase =>
      let s := { s with keyPassphrase }
      match sealed? name .pkcs11 s.pkcs11Pin with
      | .error e => (s, some e)
      | .ok pkcs11Pin => ({ s with pkcs11Pin }, none)

/-- The address to dial, which is the entry's name unless it is set. -/
def address (s : Server) (name : String) : String := s.addr.getD name

/-- The port that SSH servers listen on. -/
def defaultPort : UInt16 := 22

/-- The port to dial. -/
def effectivePort (s : Server) : UInt16 := s.port.getD defaultPort

/-- The user to log in as. -/
def effectiveUser (s : Server) (env : Environment) : String := s.user.getD env.localUser

/-- The kind of the proxy that `proxy` names. -/
def proxyKind (s : Server) : ProxyKind := s.proxyKind?.getD .ssh

/-- Whether the server carries a group label. -/
def inGroup (s : Server) (label : String) : Bool := s.groups.contains label

end Server

end Flotilla
