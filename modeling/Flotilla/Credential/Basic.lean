import Flotilla.Inventory.Server

/-!
# Credentials

A `Credential` is what a server's entry says about one way to log in.  `Server.credentials` lists
them in the order in which they are tried, and the secrets that cannot be read.
-/

namespace Flotilla

/-- One way to log in, as it is configured. -/
inductive Credential where
  | password (secret : Secret)
  /-- A file with a private key. -/
  | keyFile (path : String) (passphrase : Option Secret)
  /-- A command that prints a private key. -/
  | keyCommand (command : String) (passphrase : Option Secret)
  | certificate (cert key : String) (passphrase : Option Secret)
  /-- A provider whose keys the agent loads. -/
  | pkcs11 (provider : String) (pin : Secret)
  /-- The keys that the agent holds. -/
  | agent
  deriving Repr, DecidableEq

/-- The kind of a credential. -/
def Credential.kind : Credential → Credential.Kind
  | .password _ => .password
  | .keyFile .. => .keyFile
  | .keyCommand .. => .keyCommand
  | .certificate .. => .certificate
  | .pkcs11 .. => .pkcs11
  | .agent => .agent

/-- The credentials of a server, and what is wrong with the others. -/
structure Credentials where
  usable : List Credential := []
  failures : List ConnectError := []
  deriving Repr, DecidableEq

namespace Server

/-- A configured secret of server `name`, and what is wrong with it. -/
def secret (name : String) (kind : Credential.Kind) :
    Option String → Option Secret × List ConnectError
  | none => (none, [])
  | some stored =>
    match Secret.parse stored with
    | .ok secret => (some secret, [])
    | .error f => (none, [.credential name kind f.message])

/-- Whether the agent's keys are to be tried.  Unless it is set, they are if an agent runs. -/
def usesAgent (s : Server) (env : Environment) : Bool := s.agent.getD env.agentSocket.isSome

/-- The certificate credential of server `name`, and what is wrong with it.  The private key is the
one for the certificate, or else the server's key. -/
def certificate (s : Server) (env : Environment) (name : String) (passphrase : Option Secret) :
    List Credential × List ConnectError :=
  match s.cert, s.certKey <|> s.key with
  | none, _ => ([], [])
  | some cert, some key =>
    ([.certificate (env.expandPath cert) (env.expandPath key) passphrase], [])
  | some _, none =>
    ([], [.credential name .certificate "certificate configured without a private key"])

/-- The credential of server `name` for its provider of keys, and what is wrong with its PIN. -/
def providerKeys (s : Server) (name : String) : List Credential × List ConnectError :=
  match s.pkcs11Provider with
  | none => ([], [])
  | some provider =>
    let (pin, faults) := secret name .pkcs11 s.pkcs11Pin
    ([.pkcs11 provider (pin.getD ⟨"", ""⟩)], faults)

/-- The credentials of server `name` in the order in which they are tried. -/
def credentials (s : Server) (env : Environment) (name : String) : Credentials :=
  let (password, passwordFaults) := secret name .password s.password
  let (passphrase, passphraseFaults) := secret name .keyFile s.keyPassphrase
  let (certificate, certificateFaults) := s.certificate env name passphrase
  let (providerKeys, pinFaults) := s.providerKeys name
  { usable :=
      password.toList.map .password ++
        s.key.toList.map (fun key => .keyFile (env.expandPath key) passphrase) ++
        s.keyCommand.toList.map (fun command => .keyCommand command passphrase) ++
        certificate ++ providerKeys ++ (if s.usesAgent env then [.agent] else [])
    failures := passwordFaults ++ passphraseFaults ++ certificateFaults ++ pinFaults }

end Server

end Flotilla
