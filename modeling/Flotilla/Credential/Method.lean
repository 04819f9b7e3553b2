import Flotilla.Credential.Basic
import Flotilla.Key.Certificate
import Flotilla.Key.File
import Flotilla.Machine
import Flotilla.Text.ShellWords

/-!
# Methods of authentication

A `Method` is a credential that is ready to be used: keys are loaded, and the agent is known to
hold some.  `Credential.derive` makes one, or says why it cannot.
-/

namespace Flotilla

/-- A way to log in that is ready to be used. -/
inductive Method where
  | password (text : String)
  | publicKey (key : PrivateKey)
  | certificate (key : PrivateKey) (certificate : Certificate)
  /-- The keys of a provider, held by the agent. -/
  | providerKeys (keys : List PublicKey)
  /-- Every key that the agent holds by then. -/
  | agent
  deriving DecidableEq

/-- The name of a method. -/
def Method.label : Method → String
  | .password _ => "password"
  | .publicKey _ => "publickey"
  | .certificate .. => "certificate"
  | .providerKeys _ => "pkcs11"
  | .agent => "agent"

namespace Credential

/-- The key that a command prints. -/
def runKeyCommand (m : Machine) (command : String) (passphrase : Option String) :
    Except String PrivateKey := do
  let blame (text : String) : String := s!"{command}: {text}"
  match ShellWords.split command.toList with
  | none | some [] => throw ("invalid key command " ++ Text.quoted command)
  | some words =>
    let result ← (m.run (words.map String.ofList)).mapError fun f => blame f.message
    if result.ending ≠ .exit 0 then throw (blame ("exited with " ++ result.ending.message))
    let text ← (Utf8.decode result.output).mapError fun f => blame f.message
    (KeyFile.decode text passphrase).mapError fun f => blame f.message

/-- The agent, or why it cannot be reached. -/
def reachAgent (m : Machine) : Except String Agent :=
  m.agent.mapError fun a => "ssh agent unavailable: " ++ a.message

/-- The keys that the agent holds once it was asked to load those of a provider with a PIN. -/
def loadProvider (m : Machine) (provider pin : String) : Except String Method := do
  let blame (f : Agent.Fault) : String := s!"{provider}: {f.message}"
  let agent ← reachAgent m
  let agent ← (agent.load provider pin).mapError blame
  let keys ← agent.identities.mapError blame
  if keys = [] then throw s!"{provider}: no keys exposed"
  return .providerKeys keys

/-- The agent, if it holds keys. -/
def probeAgent (m : Machine) : Except String Method := do
  let agent ← reachAgent m
  let keys ← agent.identities.mapError fun f => s!"ssh agent: {f.message}"
  if keys = [] then throw "ssh agent holds no identities"
  return .agent

/-- Makes a credential ready to be used, or says why it cannot be used. -/
def derive (m : Machine) : Credential → Except String Method
  | .password secret => .ok (.password secret.plain)
  | .keyFile path passphrase => do
    let key ← (KeyFile.load m.files path (passphrase.map (·.plain))).mapError fun f =>
      s!"{path}: {f.message}"
    return .publicKey key
  | .keyCommand command passphrase => do
    return .publicKey (← runKeyCommand m command (passphrase.map (·.plain)))
  | .certificate cert key passphrase => do
    let privateKey ← (KeyFile.load m.files key (passphrase.map (·.plain))).mapError fun f =>
      s!"{key}: {f.message}"
    let certificate ← (Certificate.load m.files cert).mapError fun f => s!"{cert}: {f.message}"
    return .certificate privateKey certificate
  | .pkcs11 provider pin => loadProvider m provider pin.plain
  | .agent => probeAgent m

end Credential

end Flotilla
