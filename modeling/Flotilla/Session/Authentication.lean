import Flotilla.Connect.Network
import Flotilla.HostKey.Policy
import Flotilla.Machine

/-!
# Logging in

A server first shows its host key.  If that passes, credentials are offered to it one after the
other, method by method, until it accepts one.  `Login.authenticate` says which offers are made and
how that ends, and `Login.enter` puts the host key in front of it.
-/

namespace Flotilla

/-- A credential as it is offered to a server. -/
inductive Offer where
  | password (text : String)
  | publicKey (key : PrivateKey)
  | certificate (key : PrivateKey) (certificate : Certificate)
  /-- A key that the agent signs with. -/
  | identity (key : PublicKey)
  deriving DecidableEq

/-- The offers of a method.  Keys of the agent are offered only while it can be reached, and its
own ones are those that it holds by then. -/
def Method.offers (agent : Except Agent.Absence Agent) : Method → Except Agent.Fault (List Offer)
  | .password text => .ok [.password text]
  | .publicKey key => .ok [.publicKey key]
  | .certificate key cert => .ok [.certificate key cert]
  | .providerKeys keys =>
    match agent with
    | .ok _ => .ok (keys.map .identity)
    | .error _ => .ok []
  | .agent =>
    match agent with
    | .ok a => a.identities.map (·.map .identity)
    | .error _ => .ok []

/-- A server as it meets those who log in. -/
structure Doorway where
  hostKey : PublicKey
  /-- Whether it accepts an offer after it rejected others, the first one first. -/
  accepts : List Offer → Offer → Bool

namespace Doorway

/-- Whether an offer lets the user in.  A key that the agent does not sign with counts as
rejected. -/
def admits (d : Doorway) (agent : Except Agent.Absence Agent) (rejected : List Offer) :
    Offer → Bool
  | .identity key =>
    match agent with
    | .ok a => d.accepts rejected (.identity key) && a.signs key
    | .error _ => false
  | o => d.accepts rejected o

/-- Makes offers until one is accepted: all that were made by then, and whether one was. -/
def receive (d : Doorway) (agent : Except Agent.Absence Agent) (rejected : List Offer) :
    List Offer → List Offer × Bool
  | [] => (rejected, false)
  | o :: later =>
    if d.admits agent rejected o then (rejected ++ [o], true)
    else d.receive agent (rejected ++ [o]) later

/-- Makes the offers of methods until one is accepted. -/
def receiveMethods (d : Doorway) (agent : Except Agent.Absence Agent) (rejected : List Offer) :
    List Method → List Offer × Except ConnectError Bool
  | [] => (rejected, .ok false)
  | m :: later =>
    match m.offers agent with
    | .error f => (rejected, .error (.key f.message))
    | .ok offers =>
      match d.receive agent rejected offers with
      | (made, true) => (made, .ok true)
      | (made, false) => d.receiveMethods agent made later

end Doorway

/-- Logs in with the methods in their order: the offers that are made, and the result. -/
def Login.authenticate (l : Login) (agent : Except Agent.Absence Agent) (d : Doorway) :
    List Offer × Except ConnectError Unit :=
  match d.receiveMethods agent [] l.methods with
  | (made, .ok true) => (made, .ok ())
  | (made, .ok false) => (made, .error (.authenticationRejected l.server))
  | (made, .error e) => (made, .error e)

/-- Checks the host key and logs in: the offers that are made, the result, and the files after
that. -/
def Login.enter (l : Login) (policy : HostKeyPolicy) (m : Machine) (d : Doorway) :
    List Offer × Except ConnectError Unit × Files :=
  match policy.verify m.env m.files l.host l.port d.hostKey with
  | (.error e, files) => ([], .error e, files)
  | (.ok false, files) => ([], .error (.hostKeyRejected l.server), files)
  | (.ok true, files) =>
    let (made, result) := l.authenticate m.agent d
    (made, result, files)

end Flotilla
