import Flotilla.IoFault
import Flotilla.Key.Public

/-!
# The key agent

A key agent holds keys for the user.  It can be asked which keys it holds, to load those of a
provider, and to sign with one of them.
-/

namespace Flotilla

/-- A key agent that can be reached. -/
structure Agent where
  /-- What it answers when it is asked for its keys. -/
  answer : Bytes
  /-- What it answers to that once it was asked to load the keys of a provider with a PIN, or why it
  cannot be asked to.  An agent that refuses to load them is asked for its keys all the same. -/
  answerBehind : (provider pin : String) → Except IoFault Bytes := fun _ _ => .ok answer
  /-- Whether it signs with a key. -/
  signs : PublicKey → Bool := fun _ => true

namespace Agent

/-- Why no agent can be reached. -/
inductive Absence where
  /-- The environment does not say where it listens. -/
  | unset
  /-- There is nothing where it should listen. -/
  | missing
  | io (fault : IoFault)
  deriving Repr, DecidableEq

/-- The text of an absence. -/
def Absence.message : Absence → String
  | .unset => "Environment variable `SSH_AUTH_SOCK` not found"
  | .missing => "Unable to connect to ssh-agent. The environment variable `SSH_AUTH_SOCK` was " ++
      "set, but it points to a nonexistent file or directory."
  | .io fault => fault.message

/-- Why there is no answer, or one that cannot be understood. -/
inductive Fault where
  | io (fault : IoFault)
  | encoding (fault : Key.Fault)
  | key (fault : Key.Fault)
  deriving Repr, DecidableEq

/-- The text of a fault. -/
def Fault.message : Fault → String
  | .io fault => fault.message
  | .encoding fault => "SshEncoding: " ++ fault.message
  | .key fault => "SshKey: " ++ fault.message

/-- The first byte of an answer that lists keys. -/
def listing : UInt8 := 12

/-- Takes the next key of a listing, with its comment. -/
def nextKey (s : Bytes) : Except Fault (PublicKey × Bytes) :=
  match (do let key ← Key.readField; discard Key.readText; return key : Key.Reader Bytes).run s with
  | .error f => .error (.encoding f)
  | .ok (key, rest) =>
    match PublicKey.ofBytes key with
    | .error f => .error (.key f)
    | .ok key => .ok (key, rest)

/-- Takes `n` keys of a listing. -/
def nextKeys (s : Bytes) : Nat → Except Fault (List PublicKey)
  | 0 => .ok []
  | n + 1 => do
    let (key, rest) ← nextKey s
    return key :: (← nextKeys rest n)

/-- The keys that an agent holds.  An answer of another kind counts as none. -/
def identities (a : Agent) : Except Fault (List PublicKey) :=
  match a.answer with
  | b :: s =>
    if b = listing then
      match Key.readNumber.run s with
      | .error f => .error (.encoding f)
      | .ok (n, rest) => nextKeys rest n
    else .ok []
  | [] => .ok []

/-- Asks an agent to load the keys of a provider with a PIN: the agent after that. -/
def load (a : Agent) (provider pin : String) : Except Fault Agent :=
  match a.answerBehind provider pin with
  | .error f => .error (.io f)
  | .ok answer => .ok { a with answer }

end Agent

end Flotilla
