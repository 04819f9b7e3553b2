import Flotilla.Cipher.Ed25519
import Flotilla.Machine
import Flotilla.Rehearsal.Posix.Interpreter

/-!
# A rehearsed machine

A machine whose programs are rehearsed, and whose key agent does as it is told.
-/

namespace Flotilla.Rehearsal

/-- The answer of an agent that holds the keys of these seeds. -/
def agentListing (seeds : List Nat) : Bytes :=
  let key (seed : Nat) : Bytes :=
    let secret := List.replicate 32 (UInt8.ofNat seed)
    Key.field (Key.field (utf8 "ssh-ed25519") ++ Key.field (Ed25519.publicKey secret)) ++
      Key.field (utf8 "")
  Agent.listing :: bigEndian 4 seeds.length ++ seeds.flatMap key

/-- The answer of an agent that refuses. -/
def agentRefusal : Bytes := [5]

/-- A listing that breaks off. -/
def agentGarbage : Bytes := [12, 0, 0, 0, 1, 255]

/-- Why there is no agent where the environment says. -/
def agentAbsence (env : Environment) (files : Files) : Agent.Absence :=
  match env.agentSocket with
  | none => .unset
  | some "" => .io .invalidArgument
  | some path =>
    match files.read path with
    | .ok _ | .error .isDirectory => .io .refused
    | .error .missing => .missing
    | .error f => .io f

/-- The bindings of a rehearsed process. -/
def bindings (env : Environment) : List (String × String) :=
  [("HOME", env.home), ("USER", env.user), ("USERNAME", env.userName),
    ("SSH_AUTH_SOCK", env.agentSocket)].filterMap fun (k, v) => v.map (k, ·)

/-- What comes of a program on a rehearsed machine. -/
def runProgram (env : Environment) (files : Files) (words : List String) :
    Except IoFault ProgramResult := do
  let process : Posix.Process := { bindings := bindings env, files }
  let (effects, exit) ← process.exec words
  let ending := match exit with
    | .status n => ProgramEnd.exit n
    | .killed n => .signal n
    | .hungry => .exit 0
  return { output := Posix.outputOf effects, ending }

/-- A machine with these files, on which an agent may run. -/
def machine (env : Environment) (files : Files) (agent : Option Agent) : Machine where
  env
  files
  run := runProgram env files
  agent := match agent with
    | some a => .ok a
    | none => .error (agentAbsence env files)

end Flotilla.Rehearsal
