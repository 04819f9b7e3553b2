import Flotilla.ConnectError
import Flotilla.Environment
import Flotilla.Files
import Flotilla.HostKey.KnownHosts
import Flotilla.Security

/-!
# Checking host keys

`HostKeyPolicy.verify` says whether a host may go on with the key that it presents.  A policy that
accepts new hosts writes down each key that it sees first, and from then on only that key will do.
-/

namespace Flotilla

/-- The user's list of known hosts. -/
def Environment.knownHosts (env : Environment) : String :=
  Environment.joinPath (Environment.joinPath env.homeDirectory ".ssh") "known_hosts"

namespace HostKeyPolicy

/-- What a list of known hosts holds.  A file that cannot be opened counts as empty. -/
def listed (files : Files) (path : String) : Except KnownHosts.Fault Bytes :=
  match files.read path with
  | .ok list => .ok list
  | .error .isDirectory => .error .notText
  | .error _ => .ok []

/-- Whether a file lists a host with its key. -/
def check (files : Files) (path host : String) (port : UInt16) (key : PublicKey) :
    Except KnownHosts.Fault Bool := do
  KnownHosts.check (← listed files path) host port key

/-- Adds the key of a host to a file. -/
def learn (files : Files) (path host : String) (port : UInt16) (key : PublicKey) :
    Except IoFault Files := do
  let files ← files.createDirectory (Files.parent path)
  let list := (files.read path).toOption.getD []
  files.append path ((KnownHosts.learn list host port key).drop list.length)

/-- Whether a host may go on with the key that it presents, and the files after that.  Every fault
of a list counts against the host. -/
def verify (policy : HostKeyPolicy) (env : Environment) (files : Files) (host : String)
    (port : UInt16) (key : PublicKey) : Except ConnectError Bool × Files :=
  let accepts (path : String) : Bool := (check files path host port key).toOption.getD false
  match policy with
  | .noCheck => (.ok true, files)
  | .knownHosts => (.ok (accepts env.knownHosts), files)
  | .knownHostsFile path => (.ok (accepts path), files)
  | .acceptNew =>
    match check files env.knownHosts host port key with
    | .ok true => (.ok true, files)
    | .error _ => (.ok false, files)
    | .ok false =>
      match learn files env.knownHosts host port key with
      | .ok files => (.ok true, files)
      | .error f => (.error (.key f.message), files)

end HostKeyPolicy

end Flotilla
