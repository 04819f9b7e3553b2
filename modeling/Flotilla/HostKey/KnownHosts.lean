import Flotilla.Digest.Hmac
import Flotilla.Digest.Sha1
import Flotilla.Key.Public
import Flotilla.Text.Lines

/-!
# Lists of known hosts

A line of a list holds the names of a host, the algorithm of its key and the key.  A name may be
hidden behind a salted hash.  `KnownHosts.check` looks for the key of a host, and
`KnownHosts.learn` adds a line.
-/

namespace Flotilla.KnownHosts

/-- Why a list gives no answer. -/
inductive Fault where
  /-- A line is not text. -/
  | notText
  /-- The line of the host holds no key. -/
  | noKey (line : Nat)
  /-- The host is listed with another key of the same algorithm. -/
  | changed (line : Nat)
  deriving Repr, DecidableEq

/-- The name under which a host is listed. -/
def listedName (host : String) (port : UInt16) : Bytes :=
  if port = 22 then utf8 host else utf8 s!"[{host}]:{port.toNat}"

/-- The parts of a byte sequence between occurrences of a byte. -/
def parts (mark : UInt8) (s : Bytes) : List Bytes := s.splitOn mark

/-- The comma. -/
def comma : UInt8 := 44

/-- The space. -/
def space : UInt8 := 32

/-- The vertical bar. -/
def bar : UInt8 := 124

/-- The number sign, which starts a comment. -/
def numberSign : UInt8 := 35

/-- Whether an entry `|1|salt|hash` hides a name. -/
def hides (name entry : Bytes) : Bool :=
  match (parts bar entry).drop 2 with
  | salt :: hash :: _ =>
    match Base64.Wrapped.decode salt, Base64.Wrapped.decode hash with
    | .ok salt, .ok hash => hmac Sha1.digest 64 salt name = hash
    | _, _ => false
  | _ => false

/-- Whether one of the names at the front of a line is the name of a host. -/
def isNamed (name hosts : Bytes) : Bool :=
  (parts comma hosts).any fun entry =>
    if (utf8 "|1|").isPrefixOf entry then hides name entry else name = entry

/-- The key field of a line if the line is about a host. -/
def keyField? (name line : Bytes) : Option Bytes :=
  if line.head? = some numberSign then none
  else
    match parts space line with
    | hosts :: _ :: key :: _ => if isNamed name hosts then some key else none
    | _ => none

/-- The key in the field of line `n`. -/
def readKey (n : Nat) (s : Bytes) : Except Fault PublicKey :=
  match Base64.Wrapped.decode s with
  | .error _ => .error (.noKey n)
  | .ok bytes =>
    match PublicKey.ofBytes bytes with
    | .error _ => .error (.noKey n)
    | .ok key => .ok key

/-- The keys of a host, with their lines.  Lines are counted from `n`. -/
def keysFrom (name : Bytes) (n : Nat) : List Bytes → Except Fault (List (Nat × PublicKey))
  | [] => .ok []
  | line :: later =>
    match Utf8.decode line with
    | .error _ => .error .notText
    | .ok _ => do
      let here ← match keyField? name line with
        | some key => do pure [(n, ← readKey n key)]
        | none => pure []
      let rest ← keysFrom name (n + 1) later
      return here ++ rest

/-- The keys of a host. -/
def keys (list : Bytes) (host : String) (port : UInt16) : Except Fault (List (Nat × PublicKey)) :=
  keysFrom (listedName host port) 1 (Text.linesWithEnds 10 list)

/-- Whether a host is listed with a key.  Another key of the same algorithm is a fault, and keys of
other algorithms do not count. -/
def check (list : Bytes) (host : String) (port : UInt16) (key : PublicKey) : Except Fault Bool := do
  let listed ← keys list host port
  match listed.find? fun (_, k) => k.algorithm = key.algorithm ∧ k ≠ key with
  | some (n, _) => throw (.changed n)
  | none => return listed.any fun (_, k) => k = key

/-- The line for the key of a host. -/
def entry (host : String) (port : UInt16) (key : PublicKey) : Bytes :=
  listedName host port ++ [space] ++ key.line ++ [10]

/-- A list with a line added for the key of a host. -/
def learn (list : Bytes) (host : String) (port : UInt16) (key : PublicKey) : Bytes :=
  list ++ (if list.getLast? = some 10 then [] else [10]) ++ entry host port key

end Flotilla.KnownHosts
