import Flotilla.Files
import Flotilla.Key.Public
import Flotilla.Text.Blank

/-!
# Certificates

A certificate says that an authority vouches for a public key.  `Certificate.ofText` reads the line
that holds one, and `Certificate.load` a file.
-/

namespace Flotilla

/-- A certificate for a public key. -/
structure Certificate where
  /-- The bytes that encode it. -/
  encoded : Bytes
  /-- The name that the authority gave the key. -/
  keyId : String
  deriving Repr, DecidableEq

namespace Certificate

/-- Why a text or a file gives no certificate. -/
inductive Fault where
  | io (fault : IoFault)
  /-- The Base64 text is not made of whole groups. -/
  | base64Length
  | base64
  | key (fault : Key.Fault)
  deriving Repr, DecidableEq

/-- What kind of fault the operating system reports. -/
def ioKind : IoFault → String
  | .missing => "entity not found"
  | .denied => "permission denied"
  | .taken => "entity already exists"
  | .notDirectory => "not a directory"
  | .isDirectory => "is a directory"
  | .notText => "invalid data"
  | .invalidArgument | .zeroByte => "invalid input parameter"
  | .unreachable => "network unreachable"
  | .notAvailable => "address not available"
  | .unresolved | .noHostName => "uncategorized error"
  | .refused => "connection refused"
  | .cutShort => "unexpected end of file"
  | .brokenPipe => "broken pipe"

/-- The text of a fault. -/
def Fault.message : Fault → String
  | .io fault => "I/O error: " ++ ioKind fault
  | .base64Length => "Base64 encoding error: invalid Base64 length"
  | .base64 => "Base64 encoding error: invalid Base64 encoding"
  | .key fault => fault.message

/-- The certificate algorithms and the algorithms of the keys in them. -/
def algorithms : List (String × String) :=
  [ ("ssh-ed25519-cert-v01@openssh.com", "ssh-ed25519"),
    ("ssh-rsa-cert-v01@openssh.com", "ssh-rsa"),
    ("ssh-dss-cert-v01@openssh.com", "ssh-dss"),
    ("ecdsa-sha2-nistp256-cert-v01@openssh.com", "ecdsa-sha2-nistp256"),
    ("ecdsa-sha2-nistp384-cert-v01@openssh.com", "ecdsa-sha2-nistp384"),
    ("ecdsa-sha2-nistp521-cert-v01@openssh.com", "ecdsa-sha2-nistp521"),
    ("sk-ssh-ed25519-cert-v01@openssh.com", "sk-ssh-ed25519@openssh.com"),
    ("sk-ecdsa-sha2-nistp256-cert-v01@openssh.com", "sk-ecdsa-sha2-nistp256@openssh.com") ]

/-- Takes texts, at most `n` of them, until nothing is left. -/
def readTexts : Nat → Key.Reader Unit
  | 0 => return
  | n + 1 => do
    if (← get) ≠ [] then
      discard Key.readText
      readTexts n

/-- Takes options, at most `n` of them, until nothing is left.  Their names are in order. -/
def readOptions (last : Option String) : Nat → Key.Reader Unit
  | 0 => return
  | n + 1 => do
    if (← get) ≠ [] then
      let name ← Key.readText
      if last.any fun last => ! (last < name) then throw .format
      discard (Key.readNested do if (← get) ≠ [] then discard Key.readText)
      readOptions (some name) n

/-- Takes a field and all that `r` takes of it, given a bound on the number of parts. -/
def readParts (r : Nat → Key.Reader Unit) : Key.Reader Unit := do
  let n := (← get).length
  Key.readNested (r n)

/-- Takes a signature. -/
def readSignature : Key.Reader Unit := do
  discard Key.readText
  discard Key.readField

/-- Takes a certificate: its algorithm and the name that the authority gave the key. -/
def readCertificate : Key.Reader (String × String) := do
  let algorithm ← Key.readText
  match algorithms.lookup algorithm with
  | none => throw (.label algorithm)
  | some inner =>
    discard Key.readField
    Key.readMaterial inner
    discard (Key.readBytes 8)
    let kind ← Key.readNumber
    if kind ≠ 1 ∧ kind ≠ 2 then throw .format
    let keyId ← Key.readText
    readParts readTexts
    discard (Key.readBytes 16)
    readParts (readOptions none)
    readParts (readOptions none)
    discard Key.readField
    discard (Key.readNested Key.readPublic)
    Key.readNested readSignature
    return (algorithm, keyId)

/-- Whether a character may be part of the first two words of a line. -/
def isWordChar (c : Char) : Bool := c.isAlphanum || c ∈ ['+', '-', '/', '=', '@', '.']

/-- The first word of a line, and what follows the space behind it. -/
def firstWord (s : List Char) : Except Key.Fault (List Char × List Char) :=
  match s.dropWhile isWordChar with
  | [] => .ok (s, [])
  | ' ' :: r => .ok (s.takeWhile isWordChar, r)
  | _ => .error .characters

/-- The bytes that strict Base64 text stands for. -/
def decodeWord (s : List Char) : Except Fault Bytes :=
  if s.length % 4 ≠ 0 then .error .base64Length
  else (Base64.decode (String.ofList s)).mapError fun _ => .base64

/-- The certificate in a line of text. -/
def ofText (text : String) : Except Fault Certificate := do
  let (algorithm, rest) ← (firstWord (Text.trimEnd text.toList)).mapError .key
  let (encoded, _) ← (firstWord rest).mapError .key
  if algorithm = [] ∨ encoded = [] then throw (.key .length)
  let bytes ← decodeWord encoded
  let (found, keyId) ← (Key.readAll readCertificate bytes).mapError .key
  if found.toList ≠ algorithm then throw (.key .unknownAlgorithm)
  return ⟨bytes, keyId⟩

/-- The certificate in a file. -/
def load (files : Files) (path : String) : Except Fault Certificate :=
  match files.readText path with
  | .error f => .error (.io f)
  | .ok text => ofText text

end Certificate

end Flotilla
