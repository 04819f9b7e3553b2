import Flotilla.Key.Wire
import Flotilla.Text.Base64.Wrapped

/-!
# Public keys

A `PublicKey` is a byte sequence that encodes a key.  Its line form is the name of the algorithm
and the bytes in Base64.
-/

namespace Flotilla.Key

/-- Takes a whole number.  It has no more leading zeros than its sign needs. -/
def readInteger : Reader Bytes := do
  let s ← readField
  match s with
  | [0] => throw .format
  | 0 :: b :: _ => if b < 0x80 then throw .format else return s
  | _ => return s

/-- The names of the curves and the sizes of their numbers in bytes. -/
def curves : List (String × Nat) := [("nistp256", 32), ("nistp384", 48), ("nistp521", 66)]

/-- Takes a curve and a point on it, which may be compressed. -/
def readPoint (curve : String) : Reader Unit := do
  if (← readText) ≠ curve then throw .unknownAlgorithm
  let point ← readField
  let size := (curves.lookup curve).getD 0
  match point with
  | 4 :: r => if r.length ≠ 2 * size then throw .format
  | 2 :: r | 3 :: r => if r.length ≠ size then throw .format
  | _ => throw .format

/-- Whether a text may name an algorithm that is not known here. -/
def isPrivateName (name : String) : Bool :=
  match name.splitOn "@" with
  | [algorithm, domain] =>
    algorithm ≠ "" && domain ≠ "" && name.length ≤ 64 &&
      name.toList.all fun c => 33 ≤ c.toNat && c.toNat < 127 && c ≠ ','
  | _ => false

/-- Takes what follows the name of the algorithm. -/
def readMaterial (algorithm : String) : Reader Unit := do
  match algorithm with
  | "ssh-ed25519" => discard (readFixed 32)
  | "ecdsa-sha2-nistp256" => readPoint "nistp256"
  | "ecdsa-sha2-nistp384" => readPoint "nistp384"
  | "ecdsa-sha2-nistp521" => readPoint "nistp521"
  | "ssh-rsa" => discard readInteger; discard readInteger
  | "ssh-dss" => for _ in [1, 2, 3, 4] do discard readInteger
  | "sk-ssh-ed25519@openssh.com" => discard (readFixed 32); discard readText
  | "sk-ecdsa-sha2-nistp256@openssh.com" => readPoint "nistp256"; discard readText
  | name => if isPrivateName name then discard readField else throw (.label name)

/-- Takes a public key and gives the name of its algorithm. -/
def readPublic : Reader String := do
  let algorithm ← readText
  readMaterial algorithm
  return algorithm

end Flotilla.Key

namespace Flotilla

/-- A public key. -/
structure PublicKey where
  /-- The bytes that encode it. -/
  encoded : Bytes
  algorithm : String
  encodes : Key.readAll Key.readPublic encoded = .ok algorithm
  deriving DecidableEq

namespace PublicKey

/-- The key that bytes encode. -/
def ofBytes (s : Bytes) : Except Key.Fault PublicKey :=
  match h : Key.readAll Key.readPublic s with
  | .ok algorithm => .ok ⟨s, algorithm, h⟩
  | .error e => .error e

/-- Bytes that encode a key are read back as that key. -/
theorem ofBytes_encoded (k : PublicKey) : ofBytes k.encoded = .ok k := by
  unfold ofBytes
  split
  · rename_i algorithm h
    have same : algorithm = k.algorithm := Except.ok.inj (h.symm.trans k.encodes)
    subst same
    rfl
  · rename_i h
    exact nomatch h.symm.trans k.encodes

/-- A key in a line: its algorithm and its bytes. -/
def line (k : PublicKey) : Bytes := utf8 (k.algorithm ++ " " ++ Base64.encode k.encoded)

/-- The key in a line. -/
def ofLine? (s : String) : Option PublicKey :=
  match (s.splitOn " ").filter (· ≠ "") with
  | algorithm :: encoded :: _ =>
    match Base64.Wrapped.decode (utf8 encoded) with
    | .error _ => none
    | .ok bytes =>
      match ofBytes bytes with
      | .ok k => if k.algorithm = algorithm then some k else none
      | .error _ => none
  | _ => none

end PublicKey

end Flotilla
