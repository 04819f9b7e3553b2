import Flotilla.Digest.Words

/-!
# Fields of keys

Keys are encoded as fields one after the other, most of them behind their length in four bytes.
A `Reader` takes fields from the front of a byte sequence.
-/

namespace Flotilla.Key

/-- Why bytes do not encode what they should. -/
inductive Fault where
  /-- A field has the wrong length, or bytes are missing. -/
  | length
  /-- A length is beyond all measure. -/
  | overflow
  /-- A field that should be text is not. -/
  | characters
  /-- A name that is not allowed. -/
  | label (name : String)
  /-- Bytes are left over. -/
  | trailing (count : Nat)
  | format
  | unknownAlgorithm
  /-- Wrong secrets, or a check value that does not agree. -/
  | crypto
  /-- The two halves of a key pair do not belong together. -/
  | mismatch
  deriving Repr, DecidableEq

/-- The text of a fault. -/
def Fault.message : Fault → String
  | .length => "length invalid"
  | .overflow => "internal overflow error"
  | .characters => "character encoding invalid"
  | .label name => s!"invalid label: '{name}'"
  | .trailing count => s!"unexpected trailing data at end of message ({count} bytes)"
  | .format => "format encoding error"
  | .unknownAlgorithm => "unknown algorithm"
  | .crypto => "cryptographic error"
  | .mismatch => "public key is incorrect"

/-- Takes something from the front of a byte sequence. -/
abbrev Reader := StateT Bytes (Except Fault)

/-- Takes `n` bytes. -/
def readBytes (n : Nat) : Reader Bytes := do
  let s ← get
  if s.length < n then throw .length
  set (s.drop n)
  return s.take n

/-- Takes a number of four bytes. -/
def readNumber : Reader Nat := do return ofBigEndian (← readBytes 4)

/-- The largest length of a field. -/
def maximalLength : Nat := 0xfffff

/-- Takes the length of a field. -/
def readLength : Reader Nat := do
  let n ← readNumber
  if maximalLength < n then throw .overflow
  return n

/-- Takes a field behind its length. -/
def readField : Reader Bytes := do readBytes (← readLength)

/-- Takes a field of a given length. -/
def readFixed (n : Nat) : Reader Bytes := do
  if (← readLength) ≠ n then throw .length
  readBytes n

/-- Takes a field of text. -/
def readText : Reader String := do
  match Utf8.decode (← readField) with
  | .ok s => return s
  | .error _ => throw .characters

/-- Runs a reader on a whole byte sequence. -/
def readAll (r : Reader α) (s : Bytes) : Except Fault α := do
  let (a, rest) ← r.run s
  if rest = [] then return a else throw (.trailing rest.length)

/-- Takes a field and runs a reader on the whole of it. -/
def readNested (r : Reader α) : Reader α := do
  let s ← readField
  match readAll r s with
  | .ok a => return a
  | .error e => throw e

/-- A field behind its length. -/
def field (s : Bytes) : Bytes := bigEndian 4 s.length ++ s

end Flotilla.Key
