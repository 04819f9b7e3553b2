import Flotilla.Json.Magnitude
import Flotilla.Json.Parse
import Flotilla.Text.Decimal

/-!
# Typed reading

A decoder takes a JSON value to a value of another type.  It walks the value in the order of the
text, so the fault that it reports is the first one.
-/

namespace Flotilla.Json

/-- A decoder of values of type `α`. -/
abbrev Decoder (α : Type) := Json → Except Fault α

/-- Fails with the fault of a broken value, and with a type fault on any other.  Numbers have to be
in range even where none is asked for. -/
def mismatch {α : Type} : Decoder α
  | .broken f => .error f
  | .loneSurrogate => .error .grammar
  | .number literal => .error (if isTooLarge literal then .grammar else .type)
  | _ => .error .type

/-- Decodes a string. -/
def decodeString : Decoder String
  | .string s => .ok s
  | j => mismatch j

/-- Decodes a string of one character. -/
def decodeChar : Decoder Char := fun j => do
  match (← decodeString j).toList with
  | [c] => return c
  | _ => throw .type

/-- Decodes a truth value. -/
def decodeBool : Decoder Bool
  | .bool b => .ok b
  | j => mismatch j

/-- Decodes a number below `bound` that is written with digits only. -/
def decodeBelow (bound : Nat) : Decoder Nat
  | .number literal =>
    match (Text.readNat? literal.toList).filter (· < bound) with
    | some n => .ok n
    | none => mismatch (.number literal)
  | j => mismatch j

/-- Decodes a port number. -/
def decodePort : Decoder UInt16 := fun j => (decodeBelow (Nat.pow 2 16) j).map UInt16.ofNat

/-- Decodes null as nothing. -/
def decodeOption {α : Type} (d : Decoder α) : Decoder (Option α)
  | .null => .ok none
  | j => (d j).map some

/-- Decodes each item of an array. -/
def decodeList {α : Type} (d : Decoder α) : Decoder (List α)
  | .array items => items.mapM d
  | .brokenArray items f => do
    let _ ← items.mapM d
    throw f
  | j => mismatch j

/-- Decodes a name from a list of names with their meanings.  A name may also be the key of an
object whose only entry is null. -/
def decodeName {α : Type} (names : List (String × α)) : Decoder α
  | .string s => match names.lookup s with
    | some a => .ok a
    | none => .error .type
  | .object ((s, j) :: others) => match names.lookup s, j with
    | some a, .null => if others.isEmpty then .ok a else .error .grammar
    | some _, j => mismatch j
    | none, _ => .error .type
  | .brokenObject [] f => .error f
  | .brokenObject ((s, j) :: _) f => match names.lookup s, j with
    | some _, .null => .error f
    | some _, j => mismatch j
    | none, _ => .error .type
  | .broken f => .error f
  | _ => .error .grammar

/-- Decodes an object entry by entry.  Of entries with one key the last one counts. -/
def decodeEntries {α : Type} (d : Decoder α) : Decoder (List (String × α))
  | .object entries => entries.mapM fun (k, j) => (d j).map (k, ·)
  | .brokenObject entries f => do
    for (_, j) in entries do
      let _ ← d j
    throw f
  | j => mismatch j

/-- A field of a record: how its value is taken up, and whether a text must have it. -/
structure RecordField (σ : Type) where
  name : String
  required : Bool := false
  take : Json → σ → Except Fault σ

/-- A field with a decoder and an update. -/
def field {σ α : Type} (name : String) (d : Decoder α) (set : α → σ → σ) : RecordField σ where
  name := name
  take j s := (d j).map (set · s)

/-- The same field, if a text must have it. -/
def RecordField.mandatory {σ : Type} (f : RecordField σ) : RecordField σ :=
  { f with required := true }

/-- Takes up the entries of a record in order.  A field may occur once, and an entry of another
name is skipped. -/
def takeEntries {σ : Type} (fields : List (RecordField σ)) (seen : List String) (s : σ) :
    List (String × Json) → Except Fault (List String × σ)
  | [] => .ok (seen, s)
  | (key, j) :: r =>
    match fields.find? (·.name = key) with
    | some f =>
      if key ∈ seen then .error .type
      else do takeEntries fields (key :: seen) (← f.take j s) r
    | none => match fault? j with
      | some f => .error f
      | none => takeEntries fields seen s r

/-- Takes up the items of a record that is written as an array, in the order of the fields. -/
def takeItems {σ : Type} (s : σ) :
    List (RecordField σ) → List Json → Except Fault (List (RecordField σ) × σ)
  | fields, [] => .ok (fields, s)
  | [], _ :: _ => .error .grammar
  | f :: fields, j :: r => do takeItems (← f.take j s) fields r

/-- Decodes a record, which starts as `s`. -/
def decodeRecord {σ : Type} (fields : List (RecordField σ)) (s : σ) : Decoder σ
  | .object entries => do
    let (seen, s) ← takeEntries fields [] s entries
    if fields.any fun f => f.required && f.name ∉ seen then throw .type
    return s
  | .brokenObject entries f => do
    let _ ← takeEntries fields [] s entries
    throw f
  | .array items => do
    let (missing, s) ← takeItems s fields items
    if missing.any (·.required) then throw .type
    return s
  | .brokenArray items f => do
    let (missing, _) ← takeItems s fields items
    throw (if missing.isEmpty then .grammar else f)
  | j => mismatch j

/-- Decodes a whole text. -/
def Document.decode {α : Type} (d : Decoder α) (doc : Document) : Except Fault α := do
  let a ← d doc.value
  match doc.trailing with
  | some f => throw f
  | none => return a

end Flotilla.Json
