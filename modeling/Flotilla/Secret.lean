import Flotilla.Text.Base64
import Flotilla.Text.Blank

/-!
# Secrets

A secret is configured as it is or obfuscated: as base64 behind a mark.  `Secret.parse` reads either
form, `Secret.obfuscate` writes the second, and `Secret.toStored` is the form to be kept at rest.
-/

namespace Flotilla

/-- A secret: how it is configured, and what it is. -/
structure Secret where
  stored : String
  plain : String
  deriving Repr, DecidableEq

namespace Secret

/-- The mark of an obfuscated secret. -/
def mark : String := "b64:"

/-- What follows the mark, if a text starts with it. -/
def unmarked? (stored : String) : Option String :=
  let s := stored.toList
  if mark.toList.isPrefixOf s then some (String.ofList (s.drop mark.toList.length)) else none

/-- Why an obfuscated secret cannot be read. -/
inductive Fault where
  | encoding (fault : Base64.Fault)
  | text (fault : Utf8.Fault)
  deriving Repr, DecidableEq

/-- The text of a fault. -/
def Fault.message : Fault → String
  | .encoding f => "invalid obfuscated value: " ++ f.message
  | .text f => "invalid obfuscated value: " ++ f.message

/-- The plain value of what follows the mark.  Blanks around it do not count. -/
def reveal (encoded : String) : Except Fault String := do
  let bytes ← (Base64.decode (String.ofList (Text.trim encoded.toList))).mapError .encoding
  (Utf8.decode bytes).mapError .text

/-- Reads a secret in either form. -/
def parse (stored : String) : Except Fault Secret :=
  match unmarked? stored with
  | some encoded => (reveal encoded).map fun plain => ⟨stored, plain⟩
  | none => .ok ⟨stored, stored⟩

/-- The obfuscated form of a plain value. -/
def obfuscate (plain : String) : String := mark ++ Base64.encode (utf8 plain)

/-- Whether a secret is configured in its obfuscated form. -/
def isObfuscated (s : Secret) : Bool := (unmarked? s.stored).isSome

/-- The form to be kept at rest: the configured one if it is obfuscated already. -/
def toStored (s : Secret) : String := if s.isObfuscated then s.stored else obfuscate s.plain

/-- What is shown in place of a secret. -/
def shown : String := "Secret(***)"

end Secret

end Flotilla
