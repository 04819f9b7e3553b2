import Flotilla.Credential.Basic
import Flotilla.Digest.Sha256

/-!
# Fingerprints of credentials

A credential is identified by its kind and by a hash of its material.  `Credential.material` is
what is hashed: each part behind its length, so that different parts never run together.
-/

namespace Flotilla

/-- The big-endian bytes of a length. -/
def lengthPrefix (n : Nat) : Bytes := bigEndian 8 n

/-- Parts one after the other, each behind its length. -/
def framed (parts : List String) : Bytes :=
  parts.flatMap fun part => lengthPrefix (utf8 part).length ++ utf8 part

namespace Credential

/-- A passphrase.  An absent one counts as the empty one. -/
def revealed (passphrase : Option Secret) : String := (passphrase.map (·.plain)).getD ""

/-- The parts that make a credential what it is.  Secrets count by what they reveal. -/
def parts (env : Environment) : Credential → List String
  | .password secret => [secret.plain]
  | .keyFile path passphrase => [path, revealed passphrase]
  | .keyCommand command passphrase => [command, revealed passphrase]
  | .certificate cert key passphrase => [cert, key, revealed passphrase]
  | .pkcs11 provider pin => [provider, pin.plain]
  | .agent => [env.agentSocket.getD ""]

/-- What is hashed of a credential. -/
def material (env : Environment) (c : Credential) : Bytes := framed (c.parts env)

/-- The hash of a credential's material. -/
def fingerprint (env : Environment) (c : Credential) : Bytes := Sha256.digest (c.material env)

/-- What a credential is recognised by. -/
structure Key where
  kind : Kind
  fingerprint : Bytes
  deriving Repr, DecidableEq

/-- The key of a credential. -/
def key (env : Environment) (c : Credential) : Key := ⟨c.kind, c.fingerprint env⟩

end Credential

end Flotilla
