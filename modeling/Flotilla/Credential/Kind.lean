/-!
# Kinds of credentials

The kinds of credentials in the order in which they are tried.
-/

namespace Flotilla.Credential

/-- A kind of credential.  The kinds stand in the order in which they are tried. -/
inductive Kind where
  | password
  | keyFile
  | keyCommand
  | certificate
  | pkcs11
  | agent
  deriving Repr, DecidableEq

/-- The place of a kind in the order in which they are tried. -/
def Kind.rank : Kind → Nat
  | .password => 0
  | .keyFile => 1
  | .keyCommand => 2
  | .certificate => 3
  | .pkcs11 => 4
  | .agent => 5

/-- The name of a kind in messages. -/
def Kind.label : Kind → String
  | .password => "password"
  | .keyFile => "key"
  | .keyCommand => "key_command"
  | .certificate => "cert"
  | .pkcs11 => "pkcs11"
  | .agent => "agent"

end Flotilla.Credential
