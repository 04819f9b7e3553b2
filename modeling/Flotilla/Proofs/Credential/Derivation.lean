import Flotilla.Credential.Method
import Flotilla.Proofs.Failure

/-!
# What credentials become

The keys of a provider are ready if the agent can be asked to load them and lists keys after that
(`Credential.loadProvider_eq_ok`).  Whatever a credential becomes is a method of its kind
(`Credential.derive_fits`).
-/

namespace Flotilla

/-- Whether a method may be made of a credential of a kind. -/
inductive Method.Fits : Method → Credential.Kind → Prop where
  | password (text : String) : Fits (.password text) .password
  | keyFile (key : PrivateKey) : Fits (.publicKey key) .keyFile
  | keyCommand (key : PrivateKey) : Fits (.publicKey key) .keyCommand
  | certificate (key : PrivateKey) (cert : Certificate) :
      Fits (.certificate key cert) .certificate
  | pkcs11 (keys : List PublicKey) : Fits (.providerKeys keys) .pkcs11
  | agent : Fits .agent .agent

namespace Credential

variable {m : Machine} {method : Method}

theorem reachAgent_eq_ok {a : Agent} : reachAgent m = .ok a ↔ m.agent = .ok a := mapError_eq_ok

/-- The keys of a provider are ready just if the agent can be asked to load them with the PIN and
lists keys after that. -/
theorem loadProvider_eq_ok {provider pin : String} :
    loadProvider m provider pin = .ok method ↔
      ∃ a, m.agent = .ok a ∧ ∃ loaded, a.load provider pin = .ok loaded ∧
        ∃ keys, loaded.identities = .ok keys ∧ keys ≠ [] ∧ .providerKeys keys = method := by
  simp only [loadProvider, bind_eq_ok, reachAgent_eq_ok, mapError_eq_ok, throw_or_eq_ok,
    pure_eq_ok, Except.ok.injEq, ne_eq]

/-- The agent is ready just if it can be reached and lists keys. -/
theorem probeAgent_eq_ok : probeAgent m = .ok method ↔
    ∃ a, m.agent = .ok a ∧ ∃ keys, a.identities = .ok keys ∧ keys ≠ [] ∧ .agent = method := by
  simp only [probeAgent, bind_eq_ok, reachAgent_eq_ok, mapError_eq_ok, throw_or_eq_ok,
    pure_eq_ok, Except.ok.injEq, ne_eq]

/-- What is made of a credential fits its kind. -/
theorem derive_fits {c : Credential} (made : c.derive m = .ok method) : method.Fits c.kind := by
  cases c with
  | password secret =>
    cases made
    exact .password _
  | keyFile path passphrase =>
    obtain ⟨key, -, made⟩ := bind_eq_ok.mp made
    cases made
    exact .keyFile key
  | keyCommand command passphrase =>
    obtain ⟨key, -, made⟩ := bind_eq_ok.mp made
    cases made
    exact .keyCommand key
  | certificate cert key passphrase =>
    obtain ⟨key, -, made⟩ := bind_eq_ok.mp made
    obtain ⟨cert, -, made⟩ := bind_eq_ok.mp made
    cases made
    exact .certificate key cert
  | pkcs11 provider pin =>
    obtain ⟨-, -, -, -, keys, -, -, rfl⟩ := loadProvider_eq_ok.mp made
    exact .pkcs11 keys
  | agent =>
    obtain ⟨-, -, -, -, -, rfl⟩ := probeAgent_eq_ok.mp made
    exact .agent

end Credential

end Flotilla
