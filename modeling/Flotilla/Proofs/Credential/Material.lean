import Flotilla.Credential.Fingerprint
import Flotilla.Proofs.Text.Utf8

/-!
# What is hashed of a credential

Each part of a credential is hashed behind its length, so the bytes tell the parts apart, whatever
stands in them (`framed_inj`).  Just credentials that are alike have one kind and the same material
(`Credential.material_eq_iff`), and one key, unless two hashes are the same by accident.
-/

namespace Flotilla

/-! ### Lengths -/

theorem bigEndian_succ (count n : Nat) :
    bigEndian (count + 1) n = UInt8.ofNat (n / 256 ^ count % 256) :: bigEndian count n := by
  simp [bigEndian, List.range_succ]

theorem length_bigEndian (count n : Nat) : (bigEndian count n).length = count := by
  simp [bigEndian]

/-- Numbers with the same big-endian bytes are the same, as far as there are bytes. -/
theorem mod_eq_of_bigEndian {count m n : Nat} (same : bigEndian count m = bigEndian count n) :
    m % 256 ^ count = n % 256 ^ count := by
  induction count with
  | zero => rw [Nat.pow_zero, Nat.mod_one, Nat.mod_one]
  | succ count ih =>
    rw [bigEndian_succ, bigEndian_succ] at same
    obtain ⟨first, rest⟩ := List.cons.inj same
    have digit : m / 256 ^ count % 256 = n / 256 ^ count % 256 := by
      have value := congrArg UInt8.toNat first
      rwa [UInt8.toNat_ofNat', UInt8.toNat_ofNat', Nat.mod_mod, Nat.mod_mod] at value
    rw [Nat.mod_pow_succ, Nat.mod_pow_succ, digit, ih rest]

/-- Whether the eight bytes before a text can hold its length, as they can for every text that fits
into a memory. -/
def IsFramable (part : String) : Prop := (utf8 part).length < 256 ^ 8

theorem lengthPrefix_inj {m n : Nat} (small : m < 256 ^ 8) (small' : n < 256 ^ 8)
    (same : lengthPrefix m = lengthPrefix n) : m = n := by
  have value := mod_eq_of_bigEndian same
  rwa [Nat.mod_eq_of_lt small, Nat.mod_eq_of_lt small'] at value

theorem framed_cons (part : String) (parts : List String) :
    framed (part :: parts) = lengthPrefix (utf8 part).length ++ (utf8 part ++ framed parts) := by
  rw [framed, List.flatMap_cons, List.append_assoc]
  rfl

/-- Parts are known by what is written of them, whatever they contain. -/
theorem framed_inj {parts parts' : List String} (framable : ∀ part ∈ parts, IsFramable part)
    (framable' : ∀ part ∈ parts', IsFramable part) :
    framed parts = framed parts' ↔ parts = parts' := by
  refine ⟨fun same => ?_, congrArg framed⟩
  have some_ (part : String) (parts : List String) : framed (part :: parts) ≠ framed [] := by
    intro none
    have length := congrArg List.length none
    rw [framed_cons, List.length_append, lengthPrefix, length_bigEndian] at length
    simp [framed] at length
  induction parts generalizing parts' with
  | nil =>
    cases parts' with
    | nil => rfl
    | cons part parts' => exact absurd same.symm (some_ part parts')
  | cons part parts ih =>
    cases parts' with
    | nil => exact absurd same (some_ part parts)
    | cons part' parts' =>
      obtain ⟨here, later⟩ := List.forall_mem_cons.mp framable
      obtain ⟨here', later'⟩ := List.forall_mem_cons.mp framable'
      rw [framed_cons, framed_cons] at same
      obtain ⟨lengths, same⟩ := List.append_inj same
        ((length_bigEndian 8 _).trans (length_bigEndian 8 _).symm)
      obtain ⟨bytes, rest⟩ := List.append_inj same (lengthPrefix_inj here here' lengths)
      rw [utf8_inj.mp bytes, ih later later' rest]

/-! ### Credentials -/

namespace Credential

/-- Credentials of one kind with the same material.  Secrets count by what they reveal, and an
absent passphrase as the empty one. -/
inductive Alike : Credential → Credential → Prop where
  | password {secret secret' : Secret} (same : secret.plain = secret'.plain) :
      Alike (.password secret) (.password secret')
  | keyFile (path : String) {passphrase passphrase' : Option Secret}
      (same : revealed passphrase = revealed passphrase') :
      Alike (.keyFile path passphrase) (.keyFile path passphrase')
  | keyCommand (command : String) {passphrase passphrase' : Option Secret}
      (same : revealed passphrase = revealed passphrase') :
      Alike (.keyCommand command passphrase) (.keyCommand command passphrase')
  | certificate (cert key : String) {passphrase passphrase' : Option Secret}
      (same : revealed passphrase = revealed passphrase') :
      Alike (.certificate cert key passphrase) (.certificate cert key passphrase')
  | pkcs11 (provider : String) {pin pin' : Secret} (same : pin.plain = pin'.plain) :
      Alike (.pkcs11 provider pin) (.pkcs11 provider pin')
  | agent : Alike .agent .agent

theorem alike_iff {env : Environment} {c d : Credential} :
    c.Alike d ↔ c.kind = d.kind ∧ c.parts env = d.parts env := by
  constructor
  · intro alike
    cases alike <;> simp_all [kind, parts]
  · rintro ⟨kinds, same⟩
    cases c <;> cases d <;> cases kinds <;>
      simp only [parts, List.cons.injEq, and_true] at same
    case password.password.refl => exact .password same
    case keyFile.keyFile.refl =>
      obtain ⟨rfl, same⟩ := same
      exact .keyFile _ same
    case keyCommand.keyCommand.refl =>
      obtain ⟨rfl, same⟩ := same
      exact .keyCommand _ same
    case certificate.certificate.refl =>
      obtain ⟨rfl, rfl, same⟩ := same
      exact .certificate _ _ same
    case pkcs11.pkcs11.refl =>
      obtain ⟨rfl, same⟩ := same
      exact .pkcs11 _ same
    case agent.agent.refl => exact .agent

/-- Whether no part of a credential is too long for its length. -/
def HasFramableParts (env : Environment) (c : Credential) : Prop :=
  ∀ part ∈ c.parts env, IsFramable part

/-- Just credentials that are alike have the same kind and hash the same bytes. -/
theorem material_eq_iff {env : Environment} {c d : Credential} (framable : c.HasFramableParts env)
    (framable' : d.HasFramableParts env) :
    c.kind = d.kind ∧ c.material env = d.material env ↔ c.Alike d := by
  rw [material, material, framed_inj framable framable', alike_iff]

/-- Whether different material of two credentials has one hash. -/
def Collide (env : Environment) (c d : Credential) : Prop :=
  c.material env ≠ d.material env ∧ c.fingerprint env = d.fingerprint env

theorem alike_of_key {env : Environment} {c d : Credential} (framable : c.HasFramableParts env)
    (framable' : d.HasFramableParts env) (apart : ¬ Collide env c d)
    (same : c.key env = d.key env) : c.Alike d := by
  obtain ⟨kind, fingerprint⟩ := Key.mk.inj same
  refine (material_eq_iff framable framable').mp ⟨kind, ?_⟩
  by_contra differ
  exact apart ⟨differ, fingerprint⟩

end Credential

end Flotilla
