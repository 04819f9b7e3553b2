import Flotilla.Credential.Fingerprint
import Flotilla.Proofs.Secret

/-!
# Sealed entries log in as before

`Server.sealSecrets` changes how secrets are kept and not what they reveal.  Credentials are known
by what their secrets reveal, so an entry has the same ones before and after it was sealed, even if
sealing stopped half-way (`sealSecrets_invisible`).
-/

namespace Flotilla.Server

/-- What a field reveals, if it is set. -/
def reading (field : Option String) : Option (Except Secret.Fault String) :=
  field.map fun stored => (Secret.parse stored).map (·.plain)

/-- A field before and after it was sealed. -/
inductive IsSealed : Option String → Option String → Prop where
  | unset : IsSealed none none
  /-- The same value is revealed, and the form is the obfuscated one. -/
  | kept {stored plain encoded : String} (before : Secret.parse stored = .ok ⟨stored, plain⟩)
      (after : Secret.parse (Secret.mark ++ encoded) = .ok ⟨Secret.mark ++ encoded, plain⟩) :
      IsSealed (some stored) (some (Secret.mark ++ encoded))

variable {name : String} {kind : Credential.Kind} {field field' : Option String}

theorem isSealed_of_sealed? (done : sealed? name kind field = .ok field') :
    IsSealed field field' := by
  cases field with
  | none =>
    cases done
    exact .unset
  | some stored =>
    unfold sealed? at done
    dsimp only at done
    split at done
    next secret read =>
      cases done
      obtain ⟨encoded, form⟩ := secret.exists_toStored
      have again := Secret.parse_toStored read
      have same := Secret.stored_of_parse read
      rw [form] at again ⊢
      refine .kept ?_ again
      rw [read, ← same]
    next => cases done

theorem IsSealed.reading_eq (done : IsSealed field field') : reading field' = reading field := by
  cases done with
  | unset => rfl
  | kept before after => simp [reading, before, after, Except.map]

/-- What is sealed stays as it is. -/
theorem IsSealed.sealed?_eq (done : IsSealed field field') (name : String)
    (kind : Credential.Kind) : sealed? name kind field' = .ok field' := by
  cases done with
  | unset => rfl
  | kept before after => simp [sealed?, after, Secret.toStored_of_marked]

/-- Two entries that differ in the forms of their secrets alone. -/
structure RevealsAlike (s t : Server) : Prop where
  others : t = { s with
    password := t.password, keyPassphrase := t.keyPassphrase, pkcs11Pin := t.pkcs11Pin }
  password : reading t.password = reading s.password
  keyPassphrase : reading t.keyPassphrase = reading s.keyPassphrase
  pkcs11Pin : reading t.pkcs11Pin = reading s.pkcs11Pin

theorem RevealsAlike.refl (s : Server) : RevealsAlike s s := ⟨rfl, rfl, rfl, rfl⟩

theorem sealSecrets_cases (s : Server) (name : String) :
    (∃ e, (s.sealSecrets name).2 = some e ∧ RevealsAlike s (s.sealSecrets name).1) ∨
      (s.sealSecrets name).2 = none ∧ ∃ password keyPassphrase pkcs11Pin,
        (s.sealSecrets name).1 = { s with password, keyPassphrase, pkcs11Pin } ∧
        IsSealed s.password password ∧ IsSealed s.keyPassphrase keyPassphrase ∧
        IsSealed s.pkcs11Pin pkcs11Pin := by
  unfold sealSecrets
  cases first : sealed? name .password s.password with
  | error e => exact .inl ⟨e, rfl, .refl s⟩
  | ok password =>
    have done := isSealed_of_sealed? first
    dsimp only
    cases second : sealed? name .keyFile s.keyPassphrase with
    | error e => exact .inl ⟨e, rfl, rfl, done.reading_eq, rfl, rfl⟩
    | ok keyPassphrase =>
      have done' := isSealed_of_sealed? second
      dsimp only
      cases third : sealed? name .pkcs11 s.pkcs11Pin with
      | error e => exact .inl ⟨e, rfl, rfl, done.reading_eq, done'.reading_eq, rfl⟩
      | ok pkcs11Pin =>
        exact .inr ⟨rfl, password, keyPassphrase, pkcs11Pin, rfl, done, done',
          isSealed_of_sealed? third⟩

theorem sealSecrets_revealsAlike (s : Server) (name : String) :
    RevealsAlike s (s.sealSecrets name).1 := by
  obtain ⟨_, -, alike⟩ | ⟨-, password, passphrase, pin, after, done, done', done''⟩ :=
    sealSecrets_cases s name
  · exact alike
  · rw [after]
    exact ⟨rfl, done.reading_eq, done'.reading_eq, done''.reading_eq⟩

/-! ### Credentials -/

/-- What a field counts as depends on what it reveals alone. -/
theorem secret_eq (name : String) (kind : Credential.Kind) (field : Option String) :
    (secret name kind field).1.map (·.plain) = (reading field).bind (·.toOption) ∧
      (secret name kind field).2 = match reading field with
        | some (.error f) => [.credential name kind f.message]
        | _ => [] := by
  cases field with
  | none => exact ⟨rfl, rfl⟩
  | some stored =>
    cases read : Secret.parse stored <;>
      simp [secret, reading, read, Except.map, Except.toOption]

/-- A field that reveals the same counts as the same secret, and has the same fault. -/
theorem secret_eq_of_reading (name : String) (kind : Credential.Kind)
    (same : reading field' = reading field) :
    (secret name kind field').1.map (·.plain) = (secret name kind field).1.map (·.plain) ∧
      (secret name kind field').2 = (secret name kind field).2 := by
  obtain ⟨plain, faults⟩ := secret_eq name kind field
  obtain ⟨plain', faults'⟩ := secret_eq name kind field'
  rw [plain', faults', plain, faults, same]
  exact ⟨rfl, rfl⟩

/-- A credential's key depends on its secrets only through what they reveal. -/
theorem key_eq (env : Environment) (c : Credential) :
    c.key env = ⟨c.kind, Sha256.digest (framed (c.parts env))⟩ := rfl

section

variable {s t : Server} (env : Environment) (name : String)

theorem RevealsAlike.certificate (alike : RevealsAlike s t) {p q : Option Secret}
    (same : q.map (·.plain) = p.map (·.plain)) :
    (t.certificate env name q).1.map (·.key env) = (s.certificate env name p).1.map (·.key env) ∧
      (t.certificate env name q).2 = (s.certificate env name p).2 := by
  rw [alike.others]
  unfold Server.certificate
  dsimp only
  split
  · exact ⟨rfl, rfl⟩
  · simp [key_eq, Credential.kind, Credential.parts, Credential.revealed, same]
  · exact ⟨rfl, rfl⟩

theorem RevealsAlike.providerKeys (alike : RevealsAlike s t) :
    (t.providerKeys name).1.map (·.key env) = (s.providerKeys name).1.map (·.key env) ∧
      (t.providerKeys name).2 = (s.providerKeys name).2 := by
  obtain ⟨pin, faults⟩ := secret_eq_of_reading name .pkcs11 alike.pkcs11Pin
  have provider : t.pkcs11Provider = s.pkcs11Provider := by rw [alike.others]
  have plain (pin : Option Secret) :
      (pin.getD ⟨"", ""⟩).plain = (pin.map (·.plain)).getD "" := by cases pin <;> rfl
  unfold Server.providerKeys
  rw [provider]
  split
  · exact ⟨rfl, rfl⟩
  · simp [key_eq, Credential.kind, Credential.parts, plain, pin, faults]

/-- Entries that reveal alike have credentials with the same keys, and the same faults. -/
theorem RevealsAlike.credentials (alike : RevealsAlike s t) :
    (t.credentials env name).usable.map (·.key env) =
        (s.credentials env name).usable.map (·.key env) ∧
      (t.credentials env name).failures = (s.credentials env name).failures := by
  obtain ⟨password, passwordFaults⟩ :=
    secret_eq_of_reading name .password alike.password
  obtain ⟨passphrase, passphraseFaults⟩ :=
    secret_eq_of_reading name .keyFile alike.keyPassphrase
  obtain ⟨certificate, certificateFaults⟩ := alike.certificate env name passphrase
  obtain ⟨providerKeys, pinFaults⟩ := alike.providerKeys env name
  have passwords (secret : Option Secret) :
      (secret.toList.map Credential.password).map (·.key env) =
        (secret.map (·.plain)).toList.map fun plain =>
          ⟨.password, Sha256.digest (framed [plain])⟩ := by
    cases secret <;> rfl
  have files (path : String) :
      (Credential.keyFile path (Server.secret name .keyFile t.keyPassphrase).1).key env =
        (Credential.keyFile path (Server.secret name .keyFile s.keyPassphrase).1).key env := by
    simp only [key_eq, Credential.kind, Credential.parts, Credential.revealed, passphrase]
  have commands (command : String) :
      (Credential.keyCommand command (Server.secret name .keyFile t.keyPassphrase).1).key env =
        (Credential.keyCommand command
          (Server.secret name .keyFile s.keyPassphrase).1).key env := by
    simp only [key_eq, Credential.kind, Credential.parts, Credential.revealed, passphrase]
  have key : t.key = s.key := by rw [alike.others]
  have command : t.keyCommand = s.keyCommand := by rw [alike.others]
  have agent : t.usesAgent env = s.usesAgent env := by
    rw [alike.others]
    rfl
  constructor
  · simp only [Server.credentials, List.map_append, passwords, password, certificate, providerKeys,
      key, command, agent, List.map_map, Function.comp_def, files, commands]
  · simp only [Server.credentials, passwordFaults, passphraseFaults, certificateFaults, pinFaults]

/-- However sealing ends, the entry has credentials with the same keys as before, and the same
faults, and its other fields are as they were.  If it comes to its end, every secret is in its
obfuscated form and reveals what it did, and there is nothing left to seal. -/
theorem sealSecrets_invisible (s : Server) (env : Environment) (name : String) :
    let after := (s.sealSecrets name).1
    (after.credentials env name).usable.map (·.key env) =
        (s.credentials env name).usable.map (·.key env) ∧
      (after.credentials env name).failures = (s.credentials env name).failures ∧
      after = { s with
        password := after.password
        keyPassphrase := after.keyPassphrase
        pkcs11Pin := after.pkcs11Pin } ∧
      ((s.sealSecrets name).2 = none →
        IsSealed s.password after.password ∧ IsSealed s.keyPassphrase after.keyPassphrase ∧
          IsSealed s.pkcs11Pin after.pkcs11Pin ∧ after.sealSecrets name = (after, none)) := by
  have alike := sealSecrets_revealsAlike s name
  obtain ⟨keys, faults⟩ := alike.credentials env name
  refine ⟨keys, faults, alike.others, fun done => ?_⟩
  obtain ⟨e, failed, -⟩ | ⟨-, password, passphrase, pin, after, first, second, third⟩ :=
    sealSecrets_cases s name
  · rw [failed] at done
    cases done
  · rw [after]
    refine ⟨first, second, third, ?_⟩
    simp [sealSecrets, first.sealed?_eq, second.sealed?_eq, third.sealed?_eq]

end

end Flotilla.Server
