import Flotilla.Credential.Basic

/-!
# Secrets that cannot be read

An entry asks for a credential with the secret that it configures for it.
`credentials_keepsSecrets` says what becomes of an entry with secrets that cannot be read: what does
not need them is there, but what needs one is tried without a secret, and a PIN is reported only if
there is a provider for it.
-/

namespace Flotilla

/-! ### Fields with secrets -/

namespace Secret

/-- A field is unset, or configures a secret that can be read. -/
inductive Holds : Option String → Option Secret → Prop where
  | unset : Holds none none
  | set {stored : String} {secret : Secret} (read : parse stored = .ok secret) :
      Holds (some stored) (some secret)

/-- A field configures a secret that cannot be read. -/
def Fails (field : Option String) (f : Fault) : Prop :=
  ∃ stored ∈ field, parse stored = .error f

def IsBroken (field : Option String) : Prop := ∃ f, Fails field f

/-- The secret of a field.  There is none if it cannot be read. -/
def read? (field : Option String) : Option Secret :=
  field.bind fun stored => (parse stored).toOption

theorem holds_or_fails (field : Option String) : Holds field (read? field) ∨ IsBroken field := by
  cases field with
  | none => exact .inl .unset
  | some stored =>
    cases read : parse stored with
    | ok secret =>
      have same : read? (some stored) = some secret := by simp [read?, read, Except.toOption]
      exact .inl (same ▸ .set read)
    | error f => exact .inr ⟨f, stored, rfl, read⟩

theorem Holds.eq_read? {field : Option String} {secret : Option Secret}
    (holds : Holds field secret) : secret = read? field := by
  cases holds with
  | unset => rfl
  | set read => simp [read?, read, Except.toOption]

theorem Holds.not_isBroken {field : Option String} {secret : Option Secret}
    (holds : Holds field secret) : ¬ IsBroken field := by
  rintro ⟨f, stored, rfl, failed⟩
  cases holds with
  | set read =>
    rw [read] at failed
    cases failed

theorem IsBroken.read?_eq {field : Option String} (broken : IsBroken field) :
    read? field = none := by
  obtain ⟨f, stored, rfl, failed⟩ := broken
  simp [read?, failed, Except.toOption]

theorem holds_some_iff {field : Option String} {secret : Secret} :
    Holds field (some secret) ↔ read? field = some secret := by
  constructor
  · exact fun holds => holds.eq_read?.symm
  · intro found
    rcases holds_or_fails field with holds | broken
    · exact found ▸ holds
    · rw [broken.read?_eq] at found
      cases found

end Secret

namespace Server

open Secret (Holds Fails IsBroken read?)

theorem secret_fst (name : String) (kind : Credential.Kind) (field : Option String) :
    (secret name kind field).1 = read? field := by
  cases field with
  | none => rfl
  | some stored => cases read : Secret.parse stored <;> simp [secret, read?, read, Except.toOption]

theorem mem_secret_snd {name : String} {kind : Credential.Kind} {field : Option String}
    {e : ConnectError} : e ∈ (secret name kind field).2 ↔
      ∃ f, Fails field f ∧ .credential name kind f.message = e := by
  cases field with
  | none => simp [secret, Fails]
  | some stored =>
    cases read : Secret.parse stored <;> simp [secret, Fails, read, eq_comm]

variable (s : Server) (env : Environment) (name : String)

/-- The fields of an entry that hold secrets, and the kinds under which they are reported. -/
def secrets : List (Credential.Kind × Option String) :=
  [(.password, s.password), (.keyFile, s.keyPassphrase), (.pkcs11, s.pkcs11Pin)]

/-- The field with the secret that credentials of a kind go with. -/
def secretFor : Credential.Kind → Option String
  | .password => s.password
  | .keyFile | .keyCommand | .certificate => s.keyPassphrase
  | .pkcs11 => s.pkcs11Pin
  | .agent => none

/-- An entry asks for a credential that goes with the secret of a field, or without one where the
field is unset. -/
inductive Asks : (Option Secret → Credential) → Option String → Prop where
  | keyFile {key : String} (set : s.key = some key) :
      Asks (.keyFile (env.expandPath key)) s.keyPassphrase
  | keyCommand {command : String} (set : s.keyCommand = some command) :
      Asks (.keyCommand command) s.keyPassphrase
  | certificate {cert key : String} (set : s.cert = some cert)
      (own : (s.certKey <|> s.key) = some key) :
      Asks (.certificate (env.expandPath cert) (env.expandPath key)) s.keyPassphrase
  | pkcs11 {provider : String} (set : s.pkcs11Provider = some provider) :
      Asks (fun pin => .pkcs11 provider (pin.getD ⟨"", ""⟩)) s.pkcs11Pin

/-- An entry configures a credential, with the very secret that it has for it. -/
inductive Configures : Credential → Prop where
  | password {secret : Secret} (holds : Holds s.password (some secret)) :
      Configures (.password secret)
  | asked {make : Option Secret → Credential} {field : Option String} {secret : Option Secret}
      (asks : s.Asks env make field) (holds : Holds field secret) : Configures (make secret)
  | agent (uses : s.usesAgent env) : Configures .agent

/-- A credential whose secret cannot be read, and which goes without it. -/
inductive IsBare : Credential → Prop where
  | mk {make : Option Secret → Credential} {field : Option String}
      (asks : s.Asks env make field) (broken : IsBroken field) : IsBare (make none)

/-- Every secret that cannot be read is reported, and the credentials are those that the entry
configures with their secrets. -/
structure KeepsSecrets : Prop where
  reported : ∀ kind field f, (kind, field) ∈ s.secrets → Fails field f →
    .credential name kind f.message ∈ (s.credentials env name).failures
  configured : ∀ c ∈ (s.credentials env name).usable, s.Configures env c
  complete : ∀ c, s.Configures env c → c ∈ (s.credentials env name).usable

/-! ### What becomes of them -/

theorem mem_certificate {passphrase : Option Secret} {c : Credential} :
    c ∈ (s.certificate env name passphrase).1 ↔ ∃ cert key, s.cert = some cert ∧
      (s.certKey <|> s.key) = some key ∧
      .certificate (env.expandPath cert) (env.expandPath key) passphrase = c := by
  unfold Server.certificate
  split
  next none_ => simp [none_]
  next cert key set own => simp [set, own, eq_comm]
  next cert set own => simp [own]

theorem mem_providerKeys {c : Credential} : c ∈ (s.providerKeys name).1 ↔
    ∃ provider, s.pkcs11Provider = some provider ∧
      .pkcs11 provider ((read? s.pkcs11Pin).getD ⟨"", ""⟩) = c := by
  unfold Server.providerKeys
  split
  next none_ => simp [none_]
  next provider set => simp [set, secret_fst, eq_comm]

theorem exists_asks_iff {c : Credential} :
    (∃ make field, s.Asks env make field ∧ make (read? field) = c) ↔
      (∃ key, s.key = some key ∧ .keyFile (env.expandPath key) (read? s.keyPassphrase) = c) ∨
      (∃ command, s.keyCommand = some command ∧ .keyCommand command (read? s.keyPassphrase) = c) ∨
      c ∈ (s.certificate env name (read? s.keyPassphrase)).1 ∨ c ∈ (s.providerKeys name).1 := by
  rw [mem_certificate, mem_providerKeys]
  constructor
  · rintro ⟨make, field, asks, rfl⟩
    cases asks with
    | keyFile set => exact .inl ⟨_, set, rfl⟩
    | keyCommand set => exact .inr (.inl ⟨_, set, rfl⟩)
    | certificate set own => exact .inr (.inr (.inl ⟨_, _, set, own, rfl⟩))
    | pkcs11 set => exact .inr (.inr (.inr ⟨_, set, rfl⟩))
  · rintro (⟨key, set, rfl⟩ | ⟨command, set, rfl⟩ | ⟨cert, key, set, own, rfl⟩ |
      ⟨provider, set, rfl⟩)
    · exact ⟨_, _, .keyFile set, rfl⟩
    · exact ⟨_, _, .keyCommand set, rfl⟩
    · exact ⟨_, _, .certificate set own, rfl⟩
    · exact ⟨_, _, .pkcs11 set, rfl⟩

theorem mem_usable_iff {c : Credential} : c ∈ (s.credentials env name).usable ↔
    (∃ secret, Holds s.password (some secret) ∧ .password secret = c) ∨
      (∃ make field, s.Asks env make field ∧ make (read? field) = c) ∨
      (s.usesAgent env ∧ .agent = c) := by
  have agent : c ∈ (if s.usesAgent env then [Credential.agent] else []) ↔
      s.usesAgent env ∧ .agent = c := by
    split
    next uses => simp [uses, eq_comm]
    next unused => simp [unused]
  rw [s.exists_asks_iff env name, ← agent]
  simp only [credentials, List.mem_append, List.mem_map, Option.mem_toList, secret_fst,
    Secret.holds_some_iff, or_assoc]

theorem mem_failures_iff {e : ConnectError} : e ∈ (s.credentials env name).failures ↔
    (∃ f, Fails s.password f ∧ .credential name .password f.message = e) ∨
      (∃ f, Fails s.keyPassphrase f ∧ .credential name .keyFile f.message = e) ∨
      (s.cert.isSome ∧ (s.certKey <|> s.key) = none ∧
        .credential name .certificate "certificate configured without a private key" = e) ∨
      (s.pkcs11Provider.isSome ∧
        ∃ f, Fails s.pkcs11Pin f ∧ .credential name .pkcs11 f.message = e) := by
  have certificate (passphrase : Option Secret) :
      e ∈ (s.certificate env name passphrase).2 ↔ s.cert.isSome ∧ (s.certKey <|> s.key) = none ∧
        .credential name .certificate "certificate configured without a private key" = e := by
    unfold Server.certificate
    split
    next none_ => simp [none_]
    next set own => simp [own]
    next set own => simp [set, own, eq_comm]
  have pin : e ∈ (s.providerKeys name).2 ↔ s.pkcs11Provider.isSome ∧
      ∃ f, Fails s.pkcs11Pin f ∧ .credential name .pkcs11 f.message = e := by
    unfold Server.providerKeys
    split
    next none_ => simp [none_]
    next set => simp [set, mem_secret_snd]
  simp only [credentials, List.mem_append, mem_secret_snd, certificate, pin, or_assoc]

/-- What an entry has is what it configures, and what goes bare. -/
theorem mem_usable_iff_configures {c : Credential} :
    c ∈ (s.credentials env name).usable ↔ s.Configures env c ∨ s.IsBare env c := by
  rw [mem_usable_iff]
  constructor
  · rintro (⟨secret, holds, rfl⟩ | ⟨make, field, asks, rfl⟩ | ⟨uses, rfl⟩)
    · exact .inl (.password holds)
    · rcases Secret.holds_or_fails field with holds | broken
      · exact .inl (.asked asks holds)
      · rw [broken.read?_eq]
        exact .inr (.mk asks broken)
    · exact .inl (.agent uses)
  · rintro (configures | bare)
    · cases configures with
      | password holds => exact .inl ⟨_, holds, rfl⟩
      | asked asks holds => exact .inr (.inl ⟨_, _, asks, by rw [holds.eq_read?]⟩)
      | agent uses => exact .inr (.inr ⟨uses, rfl⟩)
    · obtain ⟨asks, broken⟩ := bare
      exact .inr (.inl ⟨_, _, asks, by rw [broken.read?_eq]⟩)

/-- A secret that cannot be read is reported, unless it is a PIN without a provider. -/
theorem reported_iff {kind : Credential.Kind} {field : Option String} {f : Secret.Fault}
    (member : (kind, field) ∈ s.secrets) (failed : Fails field f) :
    .credential name kind f.message ∈ (s.credentials env name).failures ↔
      (kind = .pkcs11 → s.pkcs11Provider.isSome) := by
  simp only [secrets, List.mem_cons, List.not_mem_nil, or_false, Prod.mk.injEq] at member
  rw [mem_failures_iff]
  rcases member with ⟨rfl, rfl⟩ | ⟨rfl, rfl⟩ | ⟨rfl, rfl⟩
  · exact iff_of_true (.inl ⟨f, failed, rfl⟩) nofun
  · exact iff_of_true (.inr (.inl ⟨f, failed, rfl⟩)) nofun
  · simp only [ConnectError.credential.injEq, reduceCtorEq, and_false, false_and, exists_false,
      false_or, true_and, forall_const]
    exact ⟨fun ⟨set, _⟩ => set, fun set => ⟨set, f, failed, rfl⟩⟩

variable {s env} in
theorem Asks.secretFor_kind {make : Option Secret → Credential} {field : Option String}
    (asks : s.Asks env make field) (secret : Option Secret) :
    s.secretFor (make secret).kind = field := by
  cases asks <;> rfl

variable {s env} in
theorem Configures.not_isBroken {c : Credential} (configures : s.Configures env c) :
    ¬ IsBroken (s.secretFor c.kind) := by
  cases configures with
  | password holds => exact holds.not_isBroken
  | asked asks holds =>
    rw [asks.secretFor_kind]
    exact holds.not_isBroken
  | agent =>
    rintro ⟨f, stored, set, -⟩
    cases set

theorem keepsSecrets_iff : s.KeepsSecrets env name ↔
    ¬ IsBroken s.pkcs11Pin ∧ ∀ make field, s.Asks env make field → ¬ IsBroken field := by
  constructor
  · intro keeps
    have asked : ∀ make field, s.Asks env make field → ¬ IsBroken field := by
      intro make field asks broken
      have bare := (s.mem_usable_iff_configures env name).mpr (.inr (.mk asks broken))
      have readable := (keeps.configured _ bare).not_isBroken
      rw [asks.secretFor_kind] at readable
      exact readable broken
    refine ⟨fun broken => ?_, asked⟩
    -- A PIN that is reported has a provider, which asks for it.
    obtain ⟨f, failed⟩ := broken
    have member : (.pkcs11, s.pkcs11Pin) ∈ s.secrets := by simp [secrets]
    have set := (s.reported_iff env name member failed).mp (keeps.reported _ _ _ member failed) rfl
    obtain ⟨provider, set⟩ := Option.isSome_iff_exists.mp set
    exact asked _ _ (.pkcs11 set) ⟨f, failed⟩
  · rintro ⟨pin, asked⟩
    refine ⟨fun kind field f member failed => ?_, fun c usable => ?_, fun c configures => ?_⟩
    · refine (s.reported_iff env name member failed).mpr fun provided => ?_
      subst provided
      obtain rfl : field = s.pkcs11Pin := by simpa [secrets] using member
      exact absurd ⟨f, failed⟩ pin
    · rcases (s.mem_usable_iff_configures env name).mp usable with configures | ⟨asks, broken⟩
      · exact configures
      · exact absurd broken (asked _ _ asks)
    · exact (s.mem_usable_iff_configures env name).mpr (.inl configures)

/-- An entry has exactly the credentials that it configures with their secrets, and those that go
bare because their secret cannot be read.  What cannot be read is reported, unless it is a PIN
without a provider.  So the secrets are kept just if the PIN can be read, and every secret that a
credential is asked for with. -/
theorem credentials_keepsSecrets :
    (∀ c, c ∈ (s.credentials env name).usable ↔ s.Configures env c ∨ s.IsBare env c) ∧
      (∀ kind field f, (kind, field) ∈ s.secrets → Fails field f →
        (.credential name kind f.message ∈ (s.credentials env name).failures ↔
          (kind = .pkcs11 → s.pkcs11Provider.isSome))) ∧
      (s.KeepsSecrets env name ↔
        ¬ IsBroken s.pkcs11Pin ∧ ∀ make field, s.Asks env make field → ¬ IsBroken field) :=
  ⟨fun _ => s.mem_usable_iff_configures env name,
    fun _ _ _ member failed => s.reported_iff env name member failed, s.keepsSecrets_iff env name⟩

/-- An entry with a passphrase and a PIN that cannot be read. -/
def locked : Server where
  key := some "/keys/id"
  keyPassphrase := some "b64:!!!"
  pkcs11Provider := some "/usr/lib/p11.so"
  pkcs11Pin := some "b64:!!!"
  agent := some false

/-- The key file of `locked` is tried without a passphrase, and its provider with an empty PIN. -/
theorem not_keepsSecrets_locked :
    (locked.credentials {} "web1").usable =
        [.keyFile "/keys/id" none, .pkcs11 "/usr/lib/p11.so" ⟨"", ""⟩] ∧
      ¬ locked.KeepsSecrets {} "web1" := by
  refine ⟨by decide, fun keeps => ?_⟩
  have asked := ((keepsSecrets_iff ..).mp keeps).2 _ _ (.keyFile rfl)
  exact asked ⟨_, _, rfl, rfl⟩

end Server

end Flotilla
