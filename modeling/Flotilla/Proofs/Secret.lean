import Flotilla.Proofs.Text.Base64
import Flotilla.Secret

/-!
# Secrets at rest

The obfuscated form of a value reveals that value, and of the marked texts just this form does, if
need be with blanks behind the mark and at its end.  The form in which a secret is kept at rest is
obfuscated and reveals what the configured form does (`parse_forms`).
-/

namespace Flotilla.Secret

theorem unmarked?_eq_some {stored encoded : String} :
    unmarked? stored = some encoded ↔ stored = mark ++ encoded := by
  unfold unmarked?
  dsimp only
  constructor
  · intro found
    split at found
    next marked =>
      obtain ⟨rest, whole⟩ := List.isPrefixOf_iff_prefix.mp marked
      obtain rfl := Option.some.inj found
      rw [← String.toList_inj, String.toList_append, String.toList_ofList, ← whole,
        List.drop_left]
    next => cases found
  · rintro rfl
    rw [String.toList_append, if_pos (by simp), List.drop_left, String.ofList_toList]

@[simp] theorem parse_obfuscate (plain : String) :
    parse (obfuscate plain) = .ok ⟨obfuscate plain, plain⟩ := by
  have found : unmarked? (obfuscate plain) = some (Base64.encode (utf8 plain)) :=
    unmarked?_eq_some.mpr rfl
  have revealed : reveal (Base64.encode (utf8 plain)) = .ok plain := by
    simp [reveal, Base64.trim_encode, Except.mapError]
  rw [parse, found]
  dsimp only
  rw [revealed]
  rfl

theorem stored_of_parse {stored : String} {secret : Secret} (read : parse stored = .ok secret) :
    secret.stored = stored := by
  unfold parse at read
  split at read
  next encoded _ =>
    cases revealed : reveal encoded with
    | error f => simp [revealed, Except.map] at read
    | ok plain =>
      rw [revealed] at read
      cases read
      rfl
  next =>
    cases read
    rfl

/-- The form at rest reveals the same. -/
theorem parse_toStored {stored : String} {secret : Secret} (read : parse stored = .ok secret) :
    parse secret.toStored = .ok ⟨secret.toStored, secret.plain⟩ := by
  have same := stored_of_parse read
  unfold toStored
  split
  next =>
    rw [same, read, ← same]
  next => exact parse_obfuscate secret.plain

theorem exists_toStored (secret : Secret) : ∃ encoded, secret.toStored = mark ++ encoded := by
  unfold toStored
  split
  next obfuscated =>
    obtain ⟨encoded, found⟩ := Option.isSome_iff_exists.mp obfuscated
    exact ⟨encoded, unmarked?_eq_some.mp found⟩
  next => exact ⟨_, rfl⟩

/-- The form at rest stays as it is. -/
theorem toStored_of_marked {encoded plain : String} :
    (⟨mark ++ encoded, plain⟩ : Secret).toStored = mark ++ encoded := by
  have obfuscated : (⟨mark ++ encoded, plain⟩ : Secret).isObfuscated := by
    rw [isObfuscated, unmarked?_eq_some.mpr rfl]
    rfl
  rw [toStored, if_pos obfuscated]

/-! ### Marked texts -/

/-- A value is revealed by what is written of its bytes, with or without blanks around it. -/
theorem reveal_eq_ok_iff {encoded plain : String} :
    reveal encoded = .ok plain ↔
      String.ofList (Text.trim encoded.toList) = Base64.encode (utf8 plain) := by
  unfold reveal
  rw [bind_eq_ok]
  simp only [mapError_eq_ok, Base64.decode_eq_ok_iff, Utf8.decode_eq_ok_iff]
  constructor
  · rintro ⟨bytes, written, rfl⟩
    exact written
  · exact fun written => ⟨_, written, rfl⟩

theorem parse_marked_iff {encoded : String} {secret : Secret} :
    parse (mark ++ encoded) = .ok secret ↔ secret.stored = mark ++ encoded ∧
      obfuscate secret.plain = mark ++ String.ofList (Text.trim encoded.toList) := by
  have found : unmarked? (mark ++ encoded) = some encoded := unmarked?_eq_some.mpr rfl
  have same (plain written : String) :
      obfuscate plain = mark ++ written ↔ written = Base64.encode (utf8 plain) := by
    rw [obfuscate, String.append_right_inj, eq_comm]
  unfold parse
  rw [found]
  dsimp only
  rw [map_eq_ok, same]
  simp only [reveal_eq_ok_iff]
  constructor
  · rintro ⟨plain, written, rfl⟩
    exact ⟨rfl, written⟩
  · rintro ⟨stored, written⟩
    exact ⟨secret.plain, written, by rw [← stored]⟩

/-- Every value is revealed by its obfuscated form.  The form at rest of every secret that is read
is marked, reveals the same and stays as it is.  And a marked text is read just if it is the
obfuscated form of a value, but for blanks behind the mark and at its end. -/
theorem parse_forms :
    (∀ plain, parse (obfuscate plain) = .ok ⟨obfuscate plain, plain⟩) ∧
    (∀ stored secret, parse stored = .ok secret →
      (∃ encoded, secret.toStored = mark ++ encoded) ∧
      ∃ again, parse secret.toStored = .ok again ∧ again.plain = secret.plain ∧
        again.toStored = secret.toStored) ∧
    ∀ encoded secret, parse (mark ++ encoded) = .ok secret ↔ secret.stored = mark ++ encoded ∧
      obfuscate secret.plain = mark ++ String.ofList (Text.trim encoded.toList) := by
  refine ⟨parse_obfuscate, fun stored secret read => ?_, fun encoded secret => parse_marked_iff⟩
  obtain ⟨encoded, form⟩ := secret.exists_toStored
  refine ⟨⟨encoded, form⟩, _, parse_toStored read, rfl, ?_⟩
  rw [form]
  exact toStored_of_marked

/-- Blanks around the obfuscated form stay in the form at rest. -/
theorem parse_forms_spaced :
    let stored := "b64: cHc=\n"
    parse stored = .ok ⟨stored, "pw"⟩ ∧ (⟨stored, "pw"⟩ : Secret).toStored = stored ∧
      obfuscate "pw" = "b64:cHc=" ∧
      ∃ again, parse stored = .ok again ∧ again.plain = "pw" ∧ again.toStored = stored := by
  intro stored
  obtain ⟨-, forms, marked⟩ := parse_forms
  have read : parse stored = .ok ⟨stored, "pw"⟩ :=
    (marked " cHc=\n" ⟨stored, "pw"⟩).mpr ⟨rfl, by decide +kernel⟩
  have kept : (⟨stored, "pw"⟩ : Secret).toStored = stored := by decide
  obtain ⟨-, again⟩ := forms stored _ read
  rw [kept] at again
  exact ⟨read, kept, by decide, again⟩

end Flotilla.Secret
