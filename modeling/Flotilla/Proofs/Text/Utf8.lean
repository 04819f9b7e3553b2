import Mathlib
import Flotilla.Proofs.Failure
import Flotilla.Text.Utf8

/-!
# UTF-8 both ways

`Utf8.decode` reads exactly what `utf8` writes (`decode_eq_ok_iff`), so a text is known by its
bytes.
-/

namespace Flotilla

@[simp] theorem utf8_append (s t : String) : utf8 (s ++ t) = utf8 s ++ utf8 t := by
  simp [utf8]

theorem utf8_join (l : List String) : utf8 (String.join l) = l.flatMap utf8 := by
  rw [utf8, String.toList_join, List.flatMap_assoc]
  rfl

namespace Utf8

/-! ### The bytes of a character -/

theorem utf8EncodeChar_ofNat {v : Nat} (valid : v.isValidChar) :
    String.utf8EncodeChar (Char.ofNat v) =
      if v ≤ 0x7F then [UInt8.ofNat v]
      else if v ≤ 0x7FF then [UInt8.ofNat (v / 64 % 32 + 0xC0), UInt8.ofNat (v % 64 + 0x80)]
      else if v ≤ 0xFFFF then
        [UInt8.ofNat (v / 4096 % 16 + 0xE0), UInt8.ofNat (v / 64 % 64 + 0x80),
          UInt8.ofNat (v % 64 + 0x80)]
      else
        [UInt8.ofNat (v / 262144 % 8 + 0xF0), UInt8.ofNat (v / 4096 % 64 + 0x80),
          UInt8.ofNat (v / 64 % 64 + 0x80), UInt8.ofNat (v % 64 + 0x80)] := by
  have value : (Char.ofNat v).val.toNat = v := by simp [Char.ofNat, valid, Char.ofNatAux]
  simp only [String.utf8EncodeChar, value]

/-- The rows of the table of first bytes, by the number of bytes that follow. -/
theorem Lead.row {b : UInt8} {lead : Lead} (first : Lead.ofByte? b = some lead) :
    lead.tails = 0 ∧ lead.bits = b.toNat ∧ b.toNat < 0x80 ∨
    lead.tails = 1 ∧ lead.bits = b.toNat % 32 ∧ 0xC2 ≤ b.toNat ∧ b.toNat < 0xE0 ∧
      lead.low.toNat = 0x80 ∧ lead.high.toNat = 0xBF ∨
    lead.tails = 2 ∧ lead.bits = b.toNat % 16 ∧ 0xE0 ≤ b.toNat ∧ b.toNat < 0xF0 ∧
      (b.toNat = 0xE0 ∧ lead.low.toNat = 0xA0 ∨ b.toNat ≠ 0xE0 ∧ lead.low.toNat = 0x80) ∧
      (b.toNat = 0xED ∧ lead.high.toNat = 0x9F ∨ b.toNat ≠ 0xED ∧ lead.high.toNat = 0xBF) ∨
    lead.tails = 3 ∧ lead.bits = b.toNat % 8 ∧ 0xF0 ≤ b.toNat ∧ b.toNat < 0xF5 ∧
      (b.toNat = 0xF0 ∧ lead.low.toNat = 0x90 ∨ b.toNat ≠ 0xF0 ∧ lead.low.toNat = 0x80) ∧
      (b.toNat = 0xF4 ∧ lead.high.toNat = 0x8F ∨ b.toNat ≠ 0xF4 ∧ lead.high.toNat = 0xBF) := by
  simp only [Lead.ofByte?, UInt8.lt_iff_toNat_lt, ← UInt8.toNat_inj] at first
  repeat' split at first
  all_goals cases first
  all_goals simp at *
  all_goals omega

theorem Lead.exists_ofByte? {b : UInt8}
    (first : b.toNat < 0x80 ∨ 0xC2 ≤ b.toNat ∧ b.toNat < 0xF5) :
    ∃ lead, Lead.ofByte? b = some lead := by
  rw [← Option.isSome_iff_exists]
  simp only [Lead.ofByte?, UInt8.lt_iff_toNat_lt, ← UInt8.toNat_inj, UInt8.reduceToNat]
  repeat' split
  all_goals first | rfl | omega

/-! ### Reading a character -/

/-- The character of the top bits of a first byte and of the bytes behind it. -/
def charOf (value : Nat) (tails : Bytes) : Char :=
  Char.ofNat (tails.foldl (fun v b => v * 64 + b.toNat % 64) value)

/-- Whether bytes may stand behind the first two of a character. -/
def AreTails (tails : Bytes) : Prop := ∀ b ∈ tails, 0x80 ≤ b.toNat ∧ b.toNat ≤ 0xBF

theorem readTails_eq_char {s : Bytes} {value count : Nat} {low high : UInt8} {t u : Cut s}
    {c : Char} (found : readTails value low high (count + 1) t = .char c u) :
    ∃ b tails, u.front = t.front ++ b :: tails ∧ tails.length = count ∧
      (low.toNat ≤ b.toNat ∧ b.toNat ≤ high.toNat) ∧ AreTails tails ∧
      c = charOf value (b :: tails) := by
  have first {count : Nat} {value : Nat} {low high : UInt8} {t : Cut s}
      (found : readTails value low high (count + 1) t = .char c u) :
      ∃ b r, ∃ next : t.back = b :: r, (low.toNat ≤ b.toNat ∧ b.toNat ≤ high.toNat) ∧
        readTails (value * 64 + b.toNat % 64) 0x80 0xBF count (t.advance next) = .char c u := by
    rw [readTails] at found
    split at found
    next => cases found
    next b r next =>
      split at found
      next inside => exact ⟨b, r, next, inside, found⟩
      next => cases found
  induction count generalizing value low high t with
  | zero =>
    obtain ⟨b, r, next, inside, rest⟩ := first found
    rw [readTails] at rest
    cases rest
    exact ⟨b, [], rfl, rfl, inside, by simp [AreTails], rfl⟩
  | succ count ih =>
    obtain ⟨b, r, next, inside, rest⟩ := first found
    obtain ⟨d, tails, front, length, inside', all, value⟩ := ih rest
    refine ⟨b, d :: tails, ?_, by simp [length], inside, ?_, value⟩
    · rw [front]
      exact List.append_assoc _ _ _
    · intro e member
      rcases List.mem_cons.mp member with rfl | later
      · exact inside'
      · exact all e later

theorem readTails_tails {s rest : Bytes} {value : Nat} {low high b : UInt8} {tails : Bytes}
    {t : Cut s} (next : t.back = b :: (tails ++ rest))
    (inside : low.toNat ≤ b.toNat ∧ b.toNat ≤ high.toNat) (all : AreTails tails) :
    ∃ u, readTails value low high (tails.length + 1) t = .char (charOf value (b :: tails)) u ∧
      u.back = rest := by
  have first {value count : Nat} {low high b : UInt8} {r : Bytes} {t : Cut s}
      (next : t.back = b :: r) (inside : low.toNat ≤ b.toNat ∧ b.toNat ≤ high.toNat) :
      readTails value low high (count + 1) t =
        readTails (value * 64 + b.toNat % 64) 0x80 0xBF count (t.advance next) := by
    rw [readTails]
    split
    next none => simp [none] at next
    next c r' some =>
      obtain ⟨rfl, rfl⟩ := List.cons.inj (next.symm.trans some)
      exact if_pos inside
  induction tails generalizing value low high b t with
  | nil =>
    rw [first next inside]
    exact ⟨t.advance next, by rw [List.length_nil, readTails]; rfl, rfl⟩
  | cons d tails ih =>
    rw [first next inside]
    exact ih rfl (all d List.mem_cons_self) fun e member => all e (List.mem_cons_of_mem d member)

/-- What is read as a character are its bytes. -/
theorem front_of_read {b : UInt8} {r : Bytes} {c : Char} {t : Cut (b :: r)}
    (found : read b r = .char c t) : t.front = String.utf8EncodeChar c := by
  unfold read at found
  split at found
  next => cases found
  next lead first =>
    have row := Lead.row first
    obtain ⟨bits, tails, low, high⟩ := lead
    dsimp only at found row
    rcases row with ⟨rfl, rfl, small⟩ | ⟨rfl, rfl, least, most, lows, highs⟩ |
      ⟨rfl, rfl, least, most, lows, highs⟩ | ⟨rfl, rfl, least, most, lows, highs⟩
    · rw [readTails] at found
      cases found
      rw [utf8EncodeChar_ofNat (by omega), if_pos (by omega), UInt8.ofNat_toNat]
      rfl
    · obtain ⟨d, ds, front, length, inside, all, rfl⟩ := readTails_eq_char found
      obtain rfl := List.length_eq_zero_iff.mp length
      rw [front, charOf, List.foldl_cons, List.foldl_nil, utf8EncodeChar_ofNat (by omega),
        if_neg (by omega), if_pos (by omega)]
      simp only [Cut.one, List.cons_append, List.nil_append, List.cons.injEq, and_true,
        ← UInt8.toNat_inj, UInt8.toNat_ofNat']
      omega
    · obtain ⟨d, ds, front, length, inside, all, rfl⟩ := readTails_eq_char found
      obtain ⟨e, rfl⟩ := List.length_eq_one_iff.mp length
      have second := all e List.mem_cons_self
      rw [front, charOf, List.foldl_cons, List.foldl_cons, List.foldl_nil,
        utf8EncodeChar_ofNat (by omega), if_neg (by omega), if_neg (by omega), if_pos (by omega)]
      simp only [Cut.one, List.cons_append, List.nil_append, List.cons.injEq, and_true,
        ← UInt8.toNat_inj, UInt8.toNat_ofNat']
      omega
    · obtain ⟨d, ds, front, length, inside, all, rfl⟩ := readTails_eq_char found
      match ds, length with
      | [e, f], _ =>
      have second := all e List.mem_cons_self
      have third := all f (by simp)
      rw [front, charOf, List.foldl_cons, List.foldl_cons, List.foldl_cons, List.foldl_nil,
        utf8EncodeChar_ofNat (by omega), if_neg (by omega), if_neg (by omega), if_neg (by omega)]
      simp only [Cut.one, List.cons_append, List.nil_append, List.cons.injEq, and_true,
        ← UInt8.toNat_inj, UInt8.toNat_ofNat']
      omega

/-- The bytes of a character are read as it. -/
theorem exists_read {c : Char} {rest : Bytes} {b : UInt8} {r : Bytes}
    (bytes : String.utf8EncodeChar c ++ rest = b :: r) :
    ∃ t, read b r = .char c t ∧ t.back = rest := by
  obtain ⟨v, valid, rfl⟩ : ∃ v : Nat, v.isValidChar ∧ Char.ofNat v = c :=
    ⟨c.toNat, c.valid, Char.ofNat_toNat c⟩
  -- A first byte of the right size finds its row of the table.
  have reads (tails : Bytes) (value : Nat) (bytes : r = tails ++ rest)
      (first : b.toNat < 0x80 ∨ 0xC2 ≤ b.toNat ∧ b.toNat < 0xF5)
      (row : ∀ lead, Lead.ofByte? b = some lead → lead.tails = tails.length ∧ lead.bits = value ∧
        ∀ d ds, tails = d :: ds →
          (lead.low.toNat ≤ d.toNat ∧ d.toNat ≤ lead.high.toNat) ∧ AreTails ds)
      (same : charOf value tails = Char.ofNat v) :
      ∃ t, read b r = .char (Char.ofNat v) t ∧ t.back = rest := by
    obtain ⟨lead, found⟩ := Lead.exists_ofByte? first
    obtain ⟨count, rfl, inside⟩ := row lead found
    unfold read
    rw [found]
    dsimp only
    rw [count, ← same]
    cases tails with
    | nil =>
      rw [List.length_nil, readTails]
      exact ⟨_, rfl, bytes⟩
    | cons d ds =>
      obtain ⟨within, all⟩ := inside d ds rfl
      exact readTails_tails (t := .one b r) bytes within all
  have low (n : Nat) : (UInt8.ofNat (n % 64 + 0x80)).toNat = n % 64 + 0x80 := by
    rw [UInt8.toNat_ofNat']
    omega
  have tail (n : Nat) : 0x80 ≤ (UInt8.ofNat (n % 64 + 0x80)).toNat ∧
      (UInt8.ofNat (n % 64 + 0x80)).toNat ≤ 0xBF := by
    rw [low]
    omega
  rw [utf8EncodeChar_ofNat valid] at bytes
  repeat' split at bytes
  all_goals
    obtain ⟨first, rest⟩ := List.cons.inj bytes
    replace first := congrArg UInt8.toNat first
    rw [UInt8.toNat_ofNat'] at first
  · refine reads [] v rest.symm (by omega) (fun lead found => ?_) rfl
    have row := Lead.row found
    exact ⟨by rw [List.length_nil]; omega, by omega, by simp⟩
  · refine reads [_] (v / 64) rest.symm (by omega) (fun lead found => ?_) ?_
    · have row := Lead.row found
      refine ⟨by rw [List.length_singleton]; omega, by omega, ?_⟩
      rintro d ds same
      cases same
      rw [low]
      exact ⟨by omega, by simp [AreTails]⟩
    · simp only [charOf, List.foldl_cons, List.foldl_nil, low]
      congr 1
      omega
  · refine reads [_, _] (v / 4096) rest.symm (by omega) (fun lead found => ?_) ?_
    · have row := Lead.row found
      refine ⟨by rw [List.length_cons, List.length_singleton]; omega, by omega, ?_⟩
      rintro d ds same
      cases same
      rw [low]
      exact ⟨by omega, List.forall_mem_singleton.mpr (tail _)⟩
    · simp only [charOf, List.foldl_cons, List.foldl_nil, low]
      congr 1
      omega
  · refine reads [_, _, _] (v / 262144) rest.symm (by omega) (fun lead found => ?_) ?_
    · have row := Lead.row found
      refine ⟨?_, by omega, ?_⟩
      · rw [List.length_cons, List.length_cons, List.length_singleton]
        omega
      · rintro d ds same
        cases same
        rw [low]
        exact ⟨by omega, List.forall_mem_cons.mpr ⟨tail _, List.forall_mem_singleton.mpr (tail _)⟩⟩
    · simp only [charOf, List.foldl_cons, List.foldl_nil, low]
      congr 1
      omega

/-! ### Reading a text -/

/-- Behind the bytes of a first character those of the others are left. -/
theorem exists_read_encoded (c : Char) (cs : List Char) : ∃ b r, ∃ t : Cut (b :: r),
    (c :: cs).flatMap String.utf8EncodeChar = b :: r ∧ read b r = .char c t ∧
      t.back = cs.flatMap String.utf8EncodeChar := by
  rw [List.flatMap_cons]
  obtain ⟨b, r, bytes⟩ := List.exists_cons_of_ne_nil
    (List.append_ne_nil_of_left_ne_nil (String.utf8EncodeChar_ne_nil (c := c))
      (cs.flatMap String.utf8EncodeChar))
  obtain ⟨t, found, back⟩ := exists_read bytes
  exact ⟨b, r, t, bytes, found, back⟩

theorem decodeFrom_encoded (offset : Nat) (cs : List Char) :
    decodeFrom offset (cs.flatMap String.utf8EncodeChar) = .ok cs := by
  induction cs generalizing offset with
  | nil => rw [List.flatMap_nil, decodeFrom]
  | cons c cs ih =>
    obtain ⟨b, r, t, bytes, found, back⟩ := exists_read_encoded c cs
    rw [bytes, decodeFrom, found]
    dsimp only
    rw [back, ih]
    rfl

theorem encoded_of_decodeFrom {offset : Nat} {s : Bytes} {cs : List Char}
    (decoded : decodeFrom offset s = .ok cs) : cs.flatMap String.utf8EncodeChar = s := by
  induction offset, s using decodeFrom.induct generalizing cs with
  | case1 offset =>
    rw [decodeFrom] at decoded
    cases decoded
    rfl
  | case2 offset b r c t found ih =>
    rw [decodeFrom, found] at decoded
    obtain ⟨ds, rest, whole⟩ := bind_eq_ok.mp decoded
    cases whole
    rw [List.flatMap_cons, ih rest, ← front_of_read found, t.front_append_back]
  | case3 offset b r t found =>
    rw [decodeFrom, found] at decoded
    cases decoded
  | case4 offset b r found =>
    rw [decodeFrom, found] at decoded
    cases decoded

/-- A text is read from its bytes, and from no others. -/
theorem decode_eq_ok_iff {s : Bytes} {t : String} : decode s = .ok t ↔ s = utf8 t := by
  constructor
  · intro decoded
    obtain ⟨cs, read, rfl⟩ : ∃ cs, decodeFrom 0 s = .ok cs ∧ String.ofList cs = t := by
      cases read : decodeFrom 0 s with
      | error f => simp [decode, read, Except.map] at decoded
      | ok cs => exact ⟨cs, rfl, by simpa [decode, read, Except.map] using decoded⟩
    rw [utf8, String.toList_ofList, encoded_of_decodeFrom read]
  · rintro rfl
    rw [decode, utf8, decodeFrom_encoded, Except.map, String.ofList_toList]

@[simp] theorem decode_utf8 (t : String) : decode (utf8 t) = .ok t := decode_eq_ok_iff.mpr rfl

theorem lossyChars_encoded (cs : List Char) :
    lossyChars (cs.flatMap String.utf8EncodeChar) = cs := by
  induction cs with
  | nil => rw [List.flatMap_nil, lossyChars]
  | cons c cs ih =>
    obtain ⟨b, r, t, bytes, found, back⟩ := exists_read_encoded c cs
    rw [bytes, lossyChars, found]
    dsimp only
    rw [back, ih]

/-- Nothing is replaced in the bytes of a text. -/
@[simp] theorem lossy_utf8 (t : String) : lossy (utf8 t) = t := by
  rw [lossy, utf8, lossyChars_encoded, String.ofList_toList]

/-- The byte of an ASCII character stands in no other character. -/
theorem eq_of_mem_utf8EncodeChar {c d : Char} (ascii : d.toNat < 128)
    (member : UInt8.ofNat d.toNat ∈ String.utf8EncodeChar c) : c = d := by
  have valid : c.toNat.isValidChar := c.valid
  rw [← Char.ofNat_toNat c, utf8EncodeChar_ofNat valid] at member
  have same : c.toNat = d.toNat := by
    repeat' split at member
    all_goals
      simp only [List.mem_cons, List.not_mem_nil, or_false, ← UInt8.toNat_inj,
        UInt8.toNat_ofNat'] at member
      omega
  rw [← Char.ofNat_toNat c, same, Char.ofNat_toNat]

end Utf8

/-- The bytes of a text of ASCII characters are their numbers. -/
theorem exists_of_mem_utf8 {s : String} (ascii : ∀ c ∈ s.toList, c.toNat < 128) {b : UInt8}
    (member : b ∈ utf8 s) : ∃ c ∈ s.toList, b.toNat = c.toNat := by
  obtain ⟨c, here, byte⟩ := List.mem_flatMap.mp member
  have small := ascii c here
  rw [← Char.ofNat_toNat c, Utf8.utf8EncodeChar_ofNat (by left; omega), if_pos (by omega),
    List.mem_singleton] at byte
  refine ⟨c, here, ?_⟩
  rw [byte, UInt8.toNat_ofNat']
  omega

/-- A text is known by its bytes. -/
theorem utf8_inj {s t : String} : utf8 s = utf8 t ↔ s = t := by
  refine ⟨fun same => ?_, congrArg utf8⟩
  have read := Utf8.decode_utf8 s
  rw [same, Utf8.decode_utf8] at read
  exact (Except.ok.inj read).symm

end Flotilla
