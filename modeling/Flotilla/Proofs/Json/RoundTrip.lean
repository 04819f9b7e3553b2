import Mathlib.Data.List.Basic
import Mathlib.Tactic.ByContra
import Mathlib.Tactic.SplitIfs
import Flotilla.Json.Decode
import Flotilla.Json.Print
import Flotilla.Proofs.Failure
import Flotilla.Proofs.Text.Decimal

/-!
# JSON both ways

What `print` writes of a plain value is read as that value again (`parse_print`), whatever
characters its strings contain, and holds no control character (`visible_print`).
-/

namespace Flotilla.Json

open Text (isDigit_toDigits head?_toDigits_ne_zero)

/-! ### Strings -/

/-- How a character is written: behind a backslash as one letter, as the number of a control
character, or as itself. -/
inductive IsEscaped (c : Char) : List Char → Prop where
  | letter {e : Char} (means : unescape? e = some c) (visible : 0x20 ≤ e.toNat) :
      IsEscaped c ['\\', e]
  | number (control : c.toNat < 0x20) :
      IsEscaped c ['\\', 'u', '0', '0', Hex.digit (c.toNat / 16), Hex.digit (c.toNat % 16)]
  | plain (plain : c ≠ '"' ∧ c ≠ '\\') (visible : 0x20 ≤ c.toNat) : IsEscaped c [c]

theorem isEscaped_escapeChar (c : Char) : IsEscaped c (escapeChar c) := by
  unfold escapeChar
  split_ifs with mark backslash backspace tab feed page returns control
  case pos => exact .letter (by rw [mark]; rfl) (by decide)
  case pos => exact .letter (by rw [backslash]; rfl) (by decide)
  case pos => exact .letter (by rw [backspace]; rfl) (by decide)
  case pos => exact .letter (by rw [tab]; rfl) (by decide)
  case pos => exact .letter (by rw [feed]; rfl) (by decide)
  case pos => exact .letter (by rw [page]; rfl) (by decide)
  case pos => exact .letter (by rw [returns]; rfl) (by decide)
  case pos => exact .number control
  case neg => exact .plain ⟨mark, backslash⟩ (Nat.le_of_not_lt control)

theorem readHex_control {n : Nat} (control : n < 0x20) (r : List Char) :
    readHex ('0' :: '0' :: Hex.digit (n / 16) :: Hex.digit (n % 16) :: r) = .ok n := by
  have short : ¬ r.length + 1 + 1 + 1 + 1 < 4 := by omega
  have all : ∀ n < 0x20,
      Hex.number? ['0', '0', Hex.digit (n / 16), Hex.digit (n % 16)] = some n := by
    decide
  simp [readHex, short, all n control]

theorem IsEscaped.readString {c : Char} {written : List Char} (escaped : IsEscaped c written)
    (fuel : Nat) (r : List Char) : readString (fuel + 1) (written ++ r) =
      (readString fuel r).map fun (t, rest) => (t.cons c, rest) := by
  cases escaped with
  | letter means visible =>
    unfold unescape? at means
    split at means
    case h_9 => cases means
    all_goals
      cases means
      simp [Json.readString, unescape?]
  | number control =>
    have low : c.toNat < 0xD800 := by omega
    simp [Json.readString, readHex_control control, low]
  | plain plain visible =>
    simp [Json.readString, plain, Nat.not_lt.mpr visible]

theorem IsEscaped.ne_nil {c : Char} {written : List Char} (escaped : IsEscaped c written) :
    written ≠ [] := by
  cases escaped <;> simp

theorem IsEscaped.visible {c : Char} {written : List Char} (escaped : IsEscaped c written) :
    ∀ d ∈ written, 0x20 ≤ d.toNat := by
  cases escaped with
  | letter means visible => simp [visible]
  | number control =>
    have digits : ∀ n < 0x20,
        0x20 ≤ (Hex.digit (n / 16)).toNat ∧ 0x20 ≤ (Hex.digit (n % 16)).toNat := by decide
    simp [digits c.toNat control]
  | plain plain visible => simp [visible]

theorem readString_escaped {fuel : Nat} {s : List Char} (enough : s.length < fuel)
    (rest : List Char) :
    readString fuel (s.flatMap escapeChar ++ '"' :: rest) = .ok (⟨s, false⟩, rest) := by
  induction s generalizing fuel with
  | nil =>
    obtain ⟨fuel, rfl⟩ := Nat.exists_eq_add_of_lt enough
    simp [readString]
  | cons c s ih =>
    obtain ⟨fuel, rfl⟩ := Nat.exists_eq_add_of_lt enough
    rw [List.flatMap_cons, List.append_assoc, (isEscaped_escapeChar c).readString,
      ih (by rw [List.length_cons]; omega)]
    rfl

theorem length_le_escaped (s : List Char) : s.length ≤ (s.flatMap escapeChar).length := by
  induction s with
  | nil => exact Nat.le_refl 0
  | cons c s ih =>
    have some_ := List.length_pos_iff.mpr (isEscaped_escapeChar c).ne_nil
    rw [List.flatMap_cons, List.length_append, List.length_cons]
    omega

/-- What is left of a written string behind its first quotation mark. -/
def quoteTail (s : String) : List Char := s.toList.flatMap escapeChar ++ ['"']

theorem toList_quote (s : String) : (quote s).toList = '"' :: quoteTail s := by
  simp [quote, quoteTail]

theorem readString_quoteTail (s : String) (rest : List Char) :
    readString (quoteTail s ++ rest).length (quoteTail s ++ rest) =
      .ok (⟨s.toList, false⟩, rest) := by
  have enough := length_le_escaped s.toList
  rw [quoteTail, List.append_assoc, List.singleton_append]
  exact readString_escaped (by rw [List.length_append, List.length_cons]; omega) rest

theorem visible_quote (s : String) : ∀ c ∈ (quote s).toList, 0x20 ≤ c.toNat := by
  rw [toList_quote, quoteTail]
  intro c member
  rcases List.mem_cons.mp member with rfl | member
  · decide
  rcases List.mem_append.mp member with inside | last
  · obtain ⟨d, -, here⟩ := List.mem_flatMap.mp inside
    exact (isEscaped_escapeChar d).visible c here
  · rw [List.mem_singleton.mp last]
    decide

/-! ### Numbers -/

theorem isSpace_of_isDigit {c : Char} (digit : c.isDigit) : isSpace c = false := by
  cases space : isSpace c with
  | false => rfl
  | true =>
    simp only [isSpace, Bool.or_eq_true, decide_eq_true_eq] at space
    rcases space with ((rfl | rfl) | rfl) | rfl <;> simp at digit

/-- What may stand behind a value. -/
inductive IsBehind : List Char → Prop where
  | nothing : IsBehind []
  | comma (r : List Char) : IsBehind (',' :: r)
  | bracket (r : List Char) : IsBehind (']' :: r)
  | brace (r : List Char) : IsBehind ('}' :: r)

theorem readDigits_toDigits (n : Nat) {rest : List Char} (stops : ∀ c ∈ rest.head?, ¬ c.isDigit) :
    readDigits (Nat.toDigits 10 n ++ rest) = .ok (Nat.toDigits 10 n, rest) := by
  have digits := isDigit_toDigits n
  have stop : rest.takeWhile Char.isDigit = [] ∧ rest.dropWhile Char.isDigit = rest := by
    cases rest with
    | nil => simp
    | cons c rest => simp [stops c rfl]
  obtain ⟨c, r, whole⟩ := List.exists_cons_of_ne_nil (Nat.toDigits_ne_nil (n := n) (b := 10))
  have first : c.isDigit := digits c (by rw [whole]; exact List.mem_cons_self)
  have taken : (Nat.toDigits 10 n ++ rest).takeWhile Char.isDigit = Nat.toDigits 10 n := by
    rw [List.takeWhile_append_of_pos digits, stop.1, List.append_nil]
  have left : (Nat.toDigits 10 n ++ rest).dropWhile Char.isDigit = rest := by
    rw [List.dropWhile_append_of_pos digits, stop.2]
  rw [whole] at taken left ⊢
  rw [List.cons_append] at taken left ⊢
  simp only [readDigits, first, if_true, taken, left]

theorem readWhole_toDigits (n : Nat) {rest : List Char} (stops : ∀ c ∈ rest.head?, ¬ c.isDigit) :
    readWhole (Nat.toDigits 10 n ++ rest) = .ok (Nat.toDigits 10 n, rest) := by
  have plain : ¬ ((Nat.toDigits 10 n).length > 1 ∧ (Nat.toDigits 10 n).head? = some '0') := by
    rintro ⟨long, zero⟩
    obtain rfl : n = 0 := by
      by_contra positive
      exact head?_toDigits_ne_zero (Nat.pos_of_ne_zero positive) zero
    rw [Nat.toDigits_zero] at long
    exact absurd long (by simp)
  rw [readWhole, readDigits_toDigits n stops, ok_bind]
  simp [plain]

theorem readNumber_toDigits (n : Nat) {rest : List Char} (behind : IsBehind rest) :
    readNumber (Nat.toDigits 10 n ++ rest) = .ok (Nat.toDigits 10 n, rest) := by
  have stops : ∀ c ∈ rest.head?, ¬ c.isDigit := by cases behind <;> simp
  have whole := readWhole_toDigits n stops
  have unsigned : ∀ r, Nat.toDigits 10 n ++ rest ≠ '-' :: r := by
    intro r minus
    have first : (Nat.toDigits 10 n).head? = some '-' := by
      rw [← List.head?_append_of_ne_nil _ Nat.toDigits_ne_nil, minus, List.head?_cons]
    exact absurd (isDigit_toDigits n _ (List.mem_of_head? first)) (by decide)
  unfold readNumber
  split
  next sign s same =>
    split at same
    next minus => exact absurd minus (unsigned _)
    next =>
      cases same
      rw [whole]
      cases behind <;> simp

/-! ### Values -/

/-- The values that are written as they are read: nothing in them is broken, and numbers are
natural. -/
inductive IsPlain : Json → Prop where
  | null : IsPlain .null
  | bool (b : Bool) : IsPlain (.bool b)
  | nat (n : Nat) : IsPlain (.nat n)
  | string (s : String) : IsPlain (.string s)
  | array {items : List Json} (each : ∀ j ∈ items, IsPlain j) : IsPlain (.array items)
  | object {entries : List (String × Json)} (each : ∀ e ∈ entries, IsPlain e.2) :
    IsPlain (.object entries)

/-! ### Written values -/

theorem printItems_eq (items : List Json) : printItems items = items.map print := by
  induction items with
  | nil => rfl
  | cons j r ih => rw [printItems, ih, List.map_cons]

theorem printEntries_eq (entries : List (String × Json)) :
    printEntries entries = entries.map fun e => quote e.1 ++ ":" ++ print e.2 := by
  induction entries with
  | nil => rfl
  | cons e r ih => rw [printEntries, ih, List.map_cons]

/-- The items of an array as they are written, with commas between them. -/
def itemsText (items : List Json) : List Char :=
  [','].intercalate (items.map fun j => (print j).toList)

/-- The entries of an object as they are written, with commas between them. -/
def entriesText (entries : List (String × Json)) : List Char :=
  [','].intercalate (entries.map fun e => '"' :: (quoteTail e.1 ++ ':' :: (print e.2).toList))

theorem toList_print_nat (n : Nat) : (print (.nat n)).toList = Nat.toDigits 10 n := by
  rw [nat, print, Nat.toString_eq_repr, Nat.toList_repr]

theorem toList_print_array (items : List Json) :
    (print (.array items)).toList = '[' :: (itemsText items ++ [']']) := by
  rw [print, commas, printItems_eq]
  simp [String.toList_intercalate, itemsText, Function.comp_def]

theorem toList_print_object (entries : List (String × Json)) :
    (print (.object entries)).toList = '{' :: (entriesText entries ++ ['}']) := by
  rw [print, commas, printEntries_eq]
  simp [String.toList_intercalate, entriesText, Function.comp_def, toList_quote]

/-- No value starts like a blank or like the end of an array. -/
theorem IsPlain.head_print {j : Json} (plain : IsPlain j) :
    ∃ c r, (print j).toList = c :: r ∧ isSpace c = false ∧ c ≠ ']' := by
  cases plain with
  | null => exact ⟨'n', "ull".toList, rfl, by decide, by decide⟩
  | bool b =>
    cases b
    · exact ⟨'f', "alse".toList, rfl, by decide, by decide⟩
    · exact ⟨'t', "rue".toList, rfl, by decide, by decide⟩
  | nat n =>
    obtain ⟨c, r, whole⟩ := List.exists_cons_of_ne_nil (Nat.toDigits_ne_nil (n := n) (b := 10))
    have digit : c.isDigit := isDigit_toDigits n c (by rw [whole]; exact List.mem_cons_self)
    refine ⟨c, r, by rw [toList_print_nat, whole], isSpace_of_isDigit digit, ?_⟩
    rintro rfl
    simp at digit
  | string s => exact ⟨'"', quoteTail s, by rw [print, toList_quote], by decide, by decide⟩
  | array each => exact ⟨'[', _, toList_print_array _, by decide, by decide⟩
  | object each => exact ⟨'{', _, toList_print_object _, by decide, by decide⟩

theorem visible_intercalate {texts : List (List Char)}
    (each : ∀ text ∈ texts, ∀ c ∈ text, 0x20 ≤ c.toNat) :
    ∀ c ∈ [','].intercalate texts, 0x20 ≤ c.toNat := by
  induction texts with
  | nil => simp
  | cons text texts ih =>
    obtain ⟨first, later⟩ := List.forall_mem_cons.mp each
    cases texts with
    | nil => simpa using first
    | cons next texts =>
      intro c member
      rw [List.intercalate_cons_cons] at member
      rcases List.mem_append.mp member with front | back
      · rcases List.mem_append.mp front with here | comma
        · exact first c here
        · rw [List.mem_singleton.mp comma]
          decide
      · exact ih later c back

/-- No control character is written. -/
theorem IsPlain.visible_print {j : Json} (plain : IsPlain j) :
    ∀ c ∈ (print j).toList, 0x20 ≤ c.toNat := by
  induction plain with
  | null => simp [print]
  | bool b => cases b <;> simp [print]
  | nat n =>
    intro c member
    rw [toList_print_nat] at member
    have digit := isDigit_toDigits n c member
    simp only [Char.isDigit, Bool.and_eq_true, decide_eq_true_eq] at digit
    have low : '0'.toNat ≤ c.toNat := digit.1
    simp at low
    omega
  | string s => exact visible_quote s
  | array each ih =>
    rw [toList_print_array, itemsText]
    simpa [or_imp, forall_and] using visible_intercalate (List.forall_mem_map.mpr ih)
  | @object entries each ih =>
    have inside : ∀ e ∈ entries,
        ∀ c ∈ '"' :: (quoteTail e.1 ++ ':' :: (print e.2).toList), 0x20 ≤ c.toNat := by
      intro e member
      have key := visible_quote e.1
      rw [toList_quote] at key
      have value := ih e member
      simp_all [or_imp]
    rw [toList_print_object, entriesText]
    simpa [or_imp, forall_and] using visible_intercalate (List.forall_mem_map.mpr inside)

/-! ### Reading values -/

/-- A value is read from what is written of it, whatever stands behind it. -/
def IsRead (j : Json) : Prop := ∀ fuel rest, 2 * (print j).toList.length ≤ fuel → IsBehind rest →
  readValue fuel ((print j).toList ++ rest) = (j, some rest)

theorem skipSpace_cons {c : Char} (visible : isSpace c = false) (r : List Char) :
    skipSpace (c :: r) = c :: r := by
  simp [skipSpace, visible]

/-! ### Reading arrays -/

theorem readItems_last {fuel : Nat} {s rest : List Char} {j : Json}
    (read : readValue fuel s = (j, some (']' :: rest))) (before : List Json) :
    readItems (fuel + 1) before s = (.array (before ++ [j]), some rest) := by
  rw [readItems, read]
  simp [skipSpace_cons (show isSpace ']' = false from rfl)]

theorem readItems_next {fuel : Nat} {s r : List Char} {c : Char} {j : Json}
    (read : readValue fuel s = (j, some (',' :: c :: r))) (visible : isSpace c = false)
    (goes : c ≠ ']') (before : List Json) :
    readItems (fuel + 1) before s = readItems fuel (before ++ [j]) (c :: r) := by
  rw [readItems, read]
  simp [skipSpace_cons (show isSpace ',' = false from rfl), skipSpace_cons visible, goes]

theorem itemsText_cons_cons (j k : Json) (items : List Json) :
    itemsText (j :: k :: items) = (print j).toList ++ ',' :: itemsText (k :: items) := by
  simp [itemsText, List.intercalate_cons_cons]

theorem head_itemsText {j : Json} (plain : IsPlain j) (items : List Json) :
    ∃ c r, itemsText (j :: items) = c :: r ∧ isSpace c = false ∧ c ≠ ']' := by
  obtain ⟨c, r, first, visible, goes⟩ := plain.head_print
  cases items with
  | nil => exact ⟨c, r, by simp [itemsText, first], visible, goes⟩
  | cons k items =>
    exact ⟨c, _, by rw [itemsText_cons_cons, first, List.cons_append], visible, goes⟩

theorem readItems_itemsText {j : Json} {items : List Json}
    (each : ∀ k ∈ j :: items, IsPlain k ∧ IsRead k) (fuel : Nat)
    (enough : 2 * (itemsText (j :: items)).length < fuel) (before : List Json) (rest : List Char) :
    readItems fuel before (itemsText (j :: items) ++ ']' :: rest) =
      (.array (before ++ j :: items), some rest) := by
  obtain ⟨fuel, rfl⟩ := Nat.exists_eq_add_one_of_ne_zero (Nat.ne_zero_of_lt enough)
  induction items generalizing j fuel before with
  | nil =>
    have text : itemsText [j] = (print j).toList := by simp [itemsText]
    have read := (each j List.mem_cons_self).2
    rw [text] at enough ⊢
    exact readItems_last (read fuel _ (by omega) (.bracket rest)) before
  | cons k items ih =>
    obtain ⟨⟨-, read⟩, later⟩ := List.forall_mem_cons.mp each
    obtain ⟨c, r, first, visible, goes⟩ := head_itemsText (later k List.mem_cons_self).1 items
    rw [itemsText_cons_cons, List.length_append, List.length_cons] at enough
    rw [itemsText_cons_cons, List.append_assoc, List.cons_append]
    obtain ⟨fuel, rfl⟩ : ∃ n, fuel = n + 1 := Nat.exists_eq_add_one_of_ne_zero (by omega)
    have next := ih later (before ++ [j]) fuel (by omega)
    have here := read (fuel + 1) _ (by omega) (.comma (itemsText (k :: items) ++ ']' :: rest))
    rw [first, List.cons_append] at here next ⊢
    rw [readItems_next here visible goes, next, List.append_assoc, List.singleton_append]

/-! ### Reading objects -/

theorem readEntries_last {fuel : Nat} {key : String} {s rest : List Char} {j : Json}
    (read : readValue fuel s = (j, some ('}' :: rest))) (before : List (String × Json)) :
    readEntries (fuel + 1) before ('"' :: (quoteTail key ++ ':' :: s)) =
      (.object (before ++ [(key, j)]), some rest) := by
  rw [readEntries, readString_quoteTail]
  simp [skipSpace_cons (show isSpace ':' = false from rfl), read,
    skipSpace_cons (show isSpace '}' = false from rfl)]

theorem readEntries_next {fuel : Nat} {key : String} {s r : List Char} {j : Json}
    (read : readValue fuel s = (j, some (',' :: '"' :: r))) (before : List (String × Json)) :
    readEntries (fuel + 1) before ('"' :: (quoteTail key ++ ':' :: s)) =
      readEntries fuel (before ++ [(key, j)]) ('"' :: r) := by
  rw [readEntries, readString_quoteTail]
  simp [skipSpace_cons (show isSpace ':' = false from rfl), read,
    skipSpace_cons (show isSpace ',' = false from rfl),
    skipSpace_cons (show isSpace '"' = false from rfl)]

theorem entriesText_cons_cons (e f : String × Json) (entries : List (String × Json)) :
    entriesText (e :: f :: entries) =
      '"' :: (quoteTail e.1 ++
        ':' :: ((print e.2).toList ++ ',' :: entriesText (f :: entries))) := by
  simp [entriesText, List.intercalate_cons_cons]

theorem head_entriesText (e : String × Json) (entries : List (String × Json)) :
    ∃ r, entriesText (e :: entries) = '"' :: r := by
  cases entries with
  | nil => exact ⟨_, by simp [entriesText]; rfl⟩
  | cons f entries => exact ⟨_, entriesText_cons_cons e f entries⟩

theorem readEntries_entriesText {e : String × Json} {entries : List (String × Json)}
    (each : ∀ f ∈ e :: entries, IsRead f.2) (fuel : Nat)
    (enough : 2 * (entriesText (e :: entries)).length < fuel) (before : List (String × Json))
    (rest : List Char) :
    readEntries fuel before (entriesText (e :: entries) ++ '}' :: rest) =
      (.object (before ++ e :: entries), some rest) := by
  obtain ⟨fuel, rfl⟩ := Nat.exists_eq_add_one_of_ne_zero (Nat.ne_zero_of_lt enough)
  induction entries generalizing e fuel before with
  | nil =>
    have text : entriesText [e] = '"' :: (quoteTail e.1 ++ ':' :: (print e.2).toList) := by
      simp [entriesText]
    have read := each e List.mem_cons_self
    rw [text] at enough ⊢
    simp only [List.length_cons, List.length_append] at enough
    rw [List.cons_append, List.append_assoc, List.cons_append]
    exact readEntries_last (read fuel _ (by omega) (.brace rest)) before
  | cons f entries ih =>
    obtain ⟨read, later⟩ := List.forall_mem_cons.mp each
    obtain ⟨r, first⟩ := head_entriesText f entries
    rw [entriesText_cons_cons] at enough ⊢
    simp only [List.length_cons, List.length_append] at enough
    simp only [List.cons_append, List.append_assoc]
    obtain ⟨fuel, rfl⟩ : ∃ n, fuel = n + 1 := Nat.exists_eq_add_one_of_ne_zero (by omega)
    have next := ih later (before ++ [e]) fuel (by omega)
    have here := read (fuel + 1) _ (by omega) (.comma (entriesText (f :: entries) ++ '}' :: rest))
    rw [first, List.cons_append] at here next ⊢
    rw [readEntries_next here, next, List.append_assoc, List.singleton_append]

/-! ### Reading values -/

theorem readValue_toDigits (fuel n : Nat) {rest : List Char} (behind : IsBehind rest) :
    readValue (fuel + 1) (Nat.toDigits 10 n ++ rest) = (.nat n, some rest) := by
  have read := readNumber_toDigits n behind
  have literal : toString n = String.ofList (Nat.toDigits 10 n) := Nat.toString_eq_ofList_toDigits
  obtain ⟨c, r, whole⟩ := List.exists_cons_of_ne_nil (Nat.toDigits_ne_nil (n := n) (b := 10))
  have digit : c.isDigit := isDigit_toDigits n c (by rw [whole]; exact List.mem_cons_self)
  rw [whole, List.cons_append] at read ⊢
  rw [readValue, skipSpace_cons (isSpace_of_isDigit digit)]
  split
  case h_1 same => cases same
  case h_8 d s _ _ _ _ _ _ same =>
    cases same
    rw [if_pos (.inr digit), read]
    simp [scalar, Except.map, nat, literal, whole]
  -- No other value starts with a digit.
  all_goals
    next same =>
      cases same
      simp at digit

/-- What is written is not empty, so there is fuel for a first step. -/
theorem IsPlain.isRead_of_succ {j : Json} (plain : IsPlain j)
    (read : ∀ fuel rest, 2 * (print j).toList.length ≤ fuel + 1 → IsBehind rest →
      readValue (fuel + 1) ((print j).toList ++ rest) = (j, some rest)) : IsRead j := by
  intro fuel rest enough behind
  obtain ⟨c, r, first, -, -⟩ := plain.head_print
  have some_ := congrArg List.length first
  rw [List.length_cons] at some_
  obtain ⟨fuel, rfl⟩ : ∃ n, fuel = n + 1 := Nat.exists_eq_add_one_of_ne_zero (by omega)
  exact read fuel rest enough behind

/-- Every plain value is read from what is written of it. -/
theorem IsPlain.isRead {j : Json} (plain : IsPlain j) : IsRead j := by
  induction plain with
  | null =>
    refine IsPlain.null.isRead_of_succ fun fuel rest enough behind => ?_
    simp [print, readValue, skipSpace, isSpace, readWord, scalar, Except.map]
  | bool b =>
    refine (IsPlain.bool b).isRead_of_succ fun fuel rest enough behind => ?_
    cases b <;> simp [print, readValue, skipSpace, isSpace, readWord, scalar, Except.map]
  | nat n =>
    refine (IsPlain.nat n).isRead_of_succ fun fuel rest enough behind => ?_
    rw [toList_print_nat]
    exact readValue_toDigits fuel n behind
  | string s =>
    refine (IsPlain.string s).isRead_of_succ fun fuel rest enough behind => ?_
    rw [print, toList_quote, List.cons_append, readValue,
      skipSpace_cons (show isSpace '"' = false from rfl)]
    change scalar ((readString _ (quoteTail s ++ rest)).map _) = _
    rw [readString_quoteTail]
    simp [Except.map, scalar, ofContents]
  | @array items each ih =>
    refine (IsPlain.array each).isRead_of_succ fun fuel rest enough behind => ?_
    rw [toList_print_array] at enough ⊢
    rw [List.cons_append, List.append_assoc, List.singleton_append, readValue,
      skipSpace_cons (show isSpace '[' = false from rfl)]
    simp only [List.length_cons, List.length_append, List.length_nil] at enough
    cases items with
    | nil => simp [itemsText, skipSpace_cons (show isSpace ']' = false from rfl)]
    | cons j items =>
      have both := fun k member => And.intro (each k member) (ih k member)
      have inside := readItems_itemsText both fuel (by omega) [] rest
      obtain ⟨c, r, first, visible, goes⟩ := head_itemsText (each j List.mem_cons_self) items
      rw [first, List.cons_append] at inside ⊢
      simp [skipSpace_cons visible, goes, inside]
  | @object entries each ih =>
    refine (IsPlain.object each).isRead_of_succ fun fuel rest enough behind => ?_
    rw [toList_print_object] at enough ⊢
    rw [List.cons_append, List.append_assoc, List.singleton_append, readValue,
      skipSpace_cons (show isSpace '{' = false from rfl)]
    simp only [List.length_cons, List.length_append, List.length_nil] at enough
    cases entries with
    | nil => simp [entriesText, skipSpace_cons (show isSpace '}' = false from rfl)]
    | cons e entries =>
      have inside := readEntries_entriesText ih fuel (by omega) [] rest
      obtain ⟨r, first⟩ := head_entriesText e entries
      rw [first, List.cons_append] at inside ⊢
      simp [skipSpace_cons (show isSpace '"' = false from rfl), inside]

/-- What is written of a plain value is the text of that value and of nothing else. -/
theorem parse_print {j : Json} (plain : IsPlain j) : parse (print j) = ⟨j, none⟩ := by
  have read := plain.isRead (2 * (print j).length + 2) [] (by rw [String.length_toList]; omega)
    .nothing
  rw [List.append_nil] at read
  rw [parse, read]
  rfl

theorem decodeBelow_nat {n bound : Nat} (small : n < bound) :
    decodeBelow bound (.nat n) = .ok n := by
  have kept : (some n).filter (· < bound) = some n := by simp [Option.filter, small]
  rw [nat, decodeBelow, Nat.toString_eq_repr, Nat.toList_repr, Text.readNat?_toDigits, kept]

end Flotilla.Json
