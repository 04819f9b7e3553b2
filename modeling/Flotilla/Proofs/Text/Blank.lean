import Mathlib.Data.List.DropRight
import Flotilla.Text.Blank

/-!
# Trimmed texts

What is left of a text without the blanks at its ends.
-/

namespace Flotilla.Text

theorem trim_eq_nil_iff (s : List Char) : trim s = [] ↔ ∀ c ∈ s, isBlank c := by
  have dropped : ∀ t : List Char, t.dropWhile isBlank = [] ↔ ∀ c ∈ t, isBlank c := by
    intro t
    induction t with
    | nil => simp
    | cons c t ih => by_cases blank : isBlank c <;> simp [List.dropWhile, blank, ih]
  unfold trim trimEnd trimStart
  rw [List.reverse_eq_nil_iff, dropped, ← dropped s]
  constructor
  · intro only
    induction s with
    | nil => rfl
    | cons c s ih =>
      by_cases blank : isBlank c
      · simp only [List.dropWhile, blank] at only ⊢
        exact ih only
      · have at_c := only c (by simp [List.dropWhile, blank])
        exact absurd at_c blank
  · intro none
    simp [none]

theorem trim_eq_self {s : List Char} (visible : ∀ c ∈ s, isBlank c = false) : trim s = s := by
  have kept : ∀ t : List Char, (∀ c ∈ t, isBlank c = false) → t.dropWhile isBlank = t := by
    intro t visible
    cases t with
    | nil => rfl
    | cons c t => rw [List.dropWhile_cons_of_neg (by simp [visible c List.mem_cons_self])]
  rw [trim, trimStart, kept s visible, trimEnd, kept s.reverse (by simpa using visible),
    List.reverse_reverse]

/-- A text that starts with no blank starts alike when trimmed. -/
theorem head?_trim_cons {c : Char} (visible : isBlank c = false) (r : List Char) :
    (trim (c :: r)).head? = some c := by
  have kept : ∀ s : List Char, ((s ++ [c]).dropWhile isBlank).getLast? = some c := by
    intro s
    induction s with
    | nil => simp [visible]
    | cons d s ih =>
      by_cases blank : isBlank d
      · simpa [blank] using ih
      · rw [List.cons_append, List.dropWhile_cons_of_neg blank, ← List.cons_append,
          List.getLast?_concat]
  have start : trimStart (c :: r) = c :: r := by simp [trimStart, List.dropWhile, visible]
  rw [trim, start, trimEnd, List.head?_reverse, List.reverse_cons]
  exact kept r.reverse

/-- Blanks around a text that neither starts nor ends with one are what is trimmed. -/
theorem trim_between {l m r : List Char} {a b : Char} (before : ∀ c ∈ l, isBlank c)
    (behind : ∀ c ∈ r, isBlank c) (first : m.head? = some a) (last : m.getLast? = some b)
    (seen : isBlank a = false ∧ isBlank b = false) : trim (l ++ m ++ r) = m := by
  obtain ⟨m', rfl⟩ := List.head?_eq_some_iff.mp first
  obtain ⟨m'', ends⟩ := List.getLast?_eq_some_iff.mp last
  have start : trimStart (l ++ (a :: m') ++ r) = a :: m' ++ r := by
    rw [trimStart, List.append_assoc, List.dropWhile_append_of_pos before, List.cons_append,
      List.dropWhile_cons_of_neg (by simp [seen.1])]
  rw [trim, start, trimEnd, ends, List.reverse_append, List.reverse_append,
    List.dropWhile_append_of_pos (by simpa using behind), List.reverse_singleton,
    List.singleton_append, List.dropWhile_cons_of_neg (by simp [seen.2]), List.reverse_cons,
    List.reverse_reverse]

theorem head?_trimStart (s : List Char) : ∀ c ∈ (trimStart s).head?, isBlank c = false := by
  intro c first
  have stops := List.head?_dropWhile_not isBlank s
  rw [← trimStart, Option.mem_def.mp first] at stops
  simpa using stops

/-- A trimmed text neither starts nor ends with a blank. -/
theorem head?_trim (s : List Char) : ∀ c ∈ (trim s).head?, isBlank c = false := by
  intro c first
  apply head?_trimStart s
  have start : trim s <+: trimStart s := List.rdropWhile_prefix isBlank (trimStart s)
  obtain ⟨more, whole⟩ := start
  rw [Option.mem_def, ← whole, List.head?_append, Option.mem_def.mp first]
  rfl

theorem getLast?_trim (s : List Char) : ∀ c ∈ (trim s).getLast?, isBlank c = false := by
  intro c last
  obtain ⟨some_, ends⟩ := List.mem_getLast?_eq_getLast last
  have stops := List.rdropWhile_last_not isBlank (trimStart s) some_
  rw [ends]
  simpa [List.rdropWhile, trim, trimEnd] using stops

end Flotilla.Text
