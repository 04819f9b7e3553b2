import Mathlib.Data.List.TakeDrop
import Mathlib.Data.List.TakeWhile

/-!
# First parts of texts

Where the first part of a text ends is known when the same characters stop it: `append_inj_of_span`.
-/

namespace Flotilla.Text

variable {α : Type} {p : α → Bool} {a b c d l : List α}

theorem span_eq_iff :
    l.span p = (a, b) ↔ l = a ++ b ∧ (∀ x ∈ a, p x) ∧ ∀ x ∈ b.head?, p x = false := by
  rw [List.span_eq_takeWhile_dropWhile, Prod.mk.injEq]
  constructor
  · rintro ⟨rfl, rfl⟩
    refine ⟨List.takeWhile_append_dropWhile.symm, fun x => List.mem_takeWhile_imp, ?_⟩
    have stops := List.head?_dropWhile_not p l
    intro x first
    rw [first] at stops
    simpa using stops
  · rintro ⟨rfl, all, stops⟩
    rw [List.takeWhile_append_of_pos all, List.dropWhile_append_of_pos all]
    cases b with
    | nil => simp
    | cons x b => simp [stops x rfl]

/-- Two texts whose first parts end where the same characters stop are the same part by part. -/
theorem append_inj_of_span (same : a ++ b = c ++ d) (left : ∀ x ∈ a, p x)
    (stops : ∀ x ∈ b.head?, p x = false) (right : ∀ x ∈ c, p x)
    (stops' : ∀ x ∈ d.head?, p x = false) : a = c ∧ b = d := by
  have first := span_eq_iff.mpr ⟨rfl, left, stops⟩
  have second := span_eq_iff.mpr ⟨rfl, right, stops'⟩
  rw [same, second] at first
  exact ⟨(congrArg (·.1) first).symm, (congrArg (·.2) first).symm⟩

end Flotilla.Text
