import Mathlib.Data.List.Basic
import Flotilla.Text.Lines

/-!
# Lines of texts put together

A text that ends with its last line can be followed by other lines, and a last line without an end
can be given one.  `lineInduction` takes a text line by line.
-/

namespace Flotilla.Text

variable {α : Type}

/-- A list is a part of a line, or a line in front of another list. -/
theorem lineInduction [DecidableEq α] (stop : α) {motive : List α → Prop}
    (part : ∀ line, stop ∉ line → motive line)
    (line : ∀ line r, stop ∉ line → motive r → motive (line ++ stop :: r)) (data : List α) :
    motive data := by
  -- The items in front of the next stop are put aside until it comes.
  suffices h : ∀ before, stop ∉ before → motive (before ++ data) from h [] List.not_mem_nil
  induction data with
  | nil =>
    intro before none
    simpa using part before none
  | cons b r ih =>
    intro before none
    by_cases ends : b = stop
    · rw [ends]
      exact line before r none (ih [] List.not_mem_nil)
    · have more := ih (before ++ [b]) (by simp [none, Ne.symm ends])
      rwa [List.append_assoc] at more

/-- A list without an item at its end. -/
def withoutEnd [DecidableEq α] (a : α) (l : List α) : List α :=
  if l.getLast? = some a then l.dropLast else l

theorem withoutEnd_concat [DecidableEq α] (a b : α) (l : List α) :
    withoutEnd a (l ++ [b]) = if b = a then l else l ++ [b] := by
  simp [withoutEnd]

theorem withoutEnd_cons [DecidableEq α] (a b : α) {l : List α} (some_ : l ≠ []) :
    withoutEnd a (b :: l) = b :: withoutEnd a l := by
  obtain ⟨front, c, rfl⟩ := (List.eq_nil_or_concat' l).resolve_left some_
  rw [← List.cons_append, withoutEnd_concat, withoutEnd_concat]
  split <;> rfl

theorem lines_of_not_mem {line : List Char} (none : '\n' ∉ line) :
    lines line = if line = [] then [] else [line] := by
  induction line with
  | nil => rfl
  | cons c r ih =>
    have other : c ≠ '\n' := (List.ne_of_not_mem_cons none).symm
    have later : '\n' ∉ r := List.not_mem_of_not_mem_cons none
    rw [lines.eq_4, ih later]
    · by_cases last : r = []
      · simp [last, consFirst]
      · simp [last, consFirst]
    · exact other
    · rintro r' - rfl
      exact later List.mem_cons_self

/-- A line that is ended loses a carriage return at its end. -/
theorem lines_line_append {line : List Char} (none : '\n' ∉ line) (r : List Char) :
    lines (line ++ '\n' :: r) = withoutEnd '\r' line :: lines r := by
  induction line with
  | nil => rfl
  | cons c l ih =>
    have other : c ≠ '\n' := (List.ne_of_not_mem_cons none).symm
    have later : '\n' ∉ l := List.not_mem_of_not_mem_cons none
    cases l with
    | nil =>
      by_cases returns : c = '\r'
      · rw [returns]
        rfl
      · rw [List.cons_append, lines.eq_4 _ _ other fun _ same => absurd same returns]
        simp [lines, consFirst, withoutEnd, returns]
    | cons d l =>
      rw [List.cons_append, lines.eq_4, ih later, withoutEnd_cons _ _ (List.cons_ne_nil d l)]
      · rfl
      · exact other
      · rintro r' - same
        exact later (by rw [(List.cons.inj same).1]; exact List.mem_cons_self)

theorem consFirst_append (a : α) {l : List (List α)} (some_ : l ≠ []) (m : List (List α)) :
    consFirst a (l ++ m) = consFirst a l ++ m := by
  cases l with
  | nil => exact absurd rfl some_
  | cons => rfl

theorem linesWithEnds_ne_nil [BEq α] {stop : α} {s : List α} (some_ : s ≠ []) :
    linesWithEnds stop s ≠ [] := by
  intro none
  have whole := flatten_linesWithEnds stop s
  rw [none] at whole
  exact some_ whole.symm

variable [BEq α] [LawfulBEq α] {stop : α}

theorem linesWithEnds_append {s : List α} (ends : ∀ a ∈ s.getLast?, a = stop) (t : List α) :
    linesWithEnds stop (s ++ t) = linesWithEnds stop s ++ linesWithEnds stop t := by
  induction s with
  | nil => rfl
  | cons a r ih =>
    have later : ∀ b ∈ r.getLast?, b = stop := by
      intro b last
      exact ends b (by rw [List.getLast?_cons, Option.mem_def.mp last]; rfl)
    rw [List.cons_append, linesWithEnds, linesWithEnds, ih later]
    split
    · rfl
    next other =>
      -- A line that goes on behind `a` is there, because `a` does not end the text.
      have some_ : r ≠ [] := by
        rintro rfl
        exact other (beq_iff_eq.mpr (ends a rfl))
      exact consFirst_append a (linesWithEnds_ne_nil some_) _

theorem linesWithEnds_line {s : List α} (none : stop ∉ s) :
    linesWithEnds stop (s ++ [stop]) = [s ++ [stop]] := by
  induction s with
  | nil => simp [linesWithEnds]
  | cons a r ih =>
    have other : stop ≠ a := List.ne_of_not_mem_cons none
    rw [List.cons_append, linesWithEnds, if_neg (by simpa using Ne.symm other),
      ih (List.not_mem_of_not_mem_cons none)]
    rfl

/-- A last line that lacks its end gets it, and the other lines stay. -/
theorem linesWithEnds_append_stop {s : List α} (some_ : s ≠ []) (lacks : s.getLast? ≠ some stop) :
    ∃ front last, linesWithEnds stop s = front ++ [last] ∧
      linesWithEnds stop (s ++ [stop]) = front ++ [last ++ [stop]] := by
  induction s with
  | nil => exact absurd rfl some_
  | cons a r ih =>
    rw [List.cons_append, linesWithEnds, linesWithEnds]
    by_cases single : r = []
    · subst single
      have other : a ≠ stop := fun same => lacks (by rw [same]; rfl)
      exact ⟨[], [a], by simp [other, linesWithEnds, consFirst]⟩
    · obtain ⟨front, last, before, after⟩ := ih single (by
        rwa [List.getLast?_cons_of_ne_nil single] at lacks)
      rw [before, after]
      split
      · exact ⟨[a] :: front, last, rfl, rfl⟩
      · cases front with
        | nil => exact ⟨[], a :: last, rfl, rfl⟩
        | cons line front => exact ⟨(a :: line) :: front, last, rfl, rfl⟩

end Flotilla.Text
