/-!
# Lines

A line ends with a line feed, which a carriage return may precede; the last line of a text may lack
its end.  `lines` takes the ends off, and `linesWithEnds` keeps them, so that it only cuts the text.
-/

namespace Flotilla.Text

/-- Puts an item in front of the first of several lists. -/
def consFirst {α : Type} (a : α) : List (List α) → List (List α)
  | [] => [[a]]
  | l :: ls => (a :: l) :: ls

/-- The lines of a text without their ends. -/
def lines : List Char → List (List Char)
  | [] => []
  | '\n' :: r => [] :: lines r
  | '\r' :: '\n' :: r => [] :: lines r
  | c :: r => consFirst c (lines r)

/-- The parts of a list up to and including each `stop`, and what is left after the last one. -/
def linesWithEnds {α : Type} [BEq α] (stop : α) : List α → List (List α)
  | [] => []
  | a :: r => if a == stop then [a] :: linesWithEnds stop r else consFirst a (linesWithEnds stop r)

/-- Cutting a list into lines loses nothing. -/
theorem flatten_linesWithEnds {α : Type} [BEq α] (stop : α) (s : List α) :
    (linesWithEnds stop s).flatten = s := by
  induction s with
  | nil => rfl
  | cons a r ih =>
    rw [linesWithEnds]
    split
    · simp [ih]
    · cases h : linesWithEnds stop r <;> simp_all [consFirst]

end Flotilla.Text
