/-!
# Cutting lists

A reader takes a first part off a list and goes on with what follows it.  `Cut s` is `s` in two,
behind a first part that is not empty: nothing is lost, and what follows is shorter, which is why
reading on comes to an end.
-/

namespace Flotilla

/-- A list in two, behind a first part that is not empty. -/
structure Cut {α : Type} (s : List α) where
  front : List α
  back : List α
  front_append_back : front ++ back = s
  front_ne_nil : front ≠ []

namespace Cut

variable {α : Type} {s : List α}

theorem length_back_lt (t : Cut s) : t.back.length < s.length := by
  have whole := congrArg List.length t.front_append_back
  have some_ := List.length_pos_iff.2 t.front_ne_nil
  rw [List.length_append] at whole
  omega

/-- The cut behind the first item. -/
def one (c : α) (r : List α) : Cut (c :: r) := ⟨[c], r, rfl, List.cons_ne_nil c []⟩

/-- The cut behind the first item and all after it that satisfy `p`. -/
def oneAndWhile (p : α → Bool) (c : α) (r : List α) : Cut (c :: r) where
  front := c :: r.takeWhile p
  back := r.dropWhile p
  front_append_back := congrArg (c :: ·) List.takeWhile_append_dropWhile
  front_ne_nil := List.cons_ne_nil c _

/-- The cut in the same place, with one more item in front. -/
def cons (c : α) (t : Cut s) : Cut (c :: s) where
  front := c :: t.front
  back := t.back
  front_append_back := congrArg (c :: ·) t.front_append_back
  front_ne_nil := List.cons_ne_nil c t.front

/-- A cut of what follows, with all that is in front of it. -/
def trans (t : Cut s) (u : Cut t.back) : Cut s where
  front := t.front ++ u.front
  back := u.back
  front_append_back := by
    rw [List.append_assoc, u.front_append_back, t.front_append_back]
  front_ne_nil := List.append_ne_nil_of_left_ne_nil t.front_ne_nil u.front

/-- The cut one item further on. -/
def advance (t : Cut s) {c : α} {r : List α} (h : t.back = c :: r) : Cut s where
  front := t.front ++ [c]
  back := r
  front_append_back := by
    rw [List.append_assoc, List.singleton_append, ← h, t.front_append_back]
  front_ne_nil := List.append_ne_nil_of_left_ne_nil t.front_ne_nil [c]

end Cut

end Flotilla
