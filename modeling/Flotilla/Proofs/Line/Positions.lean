import Flotilla.Proofs.Line.Scanners

/-!
# Ends as positions

A scanner cuts what is left of a text.  `endIndex` is the same end as a position in the whole text,
the last one in front of the cut, and its laws are those by which scanners go on.
-/

namespace Flotilla.Line

/-- How many characters there are in front of the cut that the scanner finds. -/
def reach (scan : Scanner) (s : List Char) : Option Nat :=
  (scan s).map (·.front.length)

/-- The position of the last character of what the scanner finds in `s` from `start` on, or `e` if
it finds nothing. -/
def endIndex {ε : Type} (e : ε) (scan : Scanner) (s : List Char) (start : Nat) : Except ε Nat :=
  match reach scan (s.drop start) with
  | none => .error e
  | some n => .ok (start + n - 1)

/-- A position of `s`, not before `start`, where `mark` stands. -/
structure Marks (mark : Char) (s : List Char) (start i : Nat) : Prop where
  start_le : start ≤ i
  lt_length : i < s.length
  here : s[i]? = some mark

section

variable {ε : Type} {e : ε} {scan inner : Scanner} {s r : List Char} {start : Nat}

theorem drop_add_of_drop (lead : List Char) (here : s.drop start = lead ++ r) :
    s.drop (start + lead.length) = r := by
  rw [← List.drop_drop, here, List.drop_left]

theorem endIndex_of_some {t : Cut r} (found : scan r = some t) (here : s.drop start = r) :
    endIndex e scan s start = .ok (start + t.front.length - 1) := by
  rw [endIndex, here, reach, found]
  rfl

theorem endIndex_of_none (found : scan r = none) (here : s.drop start = r) :
    endIndex e scan s start = .error e := by
  rw [endIndex, here, reach, found]
  rfl

/-- Nothing ends behind the end of a text. -/
theorem endIndex_of_le (nothing : scan [] = none) (past : s.length ≤ start) :
    endIndex e scan s start = .error e :=
  endIndex_of_none nothing (List.drop_eq_nil_of_le past)

theorem endIndex_of_one {c : Char} (here : s.drop start = c :: r)
    (step : scan (c :: r) = some (.one c r)) : endIndex e scan s start = .ok start :=
  endIndex_of_some step here

/-- A scanner that skips `lead` and goes on as `inner`. -/
theorem endIndex_of_once (lead : List Char) (here : s.drop start = lead ++ r)
    (step : scan (lead ++ r) = do
      let t ← inner r
      return t.behind lead) :
    endIndex e scan s start = endIndex e inner s (start + lead.length) := by
  have rest := drop_add_of_drop lead here
  cases found : inner r with
  | none =>
    rw [found] at step
    rw [endIndex_of_none found rest, endIndex_of_none step here]
  | some t =>
    rw [found] at step
    rw [endIndex_of_some found rest, endIndex_of_some step here]
    simp [Cut.behind, Nat.add_assoc]

/-- A scanner that skips `lead` and what `inner` finds, and then goes on as `later`. -/
theorem endIndex_of_twice {later : Scanner} (lead : List Char) (here : s.drop start = lead ++ r)
    (step : scan (lead ++ r) = do
      let t ← inner r
      let u ← later t.back
      return (t.trans u).behind lead) :
    endIndex e scan s start =
      endIndex e inner s (start + lead.length) >>= fun k => endIndex e later s (k + 1) := by
  have rest := drop_add_of_drop lead here
  cases found : inner r with
  | none =>
    rw [found] at step
    rw [endIndex_of_none found rest, endIndex_of_none step here]
    rfl
  | some t =>
    simp only [found, Option.bind_eq_bind, Option.bind_some] at step
    have some_ := List.length_pos_iff.mpr t.front_ne_nil
    have go_on : start + lead.length + t.front.length - 1 + 1 =
        start + lead.length + t.front.length := by omega
    have behind : s.drop (start + lead.length + t.front.length) = t.back :=
      drop_add_of_drop t.front (rest.trans t.front_append_back.symm)
    rw [endIndex_of_some found rest, ok_bind, go_on]
    cases found' : later t.back with
    | none =>
      rw [found'] at step
      rw [endIndex_of_none found' behind, endIndex_of_none step here]
    | some u =>
      rw [found'] at step
      rw [endIndex_of_some found' behind, endIndex_of_some step here]
      simp [Cut.behind, Cut.trans, Nat.add_assoc]

/-- The end that a settled scanner finds lies in the text, and its mark stands there. -/
theorem Settled.marks {mark : Char} {i : Nat} (settled : ∀ s, Settled mark scan s)
    (ends : endIndex e scan s start = .ok i) : Marks mark s start i := by
  generalize here : s.drop start = rest at *
  cases found : scan rest with
  | none =>
    rw [endIndex_of_none found here] at ends
    cases ends
  | some t =>
    rw [endIndex_of_some found here] at ends
    obtain rfl := Except.ok.inj ends
    have some_ := List.length_pos_iff.mpr t.front_ne_nil
    have last : t.front[t.front.length - 1]? = some mark := by
      rw [← List.getLast?_eq_getElem?]
      exact (settled rest t found).1
    have stands : s[start + t.front.length - 1]? = some mark := by
      rw [Nat.add_sub_assoc some_, ← List.getElem?_drop, here]
      nth_rewrite 1 [← t.front_append_back]
      rw [List.getElem?_append_left (by omega), last]
    exact ⟨by omega, (List.getElem?_eq_some_iff.mp stands).1, stands⟩

end

end Flotilla.Line
