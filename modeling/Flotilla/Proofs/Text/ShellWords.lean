import Flotilla.Text.ShellWords

/-!
# Counting the words of a command

Where a command is cut into words depends on the places of its characters alone.  `length_split`
counts the words along the places, and `CutAlike` texts can stand for each other in any command
(`CutAlike.length_split`).  `eq_of_sight` tells places apart by what may follow.
-/

namespace Flotilla.ShellWords

namespace Place

/-- The place behind a character. -/
def next (p : Place) (c : Char) : Place := (State.step { place := p } c).place

/-- Whether a character completes a word. -/
def completes (p : Place) (c : Char) : Bool := p = .word && isSeparator c

/-- The place behind a text. -/
def after (p : Place) (text : List Char) : Place := text.foldl next p

/-- How many words a text completes. -/
def completed : Place → List Char → Nat
  | _, [] => 0
  | p, c :: r => (p.completes c).toNat + (p.next c).completed r

/-- How many words are completed by the end of a command, if it may end there. -/
def ends? : Place → Option Nat
  | .between | .comment => some 0
  | .word => some 1
  | _ => none

/-- The words of a text that ends a command. -/
def sight (p : Place) (text : List Char) : Option Nat :=
  ((p.after text).ends?).map (p.completed text + ·)

@[simp] theorem after_append (p : Place) (a b : List Char) :
    p.after (a ++ b) = (p.after a).after b :=
  List.foldl_append

@[simp] theorem completed_append (p : Place) (a b : List Char) :
    p.completed (a ++ b) = p.completed a + (p.after a).completed b := by
  induction a generalizing p with
  | nil => exact (Nat.zero_add _).symm
  | cons c a ih =>
    rw [List.cons_append, completed, completed, ih, Nat.add_assoc]
    rfl

theorem sight_append (p : Place) (a b : List Char) :
    p.sight (a ++ b) = ((p.after a).sight b).map (p.completed a + ·) := by
  simp only [sight, after_append, completed_append, Option.map_map]
  congr 1
  funext n
  exact Nat.add_assoc ..

end Place

/-! ### Words along the places -/

namespace State

theorem place_stepWord (s : State) (c : Char) : (s.stepWord c).place = (stepWord {} c).place := by
  unfold stepWord
  repeat' split
  all_goals rfl

theorem length_words_stepWord (s : State) (c : Char) :
    (s.stepWord c).words.length = s.words.length + (isSeparator c).toNat := by
  unfold stepWord
  split
  next quote => rw [quote]; rfl
  split
  next quote => rw [quote]; rfl
  split
  next escape => rw [escape]; rfl
  split
  next separator => simp [complete, separator]
  next other => simp [take, other]

theorem place_step (s : State) (c : Char) : (s.step c).place = s.place.next c := by
  obtain ⟨place, words, current⟩ := s
  unfold Place.next step
  cases place with
  | between =>
    dsimp only
    repeat' split
    · rfl
    · rfl
    · rw [place_stepWord, place_stepWord ⟨.between, [], []⟩]
  | word => exact (place_stepWord _ c).trans (place_stepWord _ c).symm
  | comment | escaped | single | double | doubleEscaped =>
    dsimp only
    repeat' split
    all_goals rfl

theorem length_words_step (s : State) (c : Char) :
    (s.step c).words.length = s.words.length + (s.place.completes c).toNat := by
  obtain ⟨place, words, current⟩ := s
  unfold step Place.completes
  cases place with
  | between =>
    dsimp only
    repeat' split
    · rfl
    · rfl
    next other _ => simp [length_words_stepWord, other]
  | word => exact length_words_stepWord _ c
  | comment | escaped | single | double | doubleEscaped =>
    dsimp only
    repeat' split
    all_goals rfl

theorem place_foldl (s : State) (text : List Char) :
    (text.foldl step s).place = s.place.after text := by
  induction text generalizing s with
  | nil => rfl
  | cons c r ih => rw [List.foldl_cons, ih, place_step]; rfl

theorem length_words_foldl (s : State) (text : List Char) :
    (text.foldl step s).words.length = s.words.length + s.place.completed text := by
  induction text generalizing s with
  | nil => rfl
  | cons c r ih => rw [List.foldl_cons, ih, length_words_step, place_step, Nat.add_assoc]; rfl

theorem length_finish? (s : State) :
    s.finish?.map List.length = s.place.ends?.map (s.words.length + ·) := by
  obtain ⟨place, words, current⟩ := s
  cases place <;> simp [finish?, Place.ends?, complete]

end State

theorem length_split (command : List Char) :
    (split command).map List.length = Place.between.sight command := by
  rw [split, State.length_finish?, State.place_foldl, State.length_words_foldl]
  simp [Place.sight]

/-! ### Texts that can stand for each other -/

/-- Texts that lead from each place to the same one and complete as many words on the way. -/
def CutAlike (a b : List Char) : Prop :=
  ∀ p : Place, p.after a = p.after b ∧ p.completed a = p.completed b

namespace CutAlike

theorem refl (a : List Char) : CutAlike a a := fun _ => ⟨rfl, rfl⟩

theorem append {a b c d : List Char} (front : CutAlike a b) (back : CutAlike c d) :
    CutAlike (a ++ c) (b ++ d) := by
  intro p
  obtain ⟨place, words⟩ := front p
  obtain ⟨place', words'⟩ := back (p.after b)
  simp only [Place.after_append, Place.completed_append, place, words, place', words', and_self]

theorem length_split {a b : List Char} (alike : CutAlike a b) :
    (split a).map List.length = (split b).map List.length := by
  obtain ⟨place, words⟩ := alike .between
  rw [ShellWords.length_split, ShellWords.length_split, Place.sight, Place.sight, place, words]

end CutAlike

theorem completed_of_clean {text : List Char} (clean : ∀ c ∈ text, isSeparator c = false)
    (p : Place) : p.completed text = 0 := by
  induction text generalizing p with
  | nil => rfl
  | cons c r ih =>
    obtain ⟨first, later⟩ := List.forall_mem_cons.mp clean
    rw [Place.completed, ih later, Place.completes, first, Bool.and_false]
    rfl

/-- Texts without separators can stand for each other if they lead to the same places. -/
theorem cutAlike_iff_of_clean {a b : List Char} (clean : ∀ c ∈ a, isSeparator c = false)
    (clean' : ∀ c ∈ b, isSeparator c = false) :
    CutAlike a b ↔ ∀ p : Place, p.after a = p.after b := by
  simp only [CutAlike, completed_of_clean clean, completed_of_clean clean', and_true]

/-! ### Telling places apart -/

namespace Place

/-- A text that leads to a place, behind a first word. -/
def opening : Place → List Char
  | .between => "x ".toList
  | .comment => "x #".toList
  | .word => "x x".toList
  | .escaped => "x \\".toList
  | .single => "x '".toList
  | .double => "x \"".toList
  | .doubleEscaped => "x \"\\".toList

theorem after_opening (p : Place) : between.after p.opening = p := by
  cases p <;> decide

theorem completed_opening (p : Place) : between.completed p.opening = 1 := by
  cases p <;> decide

/-- Texts that end commands in different ways. -/
def endings : List (List Char) := [[], ['a'], ['\''], ['"']]

/-- Where a command stands is known by how many words it has with each of these endings. -/
theorem eq_of_sight {p q : Place} (same : ∀ text ∈ endings, p.sight text = q.sight text) :
    p = q := by
  revert same
  cases p <;> cases q <;> decide

end Place

end Flotilla.ShellWords
