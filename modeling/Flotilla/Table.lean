/-!
# Tables

A `Table` maps keys to values and keeps its entries in ascending order of the keys, each key once.
`find?_insert` and `find?_erase` say what its operations do, and `ext_find?` that a table is
determined by its `find?`.
-/

namespace Flotilla

open Std

/-- A finite map whose entries are in ascending order of their keys. -/
structure Table (κ α : Type) [Ord κ] where
  entries : List (κ × α)
  ascending : entries.Pairwise fun a b => compare a.1 b.1 = .lt

namespace Table

variable {κ α β : Type} [Ord κ]

/-- The table without entries. -/
def empty : Table κ α := ⟨[], .nil⟩

instance : Inhabited (Table κ α) := ⟨empty⟩

instance [DecidableEq κ] [DecidableEq α] : DecidableEq (Table κ α) := fun a b =>
  if h : a.entries = b.entries then .isTrue (by cases a; cases b; simp_all)
  else .isFalse fun e => h (e ▸ rfl)

/-- The value of a key in a list of entries. -/
def lookup? (k : κ) : List (κ × α) → Option α
  | [] => none
  | (l, b) :: r => if compare k l = .eq then some b else lookup? k r

/-- The value of a key. -/
def find? (t : Table κ α) (k : κ) : Option α := lookup? k t.entries

/-- Whether a key has a value. -/
def contains (t : Table κ α) (k : κ) : Bool := (t.find? k).isSome

/-- The keys, in ascending order. -/
def keys (t : Table κ α) : List κ := t.entries.map (·.1)

/-- The values, in ascending order of their keys. -/
def values (t : Table κ α) : List α := t.entries.map (·.2)

/-- Puts an entry in its place in a list of entries. -/
def insertEntry (k : κ) (a : α) : List (κ × α) → List (κ × α)
  | [] => [(k, a)]
  | (l, b) :: r =>
    match compare k l with
    | .lt => (k, a) :: (l, b) :: r
    | .eq => (k, a) :: r
    | .gt => (l, b) :: insertEntry k a r

theorem mem_insertEntry {k : κ} {a : α} {e : κ × α} {l : List (κ × α)}
    (h : e ∈ insertEntry k a l) : e = (k, a) ∨ e ∈ l := by
  induction l with
  | nil => simp_all [insertEntry]
  | cons d r ih =>
    obtain ⟨l, b⟩ := d
    rw [insertEntry] at h
    split at h <;> grind

/-- Applies `f` to every value. -/
def map (f : α → β) (t : Table κ α) : Table κ β :=
  ⟨t.entries.map fun e => (e.1, f e.2), List.pairwise_map.2 t.ascending⟩

@[simp] theorem find?_empty (k : κ) : (empty : Table κ α).find? k = none := rfl

theorem lookup?_map (f : α → β) (k : κ) (es : List (κ × α)) :
    lookup? k (es.map fun e => (e.1, f e.2)) = (lookup? k es).map f := by
  induction es with
  | nil => rfl
  | cons d r ih => by_cases h : compare k d.1 = .eq <;> simp [lookup?, h, ih]

/-- `map` changes the values and leaves the keys alone. -/
theorem find?_map (t : Table κ α) (f : α → β) (k : κ) : (t.map f).find? k = (t.find? k).map f :=
  lookup?_map f k t.entries

variable [TransOrd κ] [LawfulEqOrd κ]

theorem insertEntry_ascending (k : κ) (a : α) {l : List (κ × α)}
    (h : l.Pairwise fun a b => compare a.1 b.1 = .lt) :
    (insertEntry k a l).Pairwise fun a b => compare a.1 b.1 = .lt := by
  induction l with
  | nil => simp [insertEntry]
  | cons d r ih =>
    obtain ⟨l, b⟩ := d
    obtain ⟨first, rest⟩ := List.pairwise_cons.1 h
    rw [insertEntry]
    split
    next lt =>
      refine .cons (fun e he => ?_) h
      rcases List.mem_cons.1 he with rfl | he
      · exact lt
      · exact TransCmp.lt_trans lt (first e he)
    next eq =>
      obtain rfl := LawfulEqCmp.eq_of_compare eq
      exact .cons first rest
    next gt =>
      refine .cons (fun e he => ?_) (ih rest)
      rcases mem_insertEntry he with rfl | he
      · exact OrientedCmp.lt_of_gt gt
      · exact first e he

/-- Sets the value of a key. -/
def insert (t : Table κ α) (k : κ) (a : α) : Table κ α :=
  ⟨insertEntry k a t.entries, insertEntry_ascending k a t.ascending⟩

/-- Removes a key. -/
def erase (t : Table κ α) (k : κ) : Table κ α :=
  ⟨t.entries.filter fun e => compare k e.1 ≠ .eq, t.ascending.filter _⟩

/-- The table of a list of entries.  Of entries with one key the last one counts. -/
def ofList (l : List (κ × α)) : Table κ α := l.foldl (fun t e => t.insert e.1 e.2) empty

theorem lookup?_insertEntry (k l : κ) (a : α) (es : List (κ × α)) :
    lookup? l (insertEntry k a es) = if compare l k = .eq then some a else lookup? l es := by
  induction es with
  | nil => rfl
  | cons d r ih =>
    obtain ⟨m, b⟩ := d
    rw [insertEntry]
    split
    next => rfl
    next eq =>
      obtain rfl := LawfulEqCmp.eq_of_compare eq
      by_cases h : compare l k = .eq <;> simp [lookup?, h]
    next gt =>
      rw [lookup?, ih, lookup?]
      by_cases h : compare l m = .eq
      · obtain rfl := LawfulEqCmp.eq_of_compare h
        have lt := OrientedCmp.lt_of_gt gt
        simp [lt]
      · simp [h]

/-- An inserted key has its new value, and every other key the one it had. -/
theorem find?_insert [DecidableEq κ] (t : Table κ α) (k l : κ) (a : α) :
    (t.insert k a).find? l = if l = k then some a else t.find? l := by
  rw [find?, insert, lookup?_insertEntry]
  simp [find?]

omit [TransOrd κ] in
/-- An erased key has no value, and every other key the one it had. -/
theorem find?_erase [DecidableEq κ] (t : Table κ α) (k l : κ) :
    (t.erase k).find? l = if l = k then none else t.find? l := by
  obtain ⟨es, h⟩ := t
  simp only [find?, erase]
  clear h
  induction es with
  | nil => simp [lookup?]
  | cons d r ih =>
    obtain ⟨m, b⟩ := d
    by_cases hk : compare k m = .eq
    · obtain rfl := LawfulEqCmp.eq_of_compare hk
      rw [List.filter_cons_of_neg (by simp), ih, lookup?]
      by_cases hl : l = k <;> simp [hl]
    · rw [List.filter_cons_of_pos (by simpa using hk), lookup?, ih, lookup?]
      by_cases hl : l = k
      · subst hl; simp [hk]
      · simp [hl]

omit [TransOrd κ] in
/-- An entry is found under its key. -/
theorem find?_eq_some_iff (t : Table κ α) (k : κ) (a : α) :
    t.find? k = some a ↔ (k, a) ∈ t.entries := by
  obtain ⟨es, h⟩ := t
  simp only [find?]
  induction es with
  | nil => simp [lookup?]
  | cons d r ih =>
    obtain ⟨m, b⟩ := d
    obtain ⟨first, rest⟩ := List.pairwise_cons.1 h
    by_cases hk : compare k m = .eq
    · obtain rfl := LawfulEqCmp.eq_of_compare hk
      have absent : (k, a) ∉ r := fun he => by simpa using first _ he
      simp [lookup?, absent, eq_comm]
    · have other : k ≠ m := fun e => hk (by simp [e])
      simp [lookup?, hk, ih rest, other]

/-- A table is determined by what it finds. -/
theorem ext_find? {s t : Table κ α} (h : ∀ k, s.find? k = t.find? k) : s = t := by
  have same : ∀ e, e ∈ s.entries ↔ e ∈ t.entries := fun e => by
    rw [← find?_eq_some_iff, ← find?_eq_some_iff, h]
  obtain ⟨l, hl⟩ := s
  obtain ⟨m, hm⟩ := t
  suffices l = m by subst this; rfl
  simp only at same
  clear h
  induction l generalizing m with
  | nil =>
    cases m with
    | nil => rfl
    | cons e r => exact absurd ((same e).2 (by simp)) (by simp)
  | cons d r ih =>
    obtain ⟨first, rest⟩ := List.pairwise_cons.1 hl
    cases m with
    | nil => exact absurd ((same d).1 (by simp)) (by simp)
    | cons e q =>
      obtain ⟨first', rest'⟩ := List.pairwise_cons.1 hm
      have heads : d = e := by
        rcases List.mem_cons.1 ((same d).1 (by simp)) with h | h
        · exact h
        rcases List.mem_cons.1 ((same e).2 (by simp)) with h' | h'
        · exact h'.symm
        exact absurd (first e h') (by simp [OrientedCmp.not_lt_of_lt (first' d h)])
      subst heads
      have tails : ∀ x, x ∈ r ↔ x ∈ q := fun x => by
        constructor
        · intro hx
          rcases List.mem_cons.1 ((same x).1 (List.mem_cons_of_mem _ hx)) with rfl | h
          · simpa using first x hx
          · exact h
        · intro hx
          rcases List.mem_cons.1 ((same x).2 (List.mem_cons_of_mem _ hx)) with rfl | h
          · simpa using first' x hx
          · exact h
      rw [ih rest q rest' tails]

end Table

end Flotilla
