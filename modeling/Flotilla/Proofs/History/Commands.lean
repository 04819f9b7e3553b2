import Flotilla.History.Capture

/-!
# What is recorded

Opening an entry and adding output leave the commands that are recorded already alone.  Opening an
entry does not change any output, and what is added goes to the end of one entry.
-/

namespace Flotilla.Capture

/-- The command that is recorded of a host under a sequence number. -/
def command? (t : Capture) (sequence : Nat) (host : String) : Option String :=
  t.entry? sequence host |>.map (·.command)

@[simp] theorem entry?_empty (n : Nat) (host : String) :
    entry? Table.empty n host = none := rfl

@[simp] theorem command?_empty (n : Nat) (host : String) :
    command? Table.empty n host = none := rfl

theorem entry?_setEntry (t : Capture) (n m : Nat) (host other : String) (c : Captured) :
    entry? (t.setEntry n host c) m other =
      if m = n ∧ other = host then some c else t.entry? m other := by
  unfold entry? setEntry
  rw [Table.find?_insert]
  by_cases number : m = n
  · subst number
    rw [if_pos rfl, Option.bind_some, Table.find?_insert]
    by_cases name : other = host
    · simp [name]
    · rw [if_neg name, if_neg (by simp [name])]
      cases t.find? m <;> simp
  · rw [if_neg number, if_neg (by simp [number])]

theorem command?_begin (t : Capture) (now : Moment) (n m : Nat) (host other command : String) :
    (t.begin now n host command).command? m other =
      if m = n ∧ other = host then some ((t.command? n host).getD command)
      else t.command? m other := by
  unfold begin command?
  split
  next c found =>
    split
    next same =>
      obtain ⟨rfl, rfl⟩ := same
      simp [found]
    next => rfl
  next missing =>
    rw [entry?_setEntry]
    split <;> simp [missing]

/-- Output is added to an entry that is open without a trace in its command. -/
theorem command?_append (t : Capture) (now : Moment) (n : Nat) (host : String) (data : Bytes)
    (opened : (t.command? n host).isSome) : (t.append now n host data).command? = t.command? := by
  funext m other
  unfold append command?
  split
  next c found =>
    rw [entry?_setEntry]
    split
    next same =>
      obtain ⟨rfl, rfl⟩ := same
      simp [found]
    next => rfl
  next missing => simp [command?, missing] at opened

/-- The output that is recorded of a host under a sequence number. -/
def output (t : Capture) (sequence : Nat) (host : String) : Bytes :=
  (t.entry? sequence host).elim [] (·.output)

theorem output_eq_nil {t : Capture} {n : Nat} {host : String} (missing : t.command? n host = none) :
    t.output n host = [] := by
  have entry : t.entry? n host = none := Option.map_eq_none_iff.mp missing
  rw [output, entry]
  rfl

theorem output_begin (t : Capture) (now : Moment) (n : Nat) (host command : String) :
    (t.begin now n host command).output = t.output := by
  funext m other
  unfold begin output
  split
  · rfl
  next missing =>
    rw [entry?_setEntry]
    split
    next same =>
      obtain ⟨rfl, rfl⟩ := same
      rw [missing]
      rfl
    next => rfl

theorem output_append (t : Capture) (now : Moment) (n m : Nat) (host other : String)
    (data : Bytes) : (t.append now n host data).output m other =
      t.output m other ++ if m = n ∧ other = host then data else [] := by
  unfold append output
  split
  all_goals
    next found =>
      rw [entry?_setEntry]
      split
      next same =>
        obtain ⟨rfl, rfl⟩ := same
        simp [found]
      next => simp

end Flotilla.Capture
