import Flotilla.Files

/-!
# What files hold after they were written

A file that is written or appended to reads as what was put into it, and making a directory leaves
the files alone.
-/

namespace Flotilla

namespace Files

theorem read_write {fs : Files} {path : String} {before : Except IoFault Bytes}
    (read : fs.read path = before) (file : before ≠ .error .isDirectory)
    (plain : path ≠ "" ∧ ¬ path.endsWith "/") (bytes : Bytes) :
    (fs.write path bytes).read path = .ok bytes := by
  have same : (fs.write path bytes).isDirectory path = fs.isDirectory path := rfl
  have free : ¬ fs.isDirectory path := by
    intro directory
    rw [Files.read, if_neg plain.1, if_pos directory] at read
    exact file read.symm
  rw [Files.read, if_neg plain.1, same, if_neg free, write, Table.find?_insert, if_pos rfl]
  simp [plain.2]

/-- What is appended stands behind what a file holds, and a file that is missing holds nothing. -/
theorem read_of_append {fs after : Files} {path : String} {bytes : Bytes}
    (appended : fs.append path bytes = .ok after) : ∃ old,
      (fs.read path = .ok old ∨ fs.read path = .error .missing ∧ old = []) ∧
      after.read path = .ok (old ++ bytes) := by
  unfold append at appended
  split at appended
  next old read =>
    cases appended
    have plain : path ≠ "" ∧ ¬ path.endsWith "/" := by
      refine ⟨?_, ?_⟩
      · rintro rfl
        simp [Files.read] at read
      · intro ends
        unfold Files.read at read
        repeat' split at read
        all_goals cases read
    exact ⟨old, .inl read, read_write read (by simp) plain _⟩
  next read =>
    split at appended
    next allowed =>
      cases appended
      exact ⟨[], .inr ⟨read, rfl⟩, read_write read (by simp) ⟨allowed.1, allowed.2.2⟩ _⟩
    next => cases appended
  next => cases appended

/-- Making a directory changes no file, though a directory may stand in the way of one. -/
theorem read_of_createDirectory {fs after : Files} {directory path : String}
    {result : Except IoFault Bytes} (created : fs.createDirectory directory = .ok after)
    (read : after.read path = result) (file : result ≠ .error .isDirectory) :
    fs.read path = result := by
  unfold createDirectory at created
  dsimp only at created
  split at created
  · cases created
  · cases created
    rw [← read]
    unfold Files.read at read ⊢
    have kept : fs.isDirectory path → (fs.addDirectory (plain directory)).isDirectory path := by
      intro member
      simp only [isDirectory, addDirectory, List.contains_eq_mem, decide_eq_true_eq] at member ⊢
      exact List.mem_append_left _ member
    split
    · rfl
    next some_ =>
      rw [if_neg some_] at read
      by_cases blocked : (fs.addDirectory (plain directory)).isDirectory path
      · rw [if_pos blocked] at read
        exact absurd read.symm file
      · rw [if_neg blocked, if_neg fun member => blocked (kept member)]
        rfl

end Files

end Flotilla
