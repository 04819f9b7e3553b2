import Flotilla.History.Log
import Flotilla.Proofs.Failure
import Flotilla.Proofs.Files
import Flotilla.Proofs.Text.Lines
import Flotilla.Proofs.Text.Utf8

/-!
# What a command log reads as

An entry takes up one line of the log whatever its command is, because line breaks are written as
escapes.  So a log that is empty at first reads as its entries in order, one line each, through
however many sessions they were appended (`read_of_appendSessions`).
-/

namespace Flotilla

/-- Whether a moment is written the way clocks write it: digits with signs, colons and spaces. -/
def Moment.IsWritten (m : Moment) : Prop :=
  ∀ c ∈ m.short.toList, c.isDigit ∨ c ∈ ['-', '+', ':', ' ']

instance (m : Moment) : Decidable m.IsWritten :=
  List.decidableBAll (fun c : Char => c.isDigit ∨ c ∈ ['-', '+', ':', ' ']) m.short.toList

/-- A text that keeps to its line. -/
def Unbroken (s : List Char) : Prop := ∀ c ∈ s, c ≠ '\n' ∧ c ≠ '\r'

instance (s : List Char) : Decidable (Unbroken s) :=
  List.decidableBAll (fun c : Char => c ≠ '\n' ∧ c ≠ '\r') s

theorem Moment.IsWritten.unbroken {m : Moment} (written : m.IsWritten) :
    Unbroken m.short.toList := by
  intro c member
  constructor <;> rintro rfl <;> exact absurd (written _ member) (by decide)

namespace CommandLog

/-- A command with the time at which it was submitted. -/
structure Entry where
  time : Moment
  command : String

/-- The line of an entry. -/
def Entry.line (e : Entry) : String := CommandLog.line e.time e.command

/-! ### One line for each entry -/

/-- A text with `others` in the place of each `c`. -/
def replaced (c : Char) (others s : List Char) : List Char :=
  s.flatMap fun d => if d = c then others else [d]

/-- What stands for a carriage return holds no line feed, so the two kinds of line breaks may be
replaced one after the other. -/
theorem flat_eq_replaced (s : List Char) :
    flat s = replaced '\n' ['\\', 'n'] (replaced '\r' ['\\', 'r'] s) := by
  rw [replaced, replaced, List.flatMap_assoc]
  refine List.flatMap_congr fun c _ => ?_
  by_cases returns : c = '\r'
  · simp [returns]
  · simp [returns]

theorem unbroken_flat (s : List Char) : Unbroken (flat s) := by
  intro c member
  obtain ⟨d, -, here⟩ := List.mem_flatMap.mp member
  split at here
  · exact (by decide : Unbroken ['\\', 'r']) c here
  next returns =>
    split at here
    · exact (by decide : Unbroken ['\\', 'n']) c here
    next feeds =>
      obtain rfl := List.mem_singleton.mp here
      exact ⟨feeds, returns⟩

theorem Entry.unbroken_line {e : Entry} (written : e.time.IsWritten) : Unbroken e.line.toList := by
  intro c member
  simp only [Entry.line, CommandLog.line, String.toList_append, String.toList_ofList,
    List.mem_append] at member
  rcases member with (time | space) | command
  · exact written.unbroken c time
  · exact (by decide : Unbroken " ".toList) c space
  · exact unbroken_flat _ c command

/-- The text of a log with these entries. -/
def content (entries : List Entry) : String := String.join (entries.map fun e => e.line ++ "\n")

theorem content_append (entries later : List Entry) :
    content (entries ++ later) = content entries ++ content later := by
  simp [content, String.join_append]

theorem lines_content {entries : List Entry} (written : ∀ e ∈ entries, e.time.IsWritten) :
    Text.lines (content entries).toList = entries.map (·.line.toList) := by
  induction entries with
  | nil => rfl
  | cons e entries ih =>
    obtain ⟨first, later⟩ := List.forall_mem_cons.mp written
    have unbroken := e.unbroken_line first
    have kept : Text.withoutEnd '\r' e.line.toList = e.line.toList :=
      if_neg fun last => (unbroken _ (List.mem_of_getLast? last)).2 rfl
    have whole : (content (e :: entries)).toList =
        e.line.toList ++ '\n' :: (content entries).toList := by
      simp [content]
    rw [whole, Text.lines_line_append fun feed => (unbroken _ feed).1 rfl, kept, ih later]
    rfl

/-! ### Appending -/

/-- The log at `path` consists of these entries.  It may be missing as long as there are none. -/
def Holds (path : String) (fs : Files) (entries : List Entry) : Prop :=
  fs.read path = .ok (utf8 (content entries)) ∨ fs.read path = .error .missing ∧ entries = []

/-- Appends entries in order. -/
def appendAll (path : Option String) (fs : Files) (entries : List Entry) : Except IoFault Files :=
  entries.foldlM (fun fs e => append path fs e.time e.command) fs

/-- Appends the entries of sessions, each of which opens the log anew. -/
def appendSessions (path : Option String) (fs : Files) (sessions : List (List Entry)) :
    Except IoFault Files :=
  sessions.foldlM (appendAll path) fs

theorem Holds.append {path : String} {fs after : Files} {entries : List Entry} {e : Entry}
    (holds : Holds path fs entries)
    (appended : CommandLog.append (some path) fs e.time e.command = .ok after) :
    Holds path after (entries ++ [e]) := by
  obtain ⟨old, before, read⟩ := Files.read_of_append appended
  have same : old = utf8 (content entries) := by
    rcases holds with present | ⟨missing, rfl⟩
    · rcases before with present' | ⟨missing, -⟩
      · rw [present] at present'
        exact (Except.ok.inj present').symm
      · rw [present] at missing
        cases missing
    · rcases before with present | ⟨-, rfl⟩
      · rw [missing] at present
        cases present
      · rfl
  left
  rw [read, same, content_append, utf8_append]
  simp [content, Entry.line]

theorem Holds.appendAll {path : String} {fs after : Files} {entries later : List Entry}
    (holds : Holds path fs entries)
    (appended : CommandLog.appendAll (some path) fs later = .ok after) :
    Holds path after (entries ++ later) := by
  induction later generalizing fs entries with
  | nil =>
    cases appended
    rwa [List.append_nil]
  | cons e later ih =>
    obtain ⟨between, first, rest⟩ := bind_eq_ok.mp appended
    have whole := ih (holds.append first) rest
    rwa [List.append_assoc] at whole

theorem Holds.appendSessions {path : String} {fs after : Files} {entries : List Entry}
    {sessions : List (List Entry)} (holds : Holds path fs entries)
    (appended : CommandLog.appendSessions (some path) fs sessions = .ok after) :
    Holds path after (entries ++ sessions.flatten) := by
  induction sessions generalizing fs entries with
  | nil =>
    cases appended
    simpa using holds
  | cons session sessions ih =>
    obtain ⟨between, first, rest⟩ := bind_eq_ok.mp appended
    have whole := ih (holds.appendAll first) rest
    rwa [List.append_assoc, ← List.flatten_cons] at whole

/-! ### Reading -/

theorem Holds.read {path : String} {fs : Files} {entries : List Entry}
    (holds : Holds path fs entries) (written : ∀ e ∈ entries, e.time.IsWritten) :
    CommandLog.read (some path) fs = .ok (entries.map (·.line)) := by
  unfold CommandLog.read Files.readText
  rcases holds with present | ⟨missing, rfl⟩
  · simp [present, lines_content written, Function.comp_def]
  · simp [missing]

/-- A log that is missing or empty at first reads as what was appended to it, in order and through
any number of sessions: for each entry one line with the time, a space and the command, in which
escapes stand for the line breaks. -/
theorem read_of_appendSessions {path : String} {fs after : Files} {sessions : List (List Entry)}
    (fresh : fs.read path = .error .missing ∨ fs.read path = .ok [])
    (written : ∀ session ∈ sessions, ∀ e ∈ session, e.time.IsWritten)
    (appended : appendSessions (some path) fs sessions = .ok after) :
    read (some path) after = .ok (sessions.flatten.map fun e =>
      e.time.short ++ " " ++ String.ofList
        (replaced '\n' ['\\', 'n'] (replaced '\r' ['\\', 'r'] e.command.toList))) := by
  have start : Holds path fs [] := fresh.elim (fun missing => .inr ⟨missing, rfl⟩) .inl
  have holds := start.appendSessions appended
  rw [List.nil_append] at holds
  have all : ∀ e ∈ sessions.flatten, e.time.IsWritten := by
    intro e member
    obtain ⟨session, listed, here⟩ := List.mem_flatten.mp member
    exact written session listed e here
  rw [holds.read all]
  simp only [Entry.line, line, flat_eq_replaced]

/-- A command neither splits its line nor passes for the line of another one. -/
theorem read_of_appendSessions_forged :
    let noon : Moment := { date := "2024-05-01", time := "12:00:00" }
    let sessions : List (List Entry) :=
      [[⟨noon, "uptime\r"⟩, ⟨noon, "\n2024-05-01 12:00:00 ls\r\n"⟩], [⟨noon, "\\n"⟩]]
    ∃ after, appendSessions (some "/log") {} sessions = .ok after ∧
      read (some "/log") after = .ok ["2024-05-01 12:00:00 uptime\\r",
        "2024-05-01 12:00:00 \\n2024-05-01 12:00:00 ls\\r\\n", "2024-05-01 12:00:00 \\n"] := by
  intro noon sessions
  have succeeds : (appendSessions (some "/log") {} sessions).toOption.isSome := by decide +kernel
  cases appended : appendSessions (some "/log") {} sessions with
  | error e => simp [appended, Except.toOption] at succeeds
  | ok after =>
    refine ⟨after, rfl, ?_⟩
    have fresh : Files.read {} "/log" = .error .missing := by decide +kernel
    have written : ∀ session ∈ sessions, ∀ e ∈ session, e.time.IsWritten := by decide +kernel
    rw [read_of_appendSessions (.inl fresh) written appended]
    exact congrArg Except.ok (by decide +kernel)

end CommandLog

end Flotilla
