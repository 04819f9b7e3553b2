import Mathlib.Data.List.Induction
import Mathlib.Data.List.DropRight
import Flotilla.Proofs.Text.Lines
import Flotilla.Shell.Display

/-!
# What a line writer sends out

`completeLines_eq` ties the lines of a writer to the places of the line feeds, and `runs_of_spares`
says what is sent out while chunks are written: it does not matter how the bytes were cut into them.
`runs_closed` says what has been sent out once a writer is shut down, and `text_terminal` finds a
writer's bytes again on the terminal.
-/

namespace Flotilla.Shell

/-! ### The lines of bytes -/

/-- The lines that are ended by a line feed, without it. -/
def finished (data : Bytes) : List Bytes := (data.splitOn lineFeed).dropLast

/-- What stands behind the last line feed. -/
def unfinished (data : Bytes) : Bytes := (data.splitOn lineFeed).getLastD []

/-- All lines, without their line feeds.  What stands behind the last line feed is a line too, if
there is something. -/
def linesOf (data : Bytes) : List Bytes :=
  finished data ++ if unfinished data = [] then [] else [unfinished data]

section

variable {line : Bytes} (none : lineFeed ∉ line)
include none

theorem finished_of_not_mem : finished line = [] := by
  rw [finished, List.splitOn_eq_singleton none]
  rfl

theorem unfinished_of_not_mem : unfinished line = line := by
  rw [unfinished, List.splitOn_eq_singleton none]
  rfl

theorem finished_line_append (r : Bytes) :
    finished (line ++ lineFeed :: r) = line :: finished r := by
  rw [finished, List.splitOn_append_cons_self_of_not_mem none]
  exact List.dropLast_cons_of_ne_nil (List.splitOn_ne_nil lineFeed r)

theorem unfinished_line_append (r : Bytes) : unfinished (line ++ lineFeed :: r) = unfinished r := by
  rw [unfinished, List.splitOn_append_cons_self_of_not_mem none, List.getLastD_eq_getLast?,
    List.getLast?_cons_of_ne_nil (List.splitOn_ne_nil lineFeed r), ← List.getLastD_eq_getLast?]
  rfl

theorem completeLines_of_not_mem : completeLines line = ([], line) := by
  induction line with
  | nil => rfl
  | cons b r ih =>
    have other : b ≠ lineFeed := (List.ne_of_not_mem_cons none).symm
    simp only [completeLines, ih (List.not_mem_of_not_mem_cons none), if_neg other]

theorem completeLines_line_append (r : Bytes) :
    completeLines (line ++ lineFeed :: r) =
      ((line ++ [lineFeed]) :: (completeLines r).1, (completeLines r).2) := by
  induction line with
  | nil => simp [completeLines]
  | cons b line ih =>
    have other : b ≠ lineFeed := (List.ne_of_not_mem_cons none).symm
    simp only [List.cons_append, completeLines, ih (List.not_mem_of_not_mem_cons none),
      if_neg other]

end

theorem completeLines_eq (data : Bytes) :
    completeLines data = ((finished data).map (· ++ [lineFeed]), unfinished data) := by
  induction data using Text.lineInduction lineFeed with
  | part line none =>
    rw [completeLines_of_not_mem none, finished_of_not_mem none, unfinished_of_not_mem none]
    rfl
  | line line r none ih =>
    rw [completeLines_line_append none, finished_line_append none, unfinished_line_append none, ih]
    rfl

theorem lineFeed_not_mem_unfinished (data : Bytes) : lineFeed ∉ unfinished data := by
  induction data using Text.lineInduction lineFeed with
  | part line none => rwa [unfinished_of_not_mem none]
  | line line r none ih => rwa [unfinished_line_append none]

theorem unfinished_append (a b : Bytes) : unfinished (a ++ b) = unfinished (unfinished a ++ b) := by
  induction a using Text.lineInduction lineFeed with
  | part line none => rw [unfinished_of_not_mem none]
  | line line r none ih =>
    rw [List.append_assoc, List.cons_append, unfinished_line_append none,
      unfinished_line_append none, ih]

theorem finished_append (a b : Bytes) :
    finished (a ++ b) = finished a ++ finished (unfinished a ++ b) := by
  induction a using Text.lineInduction lineFeed with
  | part line none => rw [finished_of_not_mem none, unfinished_of_not_mem none, List.nil_append]
  | line line r none ih =>
    rw [List.append_assoc, List.cons_append, finished_line_append none, finished_line_append none,
      unfinished_line_append none, ih, List.cons_append]

/-! ### Writers -/

/-- The lines behind a tag, each with its line feed. -/
def printed (tag : String) (lines : List Bytes) : Bytes :=
  lines.flatMap fun line => utf8 tag ++ (line ++ [lineFeed])

@[simp] theorem printed_append (tag : String) (l m : List Bytes) :
    printed tag (l ++ m) = printed tag l ++ printed tag m :=
  List.flatMap_append

theorem printed_singleton (tag : String) (line : Bytes) :
    printed tag [line] = utf8 tag ++ (line ++ [lineFeed]) :=
  List.append_nil _

theorem printed_finished (data : Bytes) :
    printed "" (finished data) ++ unfinished data = data := by
  induction data using Text.lineInduction lineFeed with
  | part line none => rw [finished_of_not_mem none, unfinished_of_not_mem none]; rfl
  | line line r none ih =>
    have first : printed "" (line :: finished r) =
        line ++ lineFeed :: printed "" (finished r) := by simp [printed, utf8]
    rw [finished_line_append none, unfinished_line_append none, first, List.append_assoc,
      List.cons_append, ih]

namespace LineWriter

/-- What puts lines on the terminal, each with its line feed. -/
def emissions (w : LineWriter) (lines : List Bytes) : List Bytes :=
  lines.map fun line => w.emission (line ++ [lineFeed])

theorem emissions_append (w : LineWriter) (l m : List Bytes) :
    w.emissions (l ++ m) = w.emissions l ++ w.emissions m :=
  List.map_append

theorem drain_eq (w : LineWriter) :
    w.drain = ({ w with pending := unfinished w.pending }, w.emissions (finished w.pending)) := by
  simp only [drain, completeLines_eq, List.map_map]
  rfl

theorem write_eq (w : LineWriter) (data : Bytes) :
    w.write data =
      ({ w with pending := unfinished (w.pending ++ data) },
        w.emissions (finished (w.pending ++ data))) :=
  drain_eq _

/-- What a row of acts does to a writer, and what it sends out. -/
def runs (w : LineWriter) : List Shown.Act → LineWriter × List Bytes
  | [] => (w, [])
  | act :: later =>
    let (w, emissions) := act.apply w
    let (w, more) := runs w later
    (w, emissions ++ more)

theorem runs_append (w : LineWriter) (acts more : List Shown.Act) :
    w.runs (acts ++ more) =
      (((w.runs acts).1.runs more).1, (w.runs acts).2 ++ ((w.runs acts).1.runs more).2) := by
  induction acts generalizing w with
  | nil => rfl
  | cons act acts ih => simp only [List.cons_append, runs, ih, List.append_assoc]

/-- All bytes that a row of acts writes. -/
def written (acts : List Shown.Act) : Bytes :=
  acts.flatMap fun
    | .write data => data
    | .flush | .shutdown => []

@[simp] theorem written_append (acts more : List Shown.Act) :
    written (acts ++ more) = written acts ++ written more :=
  List.flatMap_append

@[simp] theorem written_write (data : Bytes) : written [.write data] = data :=
  List.append_nil data

@[simp] theorem written_flush : written [.flush] = [] := rfl

@[simp] theorem written_writes (chunks : List Bytes) :
    written (chunks.map .write) = chunks.flatten := by
  rw [written, List.flatMap_map, List.flatMap_id']

/-- Whether an act leaves an unfinished line of a writer as it is, or only adds to it. -/
def Spares (w : LineWriter) : Shown.Act → Prop
  | .write _ => True
  | .flush => w.tag.isSome
  | .shutdown => False

/-- However bytes are cut into chunks, and wherever flushes come between them that spare an
unfinished line, a writer that holds a part of a line sends out the lines that the part and the
bytes complete, and holds what they leave unfinished. -/
theorem runs_of_spares {w : LineWriter} (part : lineFeed ∉ w.pending) {acts : List Shown.Act}
    (spares : ∀ act ∈ acts, w.Spares act) :
    w.runs acts =
      ({ w with pending := unfinished (w.pending ++ written acts) },
        w.emissions (finished (w.pending ++ written acts))) := by
  -- The row grows at its end, so that the writer is the same one all along.
  induction acts using List.reverseRecOn with
  | nil =>
    rw [written, List.flatMap_nil, List.append_nil, unfinished_of_not_mem part,
      finished_of_not_mem part]
    rfl
  | append_singleton acts act ih =>
    obtain ⟨before, last⟩ := List.forall_mem_append.mp spares
    rw [runs_append, ih before, written_append]
    have spared := last act List.mem_cons_self
    cases act with
    | write data =>
      simp only [runs, Shown.Act.apply, write_eq, written_write, List.append_nil]
      rw [← List.append_assoc, unfinished_append (w.pending ++ written acts),
        finished_append (w.pending ++ written acts), emissions_append]
      rfl
    | flush =>
      have tagged : w.tag.isSome = true := spared
      simp [runs, Shown.Act.apply, flush, tagged]
    | shutdown => exact absurd spared not_false

theorem spares_writes (w : LineWriter) (chunks : List Bytes) :
    ∀ act ∈ chunks.map Shown.Act.write, w.Spares act :=
  List.forall_mem_map.mpr fun _ _ => trivial

/-- However bytes are cut into chunks, a writer that holds a part of a line sends out the lines
that the part and the bytes complete, and holds what they leave unfinished. -/
theorem runs_writes {w : LineWriter} (part : lineFeed ∉ w.pending) (chunks : List Bytes) :
    w.runs (chunks.map .write) =
      ({ w with pending := unfinished (w.pending ++ chunks.flatten) },
        w.emissions (finished (w.pending ++ chunks.flatten))) := by
  rw [runs_of_spares part (w.spares_writes chunks), written_writes]

/-- A shutdown sends out an unfinished line as if it were ended, and leaves nothing. -/
theorem shutdown_eq {w : LineWriter} (part : lineFeed ∉ w.pending) :
    w.shutdown = ({ w with pending := [] }, w.emissions (linesOf w.pending)) := by
  obtain ⟨tag, pending⟩ := w
  have clean : lineFeed ∉ pending := part
  by_cases none : pending = []
  · subst none
    rfl
  · rw [linesOf, finished_of_not_mem clean, unfinished_of_not_mem clean, if_neg none]
    simp only [shutdown, List.isEmpty_iff, none, if_false, drain_eq, finished_line_append clean,
      unfinished_line_append clean]
    rfl

/-- Only the first of several shutdowns does something. -/
theorem runs_shutdowns {w : LineWriter} (part : lineFeed ∉ w.pending) (again : Nat) :
    w.runs (List.replicate (again + 1) .shutdown) =
      ({ w with pending := [] }, w.emissions (linesOf w.pending)) := by
  induction again with
  | zero =>
    simp only [List.replicate, runs, Shown.Act.apply, shutdown_eq part, List.append_nil]
  | succ again ih =>
    rw [List.replicate_succ', runs_append, ih]
    simp [runs, Shown.Act.apply, shutdown]

theorem runs_spares_shutdowns {w : LineWriter} (part : lineFeed ∉ w.pending)
    {acts : List Shown.Act} (spares : ∀ act ∈ acts, w.Spares act) (again : Nat) :
    w.runs (acts ++ List.replicate (again + 1) .shutdown) =
      ({ w with pending := [] }, w.emissions (linesOf (w.pending ++ written acts))) := by
  have clean := lineFeed_not_mem_unfinished (w.pending ++ written acts)
  rw [runs_append, runs_of_spares part spares, runs_shutdowns clean, linesOf, linesOf,
    finished_of_not_mem clean, unfinished_of_not_mem clean]
  exact Prod.ext rfl (emissions_append _ _ _).symm

theorem runs_writes_shutdown {w : LineWriter} (part : lineFeed ∉ w.pending) (chunks : List Bytes) :
    w.runs (chunks.map .write ++ [.shutdown]) =
      ({ w with pending := [] }, w.emissions (linesOf (w.pending ++ chunks.flatten))) := by
  rw [← written_writes]
  exact runs_spares_shutdowns part (w.spares_writes chunks) 0

theorem flatten_emissions (w : LineWriter) (lines : List Bytes) :
    (w.emissions lines).flatten = printed (w.tag.getD "") lines :=
  List.flatMap_def.symm

/-- All that a writer sends out by a row of acts. -/
def sent (tag : Option String) (acts : List Shown.Act) : Bytes :=
  (({ tag } : LineWriter).runs acts).2.flatten

theorem sent_shutdown (tag : Option String) (chunks : List Bytes) :
    sent tag (chunks.map .write ++ [.shutdown]) =
      printed (tag.getD "") (linesOf chunks.flatten) := by
  rw [sent, runs_writes_shutdown List.not_mem_nil]
  exact flatten_emissions _ _

/-- A flush keeps what is unfinished behind a tag. -/
theorem sent_flush_of_tag (tag : String) (chunks : List Bytes) :
    sent (some tag) (chunks.map .write ++ [.flush]) = printed tag (finished chunks.flatten) := by
  rw [sent, runs_append, runs_writes List.not_mem_nil]
  simp only [runs, Shown.Act.apply, flush, Option.isSome_some, Bool.true_or, if_true,
    List.append_nil]
  exact flatten_emissions _ _

/-! ### Writers without a tag -/

/-- What a writer without a tag holds after a row of acts: what has been written since the last
line feed or flush. -/
def held (acts : List Shown.Act) : Bytes :=
  unfinished (written (acts.rtakeWhile (· ≠ .flush)))

theorem held_write (acts : List Shown.Act) (data : Bytes) :
    held (acts ++ [.write data]) = unfinished (held acts ++ data) := by
  rw [held, List.rtakeWhile_concat_pos _ _ _ (by simp), written_append, written_write,
    unfinished_append]
  rfl

theorem held_flush (acts : List Shown.Act) : held (acts ++ [.flush]) = [] := by
  rw [held, List.rtakeWhile_concat_neg _ _ _ (by simp)]
  rfl

/-- A writer without a tag has sent out all that was written, but for what it holds. -/
theorem runs_untagged {acts : List Shown.Act} (goesOn : .shutdown ∉ acts) :
    (({ tag := none } : LineWriter).runs acts).1 = { tag := none, pending := held acts } ∧
      (({ tag := none } : LineWriter).runs acts).2.flatten ++ held acts = written acts := by
  induction acts using List.reverseRecOn with
  | nil => exact ⟨rfl, rfl⟩
  | append_singleton acts act ih =>
    rw [List.mem_append, not_or] at goesOn
    obtain ⟨before, last⟩ := goesOn
    obtain ⟨state, whole⟩ := ih before
    rw [runs_append, state, written_append, ← whole]
    cases act with
    | write data =>
      have sent : (({ tag := none, pending := held acts } : LineWriter).runs
          [.write data]).2.flatten = printed "" (finished (held acts ++ data)) := by
        simp only [runs, Shown.Act.apply, write_eq, List.append_nil]
        exact flatten_emissions _ _
      refine ⟨by rw [held_write]; simp only [runs, Shown.Act.apply, write_eq], ?_⟩
      rw [List.flatten_append, sent, held_write, List.append_assoc, printed_finished,
        written_write, List.append_assoc]
    | flush =>
      by_cases none : held acts = []
      · simp [runs, Shown.Act.apply, flush, held_flush, none]
      · simp [runs, Shown.Act.apply, flush, held_flush, none, emission, utf8]
    | shutdown => exact absurd List.mem_cons_self last

/-- Without a tag, a flush lets everything out. -/
theorem sent_flush_of_none (chunks : List Bytes) :
    sent none (chunks.map .write ++ [.flush]) = chunks.flatten := by
  have goesOn : .shutdown ∉ chunks.map Shown.Act.write ++ [.flush] := by simp
  have whole := (runs_untagged goesOn).2
  rwa [held_flush, List.append_nil, written_append, written_writes, written_flush,
    List.append_nil] at whole

/-! ### Closed writers -/

theorem spares_of_tag {tag : String} {acts : List Shown.Act} (goesOn : .shutdown ∉ acts) :
    ∀ act ∈ acts, ({ tag := some tag } : LineWriter).Spares act := by
  rintro (_ | _ | _) member
  · trivial
  · rfl
  · exact goesOn member

theorem sent_closed {acts : List Shown.Act} (goesOn : .shutdown ∉ acts) (tag : String)
    (again : Nat) : sent (some tag) (acts ++ List.replicate (again + 1) .shutdown) =
      printed tag (linesOf (written acts)) := by
  rw [sent, runs_spares_shutdowns List.not_mem_nil (spares_of_tag goesOn)]
  exact flatten_emissions _ _

/-- A writer that is closed after a row of writes and flushes.  With a tag, it has sent out each
line of the bytes in one piece, wherever they were cut and flushed.  Without one, it has sent out
the bytes, and a line feed if it still held a part of a line. -/
theorem runs_closed {acts : List Shown.Act} (goesOn : .shutdown ∉ acts) (again : Nat) :
    let closed := acts ++ List.replicate (again + 1) .shutdown
    (∀ tag, (({ tag := some tag } : LineWriter).runs closed).2 =
        (linesOf (written acts)).map fun line => utf8 tag ++ line ++ [lineFeed]) ∧
      (({ tag := none } : LineWriter).runs closed).2.flatten =
        written acts ++ if held acts = [] then [] else [lineFeed] := by
  constructor
  · intro tag
    rw [runs_spares_shutdowns List.not_mem_nil (spares_of_tag goesOn)]
    simp [emissions, emission]
  · obtain ⟨state, whole⟩ := runs_untagged goesOn
    have clean : lineFeed ∉ held acts := lineFeed_not_mem_unfinished _
    rw [runs_append, state, runs_shutdowns clean, List.flatten_append, flatten_emissions, ← whole,
      List.append_assoc, linesOf, finished_of_not_mem clean, unfinished_of_not_mem clean]
    split
    next none => simp [printed, none]
    next => simp [printed, utf8]

/-- A line that is cut by a flush, an empty one, and one that is not ended. -/
def torn : List Shown.Act :=
  [.write (utf8 "up\nan"), .flush, .write [], .write (utf8 "d\n\non")]

theorem runs_closed_torn :
    .shutdown ∉ torn ∧
      (({ tag := some "[web1] " } : LineWriter).runs (torn ++ [.shutdown, .shutdown])).2 =
        [utf8 "[web1] up\n", utf8 "[web1] and\n", utf8 "[web1] \n", utf8 "[web1] on\n"] ∧
      (({ tag := none } : LineWriter).runs (torn ++ [.shutdown, .shutdown])).2.flatten =
        utf8 "up\nand\n\non\n" := by
  have goesOn : .shutdown ∉ torn := by decide
  obtain ⟨tagged, untagged⟩ := runs_closed goesOn 1
  exact ⟨goesOn, (tagged "[web1] ").trans (by decide), untagged.trans (by decide)⟩

end LineWriter

/-! ### The terminal -/

namespace Writer

def tag (w : Writer) : Option String := if w.tagged then some (LineWriter.hostTag w.host) else none

/-- What happens to a writer. -/
def acts (w : Writer) (l : List Shown) : List Shown.Act := (l.filter (·.writer = w)).map (·.act)

end Writer

namespace Shown.Terminal

variable (t : Terminal) (s : Shown)

def text : Stream → Bytes
  | .out => t.out
  | .err => t.err

def lineWriter (w : Writer) : LineWriter := (t.writers.find? w.id).getD { tag := w.tag }

theorem text_show (stream : Stream) :
    (t.show s).text stream = t.text stream ++
      if s.writer.stream = stream then (s.act.apply (t.lineWriter s.writer)).2.flatten else [] := by
  unfold Terminal.show
  cases h : s.writer.stream <;> cases stream <;> simp [text, lineWriter, Writer.tag]

theorem lineWriter_show (w : Writer) :
    (t.show s).lineWriter w =
      if w.id = s.writer.id then (s.act.apply (t.lineWriter s.writer)).1 else t.lineWriter w := by
  have writers : (t.show s).writers =
      t.writers.insert s.writer.id (s.act.apply (t.lineWriter s.writer)).1 := by
    unfold Terminal.show
    cases s.writer.stream <;> rfl
  rw [lineWriter, writers, Table.find?_insert]
  split <;> rfl

/-- A stream shows what its writer sends out, if it is the only one there and no other writer has
its number. -/
theorem text_terminal {w : Writer} {l : List Shown}
    (only : ∀ s ∈ l, s.writer.id = w.id ∨ s.writer.stream = w.stream → s.writer = w) :
    (terminal l).text w.stream = LineWriter.sent w.tag (w.acts l) := by
  -- The writer's line writer is there only once something has happened to it.
  suffices h : ∀ t : Terminal, (l.foldl .show t).text w.stream =
      t.text w.stream ++ ((t.lineWriter w).runs (w.acts l)).2.flatten by
    rw [terminal, h]
    cases w.stream <;> rfl
  intro t
  induction l generalizing t with
  | nil => exact (List.append_nil _).symm
  | cons s l ih =>
    have head := only s List.mem_cons_self
    rw [List.foldl_cons, ih (List.forall_mem_of_forall_mem_cons only), text_show, lineWriter_show,
      List.append_assoc]
    by_cases same : s.writer = w
    · have acts : w.acts (s :: l) = s.act :: w.acts l := by simp [Writer.acts, same]
      rw [acts, LineWriter.runs, same]
      simp
    · have acts : w.acts (s :: l) = w.acts l := by simp [Writer.acts, same]
      have id : w.id ≠ s.writer.id := fun id => same (head (.inl id.symm))
      have stream : s.writer.stream ≠ w.stream := fun stream => same (head (.inr stream))
      rw [acts, if_neg id, if_neg stream, List.nil_append]

end Shown.Terminal

end Flotilla.Shell
