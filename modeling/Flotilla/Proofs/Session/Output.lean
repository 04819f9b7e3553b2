import Flotilla.Session.Command
import Flotilla.Proofs.Shell.LineWriter

/-!
# What is shown of a command's output

The terminal shows each line that a server sends as output.  Of its errors it shows all lines but a
last one without a line feed: as the errors are only flushed, a tagged line that is unfinished is
never let out.
-/

namespace Flotilla.Command

open Shell

/-- Whether a turn leaves the channel open and does not come from the user's interrupt. -/
def Turn.isCalm : Turn → Bool
  | .reply _ | .input _ => true
  | _ => false

/-- What a turn brings for a stream. -/
def Turn.payload (stream : Stream) : Turn → Bytes
  | .reply (.output data) => if stream = .out then data else []
  | .reply (.extended kind data) => if stream = .err ∧ kind = Reply.errorKind then data else []
  | _ => []

/-- What a server sends for a stream. -/
def payload (stream : Stream) (l : List Turn) : Bytes := l.flatMap (Turn.payload stream)

/-- What has happened to a stream. -/
def actsOn (stream : Stream) (c : Command) : List Shown.Act :=
  (c.shown.filter (·.1 = stream)).map (·.2)

/-- What is written on a stream, chunk by chunk. -/
def chunks (stream : Stream) (l : List Turn) : List Bytes :=
  (l.map (Turn.payload stream)).filter (· ≠ [])

theorem flatten_chunks (stream : Stream) (l : List Turn) :
    (chunks stream l).flatten = payload stream l := by
  rw [chunks, List.flatten_filter_ne_nil, payload, List.flatMap_def]

@[simp] theorem running_write (c : Command) (stream : Stream) (data : Bytes) :
    (c.write stream data).running = c.running := by
  unfold write
  split <;> rfl

theorem actsOn_write (stream written : Stream) (c : Command) (data : Bytes) :
    actsOn stream (c.write written data) = actsOn stream c ++
      ([if stream = written then data else []].filter (· ≠ [])).map .write := by
  -- Nothing happens to a stream by an empty write.
  unfold write actsOn
  by_cases none : data = []
  · simp [none]
  · by_cases same : stream = written
    · simp [none, same]
    · simp [none, same, Ne.symm same]

theorem actsOn_of_silent {c d : Command} {t : Turn} (shown : d.shown = c.shown)
    (silent : ∀ stream, t.payload stream = []) (stream : Stream) :
    actsOn stream d = actsOn stream c ++ (chunks stream [t]).map .write := by
  rw [actsOn, actsOn, shown, chunks, List.map_singleton, silent]
  exact (List.append_nil _).symm

/-- A command goes on after a calm turn, and the turn's bytes are written. -/
theorem step_calm {c : Command} {t : Turn} (running : c.running = true) (calm : t.isCalm = true) :
    (c.step t).running = true ∧ ∀ stream,
      actsOn stream (c.step t) = actsOn stream c ++ (chunks stream [t]).map .write := by
  cases t with
  | reply r =>
    simp only [step, running, Bool.not_true, Bool.false_eq_true, if_false]
    cases r with
    | output data => exact ⟨by simp [take, running], fun stream => actsOn_write stream .out c data⟩
    | extended kind data =>
      by_cases errors : kind = Reply.errorKind
      · refine ⟨by simp [take, errors, running], fun stream => ?_⟩
        simpa [take, errors, chunks, Turn.payload] using actsOn_write stream .err c data
      · exact ⟨by simp [take, errors, running],
          actsOn_of_silent (by simp [take, errors]) (by simp [Turn.payload, errors])⟩
    | exitStatus | exitSignal | other => exact ⟨running, actsOn_of_silent rfl fun _ => rfl⟩
  | input chunk =>
    simp only [step, running, Bool.not_true, Bool.false_eq_true, if_false]
    cases chunk <;> cases c.reads <;> exact ⟨running, actsOn_of_silent rfl fun _ => rfl⟩
  | refused | closed | interrupt => cases calm

theorem steps_calm {c : Command} {l : List Turn} (running : c.running = true)
    (calm : ∀ t ∈ l, t.isCalm = true) :
    (c.steps l).running = true ∧ ∀ stream,
      actsOn stream (c.steps l) = actsOn stream c ++ (chunks stream l).map .write := by
  induction l generalizing c with
  | nil => exact ⟨running, fun _ => (List.append_nil _).symm⟩
  | cons t l ih =>
    obtain ⟨goes, written⟩ := step_calm running (calm t List.mem_cons_self)
    obtain ⟨stillGoes, later⟩ := ih goes (List.forall_mem_of_forall_mem_cons calm)
    refine ⟨stillGoes, fun stream => ?_⟩
    have cut : chunks stream (t :: l) = chunks stream [t] ++ chunks stream l := by
      rw [chunks, chunks, chunks, ← List.filter_append, ← List.map_append]
      rfl
    rw [cut, List.map_append, ← List.append_assoc, ← written]
    exact later stream

/-- A command that meets some turns until the channel ends. -/
def ended (l : List Turn) : Command := ({} : Command).steps (l ++ [.closed])

theorem ended_eq (l : List Turn) :
    ended l = { ({} : Command).steps l with running := false } := by
  rw [ended, steps, List.foldl_append, List.foldl_cons, List.foldl_nil]
  change step (({} : Command).steps l) .closed = _
  generalize ({} : Command).steps l = c
  obtain ⟨notices, shown, status, reads, running⟩ := c
  cases running <;> rfl

theorem actsOn_ended {l : List Turn} (calm : ∀ t ∈ l, t.isCalm = true) (stream : Stream) :
    actsOn stream (ended l) = (chunks stream l).map .write := by
  rw [ended_eq]
  exact (steps_calm (c := {}) rfl calm).2 stream

/-! ### On the terminal -/

/-- What ends a stream of a command. -/
def lastAct : Stream → Shown.Act
  | .out => .shutdown
  | .err => .flush

/-- A writer for each stream of a command. -/
structure Writers where
  out : Writer
  err : Writer
  out_stream : out.stream = .out
  err_stream : err.stream = .err
  id_ne : out.id ≠ err.id

namespace Writers

variable (ws : Writers)

def writer : Stream → Writer
  | .out => ws.out
  | .err => ws.err

/-- The text on a stream of a terminal that shows a command. -/
def text (c : Command) (stream : Stream) : Bytes :=
  (Shown.terminal (c.shownBy ws.out ws.err)).text stream

theorem stream_writer (stream : Stream) : (ws.writer stream).stream = stream := by
  cases stream
  · exact ws.out_stream
  · exact ws.err_stream

theorem writer_injective {a b : Stream} (same : (ws.writer a).id = (ws.writer b).id) : a = b := by
  cases a <;> cases b
  · rfl
  · exact absurd same ws.id_ne
  · exact absurd same.symm ws.id_ne
  · rfl

theorem shownBy_eq (c : Command) :
    c.shownBy ws.out ws.err = c.acts.map fun act => ⟨ws.writer act.1, act.2⟩ := by
  rw [shownBy]
  refine List.map_congr_left fun act _ => ?_
  obtain ⟨stream, act⟩ := act
  cases stream <;> rfl

theorem acts_writer (c : Command) (stream : Stream) :
    (ws.writer stream).acts (c.shownBy ws.out ws.err) = actsOn stream c ++ [lastAct stream] := by
  have same (a : Stream) : ws.writer a = ws.writer stream ↔ a = stream :=
    ⟨fun same => ws.writer_injective (congrArg Writer.id same), fun same => same ▸ rfl⟩
  rw [shownBy_eq, Writer.acts, List.filter_map, List.map_map]
  simp only [Function.comp_def, same, Command.acts, List.filter_append, List.map_append]
  cases stream <;> rfl

theorem text_eq (c : Command) (stream : Stream) :
    ws.text c stream =
      LineWriter.sent (ws.writer stream).tag (actsOn stream c ++ [lastAct stream]) := by
  have only : ∀ s ∈ c.shownBy ws.out ws.err, s.writer.id = (ws.writer stream).id ∨
      s.writer.stream = (ws.writer stream).stream → s.writer = ws.writer stream := by
    rw [shownBy_eq]
    simp only [List.forall_mem_map, stream_writer]
    rintro act - (same | same)
    · rw [ws.writer_injective same]
    · rw [same]
  have shows := Shown.Terminal.text_terminal only
  rw [stream_writer, acts_writer] at shows
  exact shows

end Writers

/-! ### All lines -/

/-- A text shows lines behind a tag, in order, and nothing else.  The line feed of the last one may
be missing. -/
def ShowsLines (tag : String) (lines : List Bytes) (text : Bytes) : Prop :=
  text = printed tag lines ∨ text ++ [lineFeed] = printed tag lines

instance (tag : String) (lines : List Bytes) (text : Bytes) :
    Decidable (ShowsLines tag lines text) :=
  inferInstanceAs (Decidable (_ ∨ _))

theorem showsLines_data (data : Bytes) : ShowsLines "" (linesOf data) data := by
  have whole := printed_finished data
  by_cases ends : unfinished data = []
  · rw [ends, List.append_nil] at whole
    exact .inl (by rw [linesOf, if_pos ends, List.append_nil, whole])
  · have lines : printed "" (linesOf data) =
        printed "" (finished data) ++ unfinished data ++ [lineFeed] := by
      rw [linesOf, if_neg ends, printed_append, printed_singleton, List.append_assoc]
      rfl
    exact .inr (by rw [lines, whole])

/-- The lines in front of the last line feed do not show a part of a line behind it. -/
theorem showsLines_finished_iff (tag : String) (data : Bytes) :
    ShowsLines tag (linesOf data) (printed tag (finished data)) ↔ unfinished data = [] := by
  by_cases ends : unfinished data = []
  · simp [ShowsLines, linesOf, ends]
  · rw [iff_false_right ends, ShowsLines, linesOf, if_neg ends, printed_append, printed_singleton]
    have some_ : 0 < (unfinished data).length := List.length_pos_iff.mpr ends
    rintro (same | same)
    · have same := congrArg List.length same
      simp only [List.length_append, List.length_singleton] at same
      omega
    · have same := congrArg List.length same
      simp only [List.length_append, List.length_singleton] at same
      omega

/-- All that a server sends can be read on the terminal. -/
def ShowsAll (ws : Writers) (l : List Turn) : Prop :=
  ∀ stream, ShowsLines ((ws.writer stream).tag.getD "") (linesOf (payload stream l))
    (ws.text (ended l) stream)

/-- What is shown of errors: behind a tag, only the finished lines. -/
def shownErrors (errors : Bytes) : Option String → Bytes
  | some tag => printed tag (finished errors)
  | none => errors

/-- What can be read on the terminal of what a server sends. -/
structure ShowsOutput (ws : Writers) (l : List Turn) : Prop where
  ends : (ended l).running = false
  out : ws.text (ended l) .out = printed (ws.out.tag.getD "") (linesOf (payload .out l))
  err : ws.text (ended l) .err = shownErrors (payload .err l) ws.err.tag
  all : ShowsAll ws l ↔ ws.err.tagged = false ∨ unfinished (payload .err l) = []

theorem showsOutput_of_calm (ws : Writers) {l : List Turn} (calm : ∀ t ∈ l, t.isCalm = true) :
    ShowsOutput ws l := by
  have out : ws.text (ended l) .out = printed (ws.out.tag.getD "") (linesOf (payload .out l)) := by
    rw [ws.text_eq, actsOn_ended calm, lastAct, LineWriter.sent_shutdown, flatten_chunks]
    rfl
  have err : ws.text (ended l) .err = shownErrors (payload .err l) ws.err.tag := by
    rw [ws.text_eq, actsOn_ended calm, lastAct]
    change LineWriter.sent ws.err.tag _ = _
    cases ws.err.tag with
    | some tag => rw [LineWriter.sent_flush_of_tag, flatten_chunks, shownErrors]
    | none => rw [LineWriter.sent_flush_of_none, flatten_chunks, shownErrors]
  refine ⟨by rw [ended_eq], out, err, ?_⟩
  have shown : ShowsLines (ws.err.tag.getD "") (linesOf (payload .err l)) (ws.text (ended l) .err) ↔
      ws.err.tagged = false ∨ unfinished (payload .err l) = [] := by
    rw [err, Writer.tag]
    cases ws.err.tagged with
    | false => exact iff_of_true (showsLines_data _) (.inl rfl)
    | true => simpa [shownErrors] using showsLines_finished_iff _ _
  rw [← shown]
  refine ⟨fun all => all .err, fun shown stream => ?_⟩
  cases stream with
  | out => exact .inl out
  | err => exact shown

def tagged : Writers := ⟨⟨0, .out, "web1", true⟩, ⟨1, .err, "web1", true⟩, rfl, rfl, by decide⟩

/-- A command that reports its failure on an unfinished line. -/
def crash : List Turn :=
  [.input none, .reply (.output (utf8 "up\nan")), .reply (.extended 1 (utf8 "boom")),
    .reply (.output (utf8 "d on")), .reply (.exitStatus 1)]

theorem showsOutput_of_calm_crash :
    (∀ t ∈ crash, t.isCalm = true) ∧
      tagged.text (ended crash) .out = utf8 "[web1] up\n[web1] and on\n" ∧
      ¬ ShowsAll tagged crash := by
  have calm : ∀ t ∈ crash, t.isCalm = true := by decide
  obtain ⟨-, out, -, all⟩ := showsOutput_of_calm tagged calm
  refine ⟨calm, ?_, ?_⟩
  · rw [out]
    decide
  · rw [all]
    decide

/-- The terminal shows nothing of the line that `crash` leaves unfinished. -/
theorem not_showsAll_crash :
    linesOf (payload .err crash) = [utf8 "boom"] ∧ tagged.text (ended crash) .err = [] ∧
      ¬ ShowsAll tagged crash := by
  refine ⟨by decide, by decide, fun all => ?_⟩
  have lost : ¬ ShowsLines ((tagged.writer .err).tag.getD "") (linesOf (payload .err crash))
      (tagged.text (ended crash) .err) := by decide
  exact lost (all .err)

end Flotilla.Command
