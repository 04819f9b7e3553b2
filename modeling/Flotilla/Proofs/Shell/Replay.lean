import Flotilla.Proofs.Shell.LineWriter
import Flotilla.Proofs.Text.Utf8
import Flotilla.Shell.Replay

/-!
# What was shown and what is replayed

A replay shows the lines that were shown when the output came, but takes a carriage return off each
line that is ended.  `replay_agrees_iff` says what the block of a host is, and that it is what the
host's writer sent out just if there was no carriage return to take off.
-/

namespace Flotilla

namespace Shell

/-- The carriage return. -/
def carriageReturn : UInt8 := 13

/-- The lines of bytes, of which each that is ended loses a carriage return at its end. -/
def replayedLines (data : Bytes) : List Bytes :=
  (finished data).map (Text.withoutEnd carriageReturn) ++
    if unfinished data = [] then [] else [unfinished data]

/-! ### Lines of characters and of bytes -/

theorem lineFeed_not_mem_encoded {line : List Char} (none : '\n' ∉ line) :
    lineFeed ∉ line.flatMap String.utf8EncodeChar := by
  intro member
  obtain ⟨c, here, byte⟩ := List.mem_flatMap.mp member
  rw [Utf8.eq_of_mem_utf8EncodeChar (d := '\n') (by decide) byte] at here
  exact none here

theorem encoded_eq_nil {line : List Char} :
    line.flatMap String.utf8EncodeChar = [] ↔ line = [] := by
  cases line with
  | nil => exact iff_of_true rfl rfl
  | cons c r => simp [List.flatMap_cons, String.utf8EncodeChar_ne_nil]

theorem encoded_withoutEnd (line : List Char) :
    (Text.withoutEnd '\r' line).flatMap String.utf8EncodeChar =
      Text.withoutEnd carriageReturn (line.flatMap String.utf8EncodeChar) := by
  induction line using List.reverseRecOn with
  | nil => rfl
  | append_singleton line c _ =>
    rw [Text.withoutEnd_concat, List.flatMap_append, List.flatMap_singleton]
    by_cases returns : c = '\r'
    · have byte : String.utf8EncodeChar '\r' = [carriageReturn] := by decide
      rw [if_pos returns, returns, byte, Text.withoutEnd_concat, if_pos rfl]
    · -- The last byte of another character is no carriage return.
      obtain ⟨front, b, bytes⟩ :=
        (List.eq_nil_or_concat' (String.utf8EncodeChar c)).resolve_left String.utf8EncodeChar_ne_nil
      have other : b ≠ carriageReturn := by
        rintro rfl
        exact returns (Utf8.eq_of_mem_utf8EncodeChar (d := '\r') (by decide)
          (by rw [bytes]; exact List.mem_concat_self))
      rw [if_neg returns, List.flatMap_append, List.flatMap_singleton, bytes, ← List.append_assoc,
        Text.withoutEnd_concat, if_neg other]

theorem lines_encoded (s : List Char) :
    (Text.lines s).map (·.flatMap String.utf8EncodeChar) =
      replayedLines (s.flatMap String.utf8EncodeChar) := by
  induction s using Text.lineInduction '\n' with
  | part line none =>
    have clean := lineFeed_not_mem_encoded none
    rw [Text.lines_of_not_mem none, replayedLines, finished_of_not_mem clean,
      unfinished_of_not_mem clean]
    by_cases empty : line = []
    · rw [if_pos empty, if_pos (encoded_eq_nil.mpr empty)]
      rfl
    · rw [if_neg empty, if_neg (mt encoded_eq_nil.mp empty)]
      rfl
  | line line r none ih =>
    have clean := lineFeed_not_mem_encoded none
    have byte : String.utf8EncodeChar '\n' = [lineFeed] := by decide
    rw [Text.lines_line_append none, List.map_cons, ih, encoded_withoutEnd, List.flatMap_append,
      List.flatMap_cons, byte, List.singleton_append, replayedLines, replayedLines,
      finished_line_append clean, unfinished_line_append clean]
    rfl

/-! ### Lines that were printed -/

theorem lineFeed_not_mem_of_finished {data line : Bytes} (member : line ∈ finished data) :
    lineFeed ∉ line := by
  induction data using Text.lineInduction lineFeed with
  | part part none =>
    rw [finished_of_not_mem none] at member
    cases member
  | line first r none ih =>
    rw [finished_line_append none] at member
    rcases List.mem_cons.mp member with rfl | later
    · exact none
    · exact ih later

theorem lineFeed_not_mem_of_rest {data line : Bytes}
    (member : line ∈ if unfinished data = [] then [] else [unfinished data]) : lineFeed ∉ line := by
  split at member
  · cases member
  · rw [List.mem_singleton.mp member]
    exact lineFeed_not_mem_unfinished data

theorem lineFeed_not_mem_withoutEnd {line : Bytes} (none : lineFeed ∉ line) (b : UInt8) :
    lineFeed ∉ Text.withoutEnd b line := by
  unfold Text.withoutEnd
  split
  · exact fun member => none (List.mem_of_mem_dropLast member)
  · exact none

/-- Lines can be read off what is printed of them. -/
theorem printed_injective (tag : String) {l m : List Bytes} (left : ∀ line ∈ l, lineFeed ∉ line)
    (right : ∀ line ∈ m, lineFeed ∉ line) (same : printed tag l = printed tag m) : l = m := by
  have cons (line : Bytes) (l : List Bytes) :
      printed tag (line :: l) = utf8 tag ++ (line ++ lineFeed :: printed tag l) := by
    simp [printed]
  induction l generalizing m with
  | nil =>
    cases m with
    | nil => rfl
    | cons line m => simp [printed] at same
  | cons line l ih =>
    cases m with
    | nil => simp [printed] at same
    | cons line' m =>
      obtain ⟨none, left⟩ := List.forall_mem_cons.mp left
      obtain ⟨none', right⟩ := List.forall_mem_cons.mp right
      rw [cons, cons, List.append_cancel_left_eq] at same
      have first := congrArg finished same
      rw [finished_line_append none, finished_line_append none'] at first
      have head := (List.cons.inj first).1
      rw [head, List.append_cancel_left_eq] at same
      rw [head, ih left right (List.cons.inj same).2]

theorem replayedLines_eq_iff (data : Bytes) :
    replayedLines data = linesOf data ↔
      ∀ line ∈ finished data, line.getLast? ≠ some carriageReturn := by
  have stays (line : Bytes) : Text.withoutEnd carriageReturn line = line ↔
      line.getLast? ≠ some carriageReturn := by
    unfold Text.withoutEnd
    split
    next returns =>
      refine iff_of_false (fun same => ?_) (not_not_intro returns)
      have shorter := congrArg List.length same
      have some_ : line ≠ [] := by
        rintro rfl
        cases returns
      have := List.length_pos_iff.mpr some_
      rw [List.length_dropLast] at shorter
      omega
    next other => exact iff_of_true rfl other
  rw [replayedLines, linesOf, List.append_cancel_right_eq]
  conv_lhs => rhs; rw [← List.map_id (finished data)]
  rw [List.map_inj_left]
  simp only [id, stays]

theorem printed_replayedLines_eq_iff (tag : String) (data : Bytes) :
    printed tag (replayedLines data) = printed tag (linesOf data) ↔
      ∀ line ∈ finished data, line.getLast? ≠ some carriageReturn := by
  have shown : ∀ line ∈ linesOf data, lineFeed ∉ line :=
    List.forall_mem_append.mpr ⟨fun _ => lineFeed_not_mem_of_finished,
      fun _ => lineFeed_not_mem_of_rest⟩
  have again : ∀ line ∈ replayedLines data, lineFeed ∉ line :=
    List.forall_mem_append.mpr ⟨List.forall_mem_map.mpr fun _ member =>
      lineFeed_not_mem_withoutEnd (lineFeed_not_mem_of_finished member) _,
      fun _ => lineFeed_not_mem_of_rest⟩
  rw [← replayedLines_eq_iff]
  exact ⟨printed_injective tag again shown, congrArg _⟩

end Shell

namespace Capture

open Shell LineWriter

/-- The block of a host whose output is a text. -/
theorem utf8_replayHost {c : Captured} {text : String} (valid : Utf8.decode c.output = .ok text)
    (tagged : Bool) (host : String) :
    utf8 (replayHost tagged host c) =
      printed (if tagged then hostTag host else "") (replayedLines c.output) := by
  have output := Utf8.decode_eq_ok_iff.mp valid
  have same : c.text = text := by rw [Captured.text, output, Utf8.lossy_utf8]
  have lineEnd : utf8 "\n" = [lineFeed] := by decide
  have lines : replayedLines c.output = (Text.lines text.toList).map (utf8 <| String.ofList ·) := by
    simp only [utf8, String.toList_ofList]
    rw [lines_encoded, output, utf8]
  rw [replayHost, utf8_join, List.flatMap_map, same, lines, printed, List.flatMap_map]
  simp only [utf8_append, lineEnd, List.append_assoc]

theorem replayHosts_of_several {hosts : Table String Captured}
    (several : 1 < hosts.entries.length) :
    replayHosts hosts =
      String.join (hosts.entries.map fun (host, c) => replayHost true host c) := by
  simp only [replayHosts, several, decide_true]

/-- A replay of several hosts is a block for each of them.  However the output of a host came, and
whenever it was flushed, what its writer had sent out in the end are its lines behind its tag; if
the output is a text, its block has the same lines, of which each that is ended lacks a carriage
return at its end, and so the two agree just if no such line ends with one. -/
theorem replay_agrees_iff {t : Capture} {requested : Option Nat} {n : Nat}
    {hosts : Table String Captured} (asked : (requested <|> t.latest?) = some n)
    (found : t.find? n = some hosts) (several : 1 < hosts.entries.length) :
    t.replay requested =
        String.join (hosts.entries.map fun (host, c) => replayHost true host c) ∧
      ∀ host c, (host, c) ∈ hosts.entries → (∃ text, Utf8.decode c.output = .ok text) →
        ∀ acts, .shutdown ∉ acts → written acts = c.output → ∀ again,
          let block := utf8 (replayHost true host c)
          let shown := sent (some (hostTag host)) (acts ++ List.replicate (again + 1) .shutdown)
          shown = printed (hostTag host) (linesOf c.output) ∧
            block = printed (hostTag host) (replayedLines c.output) ∧
            (block = shown ↔ ∀ line ∈ finished c.output, line.getLast? ≠ some carriageReturn) := by
  constructor
  · rw [replay, asked]
    dsimp only
    rw [found]
    exact replayHosts_of_several several
  · rintro host c - ⟨text, valid⟩ acts goesOn whole again
    have block := utf8_replayHost valid true host
    have shown := sent_closed goesOn (hostTag host) again
    rw [whole] at shown
    refine ⟨shown, block, ?_⟩
    rw [block, shown]
    exact printed_replayedLines_eq_iff _ _

/-- What is captured of a host with this output. -/
def captured (output : String) : Captured :=
  ⟨⟨"2024-05-01", "12:00:00", "+00:00"⟩, "cat log", utf8 output⟩

/-- Two hosts with the same output. -/
def twins (output : String) : Table String Captured :=
  ⟨[("web1", captured output), ("web2", captured output)],
    List.pairwise_pair.mpr (by decide : compare "web1" "web2" = .lt)⟩

def captureOf (hosts : Table String Captured) : Capture :=
  ⟨[(1, hosts)], List.pairwise_singleton _ _⟩

/-- Output that comes in two chunks, with a flush between them. -/
def inChunks : List Shown.Act := [.write (utf8 "up\n"), .flush, .write (utf8 "\non")]

theorem replay_agrees_iff_twins :
    1 < (twins "up\n\non").entries.length ∧
      sent (some "[web2] ") (inChunks ++ [.shutdown]) =
        utf8 "[web2] up\n[web2] \n[web2] on\n" ∧
      utf8 (replayHost true "web2" (captured "up\n\non")) =
        sent (some "[web2] ") (inChunks ++ [.shutdown]) := by
  have asked : (none <|> (captureOf (twins "up\n\non")).latest?) = some 1 := by decide
  have several : 1 < (twins "up\n\non").entries.length := by decide
  obtain ⟨-, blocks⟩ := replay_agrees_iff asked rfl several
  obtain ⟨shown, -, agrees⟩ := blocks "web2" (captured "up\n\non") (by decide)
    ⟨_, Utf8.decode_utf8 _⟩ inChunks (by decide) (by decide) 0
  exact ⟨several, shown.trans (by decide), agrees.mpr (by decide)⟩

/-- A carriage return that was shown is not replayed. -/
theorem not_replay_agrees_crlf :
    sent (some "[web1] ") [.write (utf8 "up\r\n"), .shutdown] = utf8 "[web1] up\r\n" ∧
      replayHost true "web1" (captured "up\r\n") = "[web1] up\n" ∧
      (captureOf (twins "up\r\n")).replay (some 1) = "[web1] up\n[web2] up\n" := by
  refine ⟨by decide, ?_, ?_⟩
  · cbv
  · cbv

end Capture

end Flotilla
