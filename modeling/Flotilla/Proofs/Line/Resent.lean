import Flotilla.Proofs.Line.Append
import Flotilla.Proofs.Line.Trimmed

/-!
# Segments read again

A segment that runs on the hosts is sent as text, and the shell that gets the text reads it anew.
`readsAgain_iff_survives` says when that reading is the segment: not where trimming has cut an
escape.
-/

namespace Flotilla.Line

open Text (isBlank)

/-- A draft with the words and the text that a command has when it is read again. -/
structure Redrafts (c : Command) (d : Draft) : Prop where
  words : d.words = c.resent.words
  text : Text.trim d.text = c.text
  shut : d.word = none

theorem lex_space (inWord : Bool) (offset : Nat) (rest : List Char) :
    lex inWord offset (' ' :: rest) =
      ⟨⟨.blank, [' '], offset⟩ :: (lex false (offset + 1) rest).pieces,
        (lex false (offset + 1) rest).fault⟩ := by
  rw [lex_cons (scan_of_not_mem_leads (by decide) inWord rest)]
  rfl

theorem lex_pipe (inWord : Bool) (offset : Nat) (rest : List Char) :
    lex inWord offset ('|' :: ' ' :: rest) =
      ⟨⟨.pipe, ['|'], offset⟩ :: ⟨.blank, [' '], offset + 1⟩ ::
          (lex false (offset + 1 + 1) rest).pieces,
        (lex false (offset + 1 + 1) rest).fault⟩ := by
  have pipe : Piece.Kind.scan inWord '|' (' ' :: rest) = .ok (.pipe, .one '|' (' ' :: rest)) := by
    simp [Piece.Kind.scan]
  rw [lex_cons pipe]
  change Lexed.mk (_ :: (lex false (offset + 1) (' ' :: rest)).pieces)
    (lex false (offset + 1) (' ' :: rest)).fault = _
  rw [lex_space]
  rfl

theorem assemble_pipe {mark : Char} {stop : Except ParseError Nat} {before : List Draft} {d : Draft}
    (some_ : d.endWord.words ≠ []) (offset offset' : Nat) (ps : List Piece) :
    assemble mark stop before d (⟨.pipe, ['|'], offset⟩ :: ⟨.blank, [' '], offset'⟩ :: ps) =
      assemble mark stop (before ++ [d.endWord]) ⟨[' '], [], none⟩ ps := by
  simp only [assemble]
  rw [if_neg some_]
  rfl

section

variable {c : Command} {lead : List Char}

/-- The text of a command and the space behind it, as they are read in front of a pipe.  The space
is a blank of its own, or it goes to the escape whose end was cut. -/
theorem Command.Readable.before_pipe (readable : c.Readable) (some_ : c.words ≠ []) :
    ∃ m : Command, (∀ p ∈ m, p.IsPart) ∧ typedFor m = c.text ++ [' '] ∧
      m.words = c.resent.words ∧ ∀ x, Reads false ('|' :: x) m := by
  obtain ⟨parts, typed, reads, -⟩ := readable.resent some_
  by_cases uncut : c.cut = none
  · rw [if_pos uncut] at typed
    refine ⟨c.resent ++ [⟨.blank, [' '], 0⟩], ?_, ?_, ?_, fun x => ?_⟩
    · rw [List.forall_mem_append]
      exact ⟨parts, by simp [Piece.IsPart]⟩
    · rw [typedFor_append, typed]
      rfl
    · exact Command.words_between (l := []) (by simp) parts (by simp)
    · rw [reads_append]
      refine ⟨reads _ (by simp), ⟨' ', '|' :: x, .one ' ' ('|' :: x), rfl, ?_, rfl⟩, trivial⟩
      exact scan_of_not_mem_leads (by decide) _ _
  · rw [if_neg uncut] at typed
    exact ⟨c.resent, parts, typed, rfl, fun x => reads _ fun none => absurd none uncut⟩

/-- In front of a pipe the text of a command is read as `c.resent`. -/
theorem assemble_resent_pipe (readable : c.Readable) (some_ : c.words ≠ [])
    (blank : ∀ a ∈ lead, isBlank a) (mark : Char) (stop : Except ParseError Nat)
    (before : List Draft) (offset : Nat) (rest : List Char) :
    ∃ d later, Redrafts c d ∧
      (lex false offset (c.text ++ ' ' :: '|' :: ' ' :: rest)).fault =
        (lex false later rest).fault ∧
      assemble mark stop before ⟨lead, [], none⟩
          (lex false offset (c.text ++ ' ' :: '|' :: ' ' :: rest)).pieces =
        assemble mark stop (before ++ [d]) ⟨[' '], [], none⟩ (lex false later rest).pieces := by
  obtain ⟨m, parts, typed, words, reads⟩ := readable.before_pipe some_
  obtain ⟨-, -, -, a, b, first, last, visible⟩ := readable.resent some_
  have trimmed : Text.trim (lead ++ c.text ++ [' ']) = c.text :=
    Text.trim_between blank (by simp [isBlank]) first last visible
  have nonempty := readable.words_resent_ne_nil some_
  have ended := Command.draft_retext parts lead
  rw [typed, words, ← List.append_assoc] at ended
  obtain ⟨later, fault, assembled⟩ := assemble_of_reads (reads (' ' :: rest)) parts mark stop before
    ⟨lead, [], none⟩ offset
  rw [typed, List.append_assoc, List.singleton_append, lex_pipe] at fault assembled
  refine ⟨⟨lead ++ c.text ++ [' '], c.resent.words, none⟩, _, ⟨rfl, trimmed, rfl⟩, fault,
    assembled.trans ?_⟩
  rw [assemble_pipe (by rw [ended]; exact nonempty), ended]

/-- At the end a command that is not cut is read as it was. -/
theorem assemble_resent_end (readable : c.Readable) (some_ : c.words ≠ []) (uncut : c.cut = none)
    (blank : ∀ a ∈ lead, isBlank a) (mark : Char) (n : Nat) (before : List Draft) (offset : Nat) :
    ∃ d, Redrafts c d ∧ (lex false offset c.text).fault = none ∧
      assemble mark (.ok n) before ⟨lead, [], none⟩ (lex false offset c.text).pieces =
        close mark n before d := by
  obtain ⟨parts, typed, reads, a, b, first, last, visible⟩ := readable.resent some_
  have trimmed : Text.trim (lead ++ c.text ++ []) = c.text :=
    Text.trim_between blank (by simp) first last visible
  rw [List.append_nil] at trimmed
  have folded := Command.draft_retext parts lead
  rw [if_pos uncut] at typed
  obtain ⟨later, fault, assembled⟩ := assemble_of_reads (reads [] (by simp)) parts mark (.ok n)
    before ⟨lead, [], none⟩ offset
  rw [typed, List.append_nil, lex_nil] at fault assembled
  rw [typed] at folded
  refine ⟨⟨lead ++ c.text, c.resent.words, none⟩, ⟨rfl, trimmed, rfl⟩, fault, assembled.trans ?_⟩
  rw [assemble, ok_bind, close_endWord, folded]

/-- At the end a command that is cut is left with a backslash that hides nothing. -/
theorem assemble_cut_end (readable : c.Readable) (some_ : c.words ≠ []) (cut : c.cut ≠ none)
    (mark : Char) (before : List Draft) (d : Draft) (offset : Nat) :
    (lex false offset c.text).fault = some .trailingEscape ∧
      assemble mark (.error .trailingEscape) before d (lex false offset c.text).pieces =
        .error .trailingEscape := by
  obtain ⟨b, cut⟩ := Option.ne_none_iff_exists'.mp cut
  obtain ⟨m, -, -, -, -, -, whole⟩ := readable.seen_of_cut cut
  obtain ⟨parts, typed, reads, -⟩ := readable.resent some_
  have again := reads [] (by simp)
  rw [if_neg (by simp [cut]), whole, typedFor_append] at typed
  rw [whole, reads_append] at again
  rw [whole, List.forall_mem_append] at parts
  have text : c.text = typedFor m ++ ['\\'] := by
    have same : c.text ++ [' '] = typedFor m ++ ['\\'] ++ [' '] := by
      rw [← typed, List.append_assoc]
      rfl
    exact List.append_cancel_right same
  have shorter : Reads false ['\\'] m := again.1.follow fun _ _ => .inl rfl
  obtain ⟨later, fault, assembled⟩ := assemble_of_reads shorter parts.1 mark
    (.error .trailingEscape) before d offset
  have hanging : lex (openBehind false m) later ['\\'] = ⟨[], some .trailingEscape⟩ :=
    lex_fault rfl later
  rw [← text, hanging] at fault assembled
  exact ⟨fault, assembled⟩

end

/-! ### Commands in a row -/

theorem runText_cons (c : Command) {run : List Command} (some_ : run ≠ []) :
    runText (c :: run) = c.text ++ ' ' :: '|' :: ' ' :: runText run := by
  obtain ⟨e, run, rfl⟩ := List.exists_cons_of_ne_nil some_
  simp [runText, List.intercalate_cons_cons]

theorem runText_singleton (c : Command) : runText [c] = c.text := List.intercalate_singleton

/-- The commands in front of the last one are read one by one. -/
theorem assemble_runText {init : List Command}
    (readable : ∀ c ∈ init, c.Readable ∧ c.words ≠ []) (last : Command) (lead : List Char)
    (blank : ∀ a ∈ lead, isBlank a) (mark : Char) (stop : Except ParseError Nat)
    (before : List Draft) (offset : Nat) :
    ∃ ds lead' later, List.Forall₂ Redrafts init ds ∧ (∀ a ∈ lead', isBlank a) ∧
      (lex false offset (runText (init ++ [last]))).fault = (lex false later last.text).fault ∧
      assemble mark stop before ⟨lead, [], none⟩
          (lex false offset (runText (init ++ [last]))).pieces =
        assemble mark stop (before ++ ds) ⟨lead', [], none⟩ (lex false later last.text).pieces := by
  induction init generalizing lead before offset with
  | nil =>
    rw [List.nil_append, runText_singleton]
    refine ⟨[], lead, offset, .nil, blank, rfl, ?_⟩
    rw [List.append_nil]
  | cons c init ih =>
    obtain ⟨⟨here, some_⟩, others⟩ := List.forall_mem_cons.mp readable
    rw [List.cons_append, runText_cons c (by simp)]
    obtain ⟨d, behind, redrafts, fault, assembled⟩ := assemble_resent_pipe here some_ blank mark
      stop before offset (runText (init ++ [last]))
    obtain ⟨ds, lead', later, more, blanks, fault', assembled'⟩ :=
      ih others [' '] (by simp [isBlank]) (before ++ [d]) behind
    refine ⟨d :: ds, lead', later, .cons redrafts more, blanks, fault.trans fault', ?_⟩
    rw [assembled, assembled', List.append_assoc]
    rfl

theorem parse_runText {init : List Command} {last : Command}
    (firsts : ∀ c ∈ init, c.Readable ∧ c.words ≠ []) (lastly : last.Readable)
    (some_ : last.words ≠ []) (uncut : last.cut = none) (mark : Char) :
    ∃ ds d n, List.Forall₂ Redrafts init ds ∧ Redrafts last d ∧
      parse mark (String.ofList (runText (init ++ [last]))) = close mark n ds d := by
  obtain ⟨ds, lead, later, redrafts, blank, fault, assembled⟩ := assemble_runText firsts last
    [] (by simp) mark (.ok (byteLength (runText (init ++ [last])))) [] 0
  obtain ⟨d, here, sound, closed⟩ := assemble_resent_end lastly some_ uncut blank mark
    (byteLength (runText (init ++ [last]))) ([] ++ ds) later
  refine ⟨ds, d, byteLength (runText (init ++ [last])), redrafts, here, ?_⟩
  rw [parse_eq, String.toList_ofList, stopOf_of_sound (fault.trans sound)]
  exact assembled.trans closed

theorem parse_runText_cut {init : List Command} {last : Command}
    (firsts : ∀ c ∈ init, c.Readable ∧ c.words ≠ []) (lastly : last.Readable)
    (some_ : last.words ≠ []) (cut : last.cut ≠ none) (mark : Char) :
    parse mark (String.ofList (runText (init ++ [last]))) = .error .trailingEscape := by
  obtain ⟨ds, lead, later, -, -, fault, assembled⟩ := assemble_runText firsts last []
    (by simp) mark (.error .trailingEscape) [] 0
  obtain ⟨fault', failed⟩ := assemble_cut_end lastly some_ cut mark ([] ++ ds)
    ⟨lead, [], none⟩ later
  have stop : stopOf (runText (init ++ [last])) = .error .trailingEscape := by
    rw [stopOf, fault, fault']
  rw [parse_eq, String.toList_ofList, stop]
  exact assembled.trans failed

/-! ### The segment of the commands -/

theorem joinFrom_run {a z : Segment} {xs : List Segment} (first : a.venue = .hosts ∧ a.piped)
    (hosts : ∀ x ∈ xs, x.venue = .hosts ∧ x.piped) (last : z.venue = .hosts) :
    joinFrom a (xs ++ [z]) = [(xs ++ [z]).foldl Segment.join a] := by
  induction xs generalizing a with
  | nil => exact if_pos ⟨first.1, last, first.2⟩
  | cons x xs ih =>
    obtain ⟨here, others⟩ := List.forall_mem_cons.mp hosts
    rw [List.cons_append, joinFrom, if_pos ⟨first.1, here.1, first.2⟩]
    exact ih (a := a.join x) ⟨first.1, here.2⟩ others

/-- Segments that all run on the hosts become one. -/
theorem joinHosts_run {xs : List Segment} {z : Segment}
    (hosts : ∀ x ∈ xs, x.venue = .hosts ∧ x.piped) (last : z.venue = .hosts) :
    joinHosts (xs ++ [z]) =
      [⟨.hosts, ["|"].intercalate ((xs ++ [z]).map (·.words)),
        String.ofList ([' ', '|', ' '].intercalate ((xs ++ [z]).map (·.text.toList))), z.piped⟩] := by
  cases xs with
  | nil =>
    rw [← last]
    simp [joinHosts, joinFrom]
  | cons a xs =>
    obtain ⟨first, others⟩ := List.forall_mem_cons.mp hosts
    have piped : ((xs ++ [z]).foldl Segment.join a).piped = z.piped := by
      rw [List.foldl_append]
      rfl
    rw [List.cons_append, joinHosts, joinFrom_run first others last, ← words_foldl_join,
      ← text_foldl_join, String.ofList_toList, ← piped, ← first.1, ← venue_foldl_join]

/-- The segment of a command for the hosts. -/
def Command.segment (c : Command) (piped : Bool) : Segment :=
  ⟨.hosts, c.words, String.ofList c.text, piped⟩

theorem Redrafts.toSegment {c : Command} {d : Draft} {mark : Char} (redrafts : Redrafts c d)
    (hosts : c.OnHosts mark) (same : c.resent.words = c.words) (piped : Bool) :
    d.toSegment mark piped = .ok (c.segment piped) := by
  unfold Draft.toSegment
  dsimp only
  rw [redrafts.text, if_neg hosts.bare, redrafts.words, same, hosts.other]
  rfl

theorem mapM_toSegment {mark : Char} {init : List Command} {ds : List Draft}
    (redrafts : List.Forall₂ Redrafts init ds) (hosts : ∀ c ∈ init, c.OnHosts mark)
    (same : ∀ c ∈ init, c.resent.words = c.words) :
    ds.mapM (·.toSegment mark true) = .ok (init.map (·.segment true)) := by
  have known := (List.forall₂_and_left _ _).mpr
    ⟨fun c member => And.intro (hosts c member) (same c member), redrafts⟩
  rw [mapM_eq_ok, List.forall₂_map_right_iff]
  exact (known.imp fun c d both => both.2.toSegment both.1.1 both.1.2 true).flip

/-- Commands whose words are kept are one segment again when they are read again. -/
theorem close_redrafts {mark : Char} {init : List Command} {last : Command} {ds : List Draft}
    {d : Draft} (redrafts : List.Forall₂ Redrafts init ds) (lastly : Redrafts last d)
    (hosts : ∀ c ∈ init ++ [last], c.OnHosts mark)
    (same : ∀ c ∈ init ++ [last], c.resent.words = c.words) (n : Nat) :
    close mark n ds d = .ok [⟨[⟨.hosts, runWords (init ++ [last]),
      String.ofList (runText (init ++ [last])), false⟩]⟩] := by
  rw [List.forall_mem_append] at hosts same
  have onHosts := hosts.2 last (by simp)
  have words := same.2 last (by simp)
  have some_ : d.words ≠ [] := by
    rw [lastly.words, words]
    exact onHosts.words
  have joined := @joinHosts_run (init.map (·.segment true)) (last.segment false)
    (by simp [Command.segment]) rfl
  unfold close
  dsimp only
  rw [Draft.endWord_of_none lastly.shut, if_neg some_, mapM_toSegment redrafts hosts.1 same.1,
    lastly.toSegment onHosts words, ok_bind, ok_bind, joined]
  simp [runWords, runText, Command.segment, Function.comp_def]

/-! ### What is lost -/

theorem words_toSegment {mark : Char} {c : Command} {d : Draft} {piped : Bool} {s : Segment}
    (redrafts : Redrafts c d) (hosts : c.OnHosts mark) (made : d.toSegment mark piped = .ok s) :
    s.words = c.resent.words := by
  unfold Draft.toSegment at made
  dsimp only at made
  rw [redrafts.text, if_neg hosts.bare] at made
  obtain ⟨builtin, -, made⟩ := bind_eq_ok.mp made
  cases made
  exact redrafts.words

theorem eq_of_joinFrom_singleton {a s : Segment} {r : List Segment} (one : joinFrom a r = [s]) :
    s = r.foldl Segment.join a := by
  induction r generalizing a with
  | nil => exact (List.singleton_inj.mp one).symm
  | cons b r ih =>
    rw [joinFrom] at one
    split at one
    · exact ih one
    · exact absurd (List.cons.inj one).2 (joinFrom_ne_nil b r)

theorem words_of_joinHosts_singleton {s : Segment} {xs : List Segment} (one : joinHosts xs = [s]) :
    s.words = ["|"].intercalate (xs.map (·.words)) := by
  cases xs with
  | nil => cases one
  | cons a r => rw [eq_of_joinFrom_singleton one, words_foldl_join]

/-- The number of spaces in some words. -/
def spaces (words : List String) : Nat := (words.map (·.toList.count ' ')).sum

@[simp] theorem spaces_append (as bs : List String) : spaces (as ++ bs) = spaces as + spaces bs := by
  simp [spaces]

theorem spaces_intercalate (run : List (List String)) :
    spaces (["|"].intercalate run) = (run.map spaces).sum := by
  induction run with
  | nil => rfl
  | cons ws run ih =>
    cases run with
    | nil => simp
    | cons vs run =>
      rw [List.intercalate_cons_cons, spaces_append, spaces_append, ih]
      simp [spaces]

/-- A cut escape that held something other than a space holds a space when it is read again. -/
theorem spaces_resent {c : Command} (readable : c.Readable) :
    spaces c.words ≤ spaces c.resent.words ∧
      (∀ b, c.cut = some b → b ≠ ' ' → spaces c.words < spaces c.resent.words) := by
  cases cut : c.cut with
  | none =>
    rw [Command.words_resent_of_uncut readable.parts cut]
    exact ⟨le_refl _, by simp⟩
  | some b =>
    obtain ⟨ws, w, again, before⟩ := readable.words_of_cut cut
    have more : spaces c.resent.words = spaces ws + (w.count ' ' + 1) := by
      simp [again, spaces]
    have less : spaces c.words ≤ spaces ws + (w.count ' ' + if b = ' ' then 1 else 0) := by
      split at before
      next newline =>
        rcases before with words | words
        · rw [words]
          omega
        · simp [words, spaces]
      next => simp [before, spaces, List.count_singleton]
    rw [more]
    refine ⟨?_, fun d same other => ?_⟩
    · split at less <;> omega
    · obtain rfl := Option.some.inj same
      rw [if_neg other] at less
      omega

theorem map_words_of_mapM {mark : Char} {init : List Command} {ds : List Draft}
    {segments : List Segment} (redrafts : List.Forall₂ Redrafts init ds)
    (hosts : ∀ c ∈ init, c.OnHosts mark)
    (made : ds.mapM (·.toSegment mark true) = .ok segments) :
    segments.map (·.words) = init.map (·.resent.words) := by
  rw [mapM_eq_ok] at made
  induction redrafts generalizing segments with
  | nil =>
    cases made
    rfl
  | cons first _ ih =>
    obtain ⟨here, others⟩ := List.forall_mem_cons.mp hosts
    obtain ⟨s, ss, one, more, rfl⟩ := List.forall₂_cons_left_iff.mp made
    rw [List.map_cons, List.map_cons, words_toSegment first here one, ih others more]

theorem words_of_close {mark : Char} {init : List Command} {last : Command} {ds : List Draft}
    {d : Draft} (redrafts : List.Forall₂ Redrafts init ds) (lastly : Redrafts last d)
    (hosts : ∀ c ∈ init ++ [last], c.OnHosts mark) {n : Nat} {s : Segment}
    (closed : close mark n ds d = .ok [⟨[s]⟩]) :
    s.words = ["|"].intercalate ((init ++ [last]).map (·.resent.words)) := by
  rw [List.forall_mem_append] at hosts
  have shut := Draft.endWord_of_none lastly.shut
  unfold close at closed
  dsimp only at closed
  rw [shut] at closed
  split at closed
  · split at closed <;> cases closed
  · obtain ⟨piped, firsts, closed⟩ := bind_eq_ok.mp closed
    obtain ⟨final, made, closed⟩ := bind_eq_ok.mp closed
    have joined : joinHosts (piped ++ [final]) = [s] := by
      simpa using closed
    rw [words_of_joinHosts_singleton joined, List.map_append, List.map_append,
      map_words_of_mapM redrafts hosts.1 firsts, List.map_singleton, List.map_singleton,
      words_toSegment lastly (hosts.2 last (by simp)) made]

/-- Whether nothing is lost of commands in a row when they are trimmed.  A space that is cut off an
escape is put back by the pipe behind it. -/
structure Survives (run : List Command) : Prop where
  last : ∀ c ∈ run.getLast?, c.cut = none
  others : ∀ c ∈ run.dropLast, c.cut = none ∨ c.cut = some ' '

theorem Survives.words {run : List Command} (survives : Survives run)
    (readable : ∀ c ∈ run, c.Readable) : ∀ c ∈ run, c.resent.words = c.words := by
  intro c member
  have kept : c.cut = none ∨ c.cut = some ' ' := by
    obtain rfl | ⟨init, last, rfl⟩ := run.eq_nil_or_concat'
    · cases member
    · rcases List.mem_append.mp member with first | lastly
      · exact survives.others c (by simpa using first)
      · exact .inl (survives.last c (by simpa [eq_comm] using lastly))
  rcases kept with uncut | space
  · exact Command.words_resent_of_uncut (readable c member).parts uncut
  · exact (readable c member).words_of_cut_space space

/-- Commands are one segment again only if each has as many spaces as it had. -/
theorem cut_of_close {mark : Char} {init : List Command} {last : Command} {ds : List Draft}
    {d : Draft} (readable : ∀ c ∈ init ++ [last], c.Readable)
    (redrafts : List.Forall₂ Redrafts init ds) (lastly : Redrafts last d)
    (hosts : ∀ c ∈ init ++ [last], c.OnHosts mark) {n : Nat} {s : Segment}
    (closed : close mark n ds d = .ok [⟨[s]⟩]) (same : s.words = runWords (init ++ [last])) :
    ∀ c ∈ init, c.cut = none ∨ c.cut = some ' ' := by
  intro c member
  by_contra lost
  rw [not_or] at lost
  obtain ⟨b, cut⟩ := Option.ne_none_iff_exists'.mp lost.1
  have other : b ≠ ' ' := by
    rintro rfl
    exact lost.2 cut
  have inside : c ∈ init ++ [last] := List.mem_append_left _ member
  have more := List.sum_lt_sum (l := init ++ [last]) (fun c => spaces c.words)
    (fun c => spaces c.resent.words) (fun c member => (spaces_resent (readable c member)).1)
    ⟨c, inside, (spaces_resent (readable c inside)).2 b cut other⟩
  have counted := congrArg spaces ((words_of_close redrafts lastly hosts closed).symm.trans same)
  rw [runWords, spaces_intercalate, spaces_intercalate, List.map_map, List.map_map] at counted
  exact absurd counted (Nat.ne_of_gt more)

/-- What is sent for the segment is read as this one segment again. -/
def ReadsAgain (mark : Char) (s : Segment) : Prop :=
  parse mark s.text = .ok [⟨[{ s with piped := false }]⟩]

/-- A segment that runs on the hosts is some commands of the line in a row, sent with ` | ` between
them.  It is read again as it was just if nothing of these commands is lost when they are trimmed;
where the last one has lost the end of an escape, what is sent cannot be read at all. -/
theorem readsAgain_iff_survives {mark : Char} {line : String} {A : List Statement} {S : Statement}
    {s : Segment} (read : parse mark line = .ok A) (statement : S ∈ A) (segment : s ∈ S.segments)
    (hosts : s.venue = .hosts) :
    ∃ run, run ≠ [] ∧ run <:+: commands line ∧ s.words = runWords run ∧
      s.text.toList = runText run ∧ (ReadsAgain mark s ↔ Survives run) ∧
      ((∃ c ∈ run.getLast?, c.cut ≠ none) → parse mark s.text = .error .trailingEscape) := by
  obtain ⟨run, some_, part, onHosts, words, text⟩ := run_of_segment read statement segment hosts
  refine ⟨run, some_, part, words, text, ?_⟩
  have sound : (lex false 0 line.toList).fault = none := by
    cases fault : (lex false 0 line.toList).fault with
    | none => rfl
    | some e =>
      rw [parse_eq, stopOf, fault] at read
      exact absurd read assemble_fault_ne_ok
  have readable : ∀ c ∈ run, c.Readable :=
    fun c member => readable_of_mem_commands sound (part.subset member)
  have sent : s.text = String.ofList (runText run) := by rw [← text, String.ofList_toList]
  obtain none | ⟨init, last, rfl⟩ := run.eq_nil_or_concat'
  · exact absurd none some_
  have firsts : ∀ c ∈ init, c.Readable ∧ c.words ≠ [] := by
    intro c member
    have inside : c ∈ init ++ [last] := List.mem_append_left _ member
    exact ⟨readable c inside, (onHosts c inside).words⟩
  have member : last ∈ init ++ [last] := by simp
  have full := (onHosts last member).words
  rw [ReadsAgain, sent]
  by_cases cut : last.cut = none
  · obtain ⟨ds, d, n, redrafts, lastly, reread⟩ :=
      parse_runText firsts (readable last member) full cut mark
    refine ⟨⟨fun again => ?_, fun survives => ?_⟩, ?_⟩
    · rw [reread] at again
      have kept := cut_of_close readable redrafts lastly onHosts again words
      exact ⟨by simpa using cut, by simpa using kept⟩
    · have same := survives.words readable
      rw [reread, close_redrafts redrafts lastly onHosts same n, ← words, ← sent, ← hosts]
    · simp [cut]
  · have failed := parse_runText_cut firsts (readable last member) full cut mark
    refine ⟨⟨fun again => ?_, fun survives => ?_⟩, fun _ => failed⟩
    · rw [failed] at again
      cases again
    · exact absurd (survives.last last (by simp)) cut

theorem readsAgain_iff_survives_escape :
    ∃ run, run ≠ [] ∧ run <:+: commands "ls \\  | wc" ∧
      ["ls", " ", "|", "wc"] = runWords run ∧ "ls \\ | wc".toList = runText run ∧
      (ReadsAgain '!' ⟨.hosts, ["ls", " ", "|", "wc"], "ls \\ | wc", false⟩ ↔ Survives run) ∧
      ((∃ c ∈ run.getLast?, c.cut ≠ none) →
        parse '!' "ls \\ | wc" = .error .trailingEscape) :=
  @readsAgain_iff_survives '!' "ls \\  | wc" _ _
    ⟨.hosts, ["ls", " ", "|", "wc"], "ls \\ | wc", false⟩ (by cbv) List.mem_cons_self
    List.mem_cons_self rfl

/-- Not every segment is read again as it was: the last word here is a space, which is cut. -/
theorem not_readsAgain_escape :
    ¬ ∀ A, parse '!' "ls \\ " = .ok A → ∀ S ∈ A, ∀ s ∈ S.segments, s.venue = .hosts →
      ReadsAgain '!' s := by
  intro again
  have read : parse '!' "ls \\ " = .ok [⟨[⟨.hosts, ["ls", " "], "ls \\", false⟩]⟩] := by cbv
  have failed : parse '!' "ls \\" = .error .trailingEscape := by cbv
  have kept := again _ read _ List.mem_cons_self _ List.mem_cons_self rfl
  rw [ReadsAgain, failed] at kept
  cases kept

end Flotilla.Line
