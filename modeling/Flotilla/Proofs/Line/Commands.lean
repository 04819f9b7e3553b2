import Flotilla.Line.Statement
import Flotilla.Proofs.Failure
import Flotilla.Proofs.Line.Reads

/-!
# Commands of a line

A command is what stands between two pipes or ends of statements, without a comment.  Each segment
that runs on the hosts is some commands in a row: `run_of_segment`.
-/

namespace Flotilla.Line

/-- The pieces of a command. -/
abbrev Command := List Piece

/-- The commands of some pieces, where `c` is what has been read of the first. -/
def commandsFrom (c : Command) : List Piece → List Command
  | [] => [c]
  | p :: ps =>
    match p.kind with
    | .comment => commandsFrom c ps
    | .pipe | .finish => c :: commandsFrom [] ps
    | _ => commandsFrom (c ++ [p]) ps

/-- The commands of a line. -/
def commands (line : String) : List Command := commandsFrom [] (lex false 0 line.toList).pieces

namespace Command

/-- The draft that a command makes. -/
def draft (c : Command) : Draft := (c.foldl Draft.add {}).endWord

def words (c : Command) : List String := c.draft.words

def text (c : Command) : List Char := Text.trim c.draft.text

/-- Whether pieces that can be read make up the command. -/
structure Readable (c : Command) : Prop where
  parts : ∀ p ∈ c, p.IsPart
  reads : ∃ y, Reads false y c

/-- Whether the command is one for the hosts. -/
structure OnHosts (mark : Char) (c : Command) : Prop where
  words : c.words ≠ []
  bare : c.text.head? ≠ some mark
  other : Builtin.ofWords? c.words = .ok none

end Command

/-! ### What the commands are read from -/

/-- Where nothing but a newline can follow it does not matter whether a word is open. -/
theorem Reads.behind_newline {inWord : Bool} (other : Bool) {y : List Char} {ps : List Piece}
    (reads : Reads inWord y ps) (stops : ∀ c ∈ (typedFor ps ++ y).head?, c = '\n') :
    Reads other y ps := by
  cases ps with
  | nil => trivial
  | cons p ps =>
    obtain ⟨starts, later⟩ := reads
    obtain ⟨c, source, whole⟩ := List.exists_cons_of_ne_nil starts.ne_nil
    obtain rfl : c = '\n' := stops c (by simp [whole])
    rw [whole] at starts
    obtain ⟨finish, starts⟩ := starts.of_newline
    rw [finish] at later
    refine ⟨?_, ?_⟩
    · rw [whole]
      exact starts other
    · rw [finish]
      exact later

theorem readable_of_mem_commandsFrom {c x : Command} {y : List Char} {ps : List Piece}
    (parts : ∀ p ∈ c, p.IsPart) (reads : Reads false (typedFor ps ++ y) c)
    (later : Reads (openBehind false c) y ps) (member : x ∈ commandsFrom c ps) :
    x.Readable := by
  induction ps generalizing c with
  | nil =>
    obtain rfl := List.mem_singleton.mp member
    exact ⟨parts, y, reads⟩
  | cons p ps ih =>
    obtain ⟨starts, rest⟩ := later
    have joined (part : p.IsPart) (kept : x ∈ commandsFrom (c ++ [p]) ps) : x.Readable := by
      refine ih (c := c ++ [p]) ?_ (reads_append.mpr ⟨?_, starts, trivial⟩) ?_ kept
      · rw [List.forall_mem_append]
        exact ⟨parts, by simpa using part⟩
      · simpa [List.append_assoc] using reads
      · simpa [openBehind] using rest
    have ended (shut : p.kind.opensWord (openBehind false c) = false)
        (kept : x ∈ c :: commandsFrom [] ps) : x.Readable := by
      rcases List.mem_cons.mp kept with rfl | further
      · exact ⟨parts, _, reads⟩
      · rw [shut] at rest
        exact ih (c := []) (by simp) trivial rest further
    cases kind : p.kind with
    | comment =>
      simp only [commandsFrom, kind] at member
      rw [kind] at starts rest
      -- The line ends with a comment, so nothing more of the command can follow.
      have stops := starts.extent.newline_of_comment
      refine ih parts (reads.follow fun q last => .inr fun d here => ?_)
        (rest.behind_newline _ stops) member
      obtain rfl := stops d here
      rw [if_neg (parts q (List.mem_of_getLast? last)).1]
      decide
    | pipe =>
      simp only [commandsFrom, kind] at member
      exact ended (by rw [kind]; rfl) member
    | finish =>
      simp only [commandsFrom, kind] at member
      exact ended (by rw [kind]; rfl) member
    | word value =>
      simp only [commandsFrom, kind] at member
      exact joined (by simp [Piece.IsPart, kind]) member
    | continuation =>
      simp only [commandsFrom, kind] at member
      exact joined (by simp [Piece.IsPart, kind]) member
    | blank =>
      simp only [commandsFrom, kind] at member
      exact joined (by simp [Piece.IsPart, kind]) member
    | operator =>
      simp only [commandsFrom, kind] at member
      exact joined (by simp [Piece.IsPart, kind]) member

theorem readable_of_mem_commands {line : String} (sound : (lex false 0 line.toList).fault = none)
    {c : Command} (member : c ∈ commands line) : c.Readable :=
  readable_of_mem_commandsFrom (c := []) (by simp) trivial (reads_lex sound) member

/-! ### What becomes of them -/

/-- What a draft becomes. -/
inductive Draft.Becomes (mark : Char) (d : Draft) (piped : Bool) : Segment → Prop where
  | here {words : List String} {text : List Char} (marked : (Text.trim d.text).head? = some mark)
      (some_ : words ≠ []) (rest : text = Text.trimStart (Text.trim d.text).tail) (full : text ≠ []) :
      Becomes mark d piped ⟨.here, words, String.ofList text, piped⟩
  | shell {b : Builtin} (bare : (Text.trim d.text).head? ≠ some mark)
      (named : Builtin.ofWords? d.words = .ok (some b)) :
      Becomes mark d piped ⟨.shell b, d.words, String.ofList (Text.trim d.text), piped⟩
  | hosts (bare : (Text.trim d.text).head? ≠ some mark)
      (other : Builtin.ofWords? d.words = .ok none) :
      Becomes mark d piped ⟨.hosts, d.words, String.ofList (Text.trim d.text), piped⟩

theorem becomes_of_toSegment {d : Draft} {mark : Char} {piped : Bool} {s : Segment}
    (made : d.toSegment mark piped = .ok s) : d.Becomes mark piped s := by
  unfold Draft.toSegment at made
  dsimp only at made
  split at made
  next marked =>
    have ends {words : List String} {text : List Char}
        (rest : text = Text.trimStart (Text.trim d.text).tail)
        (made : (if words = [] ∨ text = [] then .error ParseError.emptyLocalCommand
          else .ok ⟨.here, words, String.ofList text, piped⟩) = Except.ok s) :
        d.Becomes mark piped s := by
      split at made
      · cases made
      next full =>
        cases made
        obtain ⟨some_, full⟩ := not_or.mp full
        exact .here marked some_ rest full
    exact ends rfl made
  next bare =>
    obtain ⟨builtin, named, made⟩ := bind_eq_ok.mp made
    cases made
    cases builtin with
    | some b => exact .shell bare named
    | none => exact .hosts bare named

theorem piped_toSegment {d : Draft} {mark : Char} {piped : Bool} {s : Segment}
    (made : d.toSegment mark piped = .ok s) : s.piped = piped := by
  cases becomes_of_toSegment made <;> rfl

/-- The segment is made of the command. -/
def Made (mark : Char) (c : Command) (s : Segment) : Prop :=
  c.words ≠ [] ∧ ∃ piped, c.draft.toSegment mark piped = .ok s

theorem forall_mem_of_forall₂ {α β : Type} {R : α → β → Prop} {p : β → Prop} {as : List α}
    {bs : List β} (all : List.Forall₂ R as bs) (each : ∀ a ∈ as, ∀ b, R a b → p b) :
    ∀ b ∈ bs, p b := by
  induction all with
  | nil => simp
  | cons related _ ih =>
    obtain ⟨here, later⟩ := List.forall_mem_cons.mp each
    exact List.forall_mem_cons.mpr ⟨here _ related, ih later⟩

/-- Each segment but the last is piped into the next. -/
inductive InRow : List Segment → Prop where
  | last {s : Segment} (ends : s.piped = false) : InRow [s]
  | next {s : Segment} {r : List Segment} (goes : s.piped = true) (rest : InRow r) : InRow (s :: r)

theorem inRow_concat {xs : List Segment} {z : Segment} (goes : ∀ x ∈ xs, x.piped = true)
    (ends : z.piped = false) : InRow (xs ++ [z]) := by
  induction xs with
  | nil => exact .last ends
  | cons x xs ih =>
    obtain ⟨here, later⟩ := List.forall_mem_cons.mp goes
    exact .next here (ih later)

theorem segments_of_close {mark : Char} {n : Nat} {before : List Command} {c : Command}
    (full : ∀ b ∈ before, b.words ≠ []) {A : List Statement} {S : Statement}
    (closed : close mark n (before.map Command.draft) (c.foldl Draft.add {}) = .ok A)
    (member : S ∈ A) :
    ∃ xs, List.Forall₂ (Made mark) (before ++ [c]) xs ∧ InRow xs ∧ S.segments = joinHosts xs := by
  have last : (c.foldl Draft.add {}).endWord = c.draft := rfl
  unfold close at closed
  rw [last] at closed
  by_cases empty : c.words = []
  · have none : c.draft.words = [] := empty
    simp only [none, if_true] at closed
    split at closed
    · cases closed
      cases member
    · cases closed
  · have some_ : c.draft.words ≠ [] := empty
    simp only [some_, if_false] at closed
    obtain ⟨piped, firsts, closed⟩ := bind_eq_ok.mp closed
    obtain ⟨final, made, closed⟩ := bind_eq_ok.mp closed
    cases closed
    obtain rfl := List.mem_singleton.mp member
    rw [mapM_eq_ok, List.forall₂_map_left_iff] at firsts
    have goes := forall_mem_of_forall₂ firsts fun b _ x made => piped_toSegment made
    refine ⟨piped ++ [final], ?_, inRow_concat goes (piped_toSegment made), rfl⟩
    have firsts := (List.forall₂_and_left _ _).mpr ⟨full, firsts⟩
    have firsts := firsts.imp fun b s both => (⟨both.1, true, both.2⟩ : Made mark b s)
    exact List.rel_append firsts (.cons ⟨empty, false, made⟩ .nil)

theorem segments_of_assemble {mark : Char} {stop : Except ParseError Nat} {before : List Command}
    {c : Command} {ps : List Piece} (full : ∀ b ∈ before, b.words ≠ []) {A : List Statement}
    {S : Statement}
    (read : assemble mark stop (before.map Command.draft) (c.foldl Draft.add {}) ps = .ok A)
    (member : S ∈ A) :
    ∃ cs xs, cs <:+: before ++ commandsFrom c ps ∧ List.Forall₂ (Made mark) cs xs ∧ InRow xs ∧
      S.segments = joinHosts xs := by
  induction ps generalizing before c A with
  | nil =>
    obtain ⟨n, -, closed⟩ := bind_eq_ok.mp read
    obtain ⟨xs, made, joined⟩ := segments_of_close full closed member
    exact ⟨before ++ [c], xs, List.infix_rfl, made, joined⟩
  | cons p ps ih =>
    cases kind : p.kind with
    | pipe =>
      simp only [assemble, kind] at read
      split at read
      · cases read
      next some_ =>
        have here : c.words ≠ [] := some_
        have more : ∀ b ∈ before ++ [c], b.words ≠ [] := by
          rw [List.forall_mem_append]
          exact ⟨full, by simpa using here⟩
        have again : assemble mark stop ((before ++ [c]).map Command.draft)
            (([] : Command).foldl Draft.add {}) ps = .ok A := by
          rw [List.map_append]
          exact read
        obtain ⟨cs, xs, part, made⟩ := ih more again member
        simp only [commandsFrom, kind]
        rw [List.append_cons]
        exact ⟨cs, xs, part, made⟩
    | finish =>
      simp only [assemble, kind] at read
      obtain ⟨here, closed, rest⟩ := bind_eq_ok.mp read
      obtain ⟨later, again, whole⟩ := bind_eq_ok.mp rest
      cases whole
      simp only [commandsFrom, kind]
      rcases List.mem_append.mp member with first | further
      · obtain ⟨xs, made⟩ := segments_of_close full closed first
        exact ⟨before ++ [c], xs, ⟨[], commandsFrom [] ps, by simp⟩, made⟩
      · have anew : assemble mark stop (([] : List Command).map Command.draft)
            (([] : Command).foldl Draft.add {}) ps = .ok later := again
        obtain ⟨cs, xs, part, made⟩ := ih (by simp) anew further
        exact ⟨cs, xs, part.trans ⟨before ++ [c], [], by simp⟩, made⟩
    | comment =>
      simp only [assemble, kind, Draft.add] at read
      simp only [commandsFrom, kind]
      exact ih full read member
    | _ =>
      simp only [assemble, kind] at read
      simp only [commandsFrom, kind]
      refine ih (c := c ++ [p]) full ?_ member
      rw [List.foldl_append]
      exact read

/-! ### Commands that run on the hosts together -/

theorem joinFrom_ne_nil (a : Segment) (r : List Segment) : joinFrom a r ≠ [] := by
  induction r generalizing a with
  | nil => simp [joinFrom]
  | cons b r ih =>
    rw [joinFrom]
    split
    · exact ih (a.join b)
    · simp

/-- A segment that comes of joining is a run of segments joined. -/
theorem mem_joinFrom {a s : Segment} {r : List Segment} (member : s ∈ joinFrom a r) :
    (∃ t, t <+: r ∧ (∀ x ∈ t, x.venue = .hosts) ∧ s = t.foldl Segment.join a) ∨
      ∃ b t, b :: t <:+: r ∧ (∀ x ∈ t, x.venue = .hosts) ∧ s = t.foldl Segment.join b := by
  induction r generalizing a with
  | nil =>
    obtain rfl := List.mem_singleton.mp member
    exact .inl ⟨[], List.prefix_rfl, by simp, rfl⟩
  | cons b r ih =>
    rw [joinFrom] at member
    split at member
    next both =>
      rcases ih member with ⟨t, first, hosts, rfl⟩ | ⟨d, t, part, hosts, rfl⟩
      · refine .inl ⟨b :: t, List.cons_prefix_cons.mpr ⟨rfl, first⟩, ?_, rfl⟩
        exact List.forall_mem_cons.mpr ⟨both.2.1, hosts⟩
      · exact .inr ⟨d, t, List.infix_cons part, hosts, rfl⟩
    next =>
      rcases List.mem_cons.mp member with rfl | further
      · exact .inl ⟨[], List.nil_prefix, by simp, rfl⟩
      · rcases ih further with ⟨t, first, hosts, rfl⟩ | ⟨d, t, part, hosts, rfl⟩
        · have whole : b :: t <+: b :: r := List.cons_prefix_cons.mpr ⟨rfl, first⟩
          exact .inr ⟨b, t, whole.isInfix, hosts, rfl⟩
        · exact .inr ⟨d, t, List.infix_cons part, hosts, rfl⟩

theorem venue_foldl_join (a : Segment) (t : List Segment) :
    (t.foldl Segment.join a).venue = a.venue := by
  induction t generalizing a with
  | nil => rfl
  | cons b t ih => exact ih (a.join b)

theorem words_foldl_join (a : Segment) (t : List Segment) :
    (t.foldl Segment.join a).words = ["|"].intercalate ((a :: t).map (·.words)) := by
  induction t generalizing a with
  | nil => simp
  | cons b t ih =>
    rw [List.foldl_cons, ih]
    cases t <;> simp [Segment.join, List.intercalate_cons_cons]

theorem text_foldl_join (a : Segment) (t : List Segment) :
    (t.foldl Segment.join a).text.toList =
      [' ', '|', ' '].intercalate ((a :: t).map (·.text.toList)) := by
  induction t generalizing a with
  | nil => simp
  | cons b t ih =>
    rw [List.foldl_cons, ih]
    cases t <;> simp [Segment.join, List.intercalate_cons_cons]

theorem mem_joinHosts {s : Segment} {xs : List Segment} (member : s ∈ joinHosts xs)
    (hosts : s.venue = .hosts) :
    ∃ b t, b :: t <:+: xs ∧ (∀ x ∈ b :: t, x.venue = .hosts) ∧ s = t.foldl Segment.join b := by
  cases xs with
  | nil => cases member
  | cons a r =>
    rcases mem_joinFrom member with ⟨t, first, others, rfl⟩ | ⟨b, t, part, others, rfl⟩
    · have whole : a :: t <+: a :: r := List.cons_prefix_cons.mpr ⟨rfl, first⟩
      rw [venue_foldl_join] at hosts
      exact ⟨a, t, whole.isInfix, List.forall_mem_cons.mpr ⟨hosts, others⟩, rfl⟩
    · rw [venue_foldl_join] at hosts
      exact ⟨b, t, List.infix_cons part, List.forall_mem_cons.mpr ⟨hosts, others⟩, rfl⟩

theorem Made.onHosts {mark : Char} {c : Command} {s : Segment} (made : Made mark c s)
    (hosts : s.venue = .hosts) :
    c.OnHosts mark ∧ s.words = c.words ∧ s.text.toList = c.text := by
  obtain ⟨some_, piped, made⟩ := made
  cases becomes_of_toSegment made with
  | here => cases hosts
  | shell => cases hosts
  | hosts bare other => exact ⟨⟨some_, bare, other⟩, rfl, String.toList_ofList⟩

/-- The words of commands in a row. -/
def runWords (run : List Command) : List String := ["|"].intercalate (run.map Command.words)

/-- The text that is sent for commands in a row. -/
def runText (run : List Command) : List Char :=
  [' ', '|', ' '].intercalate (run.map Command.text)

theorem made_run {mark : Char} {run : List Command} {xs : List Segment}
    (made : List.Forall₂ (Made mark) run xs) (hosts : ∀ x ∈ xs, x.venue = .hosts) :
    (∀ c ∈ run, c.OnHosts mark) ∧ xs.map (·.words) = run.map Command.words ∧
      xs.map (·.text.toList) = run.map Command.text := by
  induction made with
  | nil => simp
  | cons first _ ih =>
    obtain ⟨here, others⟩ := List.forall_mem_cons.mp hosts
    obtain ⟨onHosts, words, text⟩ := first.onHosts here
    obtain ⟨later, more, further⟩ := ih others
    rw [List.map_cons, List.map_cons, List.map_cons, List.map_cons, words, text, more, further]
    exact ⟨List.forall_mem_cons.mpr ⟨onHosts, later⟩, rfl, rfl⟩

theorem forall₂_of_infix {α β : Type} {R : α → β → Prop} {as : List α} {bs part : List β}
    (all : List.Forall₂ R as bs) (inside : part <:+: bs) :
    ∃ run, run <:+: as ∧ List.Forall₂ R run part := by
  obtain ⟨u, v, rfl⟩ := inside
  have front := List.forall₂_take_append as (u ++ part) v all
  have middle := List.forall₂_drop_append _ u part front
  exact ⟨_, ((List.drop_suffix _ _).isInfix.trans (List.take_prefix _ _).isInfix), middle⟩

/-- A segment that runs on the hosts is some commands of the line in a row. -/
theorem run_of_segment {mark : Char} {line : String} {A : List Statement} {S : Statement}
    {s : Segment} (read : parse mark line = .ok A) (statement : S ∈ A) (segment : s ∈ S.segments)
    (hosts : s.venue = .hosts) :
    ∃ run, run ≠ [] ∧ run <:+: commands line ∧ (∀ c ∈ run, c.OnHosts mark) ∧
      s.words = runWords run ∧ s.text.toList = runText run := by
  have anew : assemble mark (stopOf line.toList) (([] : List Command).map Command.draft)
      (([] : Command).foldl Draft.add {}) (lex false 0 line.toList).pieces = .ok A := read
  obtain ⟨cs, xs, part, made, -, joined⟩ := segments_of_assemble (by simp) anew statement
  rw [joined] at segment
  obtain ⟨b, t, inside, all, rfl⟩ := mem_joinHosts segment hosts
  obtain ⟨run, within, made⟩ := forall₂_of_infix made inside
  obtain ⟨onHosts, words, text⟩ := made_run made all
  refine ⟨run, ?_, within.trans part, onHosts, ?_, ?_⟩
  · rintro rfl
    cases made
  · rw [words_foldl_join, words, runWords]
  · rw [text_foldl_join, text, runText]

end Flotilla.Line
