import Flotilla.Proofs.Line.Append
import Flotilla.Proofs.Line.Trimmed

/-!
# What a statement consists of

The segments of a statement are made of its commands one by one and then joined where neighbours run
on the hosts.  `Segment.IsSound` is what holds of each of them, and joining keeps it, together with
the row that the segments make (`InRow`) and their words.
-/

namespace Flotilla.Line

open Text (isBlank)

/-- The names of the built-ins. -/
def builtinNames : List String := ["exit", "quit", "clear", "%history", "%outlist", "%out"]

theorem head?_ne_of_ofWords? {words : List String} (other : Builtin.ofWords? words = .ok none) :
    ∀ name ∈ builtinNames, words.head? ≠ some name := by
  intro name known same
  obtain ⟨arguments, rfl⟩ := List.head?_eq_some_iff.mp same
  simp only [builtinNames, List.mem_cons, List.not_mem_nil, or_false] at known
  rcases known with rfl | rfl | rfl | rfl | rfl | rfl
  case inr.inr.inr.inr.inr =>
    rcases arguments with _ | ⟨argument, _ | ⟨extra, more⟩⟩
    · cases other
    · simp [Builtin.ofWords?] at other
      split at other <;> cases other
    · cases other
  all_goals cases other

/-- What holds of every segment, whatever was typed for it. -/
structure Segment.IsSound (mark : Char) (s : Segment) : Prop where
  words : s.words ≠ []
  text : s.text.toList ≠ []
  first : ∀ c ∈ s.text.toList.head?, isBlank c = false
  last : ∀ c ∈ s.text.toList.getLast?, isBlank c = false
  /-- What is left to the hosts or to a built-in does not start with the local mark. -/
  bare : s.venue ≠ .here → s.text.toList.head? ≠ some mark
  /-- What is left to the hosts names no built-in. -/
  other : s.venue = .hosts → ∀ name ∈ builtinNames, s.words.head? ≠ some name

/-! ### Segments of single commands -/

theorem Command.Readable.text_ne_nil {c : Command} (readable : c.Readable) (some_ : c.words ≠ []) :
    c.text ≠ [] := by
  obtain ⟨a, first, visible⟩ := readable.head?_typedFor_seen (seen_ne_nil readable.parts some_)
  obtain ⟨r, typed⟩ := List.head?_eq_some_iff.mp first
  obtain ⟨before, behind, whole, -⟩ := c.exists_around
  have member : a ∈ typedFor c := by
    rw [whole, typedFor_append, typedFor_append, typed]
    simp
  rw [Command.text_eq readable.parts, Ne, Text.trim_eq_nil_iff]
  intro blank
  exact absurd (blank a member) (by simp [visible])

theorem Made.isSound {mark : Char} {c : Command} {s : Segment} (readable : c.Readable)
    (made : Made mark c s) : s.IsSound mark := by
  obtain ⟨some_, piped, made⟩ := made
  have full : Text.trim c.draft.text ≠ [] := readable.text_ne_nil some_
  have first := Text.head?_trim c.draft.text
  have last := Text.getLast?_trim c.draft.text
  cases becomes_of_toSegment made with
  | here marked words rest full =>
    constructor
    case words => exact words
    case text => simpa using full
    case first =>
      rw [String.toList_ofList, rest]
      exact Text.head?_trimStart _
    case last =>
      intro b ends
      rw [String.toList_ofList] at ends
      -- What is taken off in front leaves the end of the text as it was.
      obtain ⟨lead, whole⟩ : Text.trimStart (Text.trim c.draft.text).tail <:+ c.text :=
        (List.dropWhile_suffix isBlank).trans (List.tail_suffix _)
      rw [← rest, Command.text] at whole
      apply last
      rw [← whole, Option.mem_def, List.getLast?_append, Option.mem_def.mp ends]
      rfl
    case bare => exact fun elsewhere => absurd rfl elsewhere
    case other =>
      intro hosts
      cases hosts
  | shell bare named =>
    rw [← String.toList_ofList (l := Text.trim c.draft.text)] at first last bare
    refine ⟨some_, by simpa using full, first, last, fun _ => bare, ?_⟩
    intro hosts
    cases hosts
  | hosts bare other =>
    rw [← String.toList_ofList (l := Text.trim c.draft.text)] at first last bare
    exact ⟨some_, by simpa using full, first, last, fun _ => bare,
      fun _ => head?_ne_of_ofWords? other⟩

/-! ### Joining segments -/

theorem Segment.IsSound.join {mark : Char} {a b : Segment} (first : a.IsSound mark)
    (second : b.IsSound mark) (hosts : a.venue = .hosts) : (a.join b).IsSound mark := by
  obtain ⟨c, r, starts⟩ := List.exists_cons_of_ne_nil first.text
  obtain ⟨w, ws, words⟩ := List.exists_cons_of_ne_nil first.words
  have head : (a.join b).text.toList.head? = a.text.toList.head? := by
    simp [Segment.join, starts]
  have last : (a.join b).text.toList.getLast? = b.text.toList.getLast? := by
    simp [Segment.join, List.getLast?_append, List.getLast?_cons,
      List.getLast?_eq_some_getLast second.text]
  have named : (a.join b).words.head? = a.words.head? := by
    simp [Segment.join, words]
  refine ⟨by simp [Segment.join], by simp [Segment.join], ?_, ?_, fun _ => ?_, fun _ => ?_⟩
  · rw [head]
    exact first.first
  · rw [last]
    exact second.last
  · rw [head]
    exact first.bare (by simp [hosts])
  · rw [named]
    exact first.other hosts

/-- Joining keeps what holds of segments one by one, if it holds of two that are joined. -/
theorem forall_joinFrom {p : Segment → Prop} {a : Segment} {r : List Segment}
    (joins : ∀ a b, p a → p b → a.venue = .hosts → p (a.join b))
    (each : ∀ s ∈ a :: r, p s) : ∀ s ∈ joinFrom a r, p s := by
  induction r generalizing a with
  | nil => exact each
  | cons b r ih =>
    obtain ⟨first, later⟩ := List.forall_mem_cons.mp each
    obtain ⟨second, rest⟩ := List.forall_mem_cons.mp later
    rw [joinFrom]
    split
    next both => exact ih (List.forall_mem_cons.mpr ⟨joins a b first second both.1, rest⟩)
    next => exact List.forall_mem_cons.mpr ⟨first, ih later⟩

theorem InRow.of_piped {a b : Segment} {r : List Segment} (row : InRow (a :: r))
    (same : b.piped = a.piped) : InRow (b :: r) := by
  cases row with
  | last ends => exact .last (same.trans ends)
  | next goes rest => exact .next (same.trans goes) rest

theorem InRow.joinFrom {a : Segment} {r : List Segment} (row : InRow (a :: r)) :
    InRow (joinFrom a r) := by
  induction r generalizing a with
  | nil => exact row
  | cons b r ih =>
    cases row with
    | next goes rest =>
      rw [Line.joinFrom]
      split
      · exact ih (rest.of_piped rfl)
      · exact .next goes (ih rest)

/-- No two neighbours both run on the hosts. -/
def Apart (xs : List Segment) : Prop :=
  xs.IsChain fun a b => ¬ (a.venue = .hosts ∧ b.venue = .hosts)

theorem venue_head?_joinFrom (a : Segment) (r : List Segment) :
    ∀ s ∈ (joinFrom a r).head?, s.venue = a.venue := by
  induction r generalizing a with
  | nil => simp [joinFrom]
  | cons b r ih =>
    rw [joinFrom]
    split
    · exact ih (a.join b)
    · simp

theorem InRow.apart_joinFrom {a : Segment} {r : List Segment} (row : InRow (a :: r)) :
    Apart (Line.joinFrom a r) := by
  induction r generalizing a with
  | nil => exact List.isChain_singleton a
  | cons b r ih =>
    cases row with
    | next goes rest =>
      rw [Line.joinFrom]
      split
      · exact ih (rest.of_piped rfl)
      next apart =>
        refine List.isChain_cons.mpr ⟨fun s first => ?_, ih rest⟩
        rw [venue_head?_joinFrom b r s first]
        exact fun both => apart ⟨both.1, both.2, goes⟩

/-- The words of segments, with a bar between neighbours. -/
def barredWords (xs : List Segment) : List String := ["|"].intercalate (xs.map (·.words))

theorem barredWords_cons (a : Segment) {xs : List Segment} (some_ : xs ≠ []) :
    barredWords (a :: xs) = a.words ++ "|" :: barredWords xs := by
  obtain ⟨b, r, rfl⟩ := List.exists_cons_of_ne_nil some_
  simp [barredWords, List.intercalate_cons_cons]

/-- Joining loses no word. -/
theorem barredWords_joinFrom (a : Segment) (r : List Segment) :
    barredWords (joinFrom a r) = barredWords (a :: r) := by
  induction r generalizing a with
  | nil => rfl
  | cons b r ih =>
    rw [joinFrom]
    split
    · rw [ih]
      cases r <;> simp [barredWords, Segment.join, List.intercalate_cons_cons]
    · rw [barredWords_cons a (joinFrom_ne_nil b r), ih,
        barredWords_cons a (List.cons_ne_nil b r)]

/-! ### Statements -/

/-- What holds of every statement of a line. -/
structure Statement.IsSound (mark : Char) (S : Statement) : Prop where
  row : InRow S.segments
  apart : Apart S.segments
  each : ∀ s ∈ S.segments, s.IsSound mark

theorem sound_of_parse {mark : Char} {line : String} {A : List Statement}
    (read : parse mark line = .ok A) : (lex false 0 line.toList).fault = none := by
  cases fault : (lex false 0 line.toList).fault with
  | none => rfl
  | some e =>
    rw [parse_eq, stopOf, fault] at read
    exact absurd read assemble_fault_ne_ok

/-- The segments of a statement are sound, and so are those that are joined to them, which lose none
of their words. -/
theorem isSound_of_parse {mark : Char} {line : String} {A : List Statement} {S : Statement}
    (read : parse mark line = .ok A) (statement : S ∈ A) :
    S.IsSound mark ∧ ∃ cs xs, cs <:+: commands line ∧ List.Forall₂ (Made mark) cs xs ∧ InRow xs ∧
      S.segments = joinHosts xs ∧ barredWords S.segments = barredWords xs := by
  have anew : assemble mark (stopOf line.toList) (([] : List Command).map Command.draft)
      (([] : Command).foldl Draft.add {}) (lex false 0 line.toList).pieces = .ok A := read
  obtain ⟨cs, xs, part, made, row, joined⟩ := segments_of_assemble (by simp) anew statement
  have readable : ∀ c ∈ cs, c.Readable :=
    fun c member => readable_of_mem_commands (sound_of_parse read) (part.subset member)
  have each := forall_mem_of_forall₂ made fun c member s made => made.isSound (readable c member)
  cases xs with
  | nil => cases row
  | cons a r =>
    refine ⟨⟨?_, ?_, ?_⟩, cs, a :: r, part, made, row, joined, ?_⟩ <;> rw [joined]
    · exact row.joinFrom
    · exact row.apart_joinFrom
    · exact forall_joinFrom (fun _ _ first second hosts => first.join second hosts) each
    · exact barredWords_joinFrom a r

end Flotilla.Line
