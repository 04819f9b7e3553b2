import Mathlib.Data.List.DropRight
import Flotilla.Proofs.Line.Commands

/-!
# Trimmed commands

What is sent of a command is its text without the blanks around it.  Trimming knows nothing of
backslashes: the blank of an escape that a command ends with is taken off as well, and the
backslash is left behind (`Command.cut`).  `Command.resent` is the command that such a text makes in
front of a pipe.
-/

namespace Flotilla.Line

open Text (isBlank)

/-! ### Drafts and blanks -/

theorem Draft.endWord_retext (d : Draft) (text : List Char) :
    ({ d with text := text } : Draft).endWord = { d.endWord with text := text } := by
  obtain ⟨_, _, word⟩ := d
  cases word <;> rfl

theorem Draft.add_retext (d : Draft) (text : List Char) {p : Piece} (part : p.IsPart) :
    ({ d with text := text } : Draft).add p = { d.add p with text := text ++ p.source } := by
  obtain ⟨kind, source, _⟩ := p
  cases kind with
  | comment => exact absurd rfl part.1
  | pipe => exact absurd rfl part.2.1
  | finish => exact absurd rfl part.2.2
  | word => rfl
  | continuation => rfl
  | blank => simp only [Draft.add, Draft.endWord_retext]
  | operator => simp only [Draft.add, Draft.endWord_retext]

/-- The words of a draft have nothing to do with its text. -/
theorem foldl_add_retext {ps : List Piece} (parts : ∀ p ∈ ps, p.IsPart) (d : Draft)
    (text : List Char) :
    ps.foldl Draft.add { d with text := text } =
      { ps.foldl Draft.add d with text := text ++ typedFor ps } := by
  induction ps generalizing d text with
  | nil => simp
  | cons p ps ih =>
    obtain ⟨part, others⟩ := List.forall_mem_cons.mp parts
    rw [List.foldl_cons, Draft.add_retext d text part, ih others, typedFor_cons,
      List.append_assoc]
    rfl

theorem Draft.endWord_eq (d : Draft) : d.endWord = ⟨d.text, d.endWord.words, none⟩ := by
  obtain ⟨_, _, word⟩ := d
  cases word <;> rfl

theorem Draft.add_blank (d : Draft) {p : Piece} (blank : p.kind = .blank) :
    d.add p = ⟨d.text ++ p.source, d.endWord.words, none⟩ := by
  simp only [Draft.add, blank]
  rw [d.endWord_eq]

theorem foldl_add_blank_of_none {ps : List Piece} (blanks : ∀ p ∈ ps, p.kind = .blank)
    (text : List Char) (words : List String) :
    ps.foldl Draft.add ⟨text, words, none⟩ = ⟨text ++ typedFor ps, words, none⟩ := by
  induction ps generalizing text with
  | nil => simp
  | cons p ps ih =>
    obtain ⟨blank, others⟩ := List.forall_mem_cons.mp blanks
    rw [List.foldl_cons, Draft.add_blank _ blank, typedFor_cons, ← List.append_assoc]
    exact ih others (text ++ p.source)

/-- Blanks do nothing but close the open word. -/
theorem foldl_add_blank {ps : List Piece} (blanks : ∀ p ∈ ps, p.kind = .blank) (d : Draft) :
    (ps.foldl Draft.add d).endWord = ⟨d.text ++ typedFor ps, d.endWord.words, none⟩ := by
  cases ps with
  | nil =>
    rw [typedFor_nil, List.append_nil]
    exact d.endWord_eq
  | cons p ps =>
    obtain ⟨blank, others⟩ := List.forall_mem_cons.mp blanks
    rw [List.foldl_cons, Draft.add_blank d blank, foldl_add_blank_of_none others, typedFor_cons,
      List.append_assoc]
    rfl

/-! ### Ends of pieces -/

/-- The blank at the end of a piece that is an escape. -/
def Piece.hiddenBlank? (p : Piece) : Option Char :=
  match p.source with
  | ['\\', b] => if isBlank b then some b else none
  | _ => none

section

variable {p : Piece} {back : List Char}

theorem Extent.eq_of_blank (extent : Extent p.kind p.source back) (blank : p.kind = .blank) :
    ∃ b, p.source = [b] ∧ isBlank b := by
  obtain ⟨kind, source, _⟩ := p
  subst blank
  cases extent with
  | blank blank => exact ⟨_, rfl, blank⟩
  | escape hidden => split at hidden <;> cases hidden
  | visible other => exact absurd rfl other.1

theorem Extent.head?_of_seen (extent : Extent p.kind p.source back) (part : p.IsPart)
    (seen : p.kind ≠ .blank) : ∃ a, p.source.head? = some a ∧ isBlank a = false := by
  obtain ⟨kind, source, _⟩ := p
  cases extent with
  | blank => exact absurd rfl seen
  | escape => exact ⟨'\\', rfl, rfl⟩
  | comment => exact absurd rfl part.1
  | finish => exact absurd rfl part.2.2
  | visible _ first _ ends => exact ⟨_, first, ends.1⟩

theorem Extent.getLast?_of_seen (extent : Extent p.kind p.source back) (part : p.IsPart)
    (seen : p.kind ≠ .blank) (whole : p.hiddenBlank? = none) :
    ∃ b, p.source.getLast? = some b ∧ isBlank b = false := by
  obtain ⟨kind, source, _⟩ := p
  cases extent with
  | blank => exact absurd rfl seen
  | @escape _ d =>
    refine ⟨d, rfl, ?_⟩
    simpa [Piece.hiddenBlank?] using whole
  | comment => exact absurd rfl part.1
  | finish => exact absurd rfl part.2.2
  | visible _ _ last ends => exact ⟨_, last, ends.2⟩

theorem Extent.eq_of_hiddenBlank? (extent : Extent p.kind p.source back) (part : p.IsPart)
    {b : Char} (hidden : p.hiddenBlank? = some b) :
    p.source = ['\\', b] ∧ isBlank b ∧ p.kind = if b = '\n' then .continuation else .word [b] := by
  obtain ⟨kind, source, _⟩ := p
  unfold Piece.hiddenBlank? at hidden
  dsimp only at hidden
  split at hidden
  next =>
    split at hidden
    next blank =>
      obtain rfl := Option.some.inj hidden
      cases extent with
      | escape kind => exact ⟨rfl, blank, kind⟩
      | comment => exact absurd rfl part.1
      | finish => exact absurd rfl part.2.2
      | visible _ _ last ends =>
        obtain rfl := Option.some.inj last
        have open_ := ends.2
        simp [blank] at open_
    next => cases hidden
  next => cases hidden

end

namespace Command

theorem draft_retext {c : Command} (parts : ∀ p ∈ c, p.IsPart) (text : List Char) :
    (c.foldl Draft.add { text := text }).endWord = ⟨text ++ typedFor c, c.words, none⟩ := by
  have folded := foldl_add_retext parts {} text
  rw [folded, Draft.endWord_retext, Draft.endWord_eq]
  rfl

theorem draft_eq {c : Command} (parts : ∀ p ∈ c, p.IsPart) :
    c.draft = ⟨typedFor c, c.words, none⟩ :=
  draft_retext parts []

theorem text_eq {c : Command} (parts : ∀ p ∈ c, p.IsPart) : c.text = Text.trim (typedFor c) := by
  rw [text, draft_eq parts]

theorem words_between {l m r : List Piece} (before : ∀ p ∈ l, p.kind = .blank)
    (parts : ∀ p ∈ m, p.IsPart) (behind : ∀ p ∈ r, p.kind = .blank) :
    words (l ++ m ++ r) = words m := by
  have front := foldl_add_blank_of_none before [] []
  have middle := congrArg Draft.words (draft_retext parts (typedFor l))
  unfold words draft
  rw [List.foldl_append, List.foldl_append, foldl_add_blank behind, front]
  exact middle

/-- The command without the blanks around it. -/
def seen (c : Command) : Command :=
  (c.dropWhile (·.kind = .blank)).rdropWhile (·.kind = .blank)

theorem exists_around (c : Command) :
    ∃ l r, c = l ++ c.seen ++ r ∧ (∀ p ∈ l, p.kind = .blank) ∧ ∀ p ∈ r, p.kind = .blank := by
  refine ⟨c.takeWhile (·.kind = .blank),
    (c.dropWhile (·.kind = .blank)).rtakeWhile (·.kind = .blank), ?_, ?_, ?_⟩
  · rw [List.append_assoc, seen, List.rdropWhile_append_rtakeWhile,
      List.takeWhile_append_dropWhile]
  · intro p member
    simpa using List.mem_takeWhile_imp member
  · intro p member
    simpa using List.mem_rtakeWhile_imp member

theorem seen_head? (c : Command) : ∀ p ∈ c.seen.head?, p.kind ≠ .blank := by
  intro p first
  have start : (c.dropWhile (·.kind = .blank)).head? = some p := by
    obtain ⟨more, whole⟩ := List.rdropWhile_prefix (p := (·.kind = .blank))
      (l := c.dropWhile (·.kind = .blank))
    rw [← whole]
    change c.seen.head? = some p at first
    rw [List.head?_append, seen] at *
    rw [first]
    rfl
  have stops := List.head?_dropWhile_not (·.kind = .blank) c
  rw [start] at stops
  simpa using stops

theorem seen_getLast? (c : Command) : ∀ p ∈ c.seen.getLast?, p.kind ≠ .blank := by
  intro p last
  obtain ⟨some_, ends⟩ := List.mem_getLast?_eq_getLast last
  have stops := List.rdropWhile_last_not (fun q : Piece => decide (q.kind = .blank))
    (c.dropWhile (·.kind = .blank)) some_
  rw [ends]
  exact fun blank => stops (decide_eq_true blank)

theorem words_seen {c : Command} (parts : ∀ p ∈ c, p.IsPart) : c.seen.words = c.words := by
  obtain ⟨l, r, whole, before, behind⟩ := c.exists_around
  have inside : ∀ p ∈ c.seen, p.IsPart := by
    intro p member
    refine parts p ?_
    rw [whole]
    simp [member]
  have between := words_between before inside behind
  rw [← whole] at between
  exact between.symm

theorem seen_ne_nil {c : Command} (parts : ∀ p ∈ c, p.IsPart) (some_ : c.words ≠ []) :
    c.seen ≠ [] := by
  intro none
  rw [← words_seen parts, none] at some_
  exact some_ rfl

theorem Readable.extent {c : Command} (readable : c.Readable) :
    ∀ p ∈ c, ∃ back, Extent p.kind p.source back := by
  obtain ⟨y, reads⟩ := readable.reads
  exact reads.extent

theorem Readable.seen {c : Command} (readable : c.Readable) : c.seen.Readable := by
  obtain ⟨l, r, whole, before, behind⟩ := c.exists_around
  obtain ⟨y, reads⟩ := readable.reads
  have shut : openBehind false l = false := by
    clear whole
    induction l with
    | nil => rfl
    | cons p l ih =>
      obtain ⟨blank, others⟩ := List.forall_mem_cons.mp before
      simpa [openBehind, blank, Piece.Kind.opensWord] using ih others
  rw [whole, reads_append, reads_append, shut] at reads
  refine ⟨fun p member => readable.parts p ?_, _, reads.1.2⟩
  rw [whole]
  simp [member]

theorem isBlank_of_mem_typedFor {ps : List Piece}
    (extents : ∀ p ∈ ps, ∃ back, Extent p.kind p.source back) (blanks : ∀ p ∈ ps, p.kind = .blank) :
    ∀ a ∈ typedFor ps, isBlank a := by
  intro a member
  obtain ⟨p, inside, typed⟩ := List.mem_flatMap.mp member
  obtain ⟨back, extent⟩ := extents p inside
  obtain ⟨b, source, blank⟩ := extent.eq_of_blank (blanks p inside)
  rw [source, List.mem_singleton] at typed
  rw [typed]
  exact blank

/-- Trimming takes off the blanks around the command, and `t` where that is blank, too. -/
theorem Readable.text_eq {c : Command} (readable : c.Readable) {s t : List Char} {a b : Char}
    (typed : typedFor c.seen = s ++ t) (blank : ∀ a ∈ t, isBlank a) (first : s.head? = some a)
    (last : s.getLast? = some b) (visible : isBlank a = false ∧ isBlank b = false) :
    c.text = s := by
  obtain ⟨l, r, whole, before, behind⟩ := c.exists_around
  have inside : ∀ p, p ∈ l ∨ p ∈ r → ∃ back, Extent p.kind p.source back := by
    intro p member
    refine readable.extent p ?_
    rw [whole]
    rcases member with left | right
    · simp [left]
    · simp [right]
  have front := isBlank_of_mem_typedFor (fun p member => inside p (.inl member)) before
  have back := isBlank_of_mem_typedFor (fun p member => inside p (.inr member)) behind
  have all : typedFor c = typedFor l ++ s ++ (t ++ typedFor r) := by
    conv_lhs => rw [whole]
    rw [typedFor_append, typedFor_append, typed]
    simp
  rw [Command.text_eq readable.parts, all]
  refine Text.trim_between front ?_ first last visible
  rw [List.forall_mem_append]
  exact ⟨blank, back⟩

theorem Readable.head?_typedFor_seen {c : Command} (readable : c.Readable) (some_ : c.seen ≠ []) :
    ∃ a, (typedFor c.seen).head? = some a ∧ isBlank a = false := by
  obtain ⟨p, ps, whole⟩ := List.exists_cons_of_ne_nil some_
  have start := c.seen_head?
  have seen := readable.seen
  rw [whole] at start seen ⊢
  obtain ⟨back, extent⟩ := seen.extent p List.mem_cons_self
  obtain ⟨a, first, visible⟩ :=
    extent.head?_of_seen (seen.parts p List.mem_cons_self) (start p rfl)
  refine ⟨a, ?_, visible⟩
  rw [typedFor_cons, List.head?_append, first]
  rfl

/-- The blank that trimming takes off an escape at the end of the command. -/
def cut (c : Command) : Option Char := c.seen.getLast?.bind Piece.hiddenBlank?

/-- An escaped space. -/
def escapedSpace : Piece := ⟨.word [' '], ['\\', ' '], 0⟩

/-- The command that the trimmed text makes in front of a pipe, where a blank follows it again. -/
def resent (c : Command) : Command :=
  match c.cut with
  | none => c.seen
  | some _ => c.seen.dropLast ++ [escapedSpace]

theorem resent_of_uncut {c : Command} (uncut : c.cut = none) : c.resent = c.seen := by
  rw [resent, uncut]

theorem Readable.seen_of_cut {c : Command} (readable : c.Readable) {b : Char}
    (cut : c.cut = some b) :
    ∃ m p, c.seen = m ++ [p] ∧ p.source = ['\\', b] ∧ isBlank b ∧
      (p.kind = if b = '\n' then .continuation else .word [b]) ∧ c.resent = m ++ [escapedSpace] := by
  obtain ⟨p, lastly, hidden⟩ := Option.bind_eq_some_iff.mp cut
  obtain ⟨m, whole⟩ := List.getLast?_eq_some_iff.mp lastly
  have member : p ∈ c.seen := List.mem_of_getLast? lastly
  obtain ⟨back, extent⟩ := readable.seen.extent p member
  obtain ⟨source, blank, kind⟩ := extent.eq_of_hiddenBlank? (readable.seen.parts p member) hidden
  refine ⟨m, p, whole, source, blank, kind, ?_⟩
  rw [resent, cut, whole, List.dropLast_concat]

/-- The text of the command as it is read again. -/
structure Resent (c : Command) : Prop where
  parts : ∀ p ∈ c.resent, p.IsPart
  typed : typedFor c.resent = if c.cut = none then c.text else c.text ++ [' ']
  reads : ∀ x, (c.cut = none → ∀ a ∈ x.head?, a ∉ ['&', '(', '|']) → Reads false x c.resent
  ends : ∃ a b, c.text.head? = some a ∧ c.text.getLast? = some b ∧
    isBlank a = false ∧ isBlank b = false

theorem Readable.resent_of_uncut {c : Command} (readable : c.Readable) (some_ : c.seen ≠ [])
    (uncut : c.cut = none) : c.Resent := by
  obtain ⟨a, first, visible⟩ := readable.head?_typedFor_seen some_
  have seen := readable.seen
  obtain ⟨y, reads⟩ := seen.reads
  obtain ⟨p, lastly⟩ := Option.ne_none_iff_exists'.mp (mt List.getLast?_eq_none_iff.mp some_)
  have member : p ∈ c.seen := List.mem_of_getLast? lastly
  have hidden : p.hiddenBlank? = none := by
    rw [cut, lastly] at uncut
    exact uncut
  obtain ⟨back, extent⟩ := seen.extent p member
  obtain ⟨b, last, ends⟩ :=
    extent.getLast?_of_seen (seen.parts p member) (c.seen_getLast? p lastly) hidden
  have last : (typedFor c.seen).getLast? = some b := by
    obtain ⟨m, whole⟩ := List.getLast?_eq_some_iff.mp lastly
    simp [whole, List.getLast?_append, last]
  have text : c.text = typedFor c.seen :=
    readable.text_eq (List.append_nil _).symm (by simp) first last ⟨visible, ends⟩
  have same := Command.resent_of_uncut uncut
  refine ⟨?_, ?_, fun x clear => ?_, a, b, ?_⟩
  · rw [same]
    exact seen.parts
  · rw [same, if_pos uncut, text]
  · rw [same]
    refine reads.follow fun q last => .inr fun d here => ?_
    rw [if_neg (seen.parts q (List.mem_of_getLast? last)).1]
    exact clear uncut d here
  · rw [text]
    exact ⟨first, last, visible, ends⟩

theorem Readable.resent_of_cut {c : Command} (readable : c.Readable) {b : Char}
    (cut : c.cut = some b) : c.Resent := by
  obtain ⟨m, p, whole, source, blank, -, same⟩ := readable.seen_of_cut cut
  have seen := readable.seen
  obtain ⟨y, reads⟩ := seen.reads
  obtain ⟨a, first, visible⟩ := readable.head?_typedFor_seen (by simp [whole])
  have typed : typedFor c.seen = typedFor m ++ ['\\'] ++ [b] := by simp [whole, source]
  have first : (typedFor m ++ ['\\']).head? = some a := by
    rw [typed, List.head?_append_of_ne_nil _ (by simp)] at first
    exact first
  have text : c.text = typedFor m ++ ['\\'] :=
    readable.text_eq typed (by simpa using blank) first List.getLast?_concat ⟨visible, rfl⟩
  refine ⟨?_, ?_, fun x _ => ?_, a, '\\', ?_⟩
  · rw [same, List.forall_mem_append]
    refine ⟨fun q inside => seen.parts q ?_, by simp [Piece.IsPart, escapedSpace]⟩
    rw [whole]
    exact List.mem_append_left _ inside
  · rw [same, if_neg (by simp [cut]), text]
    simp [escapedSpace]
  · rw [whole, reads_append] at reads
    rw [same, reads_append]
    refine ⟨reads.1.follow fun q _ => .inl ?_, ⟨'\\', ' ' :: x, .cons _ (.one ' ' x), ?_⟩, trivial⟩
    · simp [source, escapedSpace]
    · exact ⟨rfl, rfl, rfl⟩
  · rw [text]
    exact ⟨first, List.getLast?_concat, visible, rfl⟩

theorem Readable.resent {c : Command} (readable : c.Readable) (some_ : c.words ≠ []) :
    c.Resent := by
  cases cut : c.cut with
  | none => exact readable.resent_of_uncut (seen_ne_nil readable.parts some_) cut
  | some b => exact readable.resent_of_cut cut

theorem words_resent_of_uncut {c : Command} (parts : ∀ p ∈ c, p.IsPart) (whole : c.cut = none) :
    c.resent.words = c.words := by
  rw [resent_of_uncut whole]
  exact words_seen parts

/-- When an escape is cut, the last word ends with a space in place of what was escaped. -/
theorem Readable.words_of_cut {c : Command} (readable : c.Readable) {b : Char}
    (cut : c.cut = some b) :
    ∃ ws w, c.resent.words = ws ++ [String.ofList (w ++ [' '])] ∧
      if b = '\n' then c.words = ws ∨ c.words = ws ++ [String.ofList w]
      else c.words = ws ++ [String.ofList (w ++ [b])] := by
  obtain ⟨m, p, whole, source, -, kind, same⟩ := readable.seen_of_cut cut
  have words : c.words = ((m.foldl Draft.add {}).add p).endWord.words := by
    rw [← words_seen readable.parts, whole, Command.words, draft, List.foldl_append]
    rfl
  have resent : c.resent.words = ((m.foldl Draft.add {}).add escapedSpace).endWord.words := by
    rw [same, Command.words, draft, List.foldl_append]
    rfl
  generalize m.foldl Draft.add {} = d at words resent
  refine ⟨d.words, d.word.getD [], resent, ?_⟩
  rw [words]
  split
  next newline =>
    rw [if_pos newline] at kind
    simp only [Draft.add, kind]
    cases word : d.word with
    | none => exact .inl (by simp [Draft.endWord])
    | some w => exact .inr (by simp [Draft.endWord])
  next other =>
    rw [if_neg other] at kind
    simp only [Draft.add, kind]
    rfl

theorem Readable.words_of_cut_space {c : Command} (readable : c.Readable)
    (cut : c.cut = some ' ') : c.resent.words = c.words := by
  obtain ⟨ws, w, again, before⟩ := readable.words_of_cut cut
  rw [if_neg (by decide)] at before
  rw [again, before]

theorem Readable.words_resent_ne_nil {c : Command} (readable : c.Readable) (some_ : c.words ≠ []) :
    c.resent.words ≠ [] := by
  cases cut : c.cut with
  | none =>
    rw [words_resent_of_uncut readable.parts cut]
    exact some_
  | some b =>
    obtain ⟨ws, w, again, -⟩ := readable.words_of_cut cut
    rw [again]
    simp

end Command

end Flotilla.Line
