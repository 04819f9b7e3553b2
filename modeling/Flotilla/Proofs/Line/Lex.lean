import Flotilla.Line.Statement
import Flotilla.Proofs.Failure
import Flotilla.Proofs.Text.Blank

/-!
# Characters that stand alone

What `lex` makes of characters that no other character has a say in, and of blank lines.
-/

namespace Flotilla.Line

open Text (isBlank)

/-- The characters that a piece may start with and not end with. -/
def leads : List Char := ['\'', '"', '\\', '`', '|', '&', '$', '#']

theorem isBlank_of_mem_leads {c : Char} (lead : c ∈ leads) : isBlank c = false := by
  simp only [leads, List.mem_cons, List.not_mem_nil, or_false] at lead
  rcases lead with rfl | rfl | rfl | rfl | rfl | rfl | rfl | rfl <;> rfl

theorem not_mem_leads_of_isBlank {c : Char} (blank : isBlank c) : c ∉ leads := by
  intro lead
  rw [isBlank_of_mem_leads lead] at blank
  cases blank

/-- The kind of the piece that such a character is by itself. -/
def aloneKind (c : Char) : Piece.Kind :=
  if c = ';' ∨ c = '\n' then .finish else if isBlank c then .blank else .word [c]

theorem aloneKind_of_isBlank {c : Char} (blank : isBlank c) :
    aloneKind c = .blank ∨ aloneKind c = .finish := by
  unfold aloneKind
  rw [if_pos blank]
  split
  · exact .inr rfl
  · exact .inl rfl

theorem scan_of_not_mem_leads {c : Char} (alone : c ∉ leads) (inWord : Bool) (r : List Char) :
    Piece.Kind.scan inWord c r = .ok (aloneKind c, .one c r) := by
  unfold Piece.Kind.scan
  simp only [leads, List.mem_cons, List.not_mem_nil, or_false, not_or] at alone
  split
  case h_9 => simp [alone, aloneKind]
  all_goals simp at alone

theorem lex_nil (inWord : Bool) (offset : Nat) : lex inWord offset [] = ⟨[], none⟩ := by
  rw [lex]

theorem lex_cons {inWord : Bool} {c : Char} {r : List Char} {kind : Piece.Kind} {t : Cut (c :: r)}
    (scanned : Piece.Kind.scan inWord c r = .ok (kind, t)) (offset : Nat) :
    lex inWord offset (c :: r) =
      ⟨⟨kind, t.front, offset⟩ ::
          (lex (kind.opensWord inWord) (offset + byteLength t.front) t.back).pieces,
        (lex (kind.opensWord inWord) (offset + byteLength t.front) t.back).fault⟩ := by
  rw [lex, scanned]

theorem lex_fault {inWord : Bool} {c : Char} {r : List Char} {e : ParseError}
    (scanned : Piece.Kind.scan inWord c r = .error e) (offset : Nat) :
    lex inWord offset (c :: r) = ⟨[], some e⟩ := by
  rw [lex, scanned]

/-- The pieces of a blank text end empty statements at most. -/
theorem lex_of_isBlank {s : List Char} (blank : ∀ c ∈ s, isBlank c) (offset : Nat) :
    (lex false offset s).fault = none ∧
      ∀ p ∈ (lex false offset s).pieces, p.kind = .blank ∨ p.kind = .finish := by
  induction s generalizing offset with
  | nil => simp [lex_nil]
  | cons c s ih =>
    have here := blank c List.mem_cons_self
    rw [lex_cons (scan_of_not_mem_leads (not_mem_leads_of_isBlank here) false s)]
    have shut : (aloneKind c).opensWord false = false := by
      rcases aloneKind_of_isBlank here with kind | kind <;> rw [kind] <;> rfl
    rw [shut]
    obtain ⟨sound, later⟩ := ih (fun d member => blank d (List.mem_cons_of_mem c member))
      (offset + byteLength [c])
    refine ⟨sound, fun p member => ?_⟩
    rcases List.mem_cons.mp member with rfl | after
    · exact aloneKind_of_isBlank here
    · exact later p after

theorem Draft.endWord_of_none {d : Draft} (closed : d.word = none) : d.endWord = d := by
  rw [endWord, closed]

theorem Draft.word_endWord (d : Draft) : d.endWord.word = none := by
  unfold endWord
  split
  · assumption
  · rfl

theorem close_endWord (mark : Char) (offset : Nat) (before : List Draft) (d : Draft) :
    close mark offset before d = close mark offset before d.endWord := by
  unfold close
  rw [Draft.endWord_of_none d.word_endWord]

theorem assemble_blank_cons (mark : Char) (stop : Except ParseError Nat) (before : List Draft)
    (d : Draft) (source : List Char) (offset : Nat) (ps : List Piece) :
    assemble mark stop before d (⟨.blank, source, offset⟩ :: ps) =
      assemble mark stop before { d.endWord with text := d.text ++ source } ps := rfl

theorem assemble_blank {mark : Char} {n : Nat} {pieces : List Piece}
    (blank : ∀ p ∈ pieces, p.kind = .blank ∨ p.kind = .finish) {d : Draft}
    (fresh : d.words = [] ∧ d.word = none) :
    assemble mark (.ok n) [] d pieces = .ok [] := by
  induction pieces generalizing d with
  | nil => simp [assemble, close, Draft.endWord_of_none fresh.2, fresh.1]
  | cons p pieces ih =>
    have rest := fun q member => blank q (List.mem_cons_of_mem p member)
    rcases blank p List.mem_cons_self with kind | kind
    · have after : (d.add p).words = [] ∧ (d.add p).word = none := by
        simp [Draft.add, kind, Draft.endWord_of_none fresh.2, fresh]
      simpa [assemble, kind] using ih rest after
    · have after := ih rest (d := {}) ⟨rfl, rfl⟩
      simp [assemble, kind, close, Draft.endWord_of_none fresh.2, fresh.1, after]

/-- How a line ends for those that assemble its pieces. -/
def stopOf (s : List Char) : Except ParseError Nat :=
  match (lex false 0 s).fault with
  | some e => .error e
  | none => .ok (byteLength s)

theorem parse_eq (mark : Char) (line : String) :
    parse mark line =
      assemble mark (stopOf line.toList) [] {} (lex false 0 line.toList).pieces := rfl

theorem stopOf_of_sound {s : List Char} (sound : (lex false 0 s).fault = none) :
    stopOf s = .ok (byteLength s) := by
  rw [stopOf, sound]

/-- Nothing comes of a blank line. -/
theorem parse_of_trim_eq_nil (mark : Char) {line : String}
    (blank : Text.trim line.toList = []) : parse mark line = .ok [] := by
  rw [Text.trim_eq_nil_iff] at blank
  obtain ⟨sound, pieces⟩ := lex_of_isBlank blank 0
  unfold parse
  dsimp only
  rw [sound]
  exact assemble_blank pieces ⟨rfl, rfl⟩

end Flotilla.Line
