import Mathlib
import Flotilla.Line.Statement
import Flotilla.Proofs.Line.Lex
import Flotilla.Proofs.Line.Scanners

/-!
# Lines one after another

A newline ends whatever is open, so a text of several lines is read line by line:
`parse_append_newline`.
-/

namespace Flotilla.Line

theorem byteLength_append (a b : List Char) :
    byteLength (a ++ b) = byteLength a + byteLength b := by
  induction a with
  | nil => simp [byteLength]
  | cons c a ih =>
    rw [List.cons_append, byteLength, byteLength, ih]
    omega

theorem byteLength_toList (s : String) : byteLength s.toList = s.utf8ByteSize := by
  suffices all : ∀ l : List Char, byteLength l = (String.ofList l).utf8ByteSize by
    rw [all, String.ofList_toList]
  intro l
  induction l with
  | nil => rfl
  | cons c l ih =>
    rw [byteLength, ih, String.ofList_cons, String.utf8ByteSize_append,
      String.utf8ByteSize_singleton]

/-- The pieces of a sound text stay, and behind a newline everything starts anew. -/
theorem lex_append_newline {inWord : Bool} {offset : Nat} {a : List Char} (b : List Char)
    (sound : (lex inWord offset a).fault = none) :
    lex inWord offset (a ++ '\n' :: b) =
      ⟨(lex inWord offset a).pieces ++ ⟨.finish, ['\n'], offset + byteLength a⟩ ::
          (lex false (offset + byteLength a + 1) b).pieces,
        (lex false (offset + byteLength a + 1) b).fault⟩ := by
  fun_induction lex inWord offset a with
  | case1 inWord offset =>
    have newline := scan_of_not_mem_leads (c := '\n') (by decide) inWord b
    exact lex_cons newline offset
  | case2 => cases sound
  | case3 inWord offset c r kind t scanned later ih =>
    have whole : byteLength (c :: r) = byteLength t.front + byteLength t.back := by
      rw [← byteLength_append, t.front_append_back]
    have rest := ih sound
    change lex inWord offset (c :: (r ++ '\n' :: b)) = _
    rw [lex_cons (scan_append_newline b scanned), whole, ← Nat.add_assoc, Cut.extend_front,
      Cut.extend_back, rest]
    rfl

theorem pieces_append_newline (inWord : Bool) (offset : Nat) (a b : List Char) :
    ∃ rest, (lex inWord offset (a ++ '\n' :: b)).pieces = (lex inWord offset a).pieces ++ rest := by
  fun_induction lex inWord offset a with
  | case1 => exact ⟨_, rfl⟩
  | case2 => exact ⟨_, rfl⟩
  | case3 inWord offset c r kind t scanned later ih =>
    obtain ⟨rest, pieces⟩ := ih
    refine ⟨rest, ?_⟩
    change (lex inWord offset (c :: (r ++ '\n' :: b))).pieces = _
    rw [lex_cons (scan_append_newline b scanned)]
    exact congrArg (_ :: ·) pieces

def Piece.shift (k : Nat) (p : Piece) : Piece := { p with offset := p.offset + k }

/-- An error that many bytes further on. -/
def ParseError.shift (k : Nat) : ParseError → ParseError
  | .emptySegment offset => .emptySegment (offset + k)
  | e => e

/-- Nothing but the offsets depends on where a text starts. -/
theorem lex_shift (inWord : Bool) (offset k : Nat) (s : List Char) :
    lex inWord (offset + k) s =
      ⟨(lex inWord offset s).pieces.map (.shift k), (lex inWord offset s).fault⟩ := by
  fun_induction lex inWord offset s with
  | case1 => rw [lex_nil, List.map_nil]
  | case2 inWord offset c r e scanned => rw [lex_fault scanned, List.map_nil]
  | case3 inWord offset c r kind t scanned later ih =>
    rw [lex_cons scanned, Nat.add_right_comm, ih]
    rfl

/-- Whether an error is found in the characters, before any command is put together. -/
def ParseError.isLexical : ParseError → Bool
  | .unterminatedQuote _ | .unterminatedSubstitution | .trailingEscape => true
  | .emptySegment _ | .emptyLocalCommand | .invalidArgument .. => false

theorem ParseError.shift_of_isLexical {e : ParseError} (lexical : e.isLexical) (k : Nat) :
    e.shift k = e := by
  cases e <;> first | rfl | cases lexical

theorem readQuotation_error {s : List Char} {e : ParseError}
    (failed : readQuotation s = .error e) : e.isLexical := by
  induction s using readQuotation.induct with
  | case1 =>
    rw [readQuotation] at failed
    cases failed
    rfl
  | case2 r =>
    rw [readQuotation] at failed
    cases failed
  | case3 c r ih =>
    rw [readQuotation] at failed
    rcases bind_eq_error.mp failed with inner | ⟨_, _, wrapped⟩
    · exact ih inner
    · cases wrapped
  | case4 r unclosed =>
    rw [readQuotation, unclosed] at failed
    cases failed
    rfl
  | case5 r u closed ih =>
    rw [readQuotation, closed] at failed
    rcases bind_eq_error.mp failed with inner | ⟨_, _, wrapped⟩
    · exact ih inner
    · cases wrapped
  | case6 c r ends escape substitution ih =>
    rw [readQuotation.eq_5 _ _ ends escape substitution] at failed
    rcases bind_eq_error.mp failed with inner | ⟨_, _, wrapped⟩
    · exact ih inner
    · cases wrapped

theorem scan_error {inWord : Bool} {c : Char} {r : List Char} {e : ParseError}
    (failed : Piece.Kind.scan inWord c r = .error e) : e.isLexical := by
  have quotation {r : List Char} (failed : Piece.Kind.scan inWord '"' r = .error e) :
      e.isLexical := by
    rw [Piece.Kind.scan] at failed
    cases read : readQuotation r with
    | error f =>
      rw [read] at failed
      cases failed
      exact readQuotation_error read
    | ok found =>
      rw [read] at failed
      cases failed
  unfold Piece.Kind.scan at failed
  split at failed
  case h_2 => exact quotation failed
  all_goals
    repeat' split at failed
    all_goals
      cases failed
      try rfl

theorem lex_fault_isLexical {inWord : Bool} {offset : Nat} {s : List Char} {e : ParseError}
    (fault : (lex inWord offset s).fault = some e) : e.isLexical := by
  fun_induction lex inWord offset s with
  | case1 => cases fault
  | case2 inWord offset c r f scanned =>
    cases fault
    exact scan_error scanned
  | case3 _ _ _ _ _ _ _ _ ih => exact ih fault

/-- A computation with no errors that carry an offset. -/
def Unplaced {α : Type} (x : Except ParseError α) : Prop :=
  ∀ k, x.mapError (.shift k) = x

theorem Unplaced.ok {α : Type} (a : α) : Unplaced (.ok a) := fun _ => rfl

theorem Unplaced.bind {α β : Type} {x : Except ParseError α} {f : α → Except ParseError β}
    (first : Unplaced x) (second : ∀ a, Unplaced (f a)) : Unplaced (x >>= f) := by
  intro k
  rw [mapError_bind, first k]
  exact congrArg (x >>= ·) (funext fun a => second a k)

theorem Unplaced.ite {α : Type} {p : Prop} [Decidable p] {x y : Except ParseError α}
    (first : Unplaced x) (second : Unplaced y) : Unplaced (if p then x else y) := by
  split
  · exact first
  · exact second

theorem unplaced_ofWords? (words : List String) : Unplaced (Builtin.ofWords? words) := by
  intro k
  unfold Builtin.ofWords?
  repeat' split
  all_goals rfl

theorem unplaced_toSegment (d : Draft) (mark : Char) (piped : Bool) :
    Unplaced (d.toSegment mark piped) := by
  unfold Draft.toSegment
  dsimp only
  split
  · unfold Draft.toLocal
    exact .ite (fun _ => rfl) (.ok _)
  · exact (unplaced_ofWords? d.words).bind fun _ => .ok _

theorem unplaced_mapM_toSegment (before : List Draft) (mark : Char) :
    Unplaced (before.mapM (·.toSegment mark true)) := by
  induction before with
  | nil => exact .ok []
  | cons d before ih =>
    rw [List.mapM_cons]
    exact (unplaced_toSegment d mark true).bind fun _ => ih.bind fun _ => .ok _

theorem close_shift (mark : Char) (offset k : Nat) (before : List Draft) (last : Draft) :
    close mark (offset + k) before last =
      (close mark offset before last).mapError (.shift k) := by
  unfold close
  dsimp only
  by_cases none : last.endWord.words = []
  · by_cases first : before = []
    · simp [none, first, Except.mapError]
    · simp [none, first, Except.mapError, ParseError.shift]
  · simp only [none, if_false]
    exact ((unplaced_mapM_toSegment before mark).bind fun _ =>
      (unplaced_toSegment _ mark false).bind fun _ => .ok _) k |>.symm

theorem assemble_shift (mark : Char) (stop : Except ParseError Nat) (k : Nat)
    (before : List Draft) (d : Draft) (ps : List Piece) :
    assemble mark ((stop.map (· + k)).mapError (.shift k)) before d (ps.map (.shift k)) =
      (assemble mark stop before d ps).mapError (.shift k) := by
  induction ps generalizing before d with
  | nil =>
    cases stop with
    | error e => rfl
    | ok n => exact close_shift mark n k before d
  | cons p ps ih =>
    obtain ⟨kind, source, offset⟩ := p
    cases kind with
    | pipe =>
      simp only [List.map_cons, assemble, Piece.shift]
      split
      · rfl
      · exact ih (before ++ [d.endWord]) {}
    | finish =>
      simp only [List.map_cons, assemble, Piece.shift]
      rw [mapError_bind, close_shift]
      congr 1
      funext here
      rw [mapError_bind, ← ih]
      rfl
    | _ => exact ih before (d.add _)

/-- Statements up to a finish and those behind it. -/
theorem assemble_append_finish {mark : Char} {stop : Except ParseError Nat} {p : Piece}
    (finish : p.kind = .finish) (before : List Draft) (d : Draft) (ps qs : List Piece) :
    assemble mark stop before d (ps ++ p :: qs) = do
      let here ← assemble mark (.ok p.offset) before d ps
      let later ← assemble mark stop [] {} qs
      return here ++ later := by
  induction ps generalizing before d with
  | nil => simp only [List.nil_append, assemble, finish, ok_bind]
  | cons q ps ih =>
    cases kind : q.kind with
    | pipe =>
      simp only [List.cons_append, assemble, kind]
      split
      · rfl
      · exact ih (before ++ [d.endWord]) {}
    | finish =>
      simp only [List.cons_append, assemble, kind, ih]
      cases close mark q.offset before d with
      | error e => rfl
      | ok here =>
        simp only [ok_bind]
        cases assemble mark (.ok p.offset) [] {} ps with
        | error e => rfl
        | ok more =>
          simp only [ok_bind, pure_eq_ok]
          cases assemble mark stop [] {} qs with
          | error e => rfl
          | ok later => simp
    | _ =>
      simp only [List.cons_append, assemble, kind]
      exact ih before _

/-- An error in front of a fault is the error of every text with these pieces. -/
theorem assemble_error_append {mark : Char} {f e : ParseError} {before : List Draft} {d : Draft}
    {ps : List Piece} (failed : assemble mark (.error f) before d ps = .error e) (other : e ≠ f)
    (stop : Except ParseError Nat) (rest : List Piece) :
    assemble mark stop before d (ps ++ rest) = .error e := by
  induction ps generalizing before d with
  | nil =>
    cases failed
    exact absurd rfl other
  | cons p ps ih =>
    cases kind : p.kind with
    | pipe =>
      simp only [List.cons_append, assemble, kind] at failed ⊢
      split at failed
      next empty => rw [if_pos empty, failed]
      next full => rw [if_neg full, ih failed]
    | finish =>
      simp only [List.cons_append, assemble, kind] at failed ⊢
      rcases bind_eq_error.mp failed with here | ⟨ss, closed, later⟩
      · rw [here]
        rfl
      · rcases bind_eq_error.mp later with there | ⟨_, _, wrapped⟩
        · rw [closed, ok_bind, ih there]
          rfl
        · cases wrapped
    | _ =>
      simp only [List.cons_append, assemble, kind] at failed ⊢
      exact ih failed

theorem assemble_fault_ne_ok {mark : Char} {f : ParseError} {before : List Draft} {d : Draft}
    {ps : List Piece} {ss : List Statement} : assemble mark (.error f) before d ps ≠ .ok ss := by
  intro read
  induction ps generalizing before d ss with
  | nil => cases read
  | cons p ps ih =>
    cases kind : p.kind with
    | pipe =>
      simp only [assemble, kind] at read
      split at read
      · cases read
      · exact ih read
    | finish =>
      simp only [assemble, kind] at read
      obtain ⟨_, _, later⟩ := bind_eq_ok.mp read
      obtain ⟨_, there, _⟩ := bind_eq_ok.mp later
      exact ih there
    | _ =>
      simp only [assemble, kind] at read
      exact ih read

theorem lex_behind (offset : Nat) (s : List Char) :
    lex false offset s = ⟨(lex false 0 s).pieces.map (.shift offset), (lex false 0 s).fault⟩ := by
  rw [← lex_shift, Nat.zero_add]

theorem stopOf_append_newline {a : List Char} (sound : (lex false 0 a).fault = none)
    (b : List Char) : stopOf (a ++ '\n' :: b) =
      ((stopOf b).map (· + (byteLength a + 1))).mapError (.shift (byteLength a + 1)) := by
  have fault : (lex false 0 (a ++ '\n' :: b)).fault = (lex false 0 b).fault := by
    rw [lex_append_newline b sound, lex_behind _ b]
  have newline : byteLength ('\n' :: b) = 1 + byteLength b := rfl
  unfold stopOf
  rw [fault, byteLength_append, newline]
  cases later : (lex false 0 b).fault with
  | some f =>
    have lexical := lex_fault_isLexical later
    exact congrArg Except.error (ParseError.shift_of_isLexical lexical _).symm
  | none =>
    have total : byteLength a + (1 + byteLength b) = byteLength b + (byteLength a + 1) := by omega
    exact congrArg Except.ok total

theorem parse_append_of_ok {mark : Char} {a : String} {A : List Statement}
    (read : parse mark a = .ok A) (b : String) :
    parse mark (a ++ "\n" ++ b) =
      ((parse mark b).map (A ++ ·)).mapError (.shift (a.utf8ByteSize + 1)) := by
  have whole : (a ++ "\n" ++ b).toList = a.toList ++ '\n' :: b.toList := by simp
  rw [← byteLength_toList]
  rw [parse_eq] at read
  cases fault : (lex false 0 a.toList).fault with
  | some f =>
    rw [stopOf, fault] at read
    exact absurd read assemble_fault_ne_ok
  | none =>
    rw [stopOf_of_sound fault] at read
    rw [parse_eq, parse_eq, whole, stopOf_append_newline fault, lex_append_newline _ fault,
      Nat.zero_add, lex_behind _ b.toList, assemble_append_finish rfl, read, ok_bind,
      assemble_shift]
    cases assemble mark (stopOf b.toList) [] {} (lex false 0 b.toList).pieces <;> rfl

theorem parse_append_of_error {mark : Char} {a : String} {e : ParseError}
    (failed : parse mark a = .error e) (placed : e.isLexical = false) (b : String) :
    parse mark (a ++ "\n" ++ b) = .error e := by
  have whole : (a ++ "\n" ++ b).toList = a.toList ++ '\n' :: b.toList := by simp
  rw [parse_eq] at failed
  rw [parse_eq, whole]
  cases fault : (lex false 0 a.toList).fault with
  | some f =>
    -- What stops the characters is no error of statements, so `e` was found before it.
    have other : e ≠ f := by
      rintro rfl
      rw [lex_fault_isLexical fault] at placed
      cases placed
    obtain ⟨rest, pieces⟩ := pieces_append_newline false 0 a.toList b.toList
    rw [stopOf, fault] at failed
    rw [pieces, assemble_error_append failed other]
  | none =>
    rw [stopOf_of_sound fault] at failed
    rw [lex_append_newline _ fault, Nat.zero_add, assemble_append_finish rfl, failed]
    rfl

/-- Lines are read one after another: behind one that can be read, the next is read as if it stood
alone, but for the offsets, and one that cannot be put together is not saved by the next. -/
theorem parse_append_newline (mark : Char) (a b : String) :
    (∀ A, parse mark a = .ok A → parse mark (a ++ "\n" ++ b) =
      match parse mark b with
      | .ok B => .ok (A ++ B)
      | .error e => .error (e.shift (a.utf8ByteSize + 1))) ∧
    (∀ e, parse mark a = .error e → e.isLexical = false →
      parse mark (a ++ "\n" ++ b) = .error e) := by
  refine ⟨fun A read => ?_, fun e failed placed => parse_append_of_error failed placed b⟩
  rw [parse_append_of_ok read]
  cases parse mark b <;> rfl

theorem parse_around_newline :
    parse '!' ("ls" ++ "\n" ++ "w |") = .error (.emptySegment 6) ∧
      parse '!' ("| \"" ++ "\n" ++ "w") = .error (.emptySegment 0) := by
  obtain ⟨after, -⟩ := parse_append_newline '!' "ls" "w |"
  obtain ⟨-, failed⟩ := parse_append_newline '!' "| \"" "w"
  have first : parse '!' "ls" = .ok [⟨[⟨.hosts, ["ls"], "ls", false⟩]⟩] := by cbv
  have second : parse '!' "w |" = .error (.emptySegment 3) := by cbv
  constructor
  · rw [after _ first, second]
    rfl
  · exact failed (.emptySegment 0) (by cbv) rfl

end Flotilla.Line
