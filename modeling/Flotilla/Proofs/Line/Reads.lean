import Flotilla.Proofs.Line.Lex
import Flotilla.Proofs.Line.Scanners

/-!
# Pieces and what follows them

`Reads inWord y ps` says that a text of what was typed for `ps` starts with these pieces when `y`
follows it.  Pieces are read one by one, so the pieces of a line can be read again in any place
where nothing runs into the last of them (`Reads.follow`).
-/

namespace Flotilla.Line

open Text (isBlank)

/-- A part of a command. -/
def Piece.IsPart (p : Piece) : Prop :=
  p.kind ≠ .comment ∧ p.kind ≠ .pipe ∧ p.kind ≠ .finish

/-- Where a piece starts and ends, by its kind.  What is typed for a part of a word may end with a
blank only where a backslash hides the blank. -/
inductive Extent : Piece.Kind → List Char → List Char → Prop where
  | blank {b : Char} {back : List Char} (blank : isBlank b) : Extent .blank [b] back
  | escape {kind : Piece.Kind} {d : Char} {back : List Char}
      (hidden : kind = if d = '\n' then .continuation else .word [d]) :
      Extent kind ['\\', d] back
  | comment {front back : List Char} (stops : ∀ c ∈ back.head?, c = '\n') :
      Extent .comment front back
  | finish {front back : List Char} : Extent .finish front back
  | visible {kind : Piece.Kind} {front back : List Char} {a b : Char}
      (other : kind ≠ .blank ∧ kind ≠ .comment) (first : front.head? = some a)
      (last : front.getLast? = some b) (seen : isBlank a = false ∧ isBlank b = false) :
      Extent kind front back

theorem extent_of_scan {inWord : Bool} {c : Char} {r : List Char} {kind : Piece.Kind}
    {t : Cut (c :: r)} (scanned : Piece.Kind.scan inWord c r = .ok (kind, t)) :
    Extent kind t.front t.back := by
  have behind {mark last : Char} {u : List Char} (found : u.getLast? = some last) :
      (mark :: u).getLast? = some last := by simp [List.getLast?_cons, found]
  cases c, r using Piece.Kind.scan.fun_cases inWord with
  | case2 r u closed =>
    rw [Piece.Kind.scan, closed] at scanned
    cases scanned
    have last := (settled_afterMark '\'' r u closed).1
    exact .visible (by simp) rfl (behind last) (by decide)
  | case3 r =>
    rw [Piece.Kind.scan] at scanned
    cases read : readQuotation r with
    | error e =>
      rw [read] at scanned
      cases scanned
    | ok found =>
      obtain ⟨value, u⟩ := found
      rw [read] at scanned
      cases scanned
      have last := (EndsQuotation.settled ⟨u, read, rfl⟩).1
      exact .visible (by simp) rfl (behind last) (by decide)
  | case5 d r =>
    cases scanned
    exact .escape rfl
  | case7 r u closed =>
    rw [Piece.Kind.scan, closed] at scanned
    cases scanned
    have last := (settled_afterBackquote r u closed).1
    exact .visible (by simp) rfl (behind last) (by decide)
  | case8 r =>
    cases scanned
    exact .visible (a := '|') (b := '|') (by simp) rfl rfl (by decide)
  | case9 r =>
    cases scanned
    exact .visible (a := '&') (b := '&') (by simp) rfl rfl (by decide)
  | case11 r u closed =>
    rw [Piece.Kind.scan, closed] at scanned
    cases scanned
    have last := (settled_afterSubstitution 1 r u closed).1
    exact .visible (by simp) rfl (behind (behind last)) (by decide)
  | case12 c r quote quotation last escape backquote or_ and_ substitution comment =>
    rw [Piece.Kind.scan.eq_9 _ _ _ quote quotation backquote last escape or_ and_ substitution,
      if_pos comment] at scanned
    cases scanned
    refine .comment fun d here => ?_
    have stops := List.head?_dropWhile_not (· ≠ '\n') r
    have stopped : (r.dropWhile (· ≠ '\n')).head? = some d := here
    rw [stopped] at stops
    simpa using stops
  | case13 c r quote quotation last escape backquote or_ and_ substitution comment =>
    rw [Piece.Kind.scan.eq_9 _ _ _ quote quotation backquote last escape or_ and_ substitution,
      if_neg comment] at scanned
    dsimp only at scanned
    split at scanned
    next amp =>
      cases scanned
      exact .visible (by simp) rfl rfl (by rw [amp]; decide)
    split at scanned
    next bar =>
      cases scanned
      exact .visible (by simp) rfl rfl (by rw [bar]; decide)
    split at scanned
    next =>
      cases scanned
      exact .finish
    split at scanned
    next blank =>
      cases scanned
      exact .blank blank
    next seen =>
      cases scanned
      exact .visible (by simp) rfl rfl (by simpa using seen)
  | case1 r unclosed =>
    rw [Piece.Kind.scan, unclosed] at scanned
    cases scanned
  | case4 => cases scanned
  | case6 r unclosed =>
    rw [Piece.Kind.scan, unclosed] at scanned
    cases scanned
  | case10 r unclosed =>
    rw [Piece.Kind.scan, unclosed] at scanned
    cases scanned

theorem Extent.newline_of_comment {front back : List Char} (extent : Extent .comment front back) :
    ∀ c ∈ back.head?, c = '\n' := by
  cases extent with
  | escape hidden => split at hidden <;> cases hidden
  | comment stops => exact stops
  | visible other => exact absurd rfl other.2

theorem Starts.extent {inWord : Bool} {kind : Piece.Kind} {front back : List Char}
    (starts : Starts inWord kind (front ++ back) front) : Extent kind front back := by
  obtain ⟨c, r, t, whole, scanned, rfl⟩ := starts
  obtain rfl : t.back = back := List.append_cancel_left (t.front_append_back.trans whole.symm)
  exact extent_of_scan scanned

theorem Starts.ne_nil {inWord : Bool} {kind : Piece.Kind} {s front : List Char}
    (starts : Starts inWord kind s front) : front ≠ [] := by
  obtain ⟨c, r, t, -, -, rfl⟩ := starts
  exact t.front_ne_nil

/-- A newline ends the statement, whether or not a word is open. -/
theorem Starts.of_newline {inWord : Bool} {kind : Piece.Kind} {r front : List Char}
    (starts : Starts inWord kind ('\n' :: r) front) :
    kind = .finish ∧ ∀ other, Starts other kind ('\n' :: r) front := by
  obtain ⟨c, r', t, whole, scanned, front⟩ := starts
  obtain ⟨rfl, rfl⟩ := List.cons.inj whole
  have alone := scan_of_not_mem_leads (c := '\n') (by decide) (r := r)
  rw [alone] at scanned
  refine ⟨by cases scanned; rfl, fun other => ⟨'\n', r, t, rfl, ?_, front⟩⟩
  rw [alone]
  exact scanned

theorem lex_of_starts {inWord : Bool} {kind : Piece.Kind} {front back : List Char}
    (starts : Starts inWord kind (front ++ back) front) (offset : Nat) :
    lex inWord offset (front ++ back) =
      ⟨⟨kind, front, offset⟩ ::
          (lex (kind.opensWord inWord) (offset + byteLength front) back).pieces,
        (lex (kind.opensWord inWord) (offset + byteLength front) back).fault⟩ := by
  obtain ⟨c, r, t, whole, scanned, rfl⟩ := starts
  obtain rfl : t.back = back := List.append_cancel_left (t.front_append_back.trans whole.symm)
  rw [whole, lex_cons scanned]

/-- What was typed for some pieces. -/
def typedFor (ps : List Piece) : List Char := ps.flatMap (·.source)

@[simp] theorem typedFor_nil : typedFor [] = [] := rfl

@[simp] theorem typedFor_cons (p : Piece) (ps : List Piece) :
    typedFor (p :: ps) = p.source ++ typedFor ps := rfl

@[simp] theorem typedFor_append (ps qs : List Piece) :
    typedFor (ps ++ qs) = typedFor ps ++ typedFor qs := List.flatMap_append

/-- Whether a word is open behind some pieces. -/
def openBehind (inWord : Bool) (ps : List Piece) : Bool :=
  ps.foldl (fun inWord p => p.kind.opensWord inWord) inWord

/-- A text of these pieces starts with them when `y` follows it. -/
def Reads (inWord : Bool) (y : List Char) : List Piece → Prop
  | [] => True
  | p :: ps =>
    Starts inWord p.kind (p.source ++ (typedFor ps ++ y)) p.source ∧
      Reads (p.kind.opensWord inWord) y ps

theorem reads_append {inWord : Bool} {y : List Char} {ps qs : List Piece} :
    Reads inWord y (ps ++ qs) ↔
      Reads inWord (typedFor qs ++ y) ps ∧ Reads (openBehind inWord ps) y qs := by
  induction ps generalizing inWord with
  | nil => simp [Reads, openBehind]
  | cons p ps ih =>
    change _ ∧ Reads _ y (ps ++ qs) ↔ (_ ∧ _) ∧ _
    rw [ih, and_assoc, ← List.append_assoc (typedFor ps), ← typedFor_append]
    rfl

/-- The pieces that `lex` finds are read from their own text. -/
theorem reads_lex {inWord : Bool} {offset : Nat} {s : List Char}
    (sound : (lex inWord offset s).fault = none) :
    Reads inWord [] (lex inWord offset s).pieces := by
  fun_induction lex inWord offset s with
  | case1 => trivial
  | case2 => cases sound
  | case3 inWord offset c r kind t scanned later ih =>
    have rest : typedFor later.pieces = t.back := flatMap_source_lex sound
    refine ⟨?_, ih sound⟩
    rw [List.append_nil, rest]
    exact starts_of_scan scanned

theorem Reads.follow {inWord : Bool} {y x : List Char} {ps : List Piece}
    (reads : Reads inWord y ps) (clear : ∀ p ∈ ps.getLast?, p.kind.Clear y x) :
    Reads inWord x ps := by
  induction ps generalizing inWord with
  | nil => trivial
  | cons p ps ih =>
    obtain ⟨starts, later⟩ := reads
    cases ps with
    | nil => exact ⟨starts.follow (clear p rfl), trivial⟩
    | cons q ps =>
      obtain ⟨c, source, whole⟩ := List.exists_cons_of_ne_nil later.1.ne_nil
      refine ⟨starts.follow (.inl ?_), ih later clear⟩
      simp [whole]

theorem Reads.extent {inWord : Bool} {y : List Char} {ps : List Piece}
    (reads : Reads inWord y ps) : ∀ p ∈ ps, ∃ back, Extent p.kind p.source back := by
  induction ps generalizing inWord with
  | nil => simp
  | cons q ps ih =>
    rw [List.forall_mem_cons]
    exact ⟨⟨_, reads.1.extent⟩, ih reads.2⟩

/-- Parts of a command that can be read are put into the draft, and the rest of the text is read as
it stands. -/
theorem assemble_of_reads {inWord : Bool} {y : List Char} {ps : List Piece}
    (reads : Reads inWord y ps) (parts : ∀ p ∈ ps, p.IsPart) (mark : Char)
    (stop : Except ParseError Nat) (before : List Draft) (d : Draft) (offset : Nat) :
    ∃ later, (lex inWord offset (typedFor ps ++ y)).fault =
        (lex (openBehind inWord ps) later y).fault ∧
      assemble mark stop before d (lex inWord offset (typedFor ps ++ y)).pieces =
        assemble mark stop before (ps.foldl Draft.add d)
          (lex (openBehind inWord ps) later y).pieces := by
  induction ps generalizing inWord d offset with
  | nil => exact ⟨offset, rfl, rfl⟩
  | cons p ps ih =>
    obtain ⟨here, others⟩ := List.forall_mem_cons.mp parts
    obtain ⟨starts, reads⟩ := reads
    obtain ⟨later, fault, assembled⟩ :=
      ih reads others (d.add p) (offset + byteLength p.source)
    refine ⟨later, ?_⟩
    rw [typedFor_cons, List.append_assoc, lex_of_starts starts]
    refine ⟨fault, Eq.trans ?_ assembled⟩
    obtain ⟨kind, source, _⟩ := p
    cases kind with
    | comment => exact absurd rfl here.1
    | pipe => exact absurd rfl here.2.1
    | finish => exact absurd rfl here.2.2
    | _ => rfl

end Flotilla.Line
