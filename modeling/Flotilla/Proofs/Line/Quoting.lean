import Flotilla.Proofs.Line.Lex
import Flotilla.Proofs.Line.Append

/-!
# Quoted words

A word may be quoted in several ways, all of which stand for the word alone.  `parse_typedLine`
says that a line of quoted words is a command with these words, whatever they are made of.
-/

namespace Flotilla.Line

/-- A way to quote a word. -/
inductive Quoting where
  /-- Single quotation marks, with those inside moved out of the quotation. -/
  | single
  /-- Double quotation marks, with a backslash before what it hides. -/
  | double
  /-- A backslash before each character. -/
  | backslashes
  deriving Repr, DecidableEq

namespace Quoting

/-- A character between single quotation marks. -/
def inSingle (c : Char) : List Char := if c = '\'' then ['\'', '\\', '\'', '\''] else [c]

/-- A character between double quotation marks. -/
def inDouble (c : Char) : List Char := if c ∈ ['"', '\\', '$', '`'] then ['\\', c] else [c]

/-- The quoted word. -/
def quote : Quoting → List Char → List Char
  | single, w => '\'' :: (w.flatMap inSingle ++ ['\''])
  | double, w => '"' :: (w.flatMap inDouble ++ ['"'])
  | backslashes, w => w.flatMap fun c => ['\\', c]

/-- Whether a word can be quoted so.  Backslashes need something to stand before, and one before a
newline joins lines. -/
def Fits : Quoting → List Char → Prop
  | backslashes, w => w ≠ [] ∧ '\n' ∉ w
  | _, _ => True

instance (q : Quoting) (w : List Char) : Decidable (q.Fits w) :=
  match q with
  | backslashes => inferInstanceAs (Decidable (w ≠ [] ∧ '\n' ∉ w))
  | single | double => inferInstanceAs (Decidable True)

end Quoting

/-- Pieces that are parts of one word: what was typed for them, and what they stand for. -/
inductive WordPieces : List Piece → List Char → List Char → Prop where
  | one {source value : List Char} {offset : Nat} :
      WordPieces [⟨.word value, source, offset⟩] source value
  | append {ps qs : List Piece} {s t v w : List Char} (first : WordPieces ps s v)
      (second : WordPieces qs t w) : WordPieces (ps ++ qs) (s ++ t) (v ++ w)

/-- A text that stands for `value`, wherever it is and whatever follows it. -/
def Spells (source value : List Char) : Prop :=
  ∀ inWord offset rest, ∃ pieces, WordPieces pieces source value ∧
    lex inWord offset (source ++ rest) =
      ⟨pieces ++ (lex true (offset + byteLength source) rest).pieces,
        (lex true (offset + byteLength source) rest).fault⟩

theorem Spells.append {s t v w : List Char} (first : Spells s v) (second : Spells t w) :
    Spells (s ++ t) (v ++ w) := by
  intro inWord offset rest
  obtain ⟨ps, firstly, ahead⟩ := first inWord offset (t ++ rest)
  obtain ⟨qs, secondly, behind⟩ := second true (offset + byteLength s) rest
  refine ⟨ps ++ qs, firstly.append secondly, ?_⟩
  rw [List.append_assoc, ahead, behind, byteLength_append, Nat.add_assoc, List.append_assoc]

theorem Spells.of_scan {c : Char} {r value : List Char}
    (scanned : ∀ inWord rest, ∃ t : Cut (c :: (r ++ rest)),
      Piece.Kind.scan inWord c (r ++ rest) = .ok (.word value, t) ∧ t.front = c :: r) :
    Spells (c :: r) value := by
  intro inWord offset rest
  obtain ⟨t, scanned, front⟩ := scanned inWord rest
  have back : t.back = rest := by
    have whole := t.front_append_back
    rw [front, List.cons_append, List.cons.injEq] at whole
    exact List.append_cancel_left whole.2
  refine ⟨[⟨.word value, c :: r, offset⟩], .one, ?_⟩
  change lex inWord offset (c :: (r ++ rest)) = _
  rw [lex_cons scanned, front, back]
  rfl

theorem afterMark_append_mark {mark : Char} {w : List Char} (absent : mark ∉ w)
    (rest : List Char) : ∃ t : Cut (w ++ mark :: rest),
      afterMark mark (w ++ mark :: rest) = some t ∧ t.front = w ++ [mark] := by
  induction w with
  | nil => exact ⟨.one mark rest, by simp [afterMark], rfl⟩
  | cons c w ih =>
    rw [List.mem_cons, not_or] at absent
    obtain ⟨t, found, front⟩ := ih absent.2
    refine ⟨.cons c t, ?_, congrArg (c :: ·) front⟩
    change afterMark mark (c :: (w ++ mark :: rest)) = _
    rw [afterMark, if_neg (Ne.symm absent.1), found]
    rfl

theorem spells_single {w : List Char} (plain : '\'' ∉ w) : Spells ('\'' :: (w ++ ['\''])) w := by
  refine .of_scan fun inWord rest => ?_
  obtain ⟨t, found, front⟩ := afterMark_append_mark plain rest
  rw [List.append_assoc, List.singleton_append]
  refine ⟨.cons _ t, ?_, congrArg ('\'' :: ·) front⟩
  rw [Piece.Kind.scan, found]
  dsimp only
  rw [front, List.dropLast_concat]

theorem spells_escape {c : Char} (other : c ≠ '\n') : Spells ['\\', c] [c] := by
  refine .of_scan fun inWord rest => ⟨.cons _ (.one c rest), ?_, rfl⟩
  change Piece.Kind.scan inWord '\\' (c :: rest) = _
  rw [Piece.Kind.scan, if_neg other]

theorem spells_single_from (w u : List Char) (plain : '\'' ∉ u) :
    Spells ('\'' :: (u ++ (w.flatMap Quoting.inSingle ++ ['\'']))) (u ++ w) := by
  induction w generalizing u with
  | nil => simpa using spells_single plain
  | cons c w ih =>
    by_cases mark : c = '\''
    -- The quotation that holds `u` ends here, and the next one starts with nothing in it.
    · subst mark
      have here := spells_single plain
      have moved := spells_escape (c := '\'') (by decide)
      have later := ih [] (by simp)
      have all := here.append (moved.append later)
      simpa [Quoting.inSingle] using all
    · have longer := ih (u ++ [c]) (by simp [plain, Ne.symm mark])
      simpa [Quoting.inSingle, mark] using longer

theorem EndsQuotation.hidden {s value front : List Char} {c : Char} (hidden : isHiddenInQuotation c)
    (later : EndsQuotation s value front) :
    EndsQuotation ('\\' :: c :: s) (c :: value) ('\\' :: c :: front) := by
  obtain ⟨t, read, rfl⟩ := later
  refine ⟨.cons _ (.cons c t), ?_, rfl⟩
  rw [readQuotation, read, ok_bind, if_pos hidden]
  rfl

theorem EndsQuotation.plain {s value front : List Char} {c : Char}
    (plain : c ∉ ['"', '\\', '$', '`']) (later : EndsQuotation s value front) :
    EndsQuotation (c :: s) (c :: value) (c :: front) := by
  obtain ⟨t, read, rfl⟩ := later
  simp only [List.mem_cons, List.not_mem_nil, or_false, not_or] at plain
  refine ⟨.cons c t, ?_, rfl⟩
  rw [readQuotation.eq_5 _ _ plain.1 (fun _ _ lead _ => plain.2.1 lead)
    (fun _ lead _ => plain.2.2.1 lead), read]
  rfl

theorem endsQuotation_inDouble (w rest : List Char) :
    EndsQuotation (w.flatMap Quoting.inDouble ++ '"' :: rest) w
      (w.flatMap Quoting.inDouble ++ ['"']) := by
  induction w with
  | nil => exact ⟨.one '"' rest, readQuotation.eq_2 rest, rfl⟩
  | cons c w ih =>
    rw [List.flatMap_cons, Quoting.inDouble]
    split
    next special =>
      have hidden : isHiddenInQuotation c := by
        simp only [List.mem_cons, List.not_mem_nil, or_false] at special
        rcases special with rfl | rfl | rfl | rfl <;> rfl
      exact ih.hidden hidden
    next plain => exact ih.plain plain

theorem spells_double (w : List Char) :
    Spells ('"' :: (w.flatMap Quoting.inDouble ++ ['"'])) w := by
  refine .of_scan fun inWord rest => ?_
  obtain ⟨t, read, front⟩ := endsQuotation_inDouble w rest
  rw [List.append_assoc, List.singleton_append]
  refine ⟨.cons _ t, ?_, congrArg ('"' :: ·) front⟩
  rw [Piece.Kind.scan, read]
  rfl

theorem spells_backslashes {w : List Char} (some_ : w ≠ []) (plain : '\n' ∉ w) :
    Spells (w.flatMap fun c => ['\\', c]) w := by
  induction w with
  | nil => exact absurd rfl some_
  | cons c w ih =>
    rw [List.mem_cons, not_or] at plain
    have here := spells_escape (Ne.symm plain.1)
    cases w with
    | nil => exact here
    | cons d w => exact here.append (ih (List.cons_ne_nil d w) plain.2)

theorem spells_quote {q : Quoting} {w : List Char} (fits : q.Fits w) : Spells (q.quote w) w := by
  cases q with
  | single => exact spells_single_from w [] (by simp)
  | double => exact spells_double w
  | backslashes => exact spells_backslashes fits.1 fits.2

theorem assemble_wordPieces {ps : List Piece} {source value : List Char}
    (word : WordPieces ps source value) (mark : Char) (stop : Except ParseError Nat)
    (before : List Draft) (d : Draft) (qs : List Piece) :
    assemble mark stop before d (ps ++ qs) =
      assemble mark stop before ⟨d.text ++ source, d.words, some (d.word.getD [] ++ value)⟩ qs := by
  induction word generalizing d qs with
  | one => rfl
  | append _ _ first second =>
    rw [List.append_assoc, first, second]
    simp

/-- Words with a quoting for each. -/
abbrev QuotedWords := List (Quoting × String)

/-- What is typed for a quoted word. -/
def typed (x : Quoting × String) : List Char := x.1.quote x.2.toList

/-- Quoted words make up one draft, whose text is all that is typed. -/
theorem assemble_typed (mark : Char) (n : Nat) {ws : QuotedWords} (some_ : ws ≠ [])
    (fits : ∀ x ∈ ws, x.1.Fits x.2.toList) {d : Draft} (closed : d.word = none) (offset : Nat) :
    (lex false offset ([' '].intercalate (ws.map typed))).fault = none ∧
      assemble mark (.ok n) [] d (lex false offset ([' '].intercalate (ws.map typed))).pieces =
        close mark n []
          ⟨d.text ++ [' '].intercalate (ws.map typed), d.words ++ ws.map (·.2), none⟩ := by
  induction ws generalizing d offset with
  | nil => exact absurd rfl some_
  | cons x ws ih =>
    have spells : Spells (typed x) x.2.toList := spells_quote (fits x List.mem_cons_self)
    cases ws with
    | nil =>
      obtain ⟨pieces, word, lexed⟩ := spells false offset []
      rw [List.append_nil, lex_nil, List.append_nil] at lexed
      have assembled := assemble_wordPieces word mark (.ok n) [] d []
      rw [List.append_nil] at assembled
      rw [List.map_singleton, List.intercalate_singleton, lexed, assembled, assemble, ok_bind,
        close_endWord]
      refine ⟨rfl, ?_⟩
      simp [Draft.endWord, closed]
    | cons y ws =>
      generalize later : [' '].intercalate ((y :: ws).map typed) = rest at ih
      have whole : [' '].intercalate ((x :: y :: ws).map typed) = typed x ++ ' ' :: rest := by
        simp [← later, List.intercalate_cons_cons]
      obtain ⟨pieces, word, lexed⟩ := spells false offset (' ' :: rest)
      have space := scan_of_not_mem_leads (c := ' ') (by decide) true rest
      have blank : aloneKind ' ' = .blank := rfl
      rw [lex_cons space, blank] at lexed
      obtain ⟨sound, assembled⟩ := ih (List.cons_ne_nil y ws)
        (fun z member => fits z (List.mem_cons_of_mem x member))
        (d := ⟨d.text ++ typed x ++ [' '], d.words ++ [x.2], none⟩) rfl
        (offset + byteLength (typed x) + byteLength [' '])
      rw [whole, lexed]
      refine ⟨sound, ?_⟩
      rw [assemble_wordPieces word, assemble_blank_cons]
      simp only [Draft.endWord, closed, Option.getD_none, List.nil_append, String.ofList_toList]
      refine assembled.trans ?_
      simp

theorem ofWords?_eq_none {words : List String}
    (other : ∀ name ∈ ["exit", "quit", "clear", "%history", "%outlist", "%out"],
      words.head? ≠ some name) : Builtin.ofWords? words = .ok none := by
  cases words with
  | nil => rfl
  | cons first arguments =>
    simp only [List.mem_cons, List.not_mem_nil, or_false, forall_eq_or_imp, forall_eq,
      List.head?_cons, ne_eq, Option.some.injEq] at other
    simp [Builtin.ofWords?, other]

theorem head?_typed {x : Quoting × String} (fits : x.1.Fits x.2.toList) :
    ∃ c r, typed x = c :: r ∧ c ∈ ['\'', '"', '\\'] := by
  obtain ⟨q, w⟩ := x
  cases q with
  | single => exact ⟨'\'', _, rfl, by decide⟩
  | double => exact ⟨'"', _, rfl, by decide⟩
  | backslashes =>
    obtain ⟨c, r, whole⟩ := List.exists_cons_of_ne_nil fits.1
    refine ⟨'\\', c :: r.flatMap fun c => ['\\', c], ?_, by decide⟩
    simp only [typed, Quoting.quote]
    rw [whole]
    rfl

/-- The line of some quoted words. -/
def typedLine (ws : QuotedWords) : String :=
  " ".intercalate (ws.map fun x => String.ofList (typed x))

theorem toList_typedLine (ws : QuotedWords) :
    (typedLine ws).toList = [' '].intercalate (ws.map typed) := by
  simp [typedLine, String.toList_intercalate, Function.comp_def]

theorem head?_trim_typedLine {ws : QuotedWords} (some_ : ws ≠ [])
    (fits : ∀ x ∈ ws, x.1.Fits x.2.toList) :
    ∃ c ∈ ['\'', '"', '\\'], (Text.trim (typedLine ws).toList).head? = some c := by
  cases ws with
  | nil => exact absurd rfl some_
  | cons x ws =>
    obtain ⟨c, r, starts, sign⟩ := head?_typed (fits x List.mem_cons_self)
    have visible : Text.isBlank c = false := by
      refine isBlank_of_mem_leads ?_
      simp only [List.mem_cons, List.not_mem_nil, or_false] at sign
      rcases sign with rfl | rfl | rfl <;> simp [leads]
    obtain ⟨more, whole⟩ : ∃ more, (typedLine (x :: ws)).toList = c :: more := by
      rw [toList_typedLine]
      cases ws with
      | nil => exact ⟨r, by simp [starts]⟩
      | cons y ws =>
        rw [List.map_cons, List.map_cons, List.intercalate_cons_cons, starts]
        exact ⟨_, rfl⟩
    exact ⟨c, sign, by rw [whole, Text.head?_trim_cons visible]⟩

/-- A draft that starts with neither the local mark nor the name of a built-in runs on the hosts. -/
theorem close_hosts {mark : Char} {offset : Nat} {text : List Char} {words : List String}
    (some_ : words ≠ []) (plain : (Text.trim text).head? ≠ some mark)
    (other : Builtin.ofWords? words = .ok none) :
    close mark offset [] ⟨text, words, none⟩ =
      .ok [⟨[⟨.hosts, words, String.ofList (Text.trim text), false⟩]⟩] := by
  have still : Draft.endWord ⟨text, words, none⟩ = ⟨text, words, none⟩ := rfl
  unfold close
  simp only [still, some_, if_false, List.mapM_nil, Draft.toSegment, if_neg plain, other, ok_bind,
    pure_eq_ok, List.nil_append]
  rfl

/-- Quoted words are one command on the hosts with just these words, unless the first of them is
the name of a built-in. -/
theorem parse_typedLine {mark : Char} {ws : QuotedWords} (some_ : ws ≠ [])
    (fits : ∀ x ∈ ws, x.1.Fits x.2.toList)
    (other : ∀ name ∈ ["exit", "quit", "clear", "%history", "%outlist", "%out"],
      (ws.map (·.2)).head? ≠ some name)
    (plain : mark ∉ ['\'', '"', '\\']) :
    parse mark (typedLine ws) = .ok [⟨[{
      venue := .hosts
      words := ws.map (·.2)
      text := String.ofList (Text.trim (typedLine ws).toList)
      piped := false }]⟩] := by
  obtain ⟨sign, known, starts⟩ := head?_trim_typedLine some_ fits
  obtain ⟨sound, assembled⟩ :=
    assemble_typed mark (byteLength (typedLine ws).toList) some_ fits (d := {}) rfl 0
  rw [← toList_typedLine] at sound assembled
  rw [parse_eq, stopOf_of_sound sound, assembled]
  refine close_hosts (by simpa using some_) ?_ (ofWords?_eq_none other)
  rintro same
  rw [List.nil_append, starts, Option.some.injEq] at same
  exact plain (same ▸ known)

theorem parse_typedLine_signs :
    parse '!' (typedLine [(.backslashes, "!x"), (.single, "it's; $("), (.double, "`a` | b")]) =
      .ok [⟨[⟨.hosts, ["!x", "it's; $(", "`a` | b"],
        "\\!\\x 'it'\\''s; $(' \"\\`a\\` | b\"", false⟩]⟩] := by
  exact @parse_typedLine '!' [(.backslashes, "!x"), (.single, "it's; $("), (.double, "`a` | b")]
    (by decide) (by decide) (by decide) (by decide)

end Flotilla.Line
