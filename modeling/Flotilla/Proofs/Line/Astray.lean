import Flotilla.Proofs.Line.Append
import Flotilla.Proofs.Line.Indexed

/-!
# Reading never goes astray

`Indexed.read` gives what `parse` gives, so no loop of it runs on and nothing that it reaches for is
missing.  Quotations, pieces and statements are compared one after the other, and a line by
induction on the steps that are left.
-/

namespace Flotilla.Line.Indexed

variable {s r : List Char} {c : Char} {i j : Nat}

/-! ### Double quotations of the line -/

/-- What `readQuotation` makes of `r`, which starts at the position `j`, behind `value`. -/
def quotationFrom (value : List Char) (j : Nat) (r : List Char) :
    Except ParseError (List Char × Nat) :=
  (readQuotation r).map fun (rest, t) => (value ++ rest, j + t.front.length - 1)

theorem quotationFrom_escape (value : List Char) (j : Nat) (d : Char) (r : List Char) :
    quotationFrom value j ('\\' :: d :: r) =
      quotationFrom (value ++ if isHiddenInQuotation d then [d] else ['\\', d]) (j + 2) r := by
  rw [quotationFrom, quotationFrom, readQuotation.eq_3]
  cases readQuotation r with
  | error e => rfl
  | ok read =>
    refine congrArg Except.ok (Prod.ext (List.append_assoc ..).symm ?_)
    simp only [Cut.cons, List.length_cons]
    omega

theorem quotationFrom_substitution (value : List Char) (j : Nat) {r : List Char} {t : Cut r}
    (closed : afterSubstitution 1 r = some t) :
    quotationFrom value j ('$' :: '(' :: r) =
      quotationFrom (value ++ (['$', '('] ++ t.front)) (j + (['$', '('] ++ t.front).length)
        t.back := by
  rw [quotationFrom, quotationFrom, readQuotation.eq_4, closed]
  dsimp only
  cases readQuotation t.back with
  | error e => rfl
  | ok read =>
    refine congrArg Except.ok (Prod.ext (List.append_assoc ..).symm ?_)
    simp [Cut.cons, Cut.trans]
    omega

theorem quotationFrom_plain (value : List Char) (j : Nat) {c : Char} {r : List Char}
    (step : readQuotation (c :: r) = do
      let (rest, t) ← readQuotation r
      return (c :: rest, .cons c t)) :
    quotationFrom value j (c :: r) = quotationFrom (value ++ [c]) (j + 1) r := by
  rw [quotationFrom, quotationFrom, step]
  cases readQuotation r with
  | error e => rfl
  | ok read =>
    refine congrArg Except.ok (Prod.ext (List.append_cons ..) ?_)
    simp only [Cut.cons, List.length_cons]
    omega

theorem quotationFrom_nil (value : List Char) (j : Nat) :
    quotationFrom value j [] = .error (.unterminatedQuote '"') := by
  rw [quotationFrom, readQuotation.eq_1]
  rfl

theorem quotationFrom_mark (value : List Char) (j : Nat) (r : List Char) :
    quotationFrom value j ('"' :: r) = .ok (value, j) := by
  rw [quotationFrom, readQuotation.eq_2]
  exact congrArg Except.ok (Prod.ext (List.append_nil value) rfl)

theorem quotation_eq {steps : Nat} {value : List Char} (here : s.drop j = r)
    (enough : s.length - j < steps) :
    quotation s steps j value = (quotationFrom value j r).mapError .refused := by
  induction steps generalizing j value r with
  | zero => exact absurd enough (Nat.not_lt_zero _)
  | succ steps ih =>
    have first : s[j]? = r.head? := by rw [← List.head?_drop, here]
    rw [quotation, first]
    cases r with
    | nil =>
      rw [quotationFrom_nil]
      rfl
    | cons c r =>
      have inside := lt_length_of_drop here
      rw [List.head?_cons]
      dsimp only
      by_cases ends : c = '"'
      · subst ends
        rw [if_pos rfl, quotationFrom_mark]
        rfl
      rw [if_neg ends]
      by_cases escape : c = '\\'
      · subst escape
        rw [if_pos rfl, getElem?_succ_of_drop here]
        cases r with
        | nil =>
          rw [quotationFrom_plain value j (readQuotation.eq_5 _ _ (by simp) (by simp) (by simp)),
            quotationFrom_nil]
          rfl
        | cons d r =>
          rw [quotationFrom_escape]
          exact ih (drop_add_of_drop ['\\', d] here) (by omega)
      rw [if_neg escape]
      by_cases inner : c = '$' ∧ s[j + 1]? = some '('
      · rw [if_pos inner]
        obtain ⟨u, rfl, rfl⟩ := (dollar_iff here).mp inner
        rw [(found_ends s steps).substitution 1 (j + 2) Nat.one_pos (by omega)]
        rcases endIndex_cases (.refused .unterminatedSubstitution) (afterSubstitution 1)
          (m := j + 2) ['$', '('] here rfl with
          ⟨unclosed, never⟩ | ⟨t, k, closed, ends, go_on, typed⟩
        · rw [never, quotationFrom, readQuotation.eq_4, unclosed]
          rfl
        · have rest : s.drop (k + 1) = t.back := by
            rw [go_on]
            exact drop_add_of_drop _ (here.trans (t.behind ['$', '(']).front_append_back.symm)
          rw [ends, ok_bind, typed, ok_bind, ih rest (by simp at go_on; omega), go_on,
            quotationFrom_substitution value j closed]
      · rw [if_neg inner]
        rw [dollar_iff here] at inner
        have plain := readQuotation.eq_5 c r ends (fun _ _ lead _ => escape lead)
          fun u lead opened => inner ⟨u, lead, opened⟩
        rw [quotationFrom_plain value j plain]
        exact ih (drop_succ_of_drop here) (by omega)

/-! ### Pieces -/

theorem commentEnd_eq {steps : Nat} (here : s.drop j = r) (enough : s.length - j < steps) :
    commentEnd s steps j = .ok (j + (r.takeWhile (· ≠ '\n')).length) := by
  induction steps generalizing j r with
  | zero => exact absurd enough (Nat.not_lt_zero _)
  | succ steps ih =>
    rw [commentEnd]
    cases r with
    | nil =>
      rw [if_neg (Nat.not_lt.mpr (List.drop_eq_nil_iff.mp here))]
      rfl
    | cons c r =>
      have inside := lt_length_of_drop here
      rw [if_pos inside, item_of_drop here, ok_bind]
      by_cases newline : c = '\n'
      · simp [newline]
      · rw [if_pos newline, ih (drop_succ_of_drop here) (by omega)]
        simp [newline, Nat.add_assoc, Nat.add_comm]

/-- What `scan` makes of a text that starts at the position `i`. -/
def pieceFrom (inWord : Bool) (i : Nat) (c : Char) (r : List Char) :
    Except ParseError (Piece.Kind × Nat) :=
  (Piece.Kind.scan inWord c r).map fun (kind, t) => (kind, i + t.front.length)

section

variable {steps : Nat} {inWord : Bool}

theorem pieceAt_quote (here : s.drop i = '\'' :: r) (enough : s.length - i < steps) :
    pieceAt s steps inWord i '\'' = (pieceFrom inWord i '\'' r).mapError .refused := by
  rw [pieceAt, if_pos rfl, findChar_eq (by omega), ok_bind, sought_toOption]
  rcases endIndex_cases (.refused (.unterminatedQuote '\'')) (scannerOf '\'') (m := i + 1)
    ['\''] here rfl with ⟨unclosed, never⟩ | ⟨t, k, closed, ends, go_on, -⟩
  · rw [never, pieceFrom, Piece.Kind.scan.eq_1, show afterMark '\'' r = none from unclosed]
    rfl
  · have last := List.dropLast_append_getLast? _ (settled_afterMark '\'' r t closed).1
    have value : slice s (i + 1) k = .ok t.front.dropLast := by
      refine slice_of_drop (?_ : _ = t.front.dropLast ++ '\'' :: t.back) (by simp) ?_
      · rw [drop_succ_of_drop here, List.append_cons, last, t.front_append_back]
      · have some_ := List.length_pos_iff.mpr t.front_ne_nil
        simp only [List.cons_append, List.nil_append, List.length_cons] at go_on
        rw [List.length_dropLast]
        omega
    rw [ends, ok_bind, value, ok_bind, pieceFrom, Piece.Kind.scan.eq_1,
      show afterMark '\'' r = some t from closed, go_on]
    rfl

theorem pieceAt_quotation (here : s.drop i = '"' :: r) (enough : s.length - i < steps) :
    pieceAt s steps inWord i '"' = (pieceFrom inWord i '"' r).mapError .refused := by
  have inside := lt_length_of_drop here
  rw [pieceAt, if_neg (by decide), if_pos rfl, quotation_eq (drop_succ_of_drop here) (by omega),
    pieceFrom, Piece.Kind.scan.eq_2, quotationFrom]
  cases readQuotation r with
  | error e => rfl
  | ok read =>
    have some_ := List.length_pos_iff.mpr read.2.front_ne_nil
    refine congrArg Except.ok (Prod.ext rfl ?_)
    simp only [Cut.cons, List.length_cons]
    omega

theorem pieceAt_escape (here : s.drop i = '\\' :: r) :
    pieceAt s steps inWord i '\\' = (pieceFrom inWord i '\\' r).mapError .refused := by
  rw [pieceAt, if_neg (by decide), if_neg (by decide), if_pos rfl, getElem?_succ_of_drop here]
  cases r <;> rfl

theorem pieceAt_backquote (here : s.drop i = '`' :: r) (enough : s.length - i < steps) :
    pieceAt s steps inWord i '`' = (pieceFrom inWord i '`' r).mapError .refused := by
  rw [pieceAt, if_neg (by decide), if_neg (by decide), if_neg (by decide), if_pos rfl,
    findChar_eq (by omega), ok_bind, sought_toOption]
  rcases endIndex_cases (.refused .unterminatedSubstitution) (scannerOf '`') (m := i + 1)
    ['`'] here rfl with ⟨unclosed, never⟩ | ⟨t, k, closed, ends, go_on, typed⟩
  · rw [never, pieceFrom, Piece.Kind.scan.eq_5, show afterBackquote r = none from unclosed]
    rfl
  · rw [ends, ok_bind, typed, ok_bind, pieceFrom, Piece.Kind.scan.eq_5,
      show afterBackquote r = some t from closed, go_on]
    rfl

theorem pieceAt_substitution (here : s.drop i = '$' :: '(' :: r) (enough : s.length - i < steps) :
    pieceAt s steps inWord i '$' = (pieceFrom inWord i '$' ('(' :: r)).mapError .refused := by
  rw [pieceAt, if_neg (by decide), if_neg (by decide), if_neg (by decide), if_neg (by decide),
    if_pos ⟨rfl, getElem?_succ_of_drop here⟩,
    (found_ends s steps).substitution 1 (i + 2) Nat.one_pos (by omega)]
  rcases endIndex_cases (.refused .unterminatedSubstitution) (afterSubstitution 1) (m := i + 2)
    ['$', '('] here rfl with ⟨unclosed, never⟩ | ⟨t, k, closed, ends, go_on, typed⟩
  · rw [never, pieceFrom, Piece.Kind.scan.eq_8, unclosed]
    rfl
  · rw [ends, ok_bind, typed, ok_bind, pieceFrom, Piece.Kind.scan.eq_8, closed, go_on]
    rfl

theorem pieceAt_eq (here : s.drop i = c :: r) (enough : s.length - i < steps) :
    pieceAt s steps inWord i c = (pieceFrom inWord i c r).mapError .refused := by
  -- Pieces that a scanner ends have the lemmas above.  What is left is a comment, a pair or a
  -- character by itself.
  by_cases quote : c = '\''
  · subst quote
    exact pieceAt_quote here enough
  by_cases quotation : c = '"'
  · subst quotation
    exact pieceAt_quotation here enough
  by_cases escape : c = '\\'
  · subst escape
    exact pieceAt_escape here
  by_cases backquote : c = '`'
  · subst backquote
    exact pieceAt_backquote here enough
  by_cases substitution : c = '$' ∧ s[i + 1]? = some '('
  · obtain ⟨u, rfl, rfl⟩ := (dollar_iff here).mp substitution
    exact pieceAt_substitution here enough
  rw [pieceAt, if_neg quote, if_neg quotation, if_neg escape, if_neg backquote,
    if_neg substitution]
  by_cases comment : c = '#' ∧ ¬ inWord
  · rw [if_pos comment]
    obtain ⟨rfl, shut⟩ := comment
    rw [commentEnd_eq here enough, pieceFrom, Piece.Kind.scan.eq_9 _ _ _ (by simp) (by simp)
      (by simp) (by simp) (by simp) (by simp) (by simp) (by simp), if_pos ⟨rfl, shut⟩]
    rfl
  rw [if_neg comment]
  by_cases pair : (c = '|' ∨ c = '&') ∧ s[i + 1]? = some c
  · rw [if_pos pair]
    obtain ⟨lead, again⟩ := pair
    rw [getElem?_succ_of_drop here, List.head?_eq_some_iff] at again
    obtain ⟨u, rfl⟩ := again
    rcases lead with rfl | rfl <;> rfl
  · rw [if_neg pair]
    have alone (lead : Char) (either : lead = '|' ∨ lead = '&') (u : List Char) (same : c = lead)
        (again : r = lead :: u) : False := by
      subst same
      rw [again] at here
      exact pair ⟨either, getElem?_succ_of_drop here⟩
    rw [dollar_iff here] at substitution
    rw [pieceFrom, Piece.Kind.scan.eq_9 _ _ _ quote quotation backquote (fun lead _ => escape lead)
      (fun _ _ lead _ => escape lead) (alone '|' (.inl rfl)) (alone '&' (.inr rfl))
      (fun u lead opened => substitution ⟨u, lead, opened⟩), if_neg comment]
    rfl

end

/-! ### Statements -/

theorem toLocal_eq {d : Draft} {mark : Char} {text : List Char} {piped : Bool}
    (some_ : d.words ≠ []) :
    toLocal d mark text piped = (d.toLocal mark text piped).mapError .refused := by
  obtain ⟨first, others, words⟩ := List.exists_cons_of_ne_nil some_
  rw [toLocal, Draft.toLocal, words]
  cases letters : first.toList with
  | nil =>
    simp [item, letters]
    split <;> rfl
  | cons c r =>
    have whole : String.ofList (c :: r) = first := by rw [← letters, String.ofList_toList]
    by_cases marked : c = mark
    · by_cases bare : r = []
      · simp [item, letters, marked, bare]
        split <;> rfl
      · simp [item, letters, marked, bare]
        split <;> rfl
    · simp [item, letters, marked, whole]
      split <;> rfl

theorem toSegment_eq {d : Draft} (mark : Char) (piped : Bool) (some_ : d.words ≠ []) :
    toSegment d mark piped = (d.toSegment mark piped).mapError .refused := by
  unfold toSegment
  dsimp only
  split
  next marked => rw [toLocal_eq some_, Draft.toSegment, if_pos marked]
  next => rfl

theorem close_eq {mark : Char} {offset : Nat} {before : List Draft} {last : Draft}
    (full : ∀ d ∈ before, d.words ≠ []) :
    close mark offset before last = (Line.close mark offset before last).mapError .refused := by
  unfold close Line.close
  dsimp only
  by_cases empty : last.endWord.words = []
  · by_cases first : before = []
    · simp [empty, first, Except.mapError]
    · simp [empty, first, Except.mapError]
  · simp only [empty, if_false]
    rw [mapM_mapError fun d member => toSegment_eq mark true (full d member), mapError_bind]
    refine bind_congr_ok fun _ _ => ?_
    rw [toSegment_eq mark false empty, mapError_bind]
    rfl

/-! ### Lines -/

/-- What `parse` makes of a line from the position `i` on, behind these drafts. -/
def parseFrom (mark : Char) (s : List Char) (inWord : Bool) (i : Nat) (before : List Draft)
    (d : Draft) : Except ParseError (List Statement) :=
  let lexed := lex inWord (byteLength (s.take i)) (s.drop i)
  let stop := match lexed.fault with
    | some e => .error e
    | none => .ok (byteLength s)
  assemble mark stop before d lexed.pieces

/-- What is assembled from the piece `p` and from what `later` makes of the pieces behind it. -/
def assembleWith (mark : Char) (before : List Draft) (d : Draft) (p : Piece)
    (later : List Draft → Draft → Except ParseError (List Statement)) :
    Except ParseError (List Statement) :=
  match p.kind with
  | .pipe =>
    if d.endWord.words = [] then .error (.emptySegment p.offset)
    else later (before ++ [d.endWord]) {}
  | .finish => do
    let here ← Line.close mark p.offset before d
    let rest ← later [] {}
    return here ++ rest
  | _ => later before (d.add p)

section

variable {mark : Char} {inWord : Bool} {before : List Draft} {d : Draft} {kind : Piece.Kind}

theorem parseFrom_of_le (past : s.length ≤ i) :
    parseFrom mark s inWord i before d = Line.close mark (byteLength s) before d := by
  rw [parseFrom, List.drop_eq_nil_of_le past, lex_nil]
  rfl

theorem parseFrom_of_fault {e : ParseError} (here : s.drop i = c :: r)
    (scanned : Piece.Kind.scan inWord c r = .error e) :
    parseFrom mark s inWord i before d = .error e := by
  rw [parseFrom, here, lex_fault scanned]
  rfl

theorem parseFrom_of_piece {t : Cut (c :: r)} (here : s.drop i = c :: r)
    (scanned : Piece.Kind.scan inWord c r = .ok (kind, t)) :
    parseFrom mark s inWord i before d =
      assembleWith mark before d ⟨kind, t.front, byteLength (s.take i)⟩
        (parseFrom mark s (kind.opensWord inWord) (i + t.front.length)) := by
  have whole : s.drop i = t.front ++ t.back := here.trans t.front_append_back.symm
  have rest : s.drop (i + t.front.length) = t.back := drop_add_of_drop t.front whole
  have offset : byteLength (s.take i) + byteLength t.front =
      byteLength (s.take (i + t.front.length)) := by
    rw [List.take_add, byteLength_append, whole, List.take_left]
  unfold parseFrom
  rw [here, rest, lex_cons scanned, offset]
  cases kind <;> rfl

/-- What pieces of three kinds start with, and that no word is open where a comment starts. -/
theorem lead_of_scan {t : Cut (c :: r)} (scanned : Piece.Kind.scan inWord c r = .ok (kind, t)) :
    (kind = .comment → inWord = false) ∧ (kind = .pipe → c = '|') ∧
      (kind = .finish → c = ';' ∨ c = '\n') := by
  have quotation {r : List Char} {t : Cut ('"' :: r)}
      (scanned : Piece.Kind.scan inWord '"' r = .ok (kind, t)) : ∃ value, kind = .word value := by
    rw [Piece.Kind.scan.eq_2] at scanned
    obtain ⟨read, -, same⟩ := map_eq_ok.mp scanned
    cases same
    exact ⟨read.1, rfl⟩
  unfold Piece.Kind.scan at scanned
  split at scanned
  case h_2 =>
    obtain ⟨value, rfl⟩ := quotation scanned
    simp
  case h_9 =>
    split at scanned
    next comment =>
      cases scanned
      simpa using comment.2
    next =>
      dsimp only at scanned
      repeat' split at scanned
      all_goals
        cases scanned
        simp [*]
  all_goals
    repeat' split at scanned
    all_goals cases scanned
    all_goals simp

theorem isSome_add {t : Cut (c :: r)} (offset : Nat)
    (scanned : Piece.Kind.scan d.word.isSome c r = .ok (kind, t))
    (inside : kind ≠ .pipe ∧ kind ≠ .finish) :
    (d.add ⟨kind, t.front, offset⟩).word.isSome = kind.opensWord d.word.isSome := by
  cases kind with
  | word value => rfl
  | continuation => rfl
  | blank => simp [Draft.add, d.word_endWord, Piece.Kind.opensWord]
  | operator => simp [Draft.add, d.word_endWord, Piece.Kind.opensWord]
  | comment => exact (lead_of_scan scanned).1 rfl
  | pipe => exact absurd rfl inside.1
  | finish => exact absurd rfl inside.2

theorem readFrom_eq {steps : Nat} {done : List Statement} (full : ∀ b ∈ before, b.words ≠ [])
    (enough : s.length - i < steps) :
    readFrom mark s steps i done before d =
      ((parseFrom mark s d.word.isSome i before d).map (done ++ ·)).mapError .refused := by
  -- A piece has a character at least, so what is left of the steps is enough for what is left of
  -- the line.  Drafts without words are refused at a pipe, so the others have a first word to read.
  induction steps generalizing i done before d with
  | zero => exact absurd enough (Nat.not_lt_zero _)
  | succ steps ih =>
    rw [readFrom]
    rcases nil_or_cons_of_drop s i with past | ⟨c, r, inside, here⟩
    · rw [if_neg (Nat.not_lt.mpr past), parseFrom_of_le past, close_eq full]
      cases Line.close mark (byteLength s) before d <;> rfl
    rw [if_pos inside, item_of_drop here, ok_bind, pieceAt_eq here enough, pieceFrom]
    cases scanned : Piece.Kind.scan d.word.isSome c r with
    | error e =>
      rw [parseFrom_of_fault here scanned]
      rfl
    | ok found =>
      obtain ⟨kind, t⟩ := found
      have some_ := List.length_pos_iff.mpr t.front_ne_nil
      have fewer : s.length - (i + t.front.length) < steps := by omega
      rw [parseFrom_of_piece here scanned]
      change (slice s i (i + t.front.length) >>= _) = _
      rw [slice_of_cut t here rfl, ok_bind]
      cases kind with
      | pipe =>
        rw [assembleWith]
        dsimp only
        split
        next => rfl
        next some_ =>
          have full' : ∀ b ∈ before ++ [d.endWord], b.words ≠ [] := by
            simpa [or_imp, forall_and] using ⟨full, some_⟩
          exact ih full' fewer
      | finish =>
        rw [assembleWith]
        dsimp only
        rw [close_eq full]
        cases Line.close mark (byteLength (s.take i)) before d with
        | error e => rfl
        | ok here =>
          refine (ih (by simp) fewer).trans ?_
          change ((parseFrom mark s false (i + t.front.length) [] {}).map _).mapError _ =
            (Except.map _ (parseFrom mark s false (i + t.front.length) [] {} >>= _)).mapError _
          cases parseFrom mark s false (i + t.front.length) [] {} with
          | error e => rfl
          | ok rest => exact congrArg Except.ok (List.append_assoc ..)
      | _ =>
        dsimp only
        rw [ih full fewer, isSome_add _ scanned (by simp)]
        rfl

theorem read_eq (mark : Char) (line : String) :
    read mark line = (parse mark line).mapError .refused := by
  rw [read, readFrom_eq (by simp) (by omega)]
  change ((parse mark line).map _).mapError _ = _
  cases parse mark line <;> rfl

end

/-! ### Where a command is missing -/

/-- The offset of the end of a text, or of a character in it that ends a command. -/
def IsStop (s : List Char) (n : Nat) : Prop :=
  n = byteLength s ∨ ∃ front c back, s = front ++ c :: back ∧ c ∈ ['|', ';', '\n'] ∧
    n = byteLength front

theorem isStop_of_drop (here : s.drop i = c :: r) (ends : c ∈ ['|', ';', '\n']) :
    IsStop s (byteLength (s.take i)) :=
  .inr ⟨s.take i, c, r, by rw [← here, List.take_append_drop], ends, rfl⟩

theorem ne_emptySegment_of_unplaced {α : Type} {x : Except ParseError α} (unplaced : Unplaced x)
    (n : Nat) : x ≠ .error (.emptySegment n) := by
  rintro rfl
  have same := ParseError.emptySegment.inj (Except.error.inj (unplaced 1))
  omega

theorem eq_of_close_emptySegment {mark : Char} {offset n : Nat} {before : List Draft} {last : Draft}
    (failed : Line.close mark offset before last = .error (.emptySegment n)) : n = offset := by
  unfold Line.close at failed
  dsimp only at failed
  by_cases empty : last.endWord.words = []
  · by_cases first : before = []
    · simp [empty, first] at failed
    · simpa [empty, first, eq_comm] using failed
  · simp only [empty, if_false] at failed
    have unplaced := (unplaced_mapM_toSegment before mark).bind fun piped =>
      (unplaced_toSegment last.endWord mark false).bind fun final =>
        .ok [(⟨joinHosts (piped ++ [final])⟩ : Statement)]
    exact absurd failed (ne_emptySegment_of_unplaced unplaced n)

theorem isStop_of_parseFrom {mark : Char} {inWord : Bool} {before : List Draft} {d : Draft}
    {n : Nat} (failed : parseFrom mark s inWord i before d = .error (.emptySegment n)) : IsStop s n := by
  induction left : s.length - i using Nat.strong_induction_on generalizing inWord i before d with
  | h left' ih =>
    rcases nil_or_cons_of_drop s i with past | ⟨c, r, inside, here⟩
    · rw [parseFrom_of_le past] at failed
      exact .inl (eq_of_close_emptySegment failed)
    cases scanned : Piece.Kind.scan inWord c r with
    | error e =>
      rw [parseFrom_of_fault here scanned] at failed
      have lexical := scan_error scanned
      rw [Except.error.inj failed] at lexical
      cases lexical
    | ok found =>
      obtain ⟨kind, t⟩ := found
      have some_ := List.length_pos_iff.mpr t.front_ne_nil
      have fewer : s.length - (i + t.front.length) < left' := by omega
      obtain ⟨-, pipe, finish⟩ := lead_of_scan scanned
      rw [parseFrom_of_piece here scanned, assembleWith] at failed
      cases kind with
      | pipe =>
        dsimp only at failed
        split at failed
        next =>
          obtain rfl := ParseError.emptySegment.inj (Except.error.inj failed)
          exact isStop_of_drop here (by simp [pipe rfl])
        next => exact ih _ fewer failed rfl
      | finish =>
        rcases bind_eq_error.mp failed with closed | ⟨first, -, failed⟩
        · rw [eq_of_close_emptySegment closed]
          exact isStop_of_drop here (by rcases finish rfl with rfl | rfl <;> decide)
        rcases bind_eq_error.mp failed with later | ⟨rest, -, joined⟩
        · exact ih _ fewer later rfl
        · cases joined
      | _ => exact ih _ fewer failed rfl

/-- How a search from `j` on may end: where `mark` stands, or with the error that it never does. -/
def Settles (mark : Char) (s : List Char) (j : Nat) (result : Except Stop Nat) : Prop :=
  (∃ i, result = .ok i ∧ Marks mark s j i) ∨
    result = .error (.refused .unterminatedSubstitution)

theorem settles_endIndex {mark : Char} {scan : Scanner} (settled : ∀ s, Settled mark scan s)
    (s : List Char) (j : Nat) :
    Settles mark s j (endIndex (.refused .unterminatedSubstitution) scan s j) := by
  cases ends : endIndex (Stop.refused .unterminatedSubstitution) scan s j with
  | ok i => exact .inl ⟨i, rfl, Settled.marks settled ends⟩
  | error e =>
    unfold endIndex at ends
    split at ends
    · exact .inr ends.symm
    · cases ends

/-- Reading by position gives what `parse` gives, in as many steps as there are characters, and one:
it never goes astray and is never late, whatever the line and the local mark.  Each search, from any
position and in as many steps as there may be left, ends where the character that it looks for
stands, or finds that there is none.  Where a command is missing, the offset is that of a character
that ends a command, or the length of the line. -/
theorem read_never_astray (mark : Char) (line : String) :
    read mark line = (parse mark line).mapError .refused ∧
    (∀ target steps j, line.toList.length - j < steps →
      ∃ found, findChar line.toList target steps j = .ok found ∧
        ∀ i ∈ found, Marks target line.toList j i) ∧
    (∀ depth steps j, line.toList.length - j < steps →
      Settles ')' line.toList j (substitutionEnd line.toList steps (depth + 1) j)) ∧
    (∀ steps j, line.toList.length - j < steps →
      Settles '"' line.toList j (quotationEnd line.toList steps j)) ∧
    ∀ n, parse mark line = .error (.emptySegment n) → IsStop line.toList n := by
  refine ⟨read_eq mark line,
    fun target steps j enough => ⟨_, findChar_eq enough, fun i found => ?_⟩,
    fun depth steps j enough => ?_, fun steps j enough => ?_,
    fun n failed => isStop_of_parseFrom (i := 0) (d := {}) failed⟩
  · cases ends : endIndex () (scannerOf target) line.toList j with
    | error e =>
      rw [ends] at found
      cases found
    | ok k =>
      rw [ends] at found
      cases found
      exact Settled.marks (settled_scannerOf target) ends
  · rw [(found_ends _ _).substitution (depth + 1) j (Nat.succ_pos depth) enough]
    exact settles_endIndex (settled_afterSubstitution (depth + 1)) _ j
  · rw [(found_ends _ _).quotation j enough]
    exact settles_endIndex settled_mutual.2 _ j

theorem read_never_astray_missing :
    parse '!' "é | | b" = .error (.emptySegment 5) ∧ IsStop "é | | b".toList 5 := by
  obtain ⟨-, -, -, -, stops⟩ := read_never_astray '!' "é | | b"
  have failed : parse '!' "é | | b" = .error (.emptySegment 5) := by cbv
  exact ⟨failed, stops 5 failed⟩

end Flotilla.Line.Indexed
