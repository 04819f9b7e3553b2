import Flotilla.Line.Statement
import Flotilla.Proofs.Line.Positions

/-!
# Reading by position

`Indexed.read` reads a line as loops over an array do: it looks at the characters by their
positions, takes slices, counts open parentheses down and reads the first of some words.  Each of
these may fail (`Stop.astray`), and a loop may take only so many steps (`Stop.late`).
-/

namespace Flotilla.Line.Indexed

/-- Why a reader by position stops without a result. -/
inductive Stop where
  /-- It takes an item or a slice that is not there, or one from zero. -/
  | astray
  /-- It has not come to its end in the steps that it may take. -/
  | late
  /-- The line is rejected. -/
  | refused (e : ParseError)
  deriving Repr, DecidableEq

/-- The item at a position. -/
def item {α : Type} (xs : List α) (i : Nat) : Except Stop α :=
  match xs[i]? with
  | none => .error .astray
  | some a => .ok a

/-- The characters from the position `i` on and before `j`. -/
def slice (s : List Char) (i j : Nat) : Except Stop (List Char) :=
  if i ≤ j ∧ j ≤ s.length then .ok ((s.drop i).take (j - i)) else .error .astray

/-- One less. -/
def less : Nat → Except Stop Nat
  | 0 => .error .astray
  | n + 1 => .ok n

/-- What was sought, or the error that it was not found. -/
def sought (e : ParseError) : Option Nat → Except Stop Nat
  | none => .error (.refused e)
  | some i => .ok i

/-- The position of the next `target`.  A backslash hides a backquote. -/
def findChar (s : List Char) (target : Char) : (steps : Nat) → (j : Nat) → Except Stop (Option Nat)
  | 0, _ => .error .late
  | steps + 1, j =>
    if j < s.length then do
      let c ← item s j
      if c = '\\' ∧ target = '`' then findChar s target steps (j + 2)
      else if c = target then return some j
      else findChar s target steps (j + 1)
    else return none

mutual

/-- The position of the parenthesis that closes the last of `depth` open ones. -/
def substitutionEnd (s : List Char) : (steps depth j : Nat) → Except Stop Nat
  | 0, _, _ => .error .late
  | steps + 1, depth, j =>
    if j < s.length then do
      let c ← item s j
      if c = '\\' then substitutionEnd s steps depth (j + 2)
      else if c = '\'' ∨ c = '`' then do
        let k ← sought .unterminatedSubstitution (← findChar s c steps (j + 1))
        substitutionEnd s steps depth (k + 1)
      else if c = '"' then do
        let k ← quotationEnd s steps (j + 1)
        substitutionEnd s steps depth (k + 1)
      else if c = '$' ∧ s[j + 1]? = some '(' then do
        let k ← substitutionEnd s steps 1 (j + 2)
        substitutionEnd s steps depth (k + 1)
      else if c = '(' then substitutionEnd s steps (depth + 1) (j + 1)
      else if c = ')' then do
        let depth ← less depth
        if depth = 0 then return j else substitutionEnd s steps depth (j + 1)
      else substitutionEnd s steps depth (j + 1)
    else .error (.refused .unterminatedSubstitution)

/-- The position of the mark that closes a double quotation inside a substitution. -/
def quotationEnd (s : List Char) : (steps j : Nat) → Except Stop Nat
  | 0, _ => .error .late
  | steps + 1, j =>
    if j < s.length then do
      let c ← item s j
      if c = '"' then return j
      else if c = '\\' then quotationEnd s steps (j + 2)
      else if c = '`' then do
        let k ← sought .unterminatedSubstitution (← findChar s '`' steps (j + 1))
        quotationEnd s steps (k + 1)
      else if c = '$' ∧ s[j + 1]? = some '(' then do
        let k ← substitutionEnd s steps 1 (j + 2)
        quotationEnd s steps (k + 1)
      else quotationEnd s steps (j + 1)
    else .error (.refused .unterminatedSubstitution)

end

/-- Reads a double quotation of the line, of which `value` has been read: what it stands for, and
the position of the mark that closes it. -/
def quotation (s : List Char) : (steps j : Nat) → (value : List Char) →
    Except Stop (List Char × Nat)
  | 0, _, _ => .error .late
  | steps + 1, j, value =>
    match s[j]? with
    | none => .error (.refused (.unterminatedQuote '"'))
    | some c =>
      if c = '"' then return (value, j)
      else if c = '\\' then
        match s[j + 1]? with
        | none => .error (.refused (.unterminatedQuote '"'))
        | some d =>
          quotation s steps (j + 2) (value ++ if isHiddenInQuotation d then [d] else ['\\', d])
      else if c = '$' ∧ s[j + 1]? = some '(' then do
        let k ← substitutionEnd s steps 1 (j + 2)
        quotation s steps (k + 1) (value ++ (← slice s j (k + 1)))
      else quotation s steps (j + 1) (value ++ [c])

/-- The position of the next end of a line. -/
def commentEnd (s : List Char) : (steps j : Nat) → Except Stop Nat
  | 0, _ => .error .late
  | steps + 1, j =>
    if j < s.length then do
      if (← item s j) ≠ '\n' then commentEnd s steps (j + 1) else return j
    else return j

/-- The kind of the piece that starts with `c` at the position `i`, and the position behind it. -/
def pieceAt (s : List Char) (steps : Nat) (inWord : Bool) (i : Nat) (c : Char) :
    Except Stop (Piece.Kind × Nat) :=
  if c = '\'' then do
    let k ← sought (.unterminatedQuote '\'') (← findChar s '\'' steps (i + 1))
    return (.word (← slice s (i + 1) k), k + 1)
  else if c = '"' then do
    let (value, k) ← quotation s steps (i + 1) []
    return (.word value, k + 1)
  else if c = '\\' then
    match s[i + 1]? with
    | none => .error (.refused .trailingEscape)
    | some d => return (if d = '\n' then .continuation else .word [d], i + 2)
  else if c = '`' then do
    let k ← sought .unterminatedSubstitution (← findChar s '`' steps (i + 1))
    return (.word (← slice s i (k + 1)), k + 1)
  else if c = '$' ∧ s[i + 1]? = some '(' then do
    let k ← substitutionEnd s steps 1 (i + 2)
    return (.word (← slice s i (k + 1)), k + 1)
  else if c = '#' ∧ ¬ inWord then
    return (.comment, ← commentEnd s steps i)
  else if (c = '|' ∨ c = '&') ∧ s[i + 1]? = some c then return (.operator, i + 2)
  else
    let kind : Piece.Kind :=
      if c = '&' then .operator
      else if c = '|' then .pipe
      else if c = ';' ∨ c = '\n' then .finish
      else if Text.isBlank c then .blank
      else .word [c]
    return (kind, i + 1)

/-- The segment to run on this machine. -/
def toLocal (d : Draft) (mark : Char) (text : List Char) (piped : Bool) : Except Stop Segment := do
  let first := (← item d.words 0).toList
  let rest := if first.head? = some mark then first.tail else first
  let words := if rest = [] then d.words.tail else d.words.set 0 (String.ofList rest)
  let text := Text.trimStart text
  if words = [] ∨ text = [] then .error (.refused .emptyLocalCommand)
  else return ⟨.here, words, String.ofList text, piped⟩

/-- Decides where the segment runs. -/
def toSegment (d : Draft) (mark : Char) (piped : Bool) : Except Stop Segment :=
  let text := Text.trim d.text
  if text.head? = some mark then toLocal d mark text.tail piped
  else (d.toSegment mark piped).mapError .refused

/-- The statement that ends at the byte `offset`. -/
def close (mark : Char) (offset : Nat) (before : List Draft) (last : Draft) :
    Except Stop (List Statement) := do
  let last := last.endWord
  if last.words = [] then
    if before = [] then return [] else throw (.refused (.emptySegment offset))
  let piped ← before.mapM (toSegment · mark true)
  let final ← toSegment last mark false
  return [⟨joinHosts (piped ++ [final])⟩]

/-- Reads a line from the position `i` on.  `done` is what has been read, and `before` and `d` are
the drafts of the statement so far. -/
def readFrom (mark : Char) (s : List Char) : (steps i : Nat) → (done : List Statement) →
    (before : List Draft) → (d : Draft) → Except Stop (List Statement)
  | 0, _, _, _, _ => .error .late
  | steps + 1, i, done, before, d =>
    if i < s.length then do
      let c ← item s i
      let offset := byteLength (s.take i)
      let (kind, j) ← pieceAt s (steps + 1) d.word.isSome i c
      let source ← slice s i j
      match kind with
      | .pipe =>
        let d := d.endWord
        if d.words = [] then .error (.refused (.emptySegment offset))
        else readFrom mark s steps j done (before ++ [d]) {}
      | .finish => do
        let here ← close mark offset before d
        readFrom mark s steps j (done ++ here) [] {}
      | _ => readFrom mark s steps j done before (d.add ⟨kind, source, offset⟩)
    else do
      let here ← close mark (byteLength s) before d
      return done ++ here

/-- Reads a line in as many steps as it has characters, and one. -/
def read (mark : Char) (line : String) : Except Stop (List Statement) :=
  readFrom mark line.toList (line.toList.length + 1) 0 [] [] {}

/-! ### Characters and slices -/

variable {s r : List Char} {c : Char} {j : Nat}

theorem item_of_drop (here : s.drop j = c :: r) : item s j = .ok c := by
  rw [item, ← List.head?_drop, here]
  rfl

theorem lt_length_of_drop (here : s.drop j = c :: r) : j < s.length := by
  have whole := congrArg List.length here
  rw [List.length_drop, List.length_cons] at whole
  omega

theorem drop_succ_of_drop (here : s.drop j = c :: r) : s.drop (j + 1) = r :=
  drop_add_of_drop [c] here

theorem getElem?_succ_of_drop (here : s.drop j = c :: r) : s[j + 1]? = r.head? := by
  rw [← List.head?_drop, drop_succ_of_drop here]

theorem slice_of_drop {front back : List Char} {k : Nat} (here : s.drop j = front ++ back)
    (some_ : front ++ back ≠ []) (ends : k = j + front.length) : slice s j k = .ok front := by
  subst ends
  have whole := congrArg List.length here
  have more := List.length_pos_iff.mpr some_
  rw [List.length_drop, List.length_append] at whole
  rw [List.length_append] at more
  have inside : j ≤ j + front.length ∧ j + front.length ≤ s.length := by omega
  rw [slice, if_pos inside, here, Nat.add_sub_cancel_left, List.take_left]

theorem slice_of_cut {k : Nat} (t : Cut r) (here : s.drop j = r) (ends : k = j + t.front.length) :
    slice s j k = .ok t.front :=
  slice_of_drop (here.trans t.front_append_back.symm)
    (List.append_ne_nil_of_left_ne_nil t.front_ne_nil t.back) ends

/-! ### Where quotations and substitutions end -/

/-- The scanner that stops at the next `target`. -/
def scannerOf (target : Char) : Scanner :=
  if target = '`' then afterBackquote else afterMark target

theorem settled_scannerOf (target : Char) (s : List Char) :
    Settled target (scannerOf target) s := by
  unfold scannerOf
  split
  next backquote => exact backquote ▸ settled_afterBackquote s
  next => exact settled_afterMark target s

theorem sought_toOption (e : ParseError) (scan : Scanner) :
    sought e (endIndex () scan s j).toOption = endIndex (.refused e) scan s j := by
  unfold endIndex
  cases reach scan (s.drop j) <;> rfl

theorem nil_or_cons_of_drop (s : List Char) (j : Nat) :
    s.length ≤ j ∨ ∃ c r, j < s.length ∧ s.drop j = c :: r := by
  by_cases inside : j < s.length
  · exact .inr ⟨s[j], s.drop (j + 1), inside, List.drop_eq_getElem_cons inside⟩
  · exact .inl (Nat.le_of_not_lt inside)

/-- A scanner that a backslash hides characters from, at the end of the text as elsewhere. -/
theorem endIndex_of_escape {ε : Type} {e : ε} {scan : Scanner} (nothing : scan [] = none)
    (last : scan ['\\'] = none)
    (step : ∀ d r, scan ('\\' :: d :: r) = do
      let t ← scan r
      return t.behind ['\\', d])
    (here : s.drop j = '\\' :: r) : endIndex e scan s j = endIndex e scan s (j + 2) := by
  cases r with
  | nil =>
    have past : s.length ≤ j + 1 := List.drop_eq_nil_iff.mp (drop_succ_of_drop here)
    rw [endIndex_of_none last here, endIndex_of_le nothing (Nat.le_succ_of_le past)]
  | cons d r => exact endIndex_of_once ['\\', d] here (step d r)

theorem scannerOf_nil (target : Char) : scannerOf target [] = none := by
  unfold scannerOf
  split <;> rfl

theorem scannerOf_mark (target : Char) (r : List Char) :
    scannerOf target (target :: r) = some (.one target r) := by
  unfold scannerOf
  split
  next backquote => exact backquote ▸ afterBackquote_mark r
  next => exact afterMark_mark target r

theorem scannerOf_other {target : Char} (r : List Char) (other : c ≠ target)
    (plain : ¬ (c = '\\' ∧ target = '`')) :
    scannerOf target (c :: r) = do
      let t ← scannerOf target r
      return t.behind [c] := by
  unfold scannerOf
  split
  next backquote =>
    exact afterBackquote_other (backquote ▸ other) fun _ _ hidden _ => plain ⟨hidden, backquote⟩
  next => exact afterMark_other other r

theorem findChar_eq {target : Char} {steps : Nat} (enough : s.length - j < steps) :
    findChar s target steps j = .ok (endIndex () (scannerOf target) s j).toOption := by
  induction steps generalizing j with
  | zero => exact absurd enough (Nat.not_lt_zero _)
  | succ steps ih =>
    rw [findChar]
    rcases nil_or_cons_of_drop s j with past | ⟨c, r, inside, here⟩
    · rw [if_neg (Nat.not_lt.mpr past), endIndex_of_le (scannerOf_nil target) past]
      rfl
    rw [if_pos inside, item_of_drop here, ok_bind]
    by_cases hidden : c = '\\' ∧ target = '`'
    · rw [if_pos hidden]
      obtain ⟨rfl, rfl⟩ := hidden
      rw [ih (by omega), endIndex_of_escape (scannerOf_nil '`') rfl afterBackquote_escape here]
    rw [if_neg hidden]
    by_cases ends : c = target
    · subst ends
      rw [if_pos rfl, endIndex_of_one here (scannerOf_mark c r)]
      rfl
    · rw [if_neg ends, ih (by omega), endIndex_of_once [c] here (scannerOf_other r ends hidden)]
      rfl

/-- A search that goes on behind the end that `inner` finds. -/
theorem bind_endIndex {mark : Char} {inner later : Scanner} {e : Stop}
    {first : Except Stop Nat} {f : Nat → Except Stop Nat} (settled : ∀ s, Settled mark inner s)
    (found_first : first = endIndex e inner s j)
    (rest : ∀ k, j ≤ k → f k = endIndex e later s (k + 1)) :
    first >>= f = endIndex e inner s j >>= fun k => endIndex e later s (k + 1) := by
  rw [found_first]
  exact bind_congr_ok fun k ends => rest k (Settled.marks settled ends).start_le

/-- Whether `c` starts a substitution, as a scanner by position sees it. -/
theorem dollar_iff (here : s.drop j = c :: r) :
    (c = '$' ∧ s[j + 1]? = some '(') ↔ ∃ u, c = '$' ∧ r = '(' :: u := by
  rw [getElem?_succ_of_drop here, List.head?_eq_some_iff]
  simp

/-- In so many steps, ends are found where the scanners find them. -/
structure Found (s : List Char) (steps : Nat) : Prop where
  substitution (depth j : Nat) : 0 < depth → s.length - j < steps →
    substitutionEnd s steps depth j =
      endIndex (.refused .unterminatedSubstitution) (afterSubstitution depth) s j
  quotation (j : Nat) : s.length - j < steps →
    quotationEnd s steps j = endIndex (.refused .unterminatedSubstitution) afterQuotation s j

theorem Found.substitution_succ {steps : Nat} (found : Found s steps) {depth : Nat}
    (open_ : 0 < depth) (enough : s.length - j < steps + 1) :
    substitutionEnd s (steps + 1) depth j =
      endIndex (.refused .unterminatedSubstitution) (afterSubstitution depth) s j := by
  rw [substitutionEnd]
  rcases nil_or_cons_of_drop s j with past | ⟨c, r, inside, here⟩
  · rw [if_neg (Nat.not_lt.mpr past), endIndex_of_le (afterSubstitution.eq_1 depth) past]
  rw [if_pos inside, item_of_drop here, ok_bind]
  -- In each case the scanner's own equation tells where the search goes on, which is further on.
  have goes_on (k : Nat) (further : j < k) := found.substitution depth k open_ (by omega)
  by_cases escape : c = '\\'
  · subst escape
    have last : afterSubstitution depth ['\\'] = none := by
      simp [afterSubstitution.eq_9, afterSubstitution.eq_1]
    rw [if_pos rfl, endIndex_of_escape (afterSubstitution.eq_1 depth) last
      (afterSubstitution.eq_2 depth) here]
    exact goes_on (j + 2) (by omega)
  rw [if_neg escape]
  by_cases skipped : c = '\'' ∨ c = '`'
  · rw [if_pos skipped, findChar_eq (by omega), ok_bind, sought_toOption]
    rcases skipped with rfl | rfl
    · rw [endIndex_of_twice ['\''] here (afterSubstitution.eq_3 depth r)]
      exact bind_endIndex (settled_afterMark '\'') rfl fun k further => goes_on (k + 1) (by omega)
    · rw [endIndex_of_twice ['`'] here (afterSubstitution.eq_4 depth r)]
      exact bind_endIndex settled_afterBackquote rfl fun k further => goes_on (k + 1) (by omega)
  rw [if_neg skipped]
  by_cases quotation : c = '"'
  · subst quotation
    rw [if_pos rfl, endIndex_of_twice ['"'] here (afterSubstitution.eq_5 depth r)]
    exact bind_endIndex settled_mutual.2 (found.quotation (j + 1) (by omega))
      fun k further => goes_on (k + 1) (by omega)
  rw [if_neg quotation]
  by_cases inner : c = '$' ∧ s[j + 1]? = some '('
  · rw [if_pos inner]
    obtain ⟨u, rfl, rfl⟩ := (dollar_iff here).mp inner
    rw [endIndex_of_twice ['$', '('] here (afterSubstitution.eq_6 depth u)]
    exact bind_endIndex (settled_afterSubstitution 1)
      (found.substitution 1 (j + 2) Nat.one_pos (by omega))
      fun k further => goes_on (k + 1) (by omega)
  rw [if_neg inner]
  by_cases opens : c = '('
  · subst opens
    rw [if_pos rfl, endIndex_of_once ['('] here (afterSubstitution.eq_7 depth r)]
    exact found.substitution (depth + 1) (j + 1) (Nat.succ_pos depth) (by omega)
  rw [if_neg opens]
  by_cases closes : c = ')'
  · subst closes
    obtain ⟨depth, rfl⟩ := Nat.exists_eq_add_one_of_ne_zero (Nat.pos_iff_ne_zero.mp open_)
    rw [if_pos rfl, less, ok_bind]
    by_cases last : depth = 0
    · subst last
      rw [if_pos rfl, endIndex_of_one here ((afterSubstitution.eq_8 1 r).trans (if_pos le_rfl))]
      rfl
    · rw [if_neg last, endIndex_of_once [')'] here
        ((afterSubstitution.eq_8 (depth + 1) r).trans (if_neg (by omega)))]
      exact found.substitution depth (j + 1) (Nat.pos_of_ne_zero last) (by omega)
  · rw [dollar_iff here] at inner
    have plain := afterSubstitution.eq_9 depth c r (fun _ _ lead _ => escape lead)
      (fun lead => skipped (.inl lead)) (fun lead => skipped (.inr lead)) quotation
      (fun u lead opened => inner ⟨u, lead, opened⟩) opens closes
    rw [if_neg closes, endIndex_of_once [c] here plain]
    exact goes_on (j + 1) (Nat.lt_succ_self j)

theorem Found.quotation_succ {steps : Nat} (found : Found s steps)
    (enough : s.length - j < steps + 1) :
    quotationEnd s (steps + 1) j =
      endIndex (.refused .unterminatedSubstitution) afterQuotation s j := by
  rw [quotationEnd]
  rcases nil_or_cons_of_drop s j with past | ⟨c, r, inside, here⟩
  · rw [if_neg (Nat.not_lt.mpr past), endIndex_of_le afterQuotation.eq_1 past]
  rw [if_pos inside, item_of_drop here, ok_bind]
  have goes_on (k : Nat) (further : j < k) := found.quotation k (by omega)
  by_cases ends : c = '"'
  · subst ends
    rw [if_pos rfl, endIndex_of_one here (afterQuotation.eq_2 r)]
    rfl
  rw [if_neg ends]
  by_cases escape : c = '\\'
  · subst escape
    have last : afterQuotation ['\\'] = none := by
      simp [afterQuotation.eq_6, afterQuotation.eq_1]
    rw [if_pos rfl, endIndex_of_escape afterQuotation.eq_1 last afterQuotation.eq_3 here]
    exact goes_on (j + 2) (by omega)
  rw [if_neg escape]
  by_cases backquote : c = '`'
  · subst backquote
    rw [if_pos rfl, findChar_eq (by omega), ok_bind, sought_toOption,
      endIndex_of_twice ['`'] here (afterQuotation.eq_4 r)]
    exact bind_endIndex settled_afterBackquote rfl fun k further => goes_on (k + 1) (by omega)
  rw [if_neg backquote]
  by_cases inner : c = '$' ∧ s[j + 1]? = some '('
  · rw [if_pos inner]
    obtain ⟨u, rfl, rfl⟩ := (dollar_iff here).mp inner
    rw [endIndex_of_twice ['$', '('] here (afterQuotation.eq_5 u)]
    exact bind_endIndex (settled_afterSubstitution 1)
      (found.substitution 1 (j + 2) Nat.one_pos (by omega))
      fun k further => goes_on (k + 1) (by omega)
  · rw [if_neg inner]
    rw [dollar_iff here] at inner
    have plain := afterQuotation.eq_6 c r ends (fun _ _ lead _ => escape lead) backquote
      fun u lead opened => inner ⟨u, lead, opened⟩
    rw [endIndex_of_once [c] here plain]
    exact goes_on (j + 1) (Nat.lt_succ_self j)

theorem found_ends (s : List Char) (steps : Nat) : Found s steps := by
  induction steps with
  | zero =>
    exact ⟨fun _ _ _ enough => absurd enough (Nat.not_lt_zero _),
      fun _ enough => absurd enough (Nat.not_lt_zero _)⟩
  | succ steps ih =>
    exact ⟨fun _ _ open_ enough => ih.substitution_succ open_ enough,
      fun _ enough => ih.quotation_succ enough⟩

/-- What a scanner makes of the text behind `lead`, as a position and as a slice. -/
theorem endIndex_cases {u : List Char} (e : Stop) (scan : Scanner) {m : Nat} (lead : List Char)
    (here : s.drop j = lead ++ u) (behind : m = j + lead.length) :
    (scan u = none ∧ endIndex e scan s m = .error e) ∨
      ∃ t k, scan u = some t ∧ endIndex e scan s m = .ok k ∧
        k + 1 = j + (lead ++ t.front).length ∧ slice s j (k + 1) = .ok (lead ++ t.front) := by
  subst behind
  have body := drop_add_of_drop lead here
  cases found : scan u with
  | none => exact .inl ⟨rfl, endIndex_of_none found body⟩
  | some t =>
    have some_ := List.length_pos_iff.mpr t.front_ne_nil
    have go_on : j + lead.length + t.front.length - 1 + 1 = j + (lead ++ t.front).length := by
      rw [List.length_append]
      omega
    exact .inr ⟨t, _, rfl, endIndex_of_some found body, go_on,
      slice_of_cut (t.behind lead) here go_on⟩

end Flotilla.Line.Indexed
