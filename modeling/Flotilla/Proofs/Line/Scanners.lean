import Mathlib.Data.List.TakeWhile
import Flotilla.Line.Piece
import Flotilla.Proofs.Failure

/-!
# Scanners and what comes later

A scanner that finds the end of a quotation or a substitution never looks beyond that end, so it
finds the same end whatever follows: `Settled`.  `Starts.follow` says how far this holds of pieces,
some of which are told from longer ones by the next character.
-/

namespace Flotilla

namespace Cut

variable {α : Type} {s : List α}

/-- A cut in the same place of a longer text. -/
def extend (t : Cut s) (x : List α) : Cut (s ++ x) where
  front := t.front
  back := t.back ++ x
  front_append_back := by rw [← List.append_assoc, t.front_append_back]
  front_ne_nil := t.front_ne_nil

@[simp] theorem extend_front (t : Cut s) (x : List α) : (t.extend x).front = t.front := rfl

@[simp] theorem extend_back (t : Cut s) (x : List α) : (t.extend x).back = t.back ++ x := rfl

/-- A cut in the same place, with more in front. -/
def behind (lead : List α) (t : Cut s) : Cut (lead ++ s) where
  front := lead ++ t.front
  back := t.back
  front_append_back := by rw [List.append_assoc, t.front_append_back]
  front_ne_nil := List.append_ne_nil_of_right_ne_nil lead t.front_ne_nil

theorem ext_front {t u : Cut s} (same : t.front = u.front) : t = u := by
  obtain ⟨front, back, whole, _⟩ := t
  obtain ⟨front', back', whole', _⟩ := u
  dsimp only at same
  subst same
  have rest : back = back' := List.append_cancel_left (whole.trans whole'.symm)
  subst rest
  rfl

theorem back_of_front {front back : List α} {t : Cut (front ++ back)} (same : t.front = front) :
    t.back = back := by
  have whole := t.front_append_back
  rw [same] at whole
  exact List.append_cancel_left whole

/-- Another text with the same first part starts alike. -/
theorem head?_front_append (t : Cut s) (x : List α) : (t.front ++ x).head? = s.head? := by
  obtain ⟨c, front, whole⟩ := List.exists_cons_of_ne_nil t.front_ne_nil
  have parts := t.front_append_back
  rw [whole] at parts ⊢
  rw [← parts]
  rfl

end Cut

namespace Line

/-- What a scanner of cuts is. -/
abbrev Scanner := (s : List Char) → Option (Cut s)

/-- The scanner finds the end of `s` behind `front`. -/
def Ends (scan : Scanner) (s front : List Char) : Prop :=
  ∃ t : Cut s, scan s = some t ∧ t.front = front

/-- The end that a scanner finds is behind a `mark`, and the same whatever follows it. -/
def Settled (mark : Char) (scan : Scanner) (s : List Char) : Prop :=
  ∀ t : Cut s, scan s = some t →
    t.front.getLast? = some mark ∧ ∀ x, Ends scan (t.front ++ x) t.front

namespace Settled

variable {mark : Char} {scan inner : Scanner} {r : List Char}

theorem of_none (none_ : scan r = none) : Settled mark scan r := by
  intro t found
  rw [none_] at found
  cases found

theorem of_one (one : ∀ s, scan (mark :: s) = some (.one mark s)) :
    Settled mark scan (mark :: r) := by
  intro t found
  rw [one] at found
  obtain rfl := Option.some.inj found
  exact ⟨rfl, fun x => ⟨.one mark x, one x, rfl⟩⟩

/-- A scanner that skips `lead` and goes on as `inner` is settled when `inner` is.  It may look at
one character behind `lead`. -/
theorem once (lead : List Char)
    (step : ∀ s, s.head? = r.head? →
      scan (lead ++ s) = do
        let t ← inner s
        return t.behind lead)
    (later : Settled mark inner r) : Settled mark scan (lead ++ r) := by
  intro t found
  rw [step r rfl] at found
  obtain ⟨u, further, wrapped⟩ := Option.bind_eq_some_iff.mp found
  obtain rfl := Option.some.inj wrapped
  obtain ⟨last, further⟩ := later u further
  refine ⟨by simp [Cut.behind, List.getLast?_append, last], fun x => ?_⟩
  obtain ⟨v, further, front⟩ := further x
  change Ends scan (lead ++ u.front ++ x) (lead ++ u.front)
  rw [List.append_assoc]
  refine ⟨v.behind lead, ?_, congrArg (lead ++ ·) front⟩
  rw [step _ (u.head?_front_append x), further]
  rfl

/-- A scanner that skips `lead` and what `inner` finds, and then goes on as before. -/
theorem twice {skipped : Char} (lead : List Char)
    (step : ∀ s, scan (lead ++ s) = do
      let t ← inner s
      let u ← scan t.back
      return (t.trans u).behind lead)
    (first : Settled skipped inner r) (second : ∀ t : Cut r, Settled mark scan t.back) :
    Settled mark scan (lead ++ r) := by
  intro t found
  rw [step] at found
  obtain ⟨u, found_first, found⟩ := Option.bind_eq_some_iff.mp found
  obtain ⟨v, found_second, wrapped⟩ := Option.bind_eq_some_iff.mp found
  obtain rfl := Option.some.inj wrapped
  obtain ⟨-, again_first⟩ := first u found_first
  obtain ⟨last, again_second⟩ := second u v found_second
  refine ⟨by simp [Cut.behind, Cut.trans, List.getLast?_append, last], fun x => ?_⟩
  obtain ⟨u', found_first, front⟩ := again_first (v.front ++ x)
  have further : Ends scan u'.back v.front := by
    rw [Cut.back_of_front front]
    exact again_second x
  obtain ⟨v', found_second, front'⟩ := further
  change Ends scan (lead ++ (u.front ++ v.front) ++ x) (lead ++ (u.front ++ v.front))
  rw [List.append_assoc, List.append_assoc]
  refine ⟨(u'.trans v').behind lead, ?_, ?_⟩
  · rw [step, found_first]
    simp [found_second]
  · simp [Cut.behind, Cut.trans, front, front']

end Settled

/-- What makes no pair with the character after it makes none with the same character. -/
theorem unpaired_of_head? {c lead d : Char} {r s : List Char} (same : s.head? = r.head?)
    (alone : ∀ u, c = lead → r = d :: u → False) : ∀ v, c = lead → s = d :: v → False := by
  rintro v leads rfl
  cases r with
  | nil => cases same
  | cons e u => exact alone u leads (by rw [← Option.some.inj same])

/-! ### Marks and backquotes -/

theorem afterMark_mark (mark : Char) (r : List Char) :
    afterMark mark (mark :: r) = some (.one mark r) := by
  rw [afterMark, if_pos rfl]

theorem afterMark_other {mark c : Char} (other : c ≠ mark) (r : List Char) :
    afterMark mark (c :: r) = do
      let t ← afterMark mark r
      return t.behind [c] := by
  rw [afterMark, if_neg other]
  cases afterMark mark r <;> rfl

theorem afterBackquote_mark (r : List Char) :
    afterBackquote ('`' :: r) = some (.one '`' r) := by
  rw [afterBackquote.eq_3 _ _ (by simp), if_pos rfl]

theorem afterBackquote_escape (c : Char) (r : List Char) :
    afterBackquote ('\\' :: c :: r) = do
      let t ← afterBackquote r
      return t.behind ['\\', c] := by
  rw [afterBackquote]
  cases afterBackquote r <;> rfl

theorem afterBackquote_other {c : Char} {r : List Char} (other : c ≠ '`')
    (alone : ∀ d u, c = '\\' → r = d :: u → False) :
    afterBackquote (c :: r) = do
      let t ← afterBackquote r
      return t.behind [c] := by
  rw [afterBackquote.eq_3 _ _ alone, if_neg other]
  cases afterBackquote r <;> rfl

theorem settled_afterMark (mark : Char) (s : List Char) : Settled mark (afterMark mark) s := by
  induction s with
  | nil => exact .of_none rfl
  | cons c r ih =>
    by_cases here : c = mark
    · subst here
      exact .of_one (afterMark_mark c)
    · exact .once [c] (fun s _ => afterMark_other here s) ih

theorem settled_afterBackquote (s : List Char) : Settled '`' afterBackquote s := by
  induction s using afterBackquote.induct with
  | case1 => exact .of_none rfl
  | case2 c r ih => exact .once ['\\', c] (fun s _ => afterBackquote_escape c s) ih
  | case3 r _ => exact .of_one afterBackquote_mark
  | case4 c r alone other ih =>
    exact .once [c]
      (fun s same => afterBackquote_other other fun d => unpaired_of_head? same (alone d)) ih

/-! ### Substitutions and quotations -/

theorem settled_mutual :
    (∀ depth s, Settled ')' (afterSubstitution depth) s) ∧ ∀ s, Settled '"' afterQuotation s := by
  -- A scan goes on behind the quotation or substitution that it skips, hence the cases with two
  -- scans.  Elsewhere only the pairs look ahead, by one character.
  refine afterSubstitution.mutual_induct (fun depth s => Settled ')' (afterSubstitution depth) s)
    (Settled '"' afterQuotation) ?none ?escape ?quote ?backquote ?quotation ?substitution ?opens ?closes
    ?inner ?other ?none' ?ends ?escape' ?backquote' ?substitution' ?other'
  case none => exact fun depth => .of_none (by rw [afterSubstitution])
  case escape =>
    intro depth c r ih
    exact .once ['\\', c] (fun s _ => afterSubstitution.eq_2 depth c s) ih
  case quote =>
    intro depth r ih
    exact .twice ['\''] (afterSubstitution.eq_3 depth) (settled_afterMark '\'' r) ih
  case backquote =>
    intro depth r ih
    exact .twice ['`'] (afterSubstitution.eq_4 depth) (settled_afterBackquote r) ih
  case quotation =>
    intro depth r inner ih
    exact .twice ['"'] (afterSubstitution.eq_5 depth) inner ih
  case substitution =>
    intro depth r inner ih
    exact .twice ['$', '('] (afterSubstitution.eq_6 depth) inner ih
  case opens =>
    intro depth r ih
    exact .once ['('] (fun s _ => afterSubstitution.eq_7 depth s) ih
  case closes =>
    intro depth r last
    exact .of_one fun s => by rw [afterSubstitution, if_pos last]
  case inner =>
    intro depth r deeper ih
    refine .once [')'] (fun s _ => ?_) ih
    change afterSubstitution depth (')' :: s) = _
    rw [afterSubstitution, if_neg deeper]
    rfl
  case other =>
    intro depth c r escape quote backquote quotation substitution opens closes ih
    refine .once [c] (fun s same => ?_) ih
    exact afterSubstitution.eq_9 depth c s (fun d => unpaired_of_head? same (escape d)) quote
      backquote quotation (unpaired_of_head? same substitution) opens closes
  case none' => exact .of_none (by rw [afterQuotation])
  case ends => exact fun r => .of_one fun s => by rw [afterQuotation]
  case escape' =>
    intro c r ih
    exact .once ['\\', c] (fun s _ => afterQuotation.eq_3 c s) ih
  case backquote' =>
    intro r ih
    exact .twice ['`'] afterQuotation.eq_4 (settled_afterBackquote r) ih
  case substitution' =>
    intro r inner ih
    exact .twice ['$', '('] afterQuotation.eq_5 inner ih
  case other' =>
    intro c r ends escape backquote substitution ih
    refine .once [c] (fun s same => ?_) ih
    exact afterQuotation.eq_6 c s ends (fun d => unpaired_of_head? same (escape d)) backquote
      (unpaired_of_head? same substitution)

theorem settled_afterSubstitution (depth : Nat) (s : List Char) :
    Settled ')' (afterSubstitution depth) s :=
  settled_mutual.1 depth s

/-- The double quotation that `s` goes on with ends behind `front` and stands for `value`. -/
def EndsQuotation (s value front : List Char) : Prop :=
  ∃ t : Cut s, readQuotation s = .ok (value, t) ∧ t.front = front

theorem EndsQuotation.settled {s value front : List Char} (ends : EndsQuotation s value front) :
    front.getLast? = some '"' ∧ ∀ x, EndsQuotation (front ++ x) value front := by
  obtain ⟨t, read, rfl⟩ := ends
  induction s using readQuotation.induct generalizing value with
  | case1 => simp [readQuotation] at read
  | case2 r =>
    rw [readQuotation] at read
    cases read
    exact ⟨rfl, fun x => ⟨.one '"' x, readQuotation.eq_2 x, rfl⟩⟩
  | case3 c r ih =>
    rw [readQuotation] at read
    obtain ⟨⟨rest, u⟩, further, read⟩ := bind_eq_ok.mp read
    obtain ⟨last, again⟩ := ih u further
    cases read
    refine ⟨by simp [Cut.cons, List.getLast?_cons, last], fun x => ?_⟩
    obtain ⟨v, again, front⟩ := again x
    refine ⟨.cons '\\' (.cons c v), ?_, congrArg ('\\' :: c :: ·) front⟩
    change readQuotation ('\\' :: c :: (u.front ++ x)) = _
    rw [readQuotation, again]
    rfl
  | case4 r unclosed =>
    rw [readQuotation, unclosed] at read
    cases read
  | case5 r u closed ih =>
    rw [readQuotation, closed] at read
    obtain ⟨⟨rest, v⟩, further, read⟩ := bind_eq_ok.mp read
    obtain ⟨last, again⟩ := ih v further
    cases read
    refine ⟨by simp [Cut.cons, Cut.trans, List.getLast?_cons, List.getLast?_append, last],
      fun x => ?_⟩
    obtain ⟨u', closed', front⟩ := (settled_afterSubstitution 1 r u closed).2 (v.front ++ x)
    have again : EndsQuotation u'.back rest v.front := by
      rw [Cut.back_of_front front]
      exact again x
    obtain ⟨v', again, front'⟩ := again
    change EndsQuotation ('$' :: '(' :: (u.front ++ v.front ++ x)) _
      ('$' :: '(' :: (u.front ++ v.front))
    rw [List.append_assoc]
    refine ⟨.cons '$' (.cons '(' (u'.trans v')), ?_, ?_⟩
    · rw [readQuotation, closed']
      dsimp only
      rw [again, front]
      rfl
    · simp [Cut.cons, Cut.trans, front, front']
  | case6 c r ends escape substitution ih =>
    rw [readQuotation.eq_5 _ _ ends escape substitution] at read
    obtain ⟨⟨rest, u⟩, further, read⟩ := bind_eq_ok.mp read
    obtain ⟨last, again⟩ := ih u further
    cases read
    refine ⟨by simp [Cut.cons, List.getLast?_cons, last], fun x => ?_⟩
    obtain ⟨v, again, front⟩ := again x
    have same := u.head?_front_append x
    refine ⟨.cons c v, ?_, congrArg (c :: ·) front⟩
    change readQuotation (c :: (u.front ++ x)) = _
    rw [readQuotation.eq_5 _ _ ends (fun d => unpaired_of_head? same (escape d))
      (unpaired_of_head? same substitution), again]
    rfl

/-! ### Pieces -/

/-- A text starts with a piece of this kind, for which `front` was typed. -/
def Starts (inWord : Bool) (kind : Piece.Kind) (s front : List Char) : Prop :=
  ∃ c r, ∃ t : Cut (c :: r), s = c :: r ∧ Piece.Kind.scan inWord c r = .ok (kind, t) ∧
    t.front = front

theorem starts_of_scan {inWord : Bool} {c : Char} {r : List Char} {kind : Piece.Kind}
    {t : Cut (c :: r)} (scanned : Piece.Kind.scan inWord c r = .ok (kind, t)) :
    Starts inWord kind (t.front ++ t.back) t.front :=
  ⟨c, r, t, t.front_append_back, scanned, rfl⟩

/-- What may stand behind a piece in the place of `y` without running into the piece. -/
def Piece.Kind.Clear (kind : Piece.Kind) (y x : List Char) : Prop :=
  x.head? = y.head? ∨
    ∀ c ∈ x.head?, if kind = .comment then c = '\n' else c ∉ ['&', '(', '|']

theorem unpaired_of_clear {kind : Piece.Kind} {c lead d : Char} {r x : List Char}
    (clear : kind.Clear r x) (plain : kind ≠ .comment) (pair : d ∈ ['&', '(', '|'])
    (alone : ∀ u, c = lead → r = d :: u → False) : ∀ v, c = lead → x = d :: v → False := by
  rcases clear with same | other
  · exact unpaired_of_head? same alone
  · rintro v _ rfl
    have here := other d rfl
    rw [if_neg plain] at here
    exact here pair

theorem not_backslash {c : Char} {r : List Char} (last : c = '\\' → r = [] → False)
    (escape : ∀ d u, c = '\\' → r = d :: u → False) : c ≠ '\\' := by
  intro lead
  cases r with
  | nil => exact last lead rfl
  | cons d u => exact escape d u lead rfl

theorem takeWhile_append_of_head? {p : Char → Bool} {r x : List Char}
    (stops : ∀ c ∈ x.head?, p c = false) : (r.takeWhile p ++ x).takeWhile p = r.takeWhile p := by
  have none_ : x.takeWhile p = [] := by
    cases x with
    | nil => rfl
    | cons c x => exact List.takeWhile_cons_of_neg (by simp [stops c rfl])
  rw [List.takeWhile_append_of_pos fun c => List.mem_takeWhile_imp, none_, List.append_nil]

/-- A piece is the same in front of all that does not run into it. -/
theorem Starts.follow {inWord : Bool} {kind : Piece.Kind} {front y x : List Char}
    (starts : Starts inWord kind (front ++ y) front) (clear : kind.Clear y x) :
    Starts inWord kind (front ++ x) front := by
  obtain ⟨c, r, t, whole, scanned, rfl⟩ := starts
  obtain rfl : t.back = y := List.append_cancel_left (t.front_append_back.trans whole.symm)
  clear whole
  cases c, r using Piece.Kind.scan.fun_cases inWord with
  | case1 r unclosed =>
    rw [Piece.Kind.scan, unclosed] at scanned
    cases scanned
  | case2 r u closed =>
    rw [Piece.Kind.scan, closed] at scanned
    cases scanned
    obtain ⟨v, again, front⟩ := (settled_afterMark '\'' r u closed).2 x
    refine ⟨'\'', u.front ++ x, .cons _ v, rfl, ?_, congrArg ('\'' :: ·) front⟩
    rw [Piece.Kind.scan, again]
    dsimp only
    rw [front]
  | case3 r =>
    rw [Piece.Kind.scan] at scanned
    cases read : readQuotation r with
    | error e =>
      rw [read] at scanned
      cases scanned
    | ok found =>
      obtain ⟨value, u⟩ := found
      rw [read] at scanned
      cases scanned
      obtain ⟨v, again, front⟩ := (EndsQuotation.settled ⟨u, read, rfl⟩).2 x
      refine ⟨'"', u.front ++ x, .cons _ v, rfl, ?_, congrArg ('"' :: ·) front⟩
      rw [Piece.Kind.scan, again]
      rfl
  | case4 => cases scanned
  | case5 d r =>
    cases scanned
    exact ⟨'\\', d :: x, .cons _ (.one d x), rfl, rfl, rfl⟩
  | case6 r unclosed =>
    rw [Piece.Kind.scan, unclosed] at scanned
    cases scanned
  | case7 r u closed =>
    rw [Piece.Kind.scan, closed] at scanned
    cases scanned
    obtain ⟨v, again, front⟩ := (settled_afterBackquote r u closed).2 x
    refine ⟨'`', u.front ++ x, .cons _ v, rfl, ?_, congrArg ('`' :: ·) front⟩
    rw [Piece.Kind.scan, again]
    dsimp only
    rw [front]
  | case8 r =>
    cases scanned
    exact ⟨'|', '|' :: x, .cons _ (.one '|' x), rfl, rfl, rfl⟩
  | case9 r =>
    cases scanned
    exact ⟨'&', '&' :: x, .cons _ (.one '&' x), rfl, rfl, rfl⟩
  | case10 r unclosed =>
    rw [Piece.Kind.scan, unclosed] at scanned
    cases scanned
  | case11 r u closed =>
    rw [Piece.Kind.scan, closed] at scanned
    cases scanned
    obtain ⟨v, again, front⟩ := (settled_afterSubstitution 1 r u closed).2 x
    refine ⟨'$', '(' :: (u.front ++ x), .cons _ (.cons _ v), rfl, ?_,
      congrArg ('$' :: '(' :: ·) front⟩
    rw [Piece.Kind.scan, again]
    dsimp only
    rw [front]
  | case12 c r quote quotation last escape backquote or_ and_ substitution comment =>
    rw [Piece.Kind.scan.eq_9 _ _ _ quote quotation backquote last escape or_ and_ substitution,
      if_pos comment] at scanned
    cases scanned
    obtain ⟨rfl, shut⟩ := comment
    refine ⟨'#', r.takeWhile (· ≠ '\n') ++ x, .oneAndWhile (· ≠ '\n') _ _, rfl, ?_, ?_⟩
    · rw [Piece.Kind.scan.eq_9 _ _ _ (by simp) (by simp) (by simp) (by simp) (by simp) (by simp)
        (by simp) (by simp), if_pos ⟨rfl, shut⟩]
    · refine congrArg ('#' :: ·) (takeWhile_append_of_head? fun c here => ?_)
      have newline : c = '\n' := by
        rcases clear with same | other
        · have stopped : (r.dropWhile (· ≠ '\n')).head? = some c := same.symm.trans here
          have stops := List.head?_dropWhile_not (· ≠ '\n') r
          rw [stopped] at stops
          simpa using stops
        · simpa using other c here
      simp [newline]
  | case13 c r quote quotation last escape backquote or_ and_ substitution comment =>
    have bare : c ≠ '\\' := not_backslash last escape
    rw [Piece.Kind.scan.eq_9 _ _ _ quote quotation backquote last escape or_ and_ substitution,
      if_neg comment] at scanned
    cases scanned
    have plain : (if c = '&' then .operator else if c = '|' then .pipe else
        if c = ';' ∨ c = '\n' then .finish else if Text.isBlank c then .blank else
        .word [c] : Piece.Kind) ≠ .comment := by
      repeat' split
      all_goals simp
    refine ⟨c, x, .one c x, rfl, ?_, rfl⟩
    rw [Piece.Kind.scan.eq_9 _ _ _ quote quotation backquote (fun lead _ => bare lead)
      (fun _ _ lead _ => bare lead) (unpaired_of_clear clear plain (by decide) or_)
      (unpaired_of_clear clear plain (by decide) and_)
      (unpaired_of_clear clear plain (by decide) substitution), if_neg comment]

/-- A piece stays as it is when a newline is added, which no piece runs into by itself. -/
theorem scan_append_newline {inWord : Bool} {c : Char} {r : List Char} {kind : Piece.Kind}
    {t : Cut (c :: r)} (x : List Char) (scanned : Piece.Kind.scan inWord c r = .ok (kind, t)) :
    Piece.Kind.scan inWord c (r ++ '\n' :: x) = .ok (kind, t.extend ('\n' :: x)) := by
  have clear : kind.Clear t.back (t.back ++ '\n' :: x) := by
    cases t.back with
    | nil =>
      refine .inr fun d here => ?_
      obtain rfl := Option.some.inj here
      split
      · rfl
      · decide
    | cons d back => exact .inl rfl
  obtain ⟨d, u, v, whole, again, front⟩ := (starts_of_scan scanned).follow clear
  rw [← List.append_assoc, t.front_append_back, List.cons_append, List.cons.injEq] at whole
  obtain ⟨rfl, rfl⟩ := whole
  rw [again, Cut.ext_front (u := t.extend ('\n' :: x)) front]

end Line

end Flotilla
