import Flotilla.Proofs.Line.Positions

/-!
# Substitutions by counting

A scanner may skip the substitutions inside a substitution as wholes, or just count their
parentheses.  `countedSubstitution` counts, and it finds the ends that `afterSubstitution` finds:
the end of `a + b` open parentheses is the end of `a` of them and then of the other `b`.
-/

namespace Flotilla.Line

mutual

/-- The cut after the parenthesis that closes the last of `depth` open ones.  Quotations and
backquotes are skipped as wholes, and an inner substitution opens one more parenthesis. -/
def countedSubstitution (depth : Nat) (s : List Char) : Option (Cut s) :=
  match s with
  | [] => none
  | '\\' :: c :: r => do
    let t ← countedSubstitution depth r
    return .cons '\\' (.cons c t)
  | '\'' :: r => do
    let t ← afterMark '\'' r
    let u ← countedSubstitution depth t.back
    return .cons '\'' (t.trans u)
  | '`' :: r => do
    let t ← afterBackquote r
    let u ← countedSubstitution depth t.back
    return .cons '`' (t.trans u)
  | '"' :: r => do
    let t ← countedQuotation r
    let u ← countedSubstitution depth t.back
    return .cons '"' (t.trans u)
  | '(' :: r => do
    let t ← countedSubstitution (depth + 1) r
    return .cons '(' t
  | ')' :: r =>
    if depth ≤ 1 then some (.one _ r)
    else do
      let t ← countedSubstitution (depth - 1) r
      return .cons ')' t
  | c :: r => do
    let t ← countedSubstitution depth r
    return .cons c t
termination_by s.length
decreasing_by
  all_goals simp only [List.length_cons]
  all_goals try have shorter := t.length_back_lt
  all_goals omega

/-- The cut after the quotation mark that closes a double quotation, whose substitutions are
counted. -/
def countedQuotation (s : List Char) : Option (Cut s) :=
  match s with
  | [] => none
  | '"' :: r => some (.one _ r)
  | '\\' :: c :: r => do
    let t ← countedQuotation r
    return .cons '\\' (.cons c t)
  | '`' :: r => do
    let t ← afterBackquote r
    let u ← countedQuotation t.back
    return .cons '`' (t.trans u)
  | '$' :: '(' :: r => do
    let t ← countedSubstitution 1 r
    let u ← countedQuotation t.back
    return .cons '$' (.cons '(' (t.trans u))
  | c :: r => do
    let t ← countedQuotation r
    return .cons c t
termination_by s.length
decreasing_by
  all_goals simp only [List.length_cons]
  all_goals try have shorter := t.length_back_lt
  all_goals omega

end

/-- The end that `whole` finds in `s` is the one that `second` finds behind that of `first`. -/
def Composes (first second whole : Scanner) (s : List Char) : Prop :=
  whole s = do
    let t ← first s
    let u ← second t.back
    return t.trans u

namespace Composes

variable {first second whole inner : Scanner} {r : List Char}

/-- Both scanners skip `lead` and go on as others that compose. -/
theorem once {first' whole' : Scanner} (lead : List Char)
    (step : first (lead ++ r) = do
      let t ← first' r
      return t.behind lead)
    (step' : whole (lead ++ r) = do
      let t ← whole' r
      return t.behind lead)
    (later : Composes first' second whole' r) : Composes first second whole (lead ++ r) := by
  rw [Composes, step, step', later]
  cases first' r with
  | none => rfl
  | some t =>
    change (second t.back >>= _) >>= _ = second t.back >>= _
    cases second t.back with
    | none => rfl
    | some u => exact congrArg some (Cut.ext_front (List.append_assoc ..).symm)

/-- Both scanners skip `lead` and what `inner` finds, and then go on as before. -/
theorem twice (lead : List Char)
    (step : first (lead ++ r) = do
      let t ← inner r
      let u ← first t.back
      return (t.trans u).behind lead)
    (step' : whole (lead ++ r) = do
      let t ← inner r
      let u ← whole t.back
      return (t.trans u).behind lead)
    (later : ∀ t : Cut r, Composes first second whole t.back) :
    Composes first second whole (lead ++ r) := by
  rw [Composes, step, step']
  cases inner r with
  | none => rfl
  | some t =>
    change whole t.back >>= _ = (first t.back >>= _) >>= _
    rw [later t]
    cases first t.back with
    | none => rfl
    | some u =>
      change (second u.back >>= _) >>= _ = second u.back >>= _
      cases second u.back with
      | none => rfl
      | some v =>
        refine congrArg some (Cut.ext_front ?_)
        simp [Cut.behind, Cut.trans]

end Composes

/-- Parentheses that are open are closed one after the other. -/
theorem composes_countedSubstitution {a b : Nat} (s : List Char) (open_ : 0 < a) (more : 0 < b) :
    Composes (countedSubstitution a) (countedSubstitution b) (countedSubstitution (a + b)) s := by
  -- Quotations are skipped by either side as the same wholes, so nothing is asked of them.
  refine countedSubstitution.induct (fun a s => 0 < a → Composes (countedSubstitution a)
    (countedSubstitution b) (countedSubstitution (a + b)) s) (fun _ => True) ?none ?escape ?quote
    ?backquote ?quotation ?opens ?closes ?inner ?other trivial (fun _ => trivial)
    (fun _ _ _ => trivial) (fun _ _ => trivial) (fun _ _ _ => trivial)
    (fun _ _ _ _ _ _ _ => trivial) a s open_
  case none =>
    intro a _
    simp [Composes, countedSubstitution.eq_1]
  case escape =>
    intro a c r ih open_
    exact .once ['\\', c] (countedSubstitution.eq_2 a c r) (countedSubstitution.eq_2 _ c r)
      (ih open_)
  case quote =>
    intro a r ih open_
    exact .twice ['\''] (countedSubstitution.eq_3 a r) (countedSubstitution.eq_3 _ r)
      fun t => ih t open_
  case backquote =>
    intro a r ih open_
    exact .twice ['`'] (countedSubstitution.eq_4 a r) (countedSubstitution.eq_4 _ r)
      fun t => ih t open_
  case quotation =>
    intro a r _ ih open_
    exact .twice ['"'] (countedSubstitution.eq_5 a r) (countedSubstitution.eq_5 _ r)
      fun t => ih t open_
  case opens =>
    intro a r ih _
    have later := ih (Nat.succ_pos a)
    rw [Nat.add_right_comm] at later
    exact .once ['('] (countedSubstitution.eq_6 a r) (countedSubstitution.eq_6 _ r) later
  case closes =>
    intro a r last open_
    obtain rfl : a = 1 := by omega
    have deeper : ¬ 1 + b ≤ 1 := by omega
    rw [Composes, countedSubstitution.eq_7, countedSubstitution.eq_7, if_pos last, if_neg deeper,
      Nat.add_sub_cancel_left]
    rfl
  case inner =>
    intro a r deeper ih open_
    have later := ih (by omega)
    rw [← Nat.sub_add_comm open_] at later
    refine .once [')'] ?_ ?_ later
    · exact (countedSubstitution.eq_7 a r).trans (if_neg deeper)
    · exact (countedSubstitution.eq_7 _ r).trans (if_neg (by omega))
  case other =>
    intro a c r escape quote backquote quotation opens closes ih open_
    exact .once [c]
      (countedSubstitution.eq_8 a c r escape quote backquote quotation opens closes)
      (countedSubstitution.eq_8 _ c r escape quote backquote quotation opens closes) (ih open_)

/-- An inner substitution is skipped as a whole by counting. -/
theorem countedSubstitution_inner {depth : Nat} (r : List Char) (open_ : 0 < depth) :
    countedSubstitution depth ('$' :: '(' :: r) = do
      let t ← countedSubstitution 1 r
      let u ← countedSubstitution depth t.back
      return .cons '$' (.cons '(' (t.trans u)) := by
  have inside := composes_countedSubstitution r Nat.one_pos open_
  rw [countedSubstitution.eq_8 depth '$' ('(' :: r) (by simp) (by simp) (by simp) (by simp)
    (by simp) (by simp), countedSubstitution.eq_6, Nat.add_comm, inside]
  simp [Option.bind_assoc]

theorem counted_mutual :
    (∀ depth s, 0 < depth → countedSubstitution depth s = afterSubstitution depth s) ∧
      ∀ s, countedQuotation s = afterQuotation s := by
  refine afterSubstitution.mutual_induct
    (fun depth s => 0 < depth → countedSubstitution depth s = afterSubstitution depth s)
    (fun s => countedQuotation s = afterQuotation s) ?none ?escape ?quote ?backquote ?quotation
    ?substitution ?opens ?closes ?inner ?other ?none' ?ends ?escape' ?backquote' ?substitution'
    ?other'
  case none =>
    intro depth _
    rw [countedSubstitution.eq_1, afterSubstitution.eq_1]
  case escape =>
    intro depth c r ih open_
    rw [countedSubstitution.eq_2, afterSubstitution.eq_2, ih open_]
  case quote =>
    intro depth r ih open_
    simp only [countedSubstitution.eq_3, afterSubstitution.eq_3, ih _ open_]
  case backquote =>
    intro depth r ih open_
    simp only [countedSubstitution.eq_4, afterSubstitution.eq_4, ih _ open_]
  case quotation =>
    intro depth r inner ih open_
    simp only [countedSubstitution.eq_5, afterSubstitution.eq_5, inner, ih _ open_]
  case substitution =>
    intro depth r inner ih open_
    simp only [countedSubstitution_inner r open_, afterSubstitution.eq_6, inner Nat.one_pos,
      ih _ open_]
  case opens =>
    intro depth r ih _
    rw [countedSubstitution.eq_6, afterSubstitution.eq_7, ih (Nat.succ_pos depth)]
  case closes =>
    intro depth r last _
    rw [countedSubstitution.eq_7, afterSubstitution.eq_8, if_pos last, if_pos last]
  case inner =>
    intro depth r deeper ih _
    rw [countedSubstitution.eq_7, afterSubstitution.eq_8, if_neg deeper, if_neg deeper,
      ih (by omega)]
  case other =>
    intro depth c r escape quote backquote quotation substitution opens closes ih open_
    rw [countedSubstitution.eq_8 depth c r escape quote backquote quotation opens closes,
      afterSubstitution.eq_9 depth c r escape quote backquote quotation substitution opens closes,
      ih open_]
  case none' => rw [countedQuotation.eq_1, afterQuotation.eq_1]
  case ends =>
    intro r
    rw [countedQuotation.eq_2, afterQuotation.eq_2]
  case escape' =>
    intro c r ih
    rw [countedQuotation.eq_3, afterQuotation.eq_3, ih]
  case backquote' =>
    intro r ih
    simp only [countedQuotation.eq_4, afterQuotation.eq_4, ih]
  case substitution' =>
    intro r inner ih
    simp only [countedQuotation.eq_5, afterQuotation.eq_5, inner Nat.one_pos, ih]
  case other' =>
    intro c r ends escape backquote substitution ih
    rw [countedQuotation.eq_6 c r ends escape backquote substitution,
      afterQuotation.eq_6 c r ends escape backquote substitution, ih]

/-- Wherever a search starts, counting ends at the position where skipping ends, and fails where
skipping fails: for substitutions, and for the double quotations in them. -/
theorem endIndex_counted :
    (∀ chars start,
      endIndex ParseError.unterminatedSubstitution (countedSubstitution 1) chars start =
        endIndex .unterminatedSubstitution (afterSubstitution 1) chars start) ∧
    ∀ chars start,
      endIndex ParseError.unterminatedSubstitution countedQuotation chars start =
        endIndex .unterminatedSubstitution afterQuotation chars start := by
  obtain ⟨substitution, quotation⟩ := counted_mutual
  constructor
  · intro chars start
    rw [funext fun s => substitution 1 s Nat.one_pos]
  · intro chars start
    rw [funext quotation]

end Flotilla.Line
