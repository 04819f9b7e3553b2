import Flotilla.Proofs.Line.Scanners

/-!
# Where a double quotation ends

A double quotation is read in two ways: `readQuotation` reads one that is part of a word of the
line, and `afterQuotation` skips one inside a substitution.  Both skip an inner substitution, but only
the second skips a backquoted part; to the first a backquote is a character like others, and a
quotation mark behind it ends the quotation.  `Whole` is what either takes for a content.
-/

namespace Flotilla.Line

/-- The content of a double quotation, in which all that is opened is closed.  Backquotes open a part
of it only where they are skipped in pairs. -/
inductive Whole (pairs : Bool) : List Char → Prop
  | nil : Whole pairs []
  | escape (c : Char) {r : List Char} (rest : Whole pairs r) : Whole pairs ('\\' :: c :: r)
  | backquoted {front r : List Char} (paired : pairs = true)
      (closed : Ends afterBackquote front front) (rest : Whole pairs r) :
      Whole pairs ('`' :: (front ++ r))
  | substitution {front r : List Char} (closed : Ends (afterSubstitution 1) front front)
      (rest : Whole pairs r) : Whole pairs ('$' :: '(' :: (front ++ r))
  | plain {c : Char} {r : List Char} (unmarked : c ≠ '"' ∧ c ≠ '\\')
      (backquote : c = '`' → pairs = false) (dollar : c = '$' → r.head? ≠ some '(')
      (rest : Whole pairs r) : Whole pairs (c :: r)

theorem Whole.of_unmarked {pairs : Bool} {s : List Char}
    (unmarked : s.all (· ∉ ['"', '\\', '`', '$'])) : Whole pairs s := by
  induction s with
  | nil => exact .nil
  | cons c r ih =>
    rw [List.all_cons, Bool.and_eq_true, decide_eq_true_iff] at unmarked
    obtain ⟨here, later⟩ := unmarked
    simp only [List.mem_cons, not_or] at here
    exact .plain ⟨here.1, here.2.1⟩ (absurd · here.2.2.1) (absurd · here.2.2.2.1) (ih later)

/-- `s` goes on with such a content and the mark behind it, which together are `front`. -/
def Quoted (pairs : Bool) (s front : List Char) : Prop :=
  ∃ content rest, s = content ++ '"' :: rest ∧ front = content ++ ['"'] ∧ Whole pairs content

theorem Quoted.content {pairs : Bool} {s front : List Char} (quoted : Quoted pairs s front) :
    Whole pairs front.dropLast := by
  obtain ⟨content, rest, -, rfl, whole⟩ := quoted
  rwa [List.dropLast_concat]

/-- What stands before the mark is all that counts. -/
theorem Quoted.of_content {pairs pairs' : Bool} {s front : List Char} (quoted : Quoted pairs s front)
    (whole : Whole pairs' front.dropLast) : Quoted pairs' s front := by
  obtain ⟨content, rest, here, rfl, -⟩ := quoted
  rw [List.dropLast_concat] at whole
  exact ⟨content, rest, here, rfl, whole⟩

/-- A content is put in front of one that a quotation ends with. -/
theorem Quoted.behind {pairs : Bool} {s front : List Char} (lead : List Char)
    (more : ∀ content, Whole pairs content → s.head? = (content ++ ['"']).head? →
      Whole pairs (lead ++ content))
    (quoted : Quoted pairs s front) : Quoted pairs (lead ++ s) (lead ++ front) := by
  obtain ⟨content, rest, rfl, rfl, whole⟩ := quoted
  refine ⟨lead ++ content, rest, by simp, by simp, more content whole ?_⟩
  cases content <;> rfl

variable {mark : Char} {scan : Scanner}

/-- What a scanner skips, it skips as well where the text ends there. -/
theorem Ends.of_some (settled : ∀ s, Settled mark scan s) {r : List Char} {t : Cut r}
    (found : scan r = some t) : Ends scan t.front t.front := by
  obtain ⟨-, again⟩ := settled r t found
  simpa using again []

theorem Ends.cut (settled : ∀ s, Settled mark scan s) {front : List Char}
    (closed : Ends scan front front) (rest : List Char) :
    ∃ t : Cut (front ++ rest), scan (front ++ rest) = some t ∧ t.front = front ∧ t.back = rest := by
  obtain ⟨t, found, same⟩ := closed
  obtain ⟨-, again⟩ := settled front t found
  rw [same] at again
  obtain ⟨u, found, same⟩ := again rest
  exact ⟨u, found, same, Cut.back_of_front same⟩

/-- What a way to find the end of a double quotation does with each part of the content.
`ends s front` says that it finds the end of `s` behind `front`. -/
structure Skims (pairs : Bool) (ends : List Char → List Char → Prop) : Prop where
  empty {front} : ¬ ends [] front
  mark {r front} : ends ('"' :: r) front ↔ ['"'] = front
  escape {c r front} : ends ('\\' :: c :: r) front ↔ ∃ f, ends r f ∧ '\\' :: c :: f = front
  backquoted {r front} : pairs = true →
    (ends ('`' :: r) front ↔ ∃ t : Cut r, afterBackquote r = some t ∧
      ∃ f, ends t.back f ∧ '`' :: (t.front ++ f) = front)
  substitution {r front} : ends ('$' :: '(' :: r) front ↔
    ∃ t : Cut r, afterSubstitution 1 r = some t ∧
      ∃ f, ends t.back f ∧ '$' :: '(' :: (t.front ++ f) = front
  plain {c r front} : c ≠ '"' → (∀ d u, c = '\\' → r = d :: u → False) →
    (c = '`' → pairs = false) → (∀ u, c = '$' → r = '(' :: u → False) →
    (ends (c :: r) front ↔ ∃ f, ends r f ∧ c :: f = front)

namespace Skims

variable {pairs : Bool} {ends : List Char → List Char → Prop} {s front : List Char}

/-- The end is the next mark, or it is sought behind something that may stand in a content. -/
theorem step (skims : Skims pairs ends) (found : ends s front) :
    (∃ rest, s = '"' :: rest ∧ front = ['"']) ∨
      ∃ lead rest f, s = lead ++ rest ∧ front = lead ++ f ∧ lead ≠ [] ∧ ends rest f ∧
        ∀ content, Whole pairs content → rest.head? = (content ++ ['"']).head? →
          Whole pairs (lead ++ content) := by
  cases s with
  | nil => exact absurd found skims.empty
  | cons c r =>
    by_cases mark : c = '"'
    · subst mark
      exact .inl ⟨r, rfl, (skims.mark.mp found).symm⟩
    right
    by_cases escape : ∃ d u, c = '\\' ∧ r = d :: u
    · obtain ⟨d, u, rfl, rfl⟩ := escape
      obtain ⟨f, further, rfl⟩ := skims.escape.mp found
      exact ⟨['\\', d], u, f, rfl, rfl, List.cons_ne_nil _ _, further,
        fun _ whole _ => .escape d whole⟩
    by_cases backquoted : c = '`' ∧ pairs = true
    · obtain ⟨rfl, paired⟩ := backquoted
      obtain ⟨t, closed, f, further, rfl⟩ := (skims.backquoted paired).mp found
      refine ⟨'`' :: t.front, t.back, f, ?_, rfl, List.cons_ne_nil _ _, further, fun _ whole _ => ?_⟩
      · rw [List.cons_append, t.front_append_back]
      · exact .backquoted paired (Ends.of_some settled_afterBackquote closed) whole
    by_cases substitution : ∃ u, c = '$' ∧ r = '(' :: u
    · obtain ⟨u, rfl, rfl⟩ := substitution
      obtain ⟨t, closed, f, further, rfl⟩ := skims.substitution.mp found
      refine ⟨'$' :: '(' :: t.front, t.back, f, ?_, rfl, List.cons_ne_nil _ _, further,
        fun _ whole _ => ?_⟩
      · rw [List.cons_append, List.cons_append, t.front_append_back]
      · exact .substitution (Ends.of_some (settled_afterSubstitution 1) closed) whole
    · have alone : c = '`' → pairs = false := by
        intro lead
        simpa [lead] using backquoted
      obtain ⟨f, further, rfl⟩ := (skims.plain mark (by grind) alone (by grind)).mp found
      -- A backslash at the very end of the text hides nothing, and no mark follows it.
      have last : c ≠ '\\' := by
        rintro rfl
        cases r with
        | nil => exact skims.empty further
        | cons d u => exact escape ⟨d, u, rfl, rfl⟩
      refine ⟨[c], r, f, rfl, rfl, List.cons_ne_nil _ _, further, fun content whole same => ?_⟩
      refine .plain ⟨mark, last⟩ alone (fun lead opened => ?_) whole
      have first : content.head? = some '(' := opened
      rw [List.head?_append, first] at same
      obtain ⟨u, rfl⟩ := List.head?_eq_some_iff.mp same
      exact substitution ⟨u, lead, rfl⟩

theorem quoted (skims : Skims pairs ends) (found : ends s front) : Quoted pairs s front := by
  induction n : s.length using Nat.strong_induction_on generalizing s front with
  | h n ih =>
    subst n
    rcases skims.step found with ⟨rest, rfl, rfl⟩ | ⟨lead, rest, f, rfl, rfl, some_, further, more⟩
    · exact ⟨[], rest, rfl, rfl, .nil⟩
    · have shorter : rest.length < (lead ++ rest).length := by
        have := List.length_pos_iff.mpr some_
        rw [List.length_append]
        omega
      exact (ih rest.length shorter further rfl).behind lead more

theorem of_whole (skims : Skims pairs ends) {content : List Char} (whole : Whole pairs content)
    (rest : List Char) : ends (content ++ '"' :: rest) (content ++ ['"']) := by
  induction whole with
  | nil => exact skims.mark.mpr rfl
  | escape c _ ih => exact skims.escape.mpr ⟨_, ih, rfl⟩
  | @backquoted front r paired closed _ ih =>
    obtain ⟨t, found, same, back⟩ :=
      closed.cut settled_afterBackquote (r ++ '"' :: rest)
    rw [List.cons_append, List.append_assoc]
    refine (skims.backquoted paired).mpr ⟨t, found, r ++ ['"'], ?_, by simp [same]⟩
    rwa [back]
  | @substitution front r closed _ ih =>
    obtain ⟨t, found, same, back⟩ :=
      closed.cut (settled_afterSubstitution 1) (r ++ '"' :: rest)
    rw [List.cons_append, List.cons_append, List.append_assoc]
    refine skims.substitution.mpr ⟨t, found, r ++ ['"'], ?_, by simp [same]⟩
    rwa [back]
  | @plain c r unmarked backquote dollar _ ih =>
    refine (skims.plain unmarked.1 (fun _ _ lead _ => unmarked.2 lead) backquote ?_).mpr ⟨_, ih, rfl⟩
    intro u lead opened
    apply dollar lead
    cases r with
    | nil => cases opened
    | cons d r => rw [← (List.cons.inj opened).1]; rfl

/-- The end is behind the one content that is whole and has a quotation mark behind it. -/
theorem iff_quoted (skims : Skims pairs ends) : ends s front ↔ Quoted pairs s front := by
  refine ⟨skims.quoted, ?_⟩
  rintro ⟨content, rest, rfl, rfl, whole⟩
  exact skims.of_whole whole rest

end Skims

theorem skims_afterQuotation : Skims true (Ends afterQuotation) where
  empty := by simp [Ends, afterQuotation]
  mark := by simp [Ends, afterQuotation, Cut.one]
  escape := by
    intro c r front
    rw [Ends, afterQuotation]
    simp [Ends, Option.bind_eq_some_iff, Cut.cons]
  backquoted := by
    intro r front _
    rw [Ends, afterQuotation]
    cases afterBackquote r with
    | none => simp
    | some t => simp [Ends, Option.bind_eq_some_iff, Cut.cons, Cut.trans]
  substitution := by
    intro r front
    rw [Ends, afterQuotation]
    cases afterSubstitution 1 r with
    | none => simp
    | some t => simp [Ends, Option.bind_eq_some_iff, Cut.cons, Cut.trans]
  plain := by
    intro c r front mark escape backquote substitution
    rw [Ends, afterQuotation.eq_6 c r mark escape (by simpa using backquote) substitution]
    simp [Ends, Option.bind_eq_some_iff, Cut.cons]

theorem skims_readQuotation : Skims false fun s front => ∃ value, EndsQuotation s value front where
  empty := by simp [EndsQuotation, readQuotation]
  mark := by simp [EndsQuotation, readQuotation, Cut.one]
  escape := by
    intro c r front
    simp only [EndsQuotation, readQuotation]
    rcases readQuotation r with _ | ⟨value, t⟩ <;> simp [Cut.cons]
  backquoted := by simp
  substitution := by
    intro r front
    simp only [EndsQuotation, readQuotation]
    cases afterSubstitution 1 r with
    | none => simp
    | some t => simp [bind_eq_ok, Cut.cons, Cut.trans]
  plain := by
    intro c r front mark escape _ substitution
    simp only [EndsQuotation, readQuotation.eq_5 c r mark escape substitution]
    rcases readQuotation r with _ | ⟨value, t⟩ <;> simp [Cut.cons]

/-- A double quotation of the line is one part of a word, whatever operators stand in its content. -/
theorem Quoted.starts {s front : List Char} (inWord : Bool) (quoted : Quoted false s front) :
    ∃ value, Starts inWord (.word value) ('"' :: s) ('"' :: front) := by
  obtain ⟨value, t, read, rfl⟩ := skims_readQuotation.iff_quoted.mpr quoted
  refine ⟨value, '"', s, .cons '"' t, rfl, ?_, rfl⟩
  rw [Piece.Kind.scan, read]
  rfl

/-- Each reader of double quotations ends one behind a content in which all that it opens is closed,
and there only.  They find the same end exactly if what one takes for the content is a content to the
other. -/
theorem quotations_agree_iff (s : List Char) :
    (∀ front, (∃ value, EndsQuotation s value front) ↔ Quoted false s front) ∧
    (∀ front, Ends afterQuotation s front ↔ Quoted true s front) ∧
    (∀ inWord front, Quoted false s front →
      ∃ value, Starts inWord (.word value) ('"' :: s) ('"' :: front)) ∧
    ∀ value t u, readQuotation s = .ok (value, t) → afterQuotation s = some u →
      (t = u ↔ Whole true t.front.dropLast) ∧ (t = u ↔ Whole false u.front.dropLast) := by
  refine ⟨fun _ => skims_readQuotation.iff_quoted, fun _ => skims_afterQuotation.iff_quoted,
    fun inWord _ => Quoted.starts inWord, ?_⟩
  intro value t u read found
  have early : Quoted false s t.front := skims_readQuotation.iff_quoted.mp ⟨value, t, read, rfl⟩
  have late : Quoted true s u.front := skims_afterQuotation.iff_quoted.mp ⟨u, found, rfl⟩
  constructor
  · constructor
    · rintro rfl
      exact late.content
    · intro whole
      obtain ⟨u', found', same⟩ := skims_afterQuotation.iff_quoted.mpr (early.of_content whole)
      rw [found] at found'
      obtain rfl := Option.some.inj found'
      exact Cut.ext_front same.symm
  · constructor
    · rintro rfl
      exact early.content
    · intro whole
      obtain ⟨_, t', read', same⟩ := skims_readQuotation.iff_quoted.mpr (late.of_content whole)
      rw [read] at read'
      cases read'
      exact Cut.ext_front same

/-- A pair of backquotes with quotation marks between them ends the quotation in two places. -/
theorem not_quotations_agree :
    ¬ ∀ (s value : List Char) (t u : Cut s), readQuotation s = .ok (value, t) →
      afterQuotation s = some u → t = u := by
  intro agree
  let s := "`printf \"a|b\"`\"".toList
  have early : Quoted false s "`printf \"".toList :=
    ⟨"`printf ".toList, "a|b\"`\"".toList, rfl, rfl,
      .plain (by decide) (fun _ => rfl) (by decide) (.of_unmarked (by decide))⟩
  have closed : Ends afterBackquote "printf \"a|b\"`".toList "printf \"a|b\"`".toList := ⟨_, rfl, rfl⟩
  have late : Quoted true s s :=
    ⟨"`printf \"a|b\"`".toList, [], rfl, rfl, .backquoted rfl closed .nil⟩
  obtain ⟨value, t, read, front⟩ := skims_readQuotation.iff_quoted.mpr early
  obtain ⟨u, found, back⟩ := skims_afterQuotation.iff_quoted.mpr late
  rw [agree s value t u read found, back] at front
  exact absurd front (by decide)

end Flotilla.Line
