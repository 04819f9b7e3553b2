import Flotilla.Proofs.Text.Span
import Flotilla.Proofs.Text.Utf8
import Flotilla.Tunnel.Http

/-!
# Answers of HTTP proxies

The head of an answer is a status line and further lines up to a blank one.  `readAnswer_settled`
says for every stream, in whatever chunks it comes, whether it grants a tunnel, that just the head
is taken off it then, and what it is refused for otherwise.
-/

namespace Flotilla.Http

/-- A line with its end. -/
def IsLine (l : Bytes) : Prop := ∃ front, 10 ∉ front ∧ l = front ++ [10]

def IsText (l : Bytes) : Prop := ∃ s : String, l = utf8 s

/-- A status line that grants a tunnel. -/
def Grants (l : Bytes) : Prop :=
  ∃ s : String, l = utf8 s ∧ "HTTP/1.".toList <+: Text.trimEnd s.toList ∧
    (Text.words (Text.trimEnd s.toList))[1]? = some "200".toList

/-- The first line of what starts with it, which lacks its end where nothing follows. -/
def IsFirst (l later : Bytes) : Prop := IsLine l ∨ l ≠ [] ∧ 10 ∉ l ∧ later = []

/-- A stream starts with these lines, of which none but the first may be blank. -/
structure Opens (stream : Bytes) (lines : List Bytes) (later : Bytes) : Prop where
  whole : stream = lines.flatten ++ later
  ended : ∀ l ∈ lines, IsLine l
  inner : ∀ l ∈ lines.tail, isBlankLine l = false

/-- A stream starts with the head of an answer that grants a tunnel, and goes on with `body`. -/
def IsGranted (stream body : Bytes) : Prop :=
  ∃ status fields blank, Opens stream (status :: fields) (blank ++ body) ∧
    (∀ l ∈ status :: fields, IsText l) ∧ Grants status ∧ isBlankLine blank

/-- A stream that would grant a tunnel ends before the blank line. -/
def BreaksOff (stream : Bytes) : Prop :=
  ∃ lines last, Opens stream lines last ∧ 10 ∉ last ∧ (∀ l ∈ lines ++ [last], IsText l) ∧
    ∀ l ∈ (lines ++ [last]).head?, Grants l

/-- A line that is not UTF-8 comes before the blank line of a stream that would grant a tunnel. -/
def IsGarbled (stream : Bytes) : Prop :=
  ∃ lines l later, Opens stream lines (l ++ later) ∧ IsFirst l later ∧ ¬ IsText l ∧
    (∀ m ∈ lines, IsText m) ∧ ∀ m ∈ lines.head?, Grants m

/-! ### Lines of a stream -/

theorem IsLine.ne_nil {l : Bytes} (line : IsLine l) : l ≠ [] := by
  obtain ⟨front, -, rfl⟩ := line
  simp

theorem IsLine.mem {l : Bytes} (line : IsLine l) : 10 ∈ l := by
  obtain ⟨front, -, rfl⟩ := line
  simp

theorem IsFirst.ne_nil {l later : Bytes} (first : IsFirst l later) : l ≠ [] :=
  first.elim IsLine.ne_nil (·.1)

theorem isLine_of_isBlankLine {l : Bytes} (blank : isBlankLine l) : IsLine l := by
  simp only [isBlankLine, Bool.or_eq_true, decide_eq_true_eq] at blank
  rcases blank with rfl | rfl
  · exact ⟨[13], by decide, rfl⟩
  · exact ⟨[], by decide, rfl⟩

theorem isText_of_isBlankLine {l : Bytes} (blank : isBlankLine l) : IsText l := by
  simp only [isBlankLine, Bool.or_eq_true, decide_eq_true_eq] at blank
  rcases blank with rfl | rfl
  · exact ⟨"\r\n", by decide⟩
  · exact ⟨"\n", by decide⟩

theorem append_inj_of_isLine {l m a b : Bytes} (line : IsLine l) (line' : IsLine m)
    (same : l ++ a = m ++ b) : l = m ∧ a = b := by
  obtain ⟨front, absent, rfl⟩ := line
  obtain ⟨front', absent', rfl⟩ := line'
  rw [List.append_assoc, List.append_assoc] at same
  have inside {front : Bytes} (absent : 10 ∉ front) : ∀ x ∈ front, decide (x ≠ 10) := by
    intro x member
    refine decide_eq_true ?_
    rintro rfl
    exact absent member
  have stops (rest : Bytes) : ∀ x ∈ ([10] ++ rest).head?, decide (x ≠ 10) = false := by simp
  obtain ⟨rfl, rest⟩ := Text.append_inj_of_span same (inside absent) (stops a) (inside absent') (stops b)
  exact ⟨rfl, List.append_cancel_left rest⟩

theorem cutLine?_cases (s : Bytes) :
    (∃ line rest, cutLine? s = some (line, rest) ∧ IsLine line) ∨ cutLine? s = none ∧ 10 ∉ s := by
  induction s with
  | nil => exact .inr ⟨rfl, by simp⟩
  | cons b r ih =>
    rw [cutLine?]
    by_cases feed : b = 10
    · rw [if_pos feed, feed]
      exact .inl ⟨[10], r, rfl, [], by simp, rfl⟩
    · rw [if_neg feed]
      rcases ih with ⟨line, rest, cut, front, absent, rfl⟩ | ⟨cut, absent⟩
      · rw [cut]
        exact .inl ⟨_, rest, rfl, b :: front, by simp [absent, Ne.symm feed], rfl⟩
      · rw [cut]
        exact .inr ⟨rfl, by simp [absent, Ne.symm feed]⟩

theorem takeLine_cases (stream : List Bytes) : IsLine (takeLine stream).1 ∨
    (10 ∉ (takeLine stream).1 ∧ (takeLine stream).2 = []) := by
  induction stream with
  | nil => exact .inr ⟨by simp [takeLine], rfl⟩
  | cons chunk later ih =>
    rw [takeLine]
    rcases cutLine?_cases chunk with ⟨line, rest, cut, isLine⟩ | ⟨cut, absent⟩
    · rw [cut]
      exact .inl isLine
    · rw [cut]
      rcases ih with ⟨front, absent', whole⟩ | ⟨absent', rest⟩
      · refine .inl ⟨chunk ++ front, by simp [absent, absent'], ?_⟩
        dsimp only
        rw [whole, List.append_assoc]
      · exact .inr ⟨by simp [absent, absent'], rest⟩

theorem isFirst_takeLine {stream : List Bytes} (some_ : (takeLine stream).1 ≠ []) :
    IsFirst (takeLine stream).1 (takeLine stream).2.flatten := by
  rcases takeLine_cases stream with line | ⟨absent, rest⟩
  · exact .inl line
  · exact .inr ⟨some_, absent, by rw [rest]; rfl⟩

theorem takeLine_eq_nil_iff {stream : List Bytes} :
    (takeLine stream).1 = [] ↔ stream.flatten = [] := by
  have whole := takeLine_append stream
  constructor
  · intro none_
    rcases takeLine_cases stream with line | ⟨-, rest⟩
    · exact absurd none_ line.ne_nil
    · rw [none_, rest] at whole
      exact whole.symm
  · intro none_
    rw [none_] at whole
    exact (List.append_eq_nil_iff.mp whole).1

theorem isFirst_of_takeLine {stream rest : List Bytes} {line : Bytes}
    (taken : takeLine stream = (line, rest)) (some_ : line ≠ []) :
    stream.flatten = line ++ rest.flatten ∧ IsFirst line rest.flatten := by
  have whole := takeLine_append stream
  have first := @isFirst_takeLine stream
  rw [taken] at whole first
  exact ⟨whole.symm, first some_⟩

/-- A line is taken whole, in whatever chunks it comes. -/
theorem takeLine_of_isFirst {stream : List Bytes} {l later : Bytes} (first : IsFirst l later)
    (whole : stream.flatten = l ++ later) :
    (takeLine stream).1 = l ∧ (takeLine stream).2.flatten = later := by
  have taken := (takeLine_append stream).trans whole
  rcases takeLine_cases stream with line | ⟨absent, rest⟩
  · rcases first with line' | ⟨-, absent', rfl⟩
    · exact append_inj_of_isLine line line' taken
    · rw [List.append_nil] at taken
      exact absurd (taken ▸ List.mem_append_left _ line.mem) absent'
  · rw [rest, List.flatten_nil, List.append_nil] at taken
    rcases first with line' | ⟨-, -, rfl⟩
    · exact absurd (taken ▸ List.mem_append_left _ line'.mem) absent
    · rw [rest]
      exact ⟨taken.trans (List.append_nil l), rfl⟩

/-! ### Skipping lines -/

theorem isNone_decode_iff {l : Bytes} : (Utf8.decode l).toOption.isNone ↔ ¬ IsText l := by
  cases decoded : Utf8.decode l with
  | ok s => simp [Except.toOption, IsText, Utf8.decode_eq_ok_iff.mp decoded]
  | error e =>
    refine iff_of_true rfl ?_
    rintro ⟨s, rfl⟩
    rw [Utf8.decode_utf8] at decoded
    cases decoded

variable {proxy : String} {stream : List Bytes} {l later body : Bytes} {fields : List Bytes}

theorem skipHead_eq (proxy : String) (stream : List Bytes) : skipHead proxy stream =
    if (takeLine stream).1 = [] then .error (.proxyRefused proxy "truncated response head")
    else if (Utf8.decode (takeLine stream).1).toOption.isNone then .error (.io .notText)
    else if isBlankLine (takeLine stream).1 then .ok (takeLine stream).2
    else skipHead proxy (takeLine stream).2 := by
  rw [skipHead]
  rfl

theorem skipHead_of_nil (none_ : stream.flatten = []) :
    skipHead proxy stream = .error (.proxyRefused proxy "truncated response head") := by
  rw [skipHead_eq, if_pos (takeLine_eq_nil_iff.mpr none_)]

theorem skipHead_of_not_isText (first : IsFirst l later) (garbled : ¬ IsText l)
    (whole : stream.flatten = l ++ later) : skipHead proxy stream = .error (.io .notText) := by
  obtain ⟨rfl, -⟩ := takeLine_of_isFirst first whole
  rw [skipHead_eq, if_neg first.ne_nil, if_pos (isNone_decode_iff.mpr garbled)]

theorem skipHead_of_isBlankLine (blank : isBlankLine l) (whole : stream.flatten = l ++ later) :
    ∃ rest, skipHead proxy stream = .ok rest ∧ rest.flatten = later := by
  have line := isLine_of_isBlankLine blank
  obtain ⟨rfl, rest⟩ := takeLine_of_isFirst (.inl line) whole
  have text := isText_of_isBlankLine blank
  refine ⟨_, ?_, rest⟩
  rw [skipHead_eq, if_neg line.ne_nil, if_neg (isNone_decode_iff.not.mpr (not_not.mpr text)),
    if_pos blank]

theorem skipHead_of_isFirst (proxy : String) (first : IsFirst l later) (text : IsText l)
    (inner : isBlankLine l = false) (whole : stream.flatten = l ++ later) :
    ∃ rest, skipHead proxy stream = skipHead proxy rest ∧ rest.flatten = later := by
  obtain ⟨rfl, rest⟩ := takeLine_of_isFirst first whole
  refine ⟨_, ?_, rest⟩
  rw [skipHead_eq, if_neg first.ne_nil, if_neg (isNone_decode_iff.not.mpr (not_not.mpr text)),
    if_neg (by simp [inner])]

theorem skipHead_of_fields (ended : ∀ l ∈ fields, IsLine l) (text : ∀ l ∈ fields, IsText l)
    (inner : ∀ l ∈ fields, isBlankLine l = false) (whole : stream.flatten = fields.flatten ++ later) :
    ∃ rest, skipHead proxy stream = skipHead proxy rest ∧ rest.flatten = later := by
  induction fields generalizing stream with
  | nil => exact ⟨stream, rfl, whole⟩
  | cons l fields ih =>
    rw [List.forall_mem_cons] at ended text inner
    rw [List.flatten_cons, List.append_assoc] at whole
    obtain ⟨rest, skipped, behind⟩ :=
      skipHead_of_isFirst proxy (.inl ended.1) text.1 inner.1 whole
    rw [skipped]
    exact ih ended.2 text.2 inner.2 behind

theorem not_isBlankLine_of_unended (absent : 10 ∉ l) : isBlankLine l = false := by
  cases blank : isBlankLine l with
  | false => rfl
  | true => exact absurd (isLine_of_isBlankLine blank).mem absent

theorem skipHead_of_unended (absent : 10 ∉ stream.flatten) (text : IsText stream.flatten) :
    skipHead proxy stream = .error (.proxyRefused proxy "truncated response head") := by
  by_cases none_ : stream.flatten = []
  · exact skipHead_of_nil none_
  · have inner := not_isBlankLine_of_unended absent
    obtain ⟨rest, skipped, behind⟩ := skipHead_of_isFirst proxy
      (.inr ⟨none_, absent, rfl⟩) text inner (List.append_nil _).symm
    rw [skipped, skipHead_of_nil behind]

/-- How skipping lines comes to an end. -/
inductive Skips (proxy : String) (s : Bytes) : Except ConnectError (List Bytes) → Prop where
  | blank (fields : List Bytes) {blank : Bytes} {rest : List Bytes}
      (whole : s = fields.flatten ++ (blank ++ rest.flatten))
      (ended : ∀ l ∈ fields, IsLine l) (text : ∀ l ∈ fields, IsText l)
      (inner : ∀ l ∈ fields, isBlankLine l = false) (blank : isBlankLine blank) :
      Skips proxy s (.ok rest)
  | truncated : Skips proxy s (.error (.proxyRefused proxy "truncated response head"))
  | garbled (fields : List Bytes) {l later : Bytes} (whole : s = fields.flatten ++ (l ++ later))
      (ended : ∀ l ∈ fields, IsLine l) (text : ∀ l ∈ fields, IsText l)
      (inner : ∀ l ∈ fields, isBlankLine l = false) (first : IsFirst l later)
      (garbled : ¬ IsText l) : Skips proxy s (.error (.io .notText))

theorem Skips.cons {s : Bytes} {result : Except ConnectError (List Bytes)}
    (skips : Skips proxy s result) (line : IsLine l) (text : IsText l)
    (inner : isBlankLine l = false) : Skips proxy (l ++ s) result := by
  cases skips with
  | blank fields whole ended texts inners blank =>
    refine .blank (l :: fields) ?_ (List.forall_mem_cons.mpr ⟨line, ended⟩)
      (List.forall_mem_cons.mpr ⟨text, texts⟩) (List.forall_mem_cons.mpr ⟨inner, inners⟩) blank
    rw [whole, List.flatten_cons, List.append_assoc]
  | truncated => exact .truncated
  | garbled fields whole ended texts inners first garbled =>
    refine .garbled (l :: fields) ?_ (List.forall_mem_cons.mpr ⟨line, ended⟩)
      (List.forall_mem_cons.mpr ⟨text, texts⟩) (List.forall_mem_cons.mpr ⟨inner, inners⟩) first garbled
    rw [whole, List.flatten_cons, List.append_assoc]

theorem skipHead_skips (proxy : String) (stream : List Bytes) :
    Skips proxy stream.flatten (skipHead proxy stream) := by
  fun_induction skipHead proxy stream with
  | case1 => exact .truncated
  | case2 stream line rest taken some_ garbled =>
    obtain ⟨whole, first⟩ := isFirst_of_takeLine taken some_
    exact .garbled [] whole (by simp) (by simp) (by simp) first
      (isNone_decode_iff.mp garbled)
  | case3 stream line rest taken some_ text blank =>
    obtain ⟨whole, -⟩ := isFirst_of_takeLine taken some_
    exact .blank [] whole (by simp) (by simp) (by simp) blank
  | case4 stream line rest taken some_ text inner ih =>
    obtain ⟨whole, first⟩ := isFirst_of_takeLine taken some_
    rcases first with ended | ⟨-, -, none_⟩
    · rw [whole]
      rw [isNone_decode_iff, not_not] at text
      exact ih.cons ended text (by simpa using inner)
    · rw [skipHead_of_nil none_]
      exact .truncated

/-! ### Whole answers -/

theorem grants_iff {s : String} : grants (Text.trimEnd s.toList) ↔ Grants (utf8 s) := by
  unfold grants Grants
  rw [Bool.and_eq_true, List.isPrefixOf_iff_prefix, decide_eq_true_eq]
  constructor
  · intro both
    exact ⟨s, rfl, both⟩
  · rintro ⟨t, same, both⟩
    have read := Utf8.decode_utf8 s
    rw [same, Utf8.decode_utf8] at read
    rw [← Except.ok.inj read]
    exact both

theorem Grants.ne_nil (grants : Grants l) : l ≠ [] := by
  obtain ⟨s, rfl, starts, -⟩ := grants
  intro none_
  have same : utf8 s = utf8 "" := none_
  have read := Utf8.decode_utf8 s
  rw [same, Utf8.decode_utf8] at read
  obtain rfl := Except.ok.inj read
  exact absurd starts (by decide)

theorem readAnswer_of_isText (proxy : String) {status : String} (first : IsFirst (utf8 status) later)
    (whole : stream.flatten = utf8 status ++ later) :
    ∃ rest, rest.flatten = later ∧ readAnswer proxy stream =
      if grants (Text.trimEnd status.toList) then skipHead proxy rest
      else .error (.proxyRefused proxy (String.ofList (Text.trimEnd status.toList))) := by
  obtain ⟨line, rest⟩ := takeLine_of_isFirst first whole
  refine ⟨_, rest, ?_⟩
  unfold readAnswer
  dsimp only
  rw [line, if_neg first.ne_nil, Utf8.decode_utf8]

theorem readAnswer_of_not_isText (first : IsFirst l later) (garbled : ¬ IsText l)
    (whole : stream.flatten = l ++ later) : readAnswer proxy stream = .error (.io .notText) := by
  obtain ⟨line, -⟩ := takeLine_of_isFirst first whole
  unfold readAnswer
  dsimp only
  rw [line, if_neg first.ne_nil]
  cases decoded : Utf8.decode l with
  | ok s => exact absurd ⟨s, Utf8.decode_eq_ok_iff.mp decoded⟩ garbled
  | error e => rfl

theorem readAnswer_of_nil (none_ : stream.flatten = []) : readAnswer proxy stream =
    .error (.proxyRefused proxy "connection closed before response") := by
  unfold readAnswer
  dsimp only
  rw [if_pos (takeLine_eq_nil_iff.mpr none_)]

/-- What an answer may come to. -/
inductive Answers (proxy : String) (s : Bytes) : Except ConnectError (List Bytes) → Prop where
  | granted {rest : List Bytes} (granted : IsGranted s rest.flatten) : Answers proxy s (.ok rest)
  | garbled (garbled : IsGarbled s) : Answers proxy s (.error (.io .notText))
  | refused (reason : String) : Answers proxy s (.error (.proxyRefused proxy reason))

theorem readAnswer_answers (proxy : String) (stream : List Bytes) :
    Answers proxy stream.flatten (readAnswer proxy stream) := by
  by_cases none_ : (takeLine stream).1 = []
  · rw [readAnswer_of_nil (takeLine_eq_nil_iff.mp none_)]
    exact .refused _
  have first := isFirst_takeLine none_
  have whole := (takeLine_append stream).symm
  generalize (takeLine stream).1 = line, (takeLine stream).2.flatten = later at first whole
  by_cases text : IsText line
  case neg =>
    rw [readAnswer_of_not_isText first text whole]
    exact .garbled ⟨[], line, later, ⟨whole, by simp, by simp⟩, first, text, by simp, by simp⟩
  obtain ⟨status, rfl⟩ := text
  obtain ⟨rest, rfl, answer⟩ := readAnswer_of_isText proxy first whole
  rw [answer]
  split
  case isFalse => exact .refused _
  next grants =>
    rw [grants_iff] at grants
    rcases first with line | ⟨-, -, none_⟩
    · have opens {fields : List Bytes} {later : Bytes} (part : rest.flatten = fields.flatten ++ later)
          (ended : ∀ l ∈ fields, IsLine l) (inner : ∀ l ∈ fields, isBlankLine l = false) :
          Opens stream.flatten (utf8 status :: fields) later := by
        refine ⟨?_, List.forall_mem_cons.mpr ⟨line, ended⟩, inner⟩
        rw [whole, part, List.flatten_cons, List.append_assoc]
      have skips := skipHead_skips proxy rest
      generalize skipHead proxy rest = result at skips ⊢
      cases skips with
      | blank fields part ended text inner blank =>
        exact .granted ⟨_, _, _, opens part ended inner,
          List.forall_mem_cons.mpr ⟨⟨status, rfl⟩, text⟩, grants, blank⟩
      | truncated => exact .refused _
      | garbled fields part ended text inner first garbled =>
        exact .garbled ⟨_, _, _, opens part ended inner, first, garbled,
          List.forall_mem_cons.mpr ⟨⟨status, rfl⟩, text⟩, by simpa using grants⟩
    · rw [skipHead_of_nil none_]
      exact .refused _

theorem Opens.skips (proxy : String) {fields : List Bytes} {status : String}
    (opens : Opens stream.flatten (utf8 status :: fields) later) (text : ∀ l ∈ fields, IsText l)
    (granted : Grants (utf8 status)) : ∃ rest, readAnswer proxy stream = skipHead proxy rest ∧
      rest.flatten = later := by
  obtain ⟨line, ended⟩ := List.forall_mem_cons.mp opens.ended
  have whole := opens.whole
  rw [List.flatten_cons, List.append_assoc] at whole
  obtain ⟨rest, behind, answer⟩ := readAnswer_of_isText proxy (.inl line) whole
  rw [answer, if_pos (grants_iff.mpr granted)]
  exact skipHead_of_fields ended text opens.inner behind

theorem readAnswer_of_isGranted (granted : IsGranted stream.flatten body) :
    ∃ rest, readAnswer proxy stream = .ok rest ∧ rest.flatten = body := by
  obtain ⟨status, fields, blank, opens, text, grants, isBlank⟩ := granted
  obtain ⟨⟨status, rfl⟩, texts⟩ := List.forall_mem_cons.mp text
  obtain ⟨rest, answer, behind⟩ := opens.skips proxy texts grants
  rw [answer]
  exact skipHead_of_isBlankLine isBlank behind

theorem readAnswer_of_breaksOff (breaksOff : BreaksOff stream.flatten) :
    readAnswer proxy stream = .error (.proxyRefused proxy "truncated response head") := by
  obtain ⟨lines, last, opens, absent, all, grants⟩ := breaksOff
  obtain ⟨text, ends⟩ := List.forall_mem_append.mp all
  obtain ⟨ending, rfl⟩ := ends last List.mem_cons_self
  cases lines with
  | nil =>
    have granted : Grants (utf8 ending) := by simpa using grants
    have first : IsFirst (utf8 ending) [] := .inr ⟨granted.ne_nil, absent, rfl⟩
    obtain ⟨rest, none_, answer⟩ := readAnswer_of_isText proxy first
      (opens.whole.trans (List.append_nil _).symm)
    rw [answer, if_pos (grants_iff.mpr granted), skipHead_of_nil none_]
  | cons status fields =>
    obtain ⟨⟨status, rfl⟩, texts⟩ := List.forall_mem_cons.mp text
    obtain ⟨rest, answer, behind⟩ := opens.skips proxy texts (by simpa using grants)
    rw [answer]
    exact skipHead_of_unended (behind ▸ absent) ⟨ending, behind⟩

theorem readAnswer_of_isGarbled (garbled : IsGarbled stream.flatten) :
    readAnswer proxy stream = .error (.io .notText) := by
  obtain ⟨lines, l, later, opens, first, garbled, text, grants⟩ := garbled
  cases lines with
  | nil => exact readAnswer_of_not_isText first garbled opens.whole
  | cons status fields =>
    obtain ⟨⟨status, rfl⟩, texts⟩ := List.forall_mem_cons.mp text
    obtain ⟨rest, answer, behind⟩ := opens.skips proxy texts (by simpa using grants)
    rw [answer]
    exact skipHead_of_not_isText first garbled behind

/-- A stream grants a tunnel just if it starts with a head that does, and then exactly what follows
the head can be read from it.  It is refused if it is empty, if its status does not grant a tunnel
and if it breaks off; a line that is not UTF-8 is the only other reason to fail. -/
theorem readAnswer_settled (proxy : String) (stream : List Bytes) :
    (∀ body, (∃ rest, readAnswer proxy stream = .ok rest ∧ rest.flatten = body) ↔
      IsGranted stream.flatten body) ∧
    (stream.flatten = [] → readAnswer proxy stream =
      .error (.proxyRefused proxy "connection closed before response")) ∧
    (∀ status later, stream.flatten = utf8 status ++ later → IsFirst (utf8 status) later →
      ¬ Grants (utf8 status) → readAnswer proxy stream =
        .error (.proxyRefused proxy (String.ofList (Text.trimEnd status.toList)))) ∧
    (BreaksOff stream.flatten → readAnswer proxy stream =
      .error (.proxyRefused proxy "truncated response head")) ∧
    (readAnswer proxy stream = .error (.io .notText) ↔ IsGarbled stream.flatten) ∧
    ∀ e, readAnswer proxy stream = .error e →
      e = .io .notText ∨ ∃ reason, e = .proxyRefused proxy reason := by
  have answers := readAnswer_answers proxy stream
  refine ⟨fun body => ⟨?_, readAnswer_of_isGranted⟩, readAnswer_of_nil, ?_, readAnswer_of_breaksOff,
    ⟨fun failed => ?_, readAnswer_of_isGarbled⟩, fun e failed => ?_⟩
  · rintro ⟨rest, answer, rfl⟩
    rw [answer] at answers
    cases answers with
    | granted granted => exact granted
  · intro status later whole first other
    obtain ⟨rest, -, answer⟩ := readAnswer_of_isText proxy first whole
    rw [answer, if_neg (grants_iff.not.mpr other)]
  · rw [failed] at answers
    cases answers with
    | garbled garbled => exact garbled
  · rw [failed] at answers
    cases answers with
    | garbled => exact .inl rfl
    | refused reason => exact .inr ⟨reason, rfl⟩

/-- Chunks may end inside a line end, and the head inside a chunk. -/
example : readAnswer "p" [utf8 "HTTP/1.1 200 OK\r", utf8 "\n\r\nSSH", utf8 "-2.0"] =
    .ok [utf8 "SSH", utf8 "-2.0"] := by cbv

end Flotilla.Http
