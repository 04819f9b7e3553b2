import Flotilla.Proofs.Failure
import Flotilla.Proofs.Inventory.Description
import Flotilla.Proofs.Text.ShellWords
import Flotilla.Tunnel.Relay

/-!
# Targets of relay commands

The target is put into a relay command before the command is cut into words.
`interchangeable_iff` says when two targets give commands of the same shape for every template: if
the reader of words goes from each place to the same place over both of them.  This is so if neither
has a quote or a backslash, nor starts as a comment does.
-/

namespace Flotilla.Relay

open ShellWords (isSeparator Place CutAlike)

/-- Whether an address is that of a host description. -/
def IsTarget (host : String) : Prop :=
  ∃ line s, parseAdhoc line = .ok s ∧ s.addr = some host

/-- How many words a relay command has, unless it is refused as one that cannot be cut into any
(`Relay.invalid`).  Whether a program can be started with these words is asked later. -/
def shape (template host : String) (port : UInt16) : Except ConnectError Nat :=
  (words template host port).map List.length

/-- No template tells two hosts apart by the number of words of its command, or by whether it is
refused before there are any. -/
def Interchangeable (host host' : String) : Prop :=
  ∀ template port, shape template host port = shape template host' port

/-- A host that has no character that starts or ends a quotation, and does not start a comment. -/
def isPlain (host : String) : Bool :=
  host.toList.head? ≠ some '#' && host.toList.all (· ∉ ['\'', '"', '\\'])

/-! ### Hosts of descriptions -/

theorem isSeparator_of_visible {c : Char} (visible : Text.isBlank c = false) :
    isSeparator c = false := by
  rw [Bool.eq_false_iff]
  intro separator
  have blank : Text.isBlank c = true := by
    simp only [isSeparator, Bool.or_eq_true, decide_eq_true_eq] at separator
    obtain (rfl | rfl) | rfl := separator
    all_goals decide
  rw [blank] at visible
  cases visible

theorem IsTarget.chars {host : String} (target : IsTarget host) :
    host.toList ≠ [] ∧ ∀ c ∈ host.toList, isSeparator c = false := by
  obtain ⟨line, s, parsed, addr⟩ := target
  unfold parseAdhoc at parsed
  split at parsed
  next => cases parsed
  next d found =>
    cases parsed
    obtain ⟨f, valid, -, rfl⟩ := HostSpec.read?_eq_some_iff.mp found
    obtain rfl : String.ofList f.host = host := Option.some.inj addr
    rw [String.toList_ofList]
    have isHost := valid.host
    cases bracketed : f.bracketed with
    | true =>
      rw [bracketed, if_pos rfl] at isHost
      have clean : "0123456789abcdefABCDEF:.".toList.all (! isSeparator ·) := by decide
      refine ⟨isHost.1, fun c member => ?_⟩
      simpa using List.all_eq_true.mp clean c (isHost.2 c member)
    | false =>
      rw [bracketed, if_neg Bool.false_ne_true] at isHost
      exact ⟨isHost.1, fun c member => isSeparator_of_visible (isHost.2 c member).2⟩

/-! ### Commands for two hosts -/

/-- Hosts that can stand for each other in a command can do so in the place of a template. -/
theorem cutAlike_expand {host host' : List Char} (alike : CutAlike host host')
    (port : UInt16) (template : List Char) :
    CutAlike (expand host port template) (expand host' port template) := by
  induction template using expand.induct with
  | case1 => exact .refl _
  | case2 r ih => exact alike.append ih
  | case3 r ih => exact (CutAlike.refl _).append ih
  | case4 r ih => exact (CutAlike.refl ['%']).append ih
  | case5 c r noHost noPort noSign ih =>
    rw [expand.eq_5 _ _ _ _ noHost noPort noSign, expand.eq_5 _ _ _ _ noHost noPort noSign]
    exact (CutAlike.refl [c]).append ih

/-- Text without a percent sign is taken as it is. -/
theorem expand_append {front : List Char} (none : '%' ∉ front) (host : List Char) (port : UInt16)
    (template : List Char) :
    expand host port (front ++ template) = front ++ expand host port template := by
  induction front with
  | nil => rfl
  | cons c front ih =>
    have other : c ≠ '%' := (List.ne_of_not_mem_cons none).symm
    rw [List.cons_append, expand.eq_5, ih (List.not_mem_of_not_mem_cons none)]
    · rfl
    all_goals exact fun _ same => absurd same other

theorem shape_eq (template host : String) (port : UInt16) :
    shape template host port =
      match (ShellWords.split (expand host.toList port template.toList)).map List.length with
      | some (n + 1) => .ok (n + 1)
      | _ => .error (invalid template) := by
  unfold shape words cut
  cases ShellWords.split (expand host.toList port template.toList) with
  | none => rfl
  | some words => cases words <;> simp [Except.map]

theorem interchangeable_of_cutAlike {host host' : String}
    (alike : CutAlike host.toList host'.toList) : Interchangeable host host' := by
  intro template port
  rw [shape_eq, shape_eq, (cutAlike_expand alike port template.toList).length_split]

/-- A template that puts the host in a place. -/
def probe (p : Place) (ending : List Char) : String :=
  String.ofList (p.opening ++ '%' :: 'h' :: ending)

theorem shape_probe {host : String} (clean : ∀ c ∈ host.toList, isSeparator c = false) (p : Place)
    {ending : List Char} (member : ending ∈ Place.endings) (port : UInt16) :
    shape (probe p ending) host port =
      match (p.after host.toList).sight ending with
      | some n => .ok (n + 1)
      | none => .error (invalid (probe p ending)) := by
  have noSign : '%' ∉ p.opening := by cases p <;> decide
  have noSign' : '%' ∉ ending := by
    revert ending
    decide
  have whole : expand host.toList port (probe p ending).toList =
      p.opening ++ (host.toList ++ ending) := by
    have last := expand_append noSign' host.toList port []
    rw [List.append_nil, expand, List.append_nil] at last
    rw [probe, String.toList_ofList, expand_append noSign, expand, last]
  rw [shape_eq, whole, ShellWords.length_split, Place.sight_append, Place.sight_append,
    Place.after_opening, Place.completed_opening, ShellWords.completed_of_clean clean]
  cases (p.after host.toList).sight ending with
  | none => rfl
  | some n => simp [Nat.add_comm 1]

theorem interchangeable_iff_after {host host' : String}
    (clean : ∀ c ∈ host.toList, isSeparator c = false)
    (clean' : ∀ c ∈ host'.toList, isSeparator c = false) :
    Interchangeable host host' ↔ ∀ p : Place, p.after host.toList = p.after host'.toList := by
  constructor
  · intro alike p
    refine Place.eq_of_sight fun ending member => ?_
    have same := alike (probe p ending) 0
    rw [shape_probe clean p member, shape_probe clean' p member] at same
    revert same
    cases (p.after host.toList).sight ending <;> cases (p.after host'.toList).sight ending
    all_goals simp
  · exact fun same =>
      interchangeable_of_cutAlike ((ShellWords.cutAlike_iff_of_clean clean clean').mpr same)

/-! ### Plain hosts -/

/-- Where a plain host leads from a place. -/
def settled : Place → Place
  | .between | .escaped => .word
  | .doubleEscaped => .double
  | p => p

theorem next_of_plain {c : Char} (plain : c ∉ ['\'', '"', '\\']) (clean : isSeparator c = false)
    {p : Place} (inWord : p = .between → c ≠ '#') : p.next c = settled p := by
  simp only [List.mem_cons, List.not_mem_nil, or_false, not_or] at plain
  obtain ⟨single, double, escape⟩ := plain
  have line : c ≠ '\n' := by
    rintro rfl
    cases clean
  unfold Place.next ShellWords.State.step
  cases p with
  | between =>
    have other : c ≠ '#' := inWord rfl
    simp [ShellWords.State.stepWord, single, double, escape, clean, other, settled,
      ShellWords.State.take]
  | word =>
    simp [ShellWords.State.stepWord, single, double, escape, clean, settled, ShellWords.State.take]
  | comment => simp [line, settled]
  | escaped => simp [line, settled, ShellWords.State.take]
  | single => simp [single, settled, ShellWords.State.take]
  | double => simp [double, escape, settled, ShellWords.State.take]
  | doubleEscaped =>
    simp only [line, if_false, settled]
    split <;> rfl

theorem after_of_plain {host : String} (some_ : host.toList ≠ [])
    (clean : ∀ c ∈ host.toList, isSeparator c = false) (plain : isPlain host) (p : Place) :
    p.after host.toList = settled p := by
  simp only [isPlain, Bool.and_eq_true, decide_eq_true_eq, List.all_eq_true] at plain
  obtain ⟨starts, plain⟩ := plain
  generalize host.toList = text at some_ clean starts plain ⊢
  -- Only the first character is read in a place that it may leave.
  have stays (r : List Char) (clean : ∀ c ∈ r, isSeparator c = false)
      (plain : ∀ c ∈ r, c ∉ ['\'', '"', '\\']) : (settled p).after r = settled p := by
    induction r with
    | nil => rfl
    | cons c r ih =>
      obtain ⟨here, clean⟩ := List.forall_mem_cons.mp clean
      obtain ⟨first, plain⟩ := List.forall_mem_cons.mp plain
      have inWord : settled p = .between → c ≠ '#' := by cases p <;> nofun
      have same : settled (settled p) = settled p := by cases p <;> rfl
      change ((settled p).next c).after r = _
      rw [next_of_plain first here inWord, same]
      exact ih clean plain
  cases text with
  | nil => exact absurd rfl some_
  | cons c r =>
    obtain ⟨here, clean⟩ := List.forall_mem_cons.mp clean
    obtain ⟨first, plain⟩ := List.forall_mem_cons.mp plain
    have other : c ≠ '#' := fun same => starts (congrArg some same)
    change (p.next c).after r = _
    rw [next_of_plain first here fun _ => other]
    exact stays r clean plain

/-- Two targets give commands of the same shape for every template and port just if the reader of
words goes from each place to the same place over both; and this is so if both are plain. -/
theorem interchangeable_iff {host host' : String} (target : IsTarget host)
    (target' : IsTarget host') :
    (Interchangeable host host' ↔ ∀ p : Place, p.after host.toList = p.after host'.toList) ∧
      (isPlain host → isPlain host' → Interchangeable host host') := by
  obtain ⟨some_, clean⟩ := target.chars
  obtain ⟨some', clean'⟩ := target'.chars
  have same := interchangeable_iff_after clean clean'
  refine ⟨same, fun plain plain' => same.mpr fun p => ?_⟩
  rw [after_of_plain some_ clean plain, after_of_plain some' clean' plain']

theorem interchangeable_iff_addresses :
    IsTarget "10.0.0.7" ∧ IsTarget "fe80::1" ∧ Interchangeable "10.0.0.7" "fe80::1" := by
  have target : IsTarget "10.0.0.7" := ⟨"10.0.0.7", _, rfl, rfl⟩
  have target' : IsTarget "fe80::1" := ⟨"root@[fe80::1]:22", _, rfl, rfl⟩
  exact ⟨target, target', (interchangeable_iff target target').2 (by decide) (by decide)⟩

/-- A quote in a host starts a quotation that nothing ends, and a number sign a comment. -/
theorem not_interchangeable_quote :
    IsTarget "ab" ∧ IsTarget "a'b" ∧ IsTarget "#b" ∧
      words "nc %h %p" "ab" 22 = .ok ["nc", "ab", "22"] ∧
      words "nc %h %p" "a'b" 22 = .error (invalid "nc %h %p") ∧
      words "nc %h %p" "#b" 22 = .ok ["nc"] ∧ ¬ Interchangeable "ab" "a'b" := by
  have cut : words "nc %h %p" "ab" 22 = .ok ["nc", "ab", "22"] := by rfl
  have refused : words "nc %h %p" "a'b" 22 = .error (invalid "nc %h %p") := by rfl
  refine ⟨⟨"ab", _, rfl, rfl⟩, ⟨"a'b", _, rfl, rfl⟩, ⟨"#b", _, rfl, rfl⟩, cut, refused, rfl, ?_⟩
  intro alike
  have same := alike "nc %h %p" 22
  rw [shape, shape, cut, refused] at same
  cases same

end Flotilla.Relay
