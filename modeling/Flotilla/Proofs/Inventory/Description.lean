import Mathlib.Data.Nat.Digits.Defs
import Flotilla.Inventory.Adhoc
import Flotilla.Proofs.Text.Span

/-!
# The grammar of host descriptions

A host description is `[user@](host | "[" address "]")[:port]`.  `parseAdhoc_grammar` says that just
the texts of this form are read, that a text has one such form at most, and which server a form
stands for.
-/

namespace Flotilla

open Text (isBlank span_eq_iff append_inj_of_span)

/-- The parts of a host description as they are written. -/
structure HostForm where
  user : Option (List Char)
  /-- Whether the host is an address in brackets. -/
  bracketed : Bool
  host : List Char
  /-- The digits of the port. -/
  digits : Option (List Char)

namespace HostForm

def IsUser (user : List Char) : Prop := user ≠ [] ∧ ∀ c ∈ user, c ≠ '@' ∧ isBlank c = false

def IsHost (host : List Char) : Prop :=
  host ≠ [] ∧ ∀ c ∈ host, c ∉ [':', '@', '[', ']'] ∧ isBlank c = false

def IsAddress (host : List Char) : Prop :=
  host ≠ [] ∧ ∀ c ∈ host, c ∈ "0123456789abcdefABCDEF:.".toList

/-- The number that decimal digits stand for. -/
def number (digits : List Char) : Nat :=
  Nat.ofDigits 10 (digits.reverse.map fun c => c.toNat - '0'.toNat)

def IsPort (digits : List Char) : Prop :=
  digits ≠ [] ∧ (∀ c ∈ digits, c.isDigit) ∧ number digits ≤ 65535

def userText (user : Option (List Char)) : List Char := user.elim [] (· ++ ['@'])

def hostText (bracketed : Bool) (host : List Char) : List Char :=
  if bracketed then '[' :: (host ++ [']']) else host

def portText (digits : Option (List Char)) : List Char := digits.elim [] (':' :: ·)

/-- What is written. -/
def text (f : HostForm) : List Char :=
  userText f.user ++ (hostText f.bracketed f.host ++ portText f.digits)

/-- Whether every part is made as the grammar has it. -/
structure IsValid (f : HostForm) : Prop where
  user : ∀ u ∈ f.user, IsUser u
  host : if f.bracketed then IsAddress f.host else IsHost f.host
  digits : ∀ ds ∈ f.digits, IsPort ds

def spec (f : HostForm) : HostSpec := ⟨f.user, f.host, f.digits.map number⟩

/-- The server that is described.  All that is not written is unset. -/
def server (f : HostForm) : Server where
  addr := some (String.ofList f.host)
  port := f.digits.map fun ds => UInt16.ofNat (number ds)
  user := f.user.map String.ofList

/-- Whether a line is a description with these parts. -/
def Describes (f : HostForm) (line : String) : Prop :=
  f.IsValid ∧ f.text = Text.trim line.toList

end HostForm

namespace HostSpec

open HostForm

theorem isUserChar_iff {c : Char} : isUserChar c ↔ c ≠ '@' ∧ isBlank c = false := by
  simp [isUserChar]

theorem isHostChar_iff {c : Char} :
    isHostChar c ↔ c ∉ [':', '@', '[', ']'] ∧ isBlank c = false := by
  simp [isHostChar]

theorem isAddressChar_iff {c : Char} :
    isAddressChar c ↔ c ∈ "0123456789abcdefABCDEF:.".toList := by
  constructor
  · intro address
    have bounded : c.toNat < 128 := by
      simp only [isAddressChar, Char.isDigit, Bool.or_eq_true, Bool.and_eq_true, decide_eq_true_eq,
        Char.le_def, UInt32.le_iff_toNat_le] at address
      rcases address with (((h | h) | h) | rfl) | rfl
      all_goals first | decide | exact Nat.lt_of_le_of_lt h.2 (by decide)
    rw [← Char.ofNat_toNat c] at address ⊢
    generalize c.toNat = n at bounded address ⊢
    revert address
    revert n
    decide
  · intro member
    have all : "0123456789abcdefABCDEF:.".toList.all isAddressChar := by decide
    exact List.all_eq_true.mp all c member

theorem digitsValue_eq (digits : List Char) : Text.digitsValue digits = number digits := by
  unfold Text.digitsValue number
  rw [Nat.ofDigits_eq_foldr, List.foldr_map, List.foldr_reverse]
  congr 1
  funext n c
  simp only [Nat.cast_id]
  omega

theorem portText_stops {digits : Option (List Char)} {p : Char → Bool} (stops : p ':' = false) :
    ∀ c ∈ (portText digits).head?, p c = false := by
  cases digits with
  | none => simp [portText]
  | some ds => simpa [portText] using stops

theorem isUserChar_of_isUser {user : List Char} (isUser : IsUser user) :
    ∀ c ∈ user, isUserChar c :=
  fun c member => isUserChar_iff.mpr (isUser.2 c member)

theorem isHostChar_of_isHost {host : List Char} (isHost : IsHost host) :
    ∀ c ∈ host, isHostChar c :=
  fun c member => isHostChar_iff.mpr (isHost.2 c member)

theorem isAddressChar_of_isAddress {host : List Char} (isAddress : IsAddress host) :
    ∀ c ∈ host, isAddressChar c :=
  fun c member => isAddressChar_iff.mpr (isAddress.2 c member)

/-! ### What is read -/

theorem readPort?_colon {ds : List Char} {port : Option Nat} :
    readPort? (':' :: ds) = some port ↔ IsPort ds ∧ some (number ds) = port := by
  rw [readPort?, Text.readNat?, digitsValue_eq, Option.map_eq_some_iff]
  have small : number ds < portBound ↔ number ds ≤ 65535 := Nat.lt_succ_iff
  simp [IsPort, Option.filter_eq_some_iff, small, and_assoc]

theorem readPort?_eq_some_iff {s : List Char} {port : Option Nat} :
    readPort? s = some port ↔
      ∃ digits, (∀ ds ∈ digits, IsPort ds) ∧ portText digits = s ∧ digits.map number = port := by
  constructor
  · intro found
    unfold readPort? at found
    split at found
    next => exact ⟨none, by simp, rfl, Option.some.inj found⟩
    next ds =>
      obtain ⟨isPort, same⟩ := readPort?_colon.mp found
      exact ⟨some ds, by simpa using isPort, rfl, same⟩
    next => cases found
  · rintro ⟨digits, valid, rfl, rfl⟩
    cases digits with
    | none => rfl
    | some ds => exact readPort?_colon.mpr ⟨valid ds rfl, rfl⟩

theorem map_readPort?_eq_some_iff {name host s : List Char} {port : Option Nat} :
    (readPort? s).map (name, ·) = some (host, port) ↔ name = host ∧
      ∃ digits, (∀ ds ∈ digits, IsPort ds) ∧ portText digits = s ∧ digits.map number = port := by
  rw [← readPort?_eq_some_iff, Option.map_eq_some_iff]
  simp [and_comm]

theorem readHost?_eq_some_iff {s host : List Char} {port : Option Nat} :
    readHost? s = some (host, port) ↔ ∃ bracketed digits,
      (if bracketed then IsAddress host else IsHost host) ∧ (∀ ds ∈ digits, IsPort ds) ∧
        hostText bracketed host ++ portText digits = s ∧ digits.map number = port := by
  constructor
  · intro found
    unfold readHost? at found
    split at found
    next r =>
      split at found
      next => cases found
      next addr rest some_ taken =>
        obtain ⟨rfl, all, -⟩ := span_eq_iff.mp taken
        obtain ⟨rfl, digits, valid, rfl, rfl⟩ := map_readPort?_eq_some_iff.mp found
        have isAddress : IsAddress addr :=
          ⟨some_, fun c member => isAddressChar_iff.mp (all c member)⟩
        exact ⟨true, digits, isAddress, valid, by simp [hostText], rfl⟩
      next => cases found
    next =>
      split at found
      next => cases found
      next name rest some_ taken =>
        obtain ⟨rfl, all, -⟩ := span_eq_iff.mp taken
        obtain ⟨rfl, digits, valid, rfl, rfl⟩ := map_readPort?_eq_some_iff.mp found
        have isHost : IsHost name := ⟨some_, fun c member => isHostChar_iff.mp (all c member)⟩
        exact ⟨false, digits, isHost, valid, rfl, rfl⟩
  · rintro ⟨bracketed, digits, isHost, valid, rfl, rfl⟩
    have read := map_readPort?_eq_some_iff.mpr ⟨@rfl _ host, digits, valid, rfl, rfl⟩
    cases bracketed with
    | true =>
      have taken : (host ++ ']' :: portText digits).span isAddressChar =
          (host, ']' :: portText digits) :=
        span_eq_iff.mpr ⟨rfl, isAddressChar_of_isAddress isHost, by simp; decide⟩
      obtain ⟨c, r, rfl⟩ := List.exists_cons_of_ne_nil isHost.1
      have shape : hostText true (c :: r) ++ portText digits =
          '[' :: (c :: r ++ ']' :: portText digits) := by simp [hostText]
      rw [shape, readHost?, taken]
      exact read
    | false =>
      have taken : (host ++ portText digits).span isHostChar = (host, portText digits) :=
        span_eq_iff.mpr ⟨rfl, isHostChar_of_isHost isHost, portText_stops (by decide)⟩
      obtain ⟨c, r, rfl⟩ := List.exists_cons_of_ne_nil isHost.1
      have other : c ≠ '[' := by
        rintro rfl
        exact (isHost.2 '[' List.mem_cons_self).1 (by decide)
      change readHost? (c :: r ++ portText digits) = _
      unfold readHost?
      split
      next same => exact absurd (List.cons.inj same).1 other
      next =>
        rw [taken]
        exact read

/-- No host has the mark behind a user. -/
theorem at_not_mem {bracketed : Bool} {host : List Char} {digits : Option (List Char)}
    (isHost : if bracketed then IsAddress host else IsHost host)
    (valid : ∀ ds ∈ digits, IsPort ds) : '@' ∉ hostText bracketed host ++ portText digits := by
  have port : '@' ∉ portText digits := by
    cases digits with
    | none => simp [portText]
    | some ds =>
      intro member
      rcases List.mem_cons.mp member with same | digit
      · exact absurd same (by decide)
      · exact absurd ((valid ds rfl).2.1 '@' digit) (by decide)
  rw [List.mem_append, not_or]
  refine ⟨?_, port⟩
  cases bracketed with
  | true =>
    have inside : '@' ∉ host := fun member => absurd (isHost.2 '@' member) (by decide)
    simp [hostText, inside]
  | false => exact fun member => (isHost.2 '@' member).1 (by decide)

theorem read?_eq_some_iff {s : List Char} {d : HostSpec} :
    read? s = some d ↔ ∃ f : HostForm, f.IsValid ∧ f.text = s ∧ f.spec = d := by
  constructor
  · intro found
    unfold read? at found
    split at found
    next user rest taken =>
      split at found
      next => cases found
      next some_ =>
        obtain ⟨rfl, all, -⟩ := span_eq_iff.mp taken
        obtain ⟨⟨host, port⟩, read, rfl⟩ := Option.map_eq_some_iff.mp found
        obtain ⟨bracketed, digits, isHost, valid, rfl, rfl⟩ := readHost?_eq_some_iff.mp read
        have isUser : IsUser user := ⟨some_, fun c member => isUserChar_iff.mp (all c member)⟩
        refine ⟨⟨some user, bracketed, host, digits⟩, ⟨?_, isHost, valid⟩, ?_, rfl⟩
        · simpa using isUser
        · simp [text, userText]
    next =>
      obtain ⟨⟨host, port⟩, read, rfl⟩ := Option.map_eq_some_iff.mp found
      obtain ⟨bracketed, digits, isHost, valid, rfl, rfl⟩ := readHost?_eq_some_iff.mp read
      exact ⟨⟨none, bracketed, host, digits⟩, ⟨by simp, isHost, valid⟩, rfl, rfl⟩
  · rintro ⟨⟨user, bracketed, host, digits⟩, ⟨isUser, isHost, valid⟩, rfl, rfl⟩
    have read := readHost?_eq_some_iff.mpr ⟨bracketed, digits, isHost, valid, rfl, rfl⟩
    cases user with
    | some user =>
      have isUser := isUser user rfl
      have taken := span_eq_iff.mpr ⟨@rfl _ (user ++ '@' :: (hostText bracketed host ++
        portText digits)), isUserChar_of_isUser isUser, by simp; decide⟩
      have shape : text ⟨some user, bracketed, host, digits⟩ =
          user ++ '@' :: (hostText bracketed host ++ portText digits) := by
        simp [text, userText]
      unfold read?
      rw [shape, taken]
      split
      next parts =>
        cases parts
        rw [if_neg isUser.1, read]
        rfl
      next other => exact absurd rfl (other user _)
    | none =>
      change read? (hostText bracketed host ++ portText digits) = _
      unfold read?
      split
      next user rest taken =>
        obtain ⟨whole, -, -⟩ := span_eq_iff.mp taken
        have absent := at_not_mem isHost valid
        rw [whole] at absent
        simp at absent
      next =>
        rw [read]
        rfl

/-- A user may hold colons and brackets, and a port leading zeros. -/
example : read? "a:[b@[::1]:022".toList =
    some ⟨some "a:[b".toList, "::1".toList, some 22⟩ := by decide

/-! ### One form each -/

theorem portText_inj {ds es : Option (List Char)} (same : portText ds = portText es) : ds = es := by
  cases ds <;> cases es <;> simp_all [portText]

theorem hostText_inj {b b' : Bool} {host host' : List Char} {ds es : Option (List Char)}
    (isHost : if b then IsAddress host else IsHost host)
    (isHost' : if b' then IsAddress host' else IsHost host')
    (same : hostText b host ++ portText ds = hostText b' host' ++ portText es) :
    b = b' ∧ host = host' ∧ ds = es := by
  have bracket {host host' : List Char} {ds es : Option (List Char)} (isHost : IsHost host) :
      hostText false host ++ portText ds ≠ hostText true host' ++ portText es := by
    obtain ⟨c, r, rfl⟩ := List.exists_cons_of_ne_nil isHost.1
    intro same
    have first : c = '[' := by simpa [hostText] using congrArg List.head? same
    exact (isHost.2 c List.mem_cons_self).1 (by rw [first]; decide)
  cases b <;> cases b'
  case false.true => exact absurd same (bracket isHost)
  case true.false => exact absurd same.symm (bracket isHost')
  case false.false =>
    obtain ⟨rfl, rest⟩ := append_inj_of_span same (isHostChar_of_isHost isHost)
      (portText_stops (by decide)) (isHostChar_of_isHost isHost') (portText_stops (by decide))
    exact ⟨rfl, rfl, portText_inj rest⟩
  case true.true =>
    have inside : host ++ ']' :: portText ds = host' ++ ']' :: portText es := by
      simpa [hostText] using same
    have stops (digits : Option (List Char)) :
        ∀ c ∈ (']' :: portText digits).head?, isAddressChar c = false := by simp; decide
    obtain ⟨rfl, rest⟩ := append_inj_of_span inside (isAddressChar_of_isAddress isHost) (stops ds)
      (isAddressChar_of_isAddress isHost') (stops es)
    exact ⟨rfl, rfl, portText_inj (List.cons.inj rest).2⟩

theorem text_inj {f g : HostForm} (valid : f.IsValid) (valid' : g.IsValid)
    (same : f.text = g.text) : f = g := by
  obtain ⟨user, bracketed, host, digits⟩ := f
  obtain ⟨user', bracketed', host', digits'⟩ := g
  obtain ⟨isUser, isHost, isPort⟩ := valid
  obtain ⟨isUser', isHost', isPort'⟩ := valid'
  have absent := at_not_mem isHost isPort
  have absent' := at_not_mem isHost' isPort'
  unfold text userText at same
  dsimp only at same isUser isUser'
  cases user with
  | none =>
    cases user' with
    | none =>
      obtain ⟨rfl, rfl, rfl⟩ := hostText_inj isHost isHost' same
      rfl
    | some u =>
      refine absurd ?_ absent
      have whole : hostText bracketed host ++ portText digits = _ := same
      rw [whole]
      simp
  | some u =>
    cases user' with
    | none =>
      refine absurd ?_ absent'
      have whole : _ = hostText bracketed' host' ++ portText digits' := same
      rw [← whole]
      simp
    | some v =>
      have whole : u ++ '@' :: (hostText bracketed host ++ portText digits) =
          v ++ '@' :: (hostText bracketed' host' ++ portText digits') := by simpa using same
      have stops (rest : List Char) : ∀ c ∈ ('@' :: rest).head?, isUserChar c = false := by
        simp; decide
      obtain ⟨rfl, rest⟩ := append_inj_of_span whole (isUserChar_of_isUser (isUser u rfl))
        (stops _) (isUserChar_of_isUser (isUser' v rfl)) (stops _)
      obtain ⟨rfl, rfl, rfl⟩ := hostText_inj isHost isHost' (List.cons.inj rest).2
      rfl

end HostSpec

open HostForm

theorem HostForm.toNat_port {f : HostForm} (valid : f.IsValid) :
    f.server.port.map UInt16.toNat = f.digits.map number := by
  cases digits : f.digits with
  | none => simp [server, digits]
  | some ds =>
    have small := (valid.digits ds digits).2.2
    have fits : (UInt16.ofNat (number ds)).toNat = number ds :=
      UInt16.toNat_ofNat_of_lt (Nat.lt_succ_of_le small)
    simp [server, digits, fits]

/-- A line is read just if it is a host description between blanks, which it is in one way at most.
The server has the user, the host and the port that are written, and every other line is refused. -/
theorem parseAdhoc_grammar (line : String) :
    (∀ s, parseAdhoc line = .ok s ↔ ∃ f : HostForm, f.Describes line ∧ f.server = s) ∧
      (∀ f g : HostForm, f.Describes line → g.Describes line → f = g) ∧
      (∀ f : HostForm, f.Describes line →
        f.server.port.map UInt16.toNat = f.digits.map number) ∧
      ((¬ ∃ f : HostForm, f.Describes line) → parseAdhoc line = .error (.invalidHost line)) := by
  have read {d : HostSpec} : HostSpec.read? (Text.trim line.toList) = some d ↔
      ∃ f : HostForm, f.Describes line ∧ f.spec = d := by
    rw [HostSpec.read?_eq_some_iff]
    simp only [Describes, and_assoc]
  have same (f : HostForm) : f.server = {
      addr := some (String.ofList f.spec.host)
      port := f.spec.port.map UInt16.ofNat
      user := f.spec.user.map String.ofList } := by
    simp [server, spec, Function.comp_def]
  refine ⟨fun s => ?_, ?_, fun f describes => f.toNat_port describes.1, fun none_ => ?_⟩
  · unfold parseAdhoc
    cases found : HostSpec.read? (Text.trim line.toList) with
    | none =>
      refine ⟨nofun, fun ⟨f, describes, _⟩ => ?_⟩
      rw [read.mpr ⟨f, describes, rfl⟩] at found
      cases found
    | some d =>
      obtain ⟨f, describes, rfl⟩ := read.mp found
      dsimp only
      rw [← same, Except.ok.injEq]
      refine ⟨fun made => ⟨f, describes, made⟩, ?_⟩
      rintro ⟨g, describes', rfl⟩
      rw [HostSpec.text_inj describes.1 describes'.1 (describes.2.trans describes'.2.symm)]
  · intro f g describes describes'
    exact HostSpec.text_inj describes.1 describes'.1 (describes.2.trans describes'.2.symm)
  · unfold parseAdhoc
    cases found : HostSpec.read? (Text.trim line.toList) with
    | none => rfl
    | some d =>
      obtain ⟨f, describes, -⟩ := read.mp found
      exact absurd ⟨f, describes⟩ none_

end Flotilla
