import Flotilla.HostKey.KnownHosts
import Flotilla.Proofs.Failure
import Flotilla.Proofs.Text.Base64
import Flotilla.Proofs.Text.Lines

/-!
# What a list of known hosts says after a key is learned

A learned line is read back as exactly the key that was learned, for exactly the names that are
listed as its host is; all that the list said before stays.
-/

namespace Flotilla

/-- Whether a text is one printable word. -/
def IsWord (s : String) : Prop := ∀ c ∈ s.toList, 33 ≤ c.toNat ∧ c.toNat < 127

instance (s : String) : Decidable (IsWord s) :=
  List.decidableBAll (fun c : Char => 33 ≤ c.toNat ∧ c.toNat < 127) s.toList

namespace Key

theorem isWord_of_isPrivateName {name : String} (allowed : isPrivateName name) : IsWord name := by
  unfold isPrivateName at allowed
  split at allowed
  · intro c member
    simp only [Bool.and_eq_true, List.all_eq_true, decide_eq_true_eq] at allowed
    exact (allowed.2 c member).1
  · exact absurd allowed Bool.false_ne_true

theorem isWord_of_readMaterial {name : String} {s : Bytes} {r : Unit × Bytes}
    (read : readMaterial name s = .ok r) : IsWord name := by
  unfold readMaterial at read
  split at read
  case h_9 =>
    split at read
    · exact isWord_of_isPrivateName ‹_›
    · cases read
  all_goals decide

end Key

/-- The name of an algorithm is one printable word. -/
theorem PublicKey.isWord_algorithm (k : PublicKey) : IsWord k.algorithm := by
  obtain ⟨⟨algorithm, rest⟩, read, whole⟩ := bind_eq_ok.mp k.encodes
  obtain ⟨⟨name, s⟩, -, read⟩ := bind_eq_ok.mp read
  obtain ⟨⟨⟨⟩, t⟩, material, same⟩ := bind_eq_ok.mp read
  cases same
  dsimp only at whole
  split at whole
  · cases whole
    exact Key.isWord_of_readMaterial material
  · cases whole

namespace KnownHosts

/-! ### Names -/

/-- Whether a byte can stand in a name without being taken for anything else: it is no blank, no
comma, no bar and no number sign. -/
def IsNameByte (b : UInt8) : Prop := 45 ≤ b.toNat ∧ b.toNat < 123

/-- Whether a host may be listed under its own name. -/
def IsListable (host : String) : Prop := ∀ c ∈ host.toList, 45 ≤ c.toNat ∧ c.toNat < 123

instance (host : String) : Decidable (IsListable host) :=
  List.decidableBAll (fun c : Char => 45 ≤ c.toNat ∧ c.toNat < 123) host.toList

theorem isNameByte_of_mem_utf8 {s : String} (listable : IsListable s) {b : UInt8}
    (member : b ∈ utf8 s) : IsNameByte b := by
  have narrow : ∀ c ∈ s.toList, c.toNat < 128 := by
    intro c here
    have := listable c here
    omega
  obtain ⟨c, here, same⟩ := exists_of_mem_utf8 narrow member
  rw [IsNameByte, same]
  exact listable c here

theorem isListable_toString (n : Nat) : IsListable (toString n) := by
  intro c member
  have digit : c.isDigit := by
    rw [Nat.toString_eq_repr, Nat.toList_repr] at member
    exact Nat.isDigit_of_mem_toDigits (by decide) (by decide) member
  simp only [Char.isDigit, Bool.and_eq_true, decide_eq_true_eq] at digit
  have low : '0'.toNat ≤ c.toNat := digit.1
  have high : c.toNat ≤ '9'.toNat := digit.2
  simp at low high
  omega

theorem IsListable.append {s t : String} (first : IsListable s) (second : IsListable t) :
    IsListable (s ++ t) := by
  intro c member
  rw [String.toList_append, List.mem_append] at member
  exact member.elim (first c) (second c)

theorem isNameByte_of_mem_listedName {host : String} (listable : IsListable host) (port : UInt16)
    {b : UInt8} (member : b ∈ listedName host port) : IsNameByte b := by
  unfold listedName at member
  split at member
  · exact isNameByte_of_mem_utf8 listable member
  · have opening : IsListable "[" := by decide
    have closing : IsListable "]:" := by decide
    have number := isListable_toString port.toNat
    exact isNameByte_of_mem_utf8 (((opening.append listable).append closing).append number) member

/-! ### Fields of lines -/

theorem isNamed_iff {name hosts : Bytes} (plain : ∀ b ∈ hosts, IsNameByte b) :
    isNamed name hosts ↔ name = hosts := by
  have single : parts comma hosts = [hosts] := by
    refine List.splitOn_eq_singleton fun member => ?_
    have := (plain _ member).1
    simp [comma] at this
  have shown : ¬ utf8 "|1|" <+: hosts := by
    rintro ⟨r, rfl⟩
    have start : utf8 "|1|" = [124, 49, 124] := by decide
    have small := (plain 124 (by simp [start])).2
    simp at small
  simp [isNamed, single, shown]

/-- The fields of a line that gets an end are the same, but for the end of the last one. -/
theorem parts_append_end (line : Bytes) : ∃ front last,
    parts space line = front ++ [last] ∧ parts space (line ++ [10]) = front ++ [last ++ [10]] := by
  induction line with
  | nil => exact ⟨[], [], by decide⟩
  | cons b r ih =>
    obtain ⟨front, last, before, after⟩ := ih
    unfold parts at before after ⊢
    rw [List.cons_append, List.splitOn_cons_eq_if_modifyHead, List.splitOn_cons_eq_if_modifyHead,
      before, after]
    split
    · exact ⟨[] :: front, last, rfl, rfl⟩
    · cases front with
      | nil => exact ⟨[], b :: last, rfl, rfl⟩
      | cons field front => exact ⟨(b :: field) :: front, last, rfl, rfl⟩

/-- A key field is the same with the end of its line. -/
theorem readKey_append_end (n : Nat) (s : Bytes) : readKey n (s ++ [10]) = readKey n s := by
  have ends : Base64.Wrapped.isLineEnd 10 := rfl
  simp only [readKey, Base64.Wrapped.decode_append_lineEnd s ends]

theorem keyField?_append_end (name line : Bytes) :
    keyField? name (line ++ [10]) = keyField? name line ∨
      keyField? name (line ++ [10]) = (keyField? name line).map (· ++ [10]) := by
  obtain ⟨front, last, before, after⟩ := parts_append_end line
  have comment : (line ++ [10]).head? = some numberSign ↔ line.head? = some numberSign := by
    cases line with
    | nil => decide
    | cons => rfl
  unfold keyField?
  rw [before, after]
  simp only [comment]
  split
  · exact .inl rfl
  · match front with
    | [] => exact .inl rfl
    | [_] => exact .inl rfl
    | [hosts, _] =>
      right
      simp only [List.cons_append, List.nil_append]
      split <;> rfl
    | _ :: _ :: _ :: _ => exact .inl rfl

/-! ### Keys of lines -/

/-- The key of a host in line `n`. -/
def keyOfLine (name : Bytes) (n : Nat) (line : Bytes) : Except Fault (List (Nat × PublicKey)) :=
  match Utf8.decode line with
  | .error _ => .error .notText
  | .ok _ =>
    match keyField? name line with
    | some key => do return [(n, ← readKey n key)]
    | none => .ok []

theorem keyOfLine_nil (name : Bytes) (n : Nat) : keyOfLine name n [] = .ok [] := by
  have text : Utf8.decode [] = .ok "" := Utf8.decode_eq_ok_iff.mpr rfl
  simp [keyOfLine, keyField?, parts, text]

theorem keysFrom_cons (name : Bytes) (n : Nat) (line : Bytes) (later : List Bytes) :
    keysFrom name n (line :: later) = do
      let here ← keyOfLine name n line
      let rest ← keysFrom name (n + 1) later
      return here ++ rest := by
  rw [keysFrom, keyOfLine]
  cases Utf8.decode line with
  | error => rfl
  | ok =>
    cases keyField? name line with
    | none => rfl
    | some key =>
      dsimp only
      cases readKey n key <;> rfl

theorem keysFrom_append (name : Bytes) (n : Nat) (front back : List Bytes) :
    keysFrom name n (front ++ back) = do
      let first ← keysFrom name n front
      let second ← keysFrom name (n + front.length) back
      return first ++ second := by
  induction front generalizing n with
  | nil => cases same : keysFrom name n back <;> simp [keysFrom, same]
  | cons line front ih =>
    have number : n + 1 + front.length = n + (line :: front).length := by
      rw [List.length_cons]
      omega
    rw [List.cons_append, keysFrom_cons, keysFrom_cons, ih, number]
    simp only [bind_assoc, pure_bind, List.append_assoc]

theorem keyOfLine_append_end {name : Bytes} {n : Nat} {line : Bytes} {key : List (Nat × PublicKey)}
    (read : keyOfLine name n line = .ok key) : keyOfLine name n (line ++ [10]) = .ok key := by
  unfold keyOfLine at read ⊢
  split at read
  · cases read
  next t text =>
    have longer : Utf8.decode (line ++ [10]) = .ok (t ++ "\n") := by
      rw [Utf8.decode_eq_ok_iff, utf8_append, Utf8.decode_eq_ok_iff.mp text]
      rfl
    simp only [longer]
    rcases keyField?_append_end name line with same | ended
    · rw [same]
      exact read
    · rw [ended]
      cases field : keyField? name line with
      | none => simpa [field] using read
      | some s => simpa [field, readKey_append_end] using read

/-- A line end behind a list changes nothing that it says. -/
theorem keysFrom_one (name : Bytes) (n : Nat) (line : Bytes) :
    keysFrom name n [line] = keyOfLine name n line := by
  rw [keysFrom_cons]
  cases keyOfLine name n line <;> simp [keysFrom]

theorem keysFrom_append_eq_ok {name : Bytes} {n : Nat} {front back : List Bytes}
    {listed : List (Nat × PublicKey)} : keysFrom name n (front ++ back) = .ok listed ↔
      ∃ first second, keysFrom name n front = .ok first ∧
        keysFrom name (n + front.length) back = .ok second ∧ first ++ second = listed := by
  simp only [keysFrom_append, bind_eq_ok, pure_eq_ok, Except.ok.injEq]
  constructor
  · rintro ⟨first, here, second, there, whole⟩
    exact ⟨first, second, here, there, whole⟩
  · rintro ⟨first, second, here, there, whole⟩
    exact ⟨first, here, second, there, whole⟩

theorem keysFrom_lines_append_end {name : Bytes} {list : Bytes} {listed : List (Nat × PublicKey)}
    (lacks : list.getLast? ≠ some 10)
    (read : keysFrom name 1 (Text.linesWithEnds 10 list) = .ok listed) :
    keysFrom name 1 (Text.linesWithEnds 10 (list ++ [10])) = .ok listed := by
  by_cases empty : list = []
  · subst empty
    cases read
    exact (keysFrom_one ..).trans (keyOfLine_append_end (keyOfLine_nil name 1))
  · obtain ⟨front, last, before, after⟩ := Text.linesWithEnds_append_stop empty lacks
    rw [before, keysFrom_append_eq_ok] at read
    obtain ⟨first, second, here, there, whole⟩ := read
    rw [keysFrom_one] at there
    rw [after, keysFrom_append_eq_ok]
    exact ⟨first, second, here, (keysFrom_one ..).trans (keyOfLine_append_end there), whole⟩

/-! ### Learning -/

theorem exists_listedName (host : String) (port : UInt16) : ∃ t, listedName host port = utf8 t := by
  unfold listedName
  split
  · exact ⟨host, rfl⟩
  · exact ⟨_, rfl⟩

theorem visible_algorithm (key : PublicKey) : ∀ b ∈ utf8 key.algorithm, 32 < b.toNat := by
  intro b member
  have word := key.isWord_algorithm
  obtain ⟨c, here, same⟩ := exists_of_mem_utf8 (fun c here => by have := word c here; omega) member
  have := word c here
  omega

theorem visible_encoded (key : PublicKey) :
    ∀ b ∈ utf8 (Base64.encode key.encoded), 32 < b.toNat := by
  intro b member
  rw [Base64.utf8_encode] at member
  have := (Base64.isWritten_of_mem member).ascii
  omega

section

variable {host : String} (listable : IsListable host) (port : UInt16) (key : PublicKey)

include listable in
theorem visible_listedName : ∀ b ∈ listedName host port, 32 < b.toNat := by
  intro b member
  have := (isNameByte_of_mem_listedName listable port member).1
  omega

theorem entry_eq : entry host port key = listedName host port ++ space ::
    (utf8 key.algorithm ++ space :: (utf8 (Base64.encode key.encoded) ++ [10])) := by
  have blank : utf8 " " = [space] := by decide
  simp [entry, PublicKey.line, blank]

theorem decode_entry : ∃ t, Utf8.decode (entry host port key) = .ok t := by
  obtain ⟨name, named⟩ := exists_listedName host port
  refine ⟨name ++ " " ++ (key.algorithm ++ " " ++ Base64.encode key.encoded) ++ "\n", ?_⟩
  rw [Utf8.decode_eq_ok_iff, entry, named, PublicKey.line]
  simp only [utf8_append]
  rfl

include listable in
/-- The fields of a learned line: the name of the host, the algorithm and the key. -/
theorem parts_entry : parts space (entry host port key) =
    [listedName host port, utf8 key.algorithm, utf8 (Base64.encode key.encoded) ++ [10]] := by
  have name : space ∉ listedName host port := fun member =>
    absurd (visible_listedName listable port _ member) (by decide)
  have algorithm : space ∉ utf8 key.algorithm := fun member =>
    absurd (visible_algorithm key _ member) (by decide)
  have encoded : space ∉ utf8 (Base64.encode key.encoded) ++ [10] := by
    intro member
    rcases List.mem_append.mp member with member | member
    · exact absurd (visible_encoded key _ member) (by decide)
    · exact absurd member (by decide)
  rw [entry_eq, parts, List.splitOn_append_cons_self_of_not_mem name,
    List.splitOn_append_cons_self_of_not_mem algorithm, List.splitOn_eq_singleton encoded]

include listable in
theorem lines_entry : Text.linesWithEnds 10 (entry host port key) = [entry host port key] := by
  have whole : entry host port key = (listedName host port ++ space :: (utf8 key.algorithm ++
      space :: utf8 (Base64.encode key.encoded))) ++ [10] := by
    rw [entry_eq]
    simp
  rw [whole]
  refine Text.linesWithEnds_line fun member => ?_
  simp only [List.mem_append, List.mem_cons] at member
  rcases member with member | member | member | member | member
  · exact absurd (visible_listedName listable port _ member) (by decide)
  · exact absurd member (by decide)
  · exact absurd (visible_algorithm key _ member) (by decide)
  · exact absurd member (by decide)
  · exact absurd (visible_encoded key _ member) (by decide)

include listable in
theorem keyField?_entry (name : Bytes) : keyField? name (entry host port key) =
    if name = listedName host port then some (utf8 (Base64.encode key.encoded) ++ [10])
    else none := by
  have comment : (entry host port key).head? ≠ some numberSign := by
    intro first
    have start : numberSign ∈ listedName host port ∨ numberSign = space := by
      rw [entry_eq] at first
      cases here : listedName host port with
      | nil => simp [here] at first; exact .inr first.symm
      | cons b r => simp [here] at first; exact .inl (by simp [first])
    rcases start with member | same
    · have := isNameByte_of_mem_listedName listable port member
      exact absurd this.1 (by decide)
    · exact absurd same (by decide)
  have named : isNamed name (listedName host port) ↔ name = listedName host port :=
    isNamed_iff fun _ => isNameByte_of_mem_listedName listable port
  rw [keyField?, if_neg comment, parts_entry listable]
  dsimp only
  by_cases same : name = listedName host port
  · rw [if_pos (named.mpr same), if_pos same]
  · rw [if_neg fun h => same (named.mp h), if_neg same]

include listable in
/-- The line that is learned for a host holds its key, for all that are listed under its name. -/
theorem keyOfLine_entry (name : Bytes) (n : Nat) : keyOfLine name n (entry host port key) =
    .ok (if name = listedName host port then [(n, key)] else []) := by
  obtain ⟨t, text⟩ : ∃ t, Utf8.decode (entry host port key) = .ok t := decode_entry port key
  have read : readKey n (utf8 (Base64.encode key.encoded) ++ [10]) = .ok key := by
    rw [readKey_append_end, readKey, Base64.Wrapped.decode_encode]
    simp only [PublicKey.ofBytes_encoded]
  rw [keyOfLine, text, keyField?_entry listable]
  by_cases same : name = listedName host port
  · simp [same, read]
  · simp [same]

end

/-- After a key is learned, the hosts that are listed under its name have one key more, and
nothing changes for the others. -/
theorem keys_learn {list : Bytes} {host host' : String} {port : UInt16}
    {listed : List (Nat × PublicKey)} (read : keys list host port = .ok listed)
    (listable : IsListable host') (port' : UInt16) (key : PublicKey) :
    ∃ n, keys (learn list host' port' key) host port = .ok (listed ++
      if listedName host port = listedName host' port' then [(n, key)] else []) := by
  unfold keys at read ⊢
  -- The list with all its lines ended says what the list says.
  obtain ⟨closed, whole, ends, same⟩ : ∃ closed, learn list host' port' key =
      closed ++ entry host' port' key ∧ (∀ b ∈ closed.getLast?, b = 10) ∧
      keysFrom (listedName host port) 1 (Text.linesWithEnds 10 closed) = .ok listed := by
    unfold learn
    split
    next ends => exact ⟨list, by simp, by simp [ends], read⟩
    next lacks => exact ⟨list ++ [10], rfl, by simp, keysFrom_lines_append_end lacks read⟩
  rw [whole, Text.linesWithEnds_append ends, lines_entry listable, keysFrom_append, same]
  refine ⟨1 + (Text.linesWithEnds 10 closed).length, ?_⟩
  simp only [ok_bind, keysFrom_one, keyOfLine_entry listable, pure_eq_ok]

/-! ### Checking -/

section

variable {list : Bytes} {host : String} {port : UInt16} {key : PublicKey}

theorem check_eq_ok {listed : List (Nat × PublicKey)} (read : keys list host port = .ok listed)
    (only : ∀ e ∈ listed, e.2.algorithm = key.algorithm → e.2 = key) :
    check list host port key = .ok (listed.any fun e => e.2 = key) := by
  have none : (listed.find? fun e => e.2.algorithm = key.algorithm ∧ e.2 ≠ key) = none := by
    refine List.find?_eq_none.mpr fun e member => ?_
    simpa using only e member
  rw [check, read, ok_bind]
  simp only [none, pure_eq_ok]

theorem check_eq_changed {listed : List (Nat × PublicKey)} (read : keys list host port = .ok listed)
    {e : Nat × PublicKey} (member : e ∈ listed) (same : e.2.algorithm = key.algorithm)
    (other : e.2 ≠ key) : ∃ n, check list host port key = .error (.changed n) := by
  cases found : listed.find? fun e => e.2.algorithm = key.algorithm ∧ e.2 ≠ key with
  | none => simpa [same, other] using List.find?_eq_none.mp found e member
  | some e =>
    rw [check, read, ok_bind]
    exact ⟨e.1, by simp only [found, throw_eq_error]⟩

theorem only_of_check {b : Bool} (checked : check list host port key = .ok b) :
    ∃ listed, keys list host port = .ok listed ∧
      ∀ e ∈ listed, e.2.algorithm = key.algorithm → e.2 = key := by
  obtain ⟨listed, read, -⟩ := bind_eq_ok.mp checked
  refine ⟨listed, read, fun e member same => ?_⟩
  by_contra other
  obtain ⟨n, changed⟩ := check_eq_changed read member same other
  rw [changed] at checked
  cases checked

/-- A host is listed with its key when the list can be read, has that key and no other one of its
algorithm. -/
theorem check_eq_true_iff : check list host port key = .ok true ↔
    ∃ listed, keys list host port = .ok listed ∧
      (∀ e ∈ listed, e.2.algorithm = key.algorithm → e.2 = key) ∧ ∃ e ∈ listed, e.2 = key := by
  constructor
  · intro checked
    obtain ⟨listed, read, only⟩ := only_of_check checked
    rw [check_eq_ok read only] at checked
    exact ⟨listed, read, only, by simpa using checked⟩
  · rintro ⟨listed, read, only, here⟩
    rw [check_eq_ok read only]
    simpa using here

/-- A key is unknown when the list can be read and has no key of its algorithm. -/
theorem check_eq_false_iff : check list host port key = .ok false ↔
    ∃ listed, keys list host port = .ok listed ∧ ∀ e ∈ listed, e.2.algorithm ≠ key.algorithm := by
  constructor
  · intro checked
    obtain ⟨listed, read, only⟩ := only_of_check checked
    rw [check_eq_ok read only] at checked
    have absent : ∀ e ∈ listed, e.2 ≠ key := by simpa using checked
    exact ⟨listed, read, fun e member same => absent e member (only e member same)⟩
  · rintro ⟨listed, read, unknown⟩
    rw [check_eq_ok read fun e member same => absurd same (unknown e member)]
    have absent : ∀ e ∈ listed, e.2 ≠ key := fun e member same =>
      unknown e member (congrArg PublicKey.algorithm same)
    simpa using absent

/-- A host that is listed with its key may not come with another one of the algorithm. -/
theorem check_other (pinned : check list host port key = .ok true) {other : PublicKey}
    (same : other.algorithm = key.algorithm) (ne : other ≠ key) :
    ∃ n, check list host port other = .error (.changed n) := by
  obtain ⟨listed, read, -, e, member, rfl⟩ := check_eq_true_iff.mp pinned
  exact check_eq_changed read member same.symm ne.symm

/-- A key that is learned is known from then on. -/
theorem check_learn (unknown : check list host port key = .ok false) (listable : IsListable host) :
    check (learn list host port key) host port key = .ok true := by
  obtain ⟨listed, read, absent⟩ := check_eq_false_iff.mp unknown
  obtain ⟨n, after⟩ := keys_learn read listable port key
  rw [if_pos rfl] at after
  refine check_eq_true_iff.mpr ⟨_, after, fun e member same => ?_, (n, key), by simp⟩
  rcases List.mem_append.mp member with member | member
  · exact absurd same (absent e member)
  · rw [List.mem_singleton.mp member]

/-- A host stays listed with its key when another key is learned. -/
theorem check_learn_other (pinned : check list host port key = .ok true) {host' : String}
    {port' : UInt16} {key' : PublicKey} (unknown : check list host' port' key' = .ok false)
    (listable : IsListable host') :
    check (learn list host' port' key') host port key = .ok true := by
  obtain ⟨listed, read, only, known⟩ := check_eq_true_iff.mp pinned
  obtain ⟨n, after⟩ := keys_learn read listable port' key'
  refine check_eq_true_iff.mpr ⟨_, after, fun e member same => ?_, ?_⟩
  · rcases List.mem_append.mp member with member | member
    · exact only e member same
    · split at member
      next named =>
        -- The key that is learned is for the same host, which has a key of its algorithm already.
        obtain ⟨listed', read', absent⟩ := check_eq_false_iff.mp unknown
        have shared : listed' = listed := by
          unfold keys at read read'
          rw [named, read'] at read
          exact Except.ok.inj read
        obtain ⟨d, there, rfl⟩ := known
        rw [List.mem_singleton.mp member] at same
        exact absurd same.symm (absent d (shared ▸ there))
      next => cases member
  · obtain ⟨d, there, rfl⟩ := known
    exact ⟨d, List.mem_append_left _ there, rfl⟩

end

end KnownHosts

end Flotilla
