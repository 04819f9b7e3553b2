import Flotilla.Proofs.Inventory.Description
import Flotilla.Proofs.Text.Base64
import Flotilla.Proofs.Text.Blank
import Flotilla.Proofs.Text.Decimal
import Flotilla.Proofs.Tunnel.Answer

/-!
# Requests to HTTP proxies

A request is the head of a message: lines without line breaks in them, and a blank line behind.
`request_settled` says for every host description, port and credentials that the request is such a
head of just one list of lines, that the blank line is the only one, and what the lines name: the
host of the description and the port, and the credentials if there are some.
-/

namespace Flotilla

open Text (isBlank)

/-! ### Targets -/

namespace HostForm

theorem exists_of_parseAdhoc {line : String} {s : Server} (read : parseAdhoc line = .ok s) :
    ∃ f : HostForm, f.IsValid ∧ s.addr = some (String.ofList f.host) := by
  unfold parseAdhoc at read
  split at read
  next => cases read
  next d found =>
    cases read
    obtain ⟨f, valid, -, rfl⟩ := HostSpec.read?_eq_some_iff.mp found
    exact ⟨f, valid, rfl⟩

/-- A line that is a description and nothing else is read as the server that is described. -/
theorem parseAdhoc_eq {f : HostForm} (valid : f.IsValid) {line : String}
    (whole : Text.trim line.toList = f.text) : parseAdhoc line = .ok f.server := by
  have read : HostSpec.read? (Text.trim line.toList) = some f.spec :=
    HostSpec.read?_eq_some_iff.mpr ⟨f, valid, whole.symm, rfl⟩
  unfold parseAdhoc
  rw [read]
  simp [server, spec, Function.comp_def]

theorem number_toDigits (n : Nat) : number (Nat.toDigits 10 n) = n := by
  rw [← HostSpec.digitsValue_eq, Text.digitsValue_toDigits]

theorem isPort_toDigits (port : UInt16) : IsPort (Nat.toDigits 10 port.toNat) := by
  refine ⟨Nat.toDigits_ne_nil, fun c member => ?_, ?_⟩
  · exact Nat.isDigit_of_mem_toDigits (by decide) (by decide) member
  · rw [number_toDigits]
    exact Nat.le_of_lt_succ port.toNat_lt

/-- A host and a port as they are described, the host in brackets if it has colons. -/
def target (host : List Char) (port : UInt16) : HostForm where
  user := none
  bracketed := host.contains ':'
  host := host
  digits := some (Nat.toDigits 10 port.toNat)

theorem IsValid.isAddress_or_isHost {f : HostForm} (valid : f.IsValid) :
    IsAddress f.host ∨ IsHost f.host := by
  have isHost := valid.host
  split at isHost
  · exact .inl isHost
  · exact .inr isHost

theorem IsAddress.visible {host : List Char} (isAddress : IsAddress host) :
    ∀ c ∈ host, c ∉ ['@', '[', ']'] ∧ isBlank c = false := by
  intro c member
  have all : "0123456789abcdefABCDEF:.".toList.all
      (fun c => c ∉ ['@', '[', ']'] ∧ isBlank c = false) := by decide
  simpa using List.all_eq_true.mp all c (isAddress.2 c member)

/-- The host of a description can be described with any port. -/
theorem isValid_target {f : HostForm} (valid : f.IsValid) (port : UInt16) :
    (target f.host port).IsValid := by
  refine ⟨by simp [target], ?_, ?_⟩
  · by_cases colon : ':' ∈ f.host
    · rw [target, if_pos (List.contains_iff_mem.mpr colon)]
      refine valid.isAddress_or_isHost.resolve_right fun isHost => ?_
      exact (isHost.2 ':' colon).1 (by decide)
    · rw [target, if_neg (List.contains_iff_mem.not.mpr colon)]
      rcases valid.isAddress_or_isHost with isAddress | isHost
      · refine ⟨isAddress.1, fun c member => ?_⟩
        obtain ⟨outside, visible⟩ := isAddress.visible c member
        refine ⟨List.not_mem_cons_of_ne_of_not_mem ?_ outside, visible⟩
        rintro rfl
        exact colon member
      · exact isHost
  · rintro ds ⟨⟩
    exact isPort_toDigits port

theorem visible_toDigits {n : Nat} : ∀ c ∈ Nat.toDigits 10 n, isBlank c = false := by
  intro c member
  have digit : c.isDigit := Nat.isDigit_of_mem_toDigits (by decide) (by decide) member
  simp only [Char.isDigit, Bool.and_eq_true, decide_eq_true_eq] at digit
  have low : '0'.toNat ≤ c.toNat := digit.1
  have high : c.toNat ≤ '9'.toNat := digit.2
  simp at low high
  simp [isBlank]
  omega

theorem visible_target {f : HostForm} (valid : f.IsValid) (port : UInt16) :
    ∀ c ∈ (target f.host port).text, isBlank c = false := by
  have inside : ∀ c ∈ f.host, isBlank c = false := fun c member =>
    valid.isAddress_or_isHost.elim (fun h => (h.visible c member).2) fun h => (h.2 c member).2
  have whole (bracketed : Bool) : ∀ c ∈ hostText bracketed f.host, isBlank c = false := by
    cases bracketed with
    | true =>
      have closing : ∀ c ∈ [']'], isBlank c = false := List.forall_mem_singleton.mpr (by decide)
      exact List.forall_mem_cons.mpr ⟨by decide, List.forall_mem_append.mpr ⟨inside, closing⟩⟩
    | false => exact inside
  have behind : ∀ c ∈ ':' :: Nat.toDigits 10 port.toNat, isBlank c = false :=
    List.forall_mem_cons.mpr ⟨by decide, visible_toDigits⟩
  exact List.forall_mem_append.mpr ⟨by simp [target, userText],
    List.forall_mem_append.mpr ⟨whole _, behind⟩⟩

end HostForm

namespace Http

theorem toList_authority (host : String) (port : UInt16) :
    (authority host port).toList = (HostForm.target host.toList port).text := by
  have contains : host.contains ':' = host.toList.contains ':' := by simp
  unfold authority HostForm.target HostForm.text
  rw [contains]
  cases host.toList.contains ':' with
  | true => simp [HostForm.userText, HostForm.hostText, HostForm.portText, toString]
  | false => simp [HostForm.userText, HostForm.hostText, HostForm.portText, toString]

/-- What is named to a proxy is a description of the same host. -/
theorem parseAdhoc_authority {line : String} {s : Server} (read : parseAdhoc line = .ok s)
    (port : UInt16) : ∃ host, s.addr = some host ∧
      (∀ c ∈ (authority host port).toList, isBlank c = false) ∧
      parseAdhoc (authority host port) = .ok { addr := some host, port := some port } := by
  obtain ⟨f, valid, addr⟩ := HostForm.exists_of_parseAdhoc read
  have visible := HostForm.visible_target valid port
  have same := toList_authority (String.ofList f.host) port
  rw [String.toList_ofList] at same
  rw [← same] at visible
  refine ⟨_, addr, visible, ?_⟩
  have whole := (Text.trim_eq_self visible).trans same
  rw [HostForm.parseAdhoc_eq (HostForm.isValid_target valid port) whole]
  simp [HostForm.server, HostForm.target, HostForm.number_toDigits]

/-! ### Heads of messages -/

/-- A line of a head: not blank, and without line breaks. -/
def IsHeadLine (l : Bytes) : Prop := l ≠ [] ∧ 13 ∉ l ∧ 10 ∉ l

/-- The lines of a head with their ends, and the blank line behind them. -/
def headBytes (lines : List Bytes) : Bytes := (lines.map (· ++ [13, 10])).flatten ++ [13, 10]

/-- Bytes are the head of a message with these lines. -/
structure IsHead (written : Bytes) (lines : List String) : Prop where
  whole : written = headBytes (lines.map utf8)
  lines : ∀ l ∈ lines, IsHeadLine (utf8 l)

theorem headBytes_cons (l : Bytes) (lines : List Bytes) :
    headBytes (l :: lines) = l ++ 13 :: 10 :: headBytes lines := by
  simp [headBytes]

theorem isLine_of_isHeadLine {l : Bytes} (line : IsHeadLine l) : IsLine (l ++ [13, 10]) :=
  ⟨l ++ [13], by simp [line.2.2], by simp⟩

theorem headBytes_inj {lines lines' : List Bytes} (clear : ∀ l ∈ lines, IsHeadLine l)
    (clear' : ∀ l ∈ lines', IsHeadLine l) (same : headBytes lines = headBytes lines') :
    lines = lines' := by
  have blank {l : Bytes} {lines : List Bytes} (line : IsHeadLine l) :
      headBytes [] ≠ headBytes (l :: lines) := by
    intro same
    rw [headBytes_cons] at same
    obtain ⟨c, r, rfl⟩ := List.exists_cons_of_ne_nil line.1
    exact line.2.1 (List.mem_cons.mpr (.inl (List.cons.inj same).1))
  induction lines generalizing lines' with
  | nil =>
    cases lines' with
    | nil => rfl
    | cons m lines' => exact absurd same (blank (clear' m List.mem_cons_self))
  | cons l lines ih =>
    obtain ⟨line, clear⟩ := List.forall_mem_cons.mp clear
    cases lines' with
    | nil => exact absurd same.symm (blank line)
    | cons m lines' =>
      obtain ⟨line', clear'⟩ := List.forall_mem_cons.mp clear'
      have whole : (l ++ [13, 10]) ++ headBytes lines = (m ++ [13, 10]) ++ headBytes lines' := by
        simpa [headBytes_cons] using same
      obtain ⟨first, rest⟩ := append_inj_of_isLine (isLine_of_isHeadLine line)
        (isLine_of_isHeadLine line') whole
      rw [List.append_cancel_right first, ih clear clear' rest]

/-- A line break behind bytes without one is that of another line break or comes before it. -/
theorem append_break_eq_iff {l rest a more : Bytes} (clear : 13 ∉ l) :
    l ++ 13 :: 10 :: rest = a ++ 13 :: 10 :: more ↔
      a = l ∧ rest = more ∨ ∃ b, a = l ++ 13 :: 10 :: b ∧ rest = b ++ 13 :: 10 :: more := by
  constructor
  · intro same
    induction l generalizing a with
    | nil =>
      match a with
      | [] => exact .inl ⟨rfl, by simpa using same⟩
      | [x] => simp at same
      | x :: y :: b =>
        obtain ⟨rfl, rfl, rest⟩ : 13 = x ∧ 10 = y ∧ rest = b ++ 13 :: 10 :: more := by
          simpa using same
        exact .inr ⟨b, rfl, rest⟩
    | cons c l ih =>
      obtain ⟨other, clear⟩ : 13 ≠ c ∧ 13 ∉ l := by simpa using clear
      cases a with
      | nil => exact absurd (List.cons.inj same).1.symm other
      | cons x a =>
        obtain ⟨rfl, later⟩ : c = x ∧ l ++ 13 :: 10 :: rest = a ++ 13 :: 10 :: more := by
          simpa using same
        rcases ih clear later with ⟨rfl, here⟩ | ⟨b, rfl, here⟩
        · exact .inl ⟨rfl, here⟩
        · exact .inr ⟨b, rfl, here⟩
  · rintro (⟨rfl, rfl⟩ | ⟨b, rfl, rfl⟩)
    · rfl
    · simp

/-- Two line breaks stand behind each other at the end of a head, and nowhere else. -/
theorem exists_headBytes_eq_iff {l : Bytes} {lines : List Bytes} (line : IsHeadLine l)
    (clear : ∀ m ∈ lines, IsHeadLine m) : ∃ front, ∀ a b,
      headBytes (l :: lines) = a ++ 13 :: 10 :: 13 :: 10 :: b ↔ a = front ∧ b = [] := by
  induction lines generalizing l with
  | nil =>
    refine ⟨l, fun a b => ?_⟩
    rw [headBytes_cons, append_break_eq_iff line.2.1]
    constructor
    · rintro (⟨rfl, same⟩ | ⟨c, rfl, same⟩)
      · exact ⟨rfl, by simpa [headBytes] using same.symm⟩
      · have := congrArg List.length same
        simp [headBytes] at this
        omega
    · rintro ⟨rfl, rfl⟩
      exact .inl ⟨rfl, rfl⟩
  | cons m lines ih =>
    obtain ⟨next, clear⟩ := List.forall_mem_cons.mp clear
    obtain ⟨front, only⟩ := ih next clear
    refine ⟨l ++ 13 :: 10 :: front, fun a b => ?_⟩
    rw [headBytes_cons, append_break_eq_iff line.2.1]
    constructor
    · rintro (⟨rfl, same⟩ | ⟨c, rfl, same⟩)
      · -- The next line is not blank.
        rw [headBytes_cons] at same
        obtain ⟨x, r, rfl⟩ := List.exists_cons_of_ne_nil next.1
        exact absurd (List.mem_cons.mpr (.inl (List.cons.inj same).1.symm)) next.2.1
      · obtain ⟨rfl, rfl⟩ := (only c b).mp same
        exact ⟨rfl, rfl⟩
    · rintro ⟨rfl, rfl⟩
      exact .inr ⟨front, rfl, (only front []).mpr ⟨rfl, rfl⟩⟩

/-! ### Requests -/

/-- The fields that prove who asks: none, or a user and a password in Base64. -/
def Authorizes (credentials : Option (String × String)) (fields : List String) : Prop :=
  match credentials with
  | none => fields = []
  | some (user, password) => ∃ token, fields = ["Proxy-Authorization: Basic " ++ token] ∧
      Base64.decode token = .ok (utf8 (user ++ ":" ++ password))

/-- The lines of a request for a tunnel to `target`. -/
def requestLines (target : String) (fields : List String) : List String :=
  ("CONNECT " ++ target ++ " HTTP/1.1") :: ("Host: " ++ target) :: fields

theorem clear_of_visible {s : String} (visible : ∀ c ∈ s.toList, isBlank c = false) :
    13 ∉ utf8 s ∧ 10 ∉ utf8 s := by
  have absent {d : Char} (ascii : d.toNat < 128) (blank : isBlank d) :
      UInt8.ofNat d.toNat ∉ utf8 s := by
    intro member
    obtain ⟨c, here, byte⟩ := List.mem_flatMap.mp member
    rw [Utf8.eq_of_mem_utf8EncodeChar ascii byte] at here
    rw [visible d here] at blank
    cases blank
  exact ⟨@absent '\r' (by decide) (by decide), @absent '\n' (by decide) (by decide)⟩

theorem clear_encode (s : Bytes) : 13 ∉ utf8 (Base64.encode s) ∧ 10 ∉ utf8 (Base64.encode s) := by
  rw [Base64.utf8_encode]
  constructor
  all_goals
    intro member
    have := (Base64.isWritten_of_mem member).ascii
    simp at this

theorem IsHeadLine.append {l m : Bytes} (line : IsHeadLine l) (clear : 13 ∉ m ∧ 10 ∉ m) :
    IsHeadLine (l ++ m) := by
  refine ⟨List.append_ne_nil_of_left_ne_nil line.1 m, ?_, ?_⟩
  · exact List.not_mem_append line.2.1 clear.1
  · exact List.not_mem_append line.2.2 clear.2

theorem isHeadLine_of_mem_requestLines {target : String} {fields : List String}
    (visible : ∀ c ∈ target.toList, isBlank c = false)
    (clear : ∀ l ∈ fields, IsHeadLine (utf8 l)) :
    ∀ l ∈ requestLines target fields, IsHeadLine (utf8 l) := by
  have words : IsHeadLine (utf8 "CONNECT ") ∧ IsHeadLine (utf8 " HTTP/1.1") ∧
      IsHeadLine (utf8 "Host: ") := by
    unfold IsHeadLine
    decide
  refine List.forall_mem_cons.mpr ⟨?_, List.forall_mem_cons.mpr ⟨?_, clear⟩⟩
  · rw [utf8_append, utf8_append]
    exact (words.1.append (clear_of_visible visible)).append words.2.1.2
  · rw [utf8_append]
    exact words.2.2.append (clear_of_visible visible)

theorem utf8_lineEnd : utf8 lineEnd = [13, 10] := by decide

theorem headBytes_requestLines (target : String) (fields : List String) :
    headBytes ((requestLines target fields).map utf8) =
      utf8 ("CONNECT " ++ target ++ " HTTP/1.1" ++ lineEnd ++ "Host: " ++ target ++ lineEnd) ++
        headBytes (fields.map utf8) := by
  simp [requestLines, headBytes_cons, utf8_lineEnd]

theorem exists_authorizes (credentials : Option (String × String)) : ∃ fields,
    Authorizes credentials fields ∧ (∀ l ∈ fields, IsHeadLine (utf8 l)) ∧
      utf8 (credentials.elim "" authorization ++ lineEnd) = headBytes (fields.map utf8) := by
  cases credentials with
  | none => exact ⟨[], rfl, by simp, utf8_lineEnd⟩
  | some credentials =>
    obtain ⟨user, password⟩ := credentials
    refine ⟨_, ⟨_, rfl, Base64.decode_encode _⟩, List.forall_mem_singleton.mpr ?_, ?_⟩
    · have word : IsHeadLine (utf8 "Proxy-Authorization: Basic ") := by
        unfold IsHeadLine
        decide
      rw [utf8_append]
      exact word.append (clear_encode _)
    · have line : authorization (user, password) = "Proxy-Authorization: Basic " ++
          Base64.encode (utf8 (user ++ ":" ++ password)) ++ lineEnd := rfl
      rw [Option.elim_some, line]
      simp [headBytes, utf8_lineEnd]

/-- For every host description a proxy is asked for a tunnel to the host that is described.  The
request is the head of a message with these lines and no others. -/
theorem request_settled {line : String} {s : Server} (read : parseAdhoc line = .ok s)
    (port : UInt16) (credentials : Option (String × String)) :
    ∃ host target fields, s.addr = some host ∧
      parseAdhoc target = .ok { addr := some host, port := some port } ∧
      Authorizes credentials fields ∧
      (∀ lines, IsHead (utf8 (request host port credentials)) lines ↔
        lines = requestLines target fields) ∧
      ∃ front, ∀ a b, utf8 (request host port credentials) = a ++ [13, 10, 13, 10] ++ b ↔
        a = front ∧ b = [] := by
  obtain ⟨host, addr, visible, again⟩ := parseAdhoc_authority read port
  obtain ⟨fields, authorizes, clear, proof⟩ := exists_authorizes credentials
  have all := isHeadLine_of_mem_requestLines visible clear
  have written : utf8 (request host port credentials) =
      headBytes ((requestLines (authority host port) fields).map utf8) := by
    rw [headBytes_requestLines, ← proof]
    simp [request]
  refine ⟨host, _, fields, addr, again, authorizes, fun lines => ⟨fun head => ?_, ?_⟩, ?_⟩
  · have same := headBytes_inj (by simpa using head.lines) (by simpa using all)
      (head.whole.symm.trans written)
    exact List.map_injective_iff.mpr (fun _ _ => utf8_inj.mp) same
  · rintro rfl
    exact ⟨written, all⟩
  · rw [written]
    simp only [List.append_assoc, List.cons_append, List.nil_append]
    obtain ⟨first, others⟩ := List.forall_mem_cons.mp all
    exact exists_headBytes_eq_iff first (List.forall_mem_map.mpr others)

/-- An address stands in brackets again, and the user of the description is left out. -/
theorem request_settled_bracketed :
    let s : Server := { addr := some "fe80::1", port := some 22, user := some "root" }
    parseAdhoc "root@[fe80::1]:22" = .ok s ∧ ∃ target fields,
      parseAdhoc target = .ok { addr := some "fe80::1", port := some 443 } ∧
      Authorizes (some ("ada", "p:w")) fields ∧
      ∀ lines, IsHead (utf8 (request "fe80::1" 443 (some ("ada", "p:w")))) lines ↔
        lines = requestLines target fields := by
  intro s
  have read : parseAdhoc "root@[fe80::1]:22" = .ok s := by decide +kernel
  obtain ⟨host, target, fields, ⟨⟩, again, authorizes, head, -⟩ :=
    request_settled read 443 (some ("ada", "p:w"))
  exact ⟨read, target, fields, again, authorizes, head⟩

end Http

end Flotilla
