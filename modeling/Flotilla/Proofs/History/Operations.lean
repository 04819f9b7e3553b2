import Flotilla.Proofs.History.Commands
import Mathlib.Data.List.Induction
import Mathlib.Data.String.Basic

/-!
# Captures and what was done to them

A capture says of each host under each sequence number what the operations that name them say, in
their order: the first one gives the command, and all of them the output.  `after_answers` reads off
from this what is found, what the sequence numbers stand for and which one is the latest, and that
operations on different entries commute.
-/

namespace Flotilla.Capture

/-- What is done to a capture. -/
inductive Operation where
  | begin (sequence : Nat) (host command : String)
  | append (sequence : Nat) (host : String) (data : Bytes)

namespace Operation

def sequence : Operation → Nat
  | .begin n _ _ => n
  | .append n _ _ => n

def host : Operation → String
  | .begin _ host _ => host
  | .append _ host _ => host

/-- The command that an operation gives to an entry that it opens. -/
def command : Operation → String
  | .begin _ _ command => command
  | .append .. => ""

/-- The output that an operation adds. -/
def data : Operation → Bytes
  | .begin .. => []
  | .append _ _ data => data

def apply (o : Operation) (t : Capture) (now : Moment) : Capture :=
  match o with
  | .begin n host command => t.begin now n host command
  | .append n host data => t.append now n host data

/-- Whether an operation is one on the entry of a host under a sequence number. -/
def Names (o : Operation) (n : Nat) (host : String) : Prop := o.sequence = n ∧ o.host = host

instance (o : Operation) (n : Nat) (host : String) : Decidable (o.Names n host) :=
  inferInstanceAs (Decidable (_ ∧ _))

/-- An entry behind an operation on it. -/
def extend (o : Operation) (now : Moment) : Option Captured → Captured
  | none => ⟨now, o.command, o.data⟩
  | some c => { c with output := c.output ++ o.data }

end Operation

/-- Operations with the moments at which they are done, in their order. -/
abbrev Log := List (Moment × Operation)

/-- What is captured when all operations of a log are done. -/
def after (log : Log) : Capture := log.foldl (fun t x => x.2.apply t x.1) Table.empty

/-- The operations on one entry. -/
def named (log : Log) (n : Nat) (host : String) : Log := log.filter (·.2.Names n host)

/-- What operations on one entry say. -/
def told : Log → Option Captured
  | [] => none
  | (now, first) :: later =>
    some ⟨now, first.command, first.data ++ later.flatMap (·.2.data)⟩

/-- What is captured but for the moments. -/
def untimed (t : Capture) : Table Nat (Table String (String × Bytes)) :=
  t.map fun hosts => hosts.map fun c => (c.command, c.output)

/-- The first command that is not empty, in the order of the hosts, or the empty one. -/
inductive IsFirstCommand (found : String → Option Captured) : String → Prop where
  | first {host : String} {c : Captured} (here : found host = some c) (some_ : c.command ≠ "")
      (before : ∀ other d, other < host → found other = some d → d.command = "") :
      IsFirstCommand found c.command
  | none (all : ∀ host c, found host = some c → c.command = "") : IsFirstCommand found ""

variable {t : Capture} {log : Log} {n : Nat} {host : String}

/-! ### Operations -/

/-- An operation sets the entry that it names, unless that would stay as it is. -/
theorem Operation.apply_cases (o : Operation) (t : Capture) (now : Moment) :
    let c := o.extend now (t.entry? o.sequence o.host)
    o.apply t now = t.setEntry o.sequence o.host c ∨
      o.apply t now = t ∧ t.entry? o.sequence o.host = some c := by
  cases o with
  | begin n host command =>
    simp only [apply, Capture.begin, sequence, Operation.host]
    cases found : t.entry? n host with
    | none => exact .inl rfl
    | some c => exact .inr ⟨rfl, by simp [extend, Operation.data]⟩
  | append n host data =>
    left
    simp only [apply, Capture.append, sequence, Operation.host]
    cases t.entry? n host <;> rfl

/-- An operation extends the entry that it names, and leaves all others alone. -/
theorem entry?_apply (o : Operation) (t : Capture) (now : Moment) (n : Nat) (host : String) :
    entry? (o.apply t now) n host =
      if o.Names n host then some (o.extend now (t.entry? n host)) else t.entry? n host := by
  rcases o.apply_cases t now with set | ⟨kept, found⟩
  · rw [set, entry?_setEntry]
    by_cases names : o.Names n host
    · obtain ⟨rfl, rfl⟩ := names
      simp [Operation.Names]
    · have other : ¬ (n = o.sequence ∧ host = o.host) := fun ⟨number, name⟩ =>
        names ⟨number.symm, name.symm⟩
      rw [if_neg names, if_neg other]
  · rw [kept]
    split
    next names =>
      obtain ⟨rfl, rfl⟩ := names
      exact found
    next => rfl

/-- An entry that is there stays as it is when it is opened again. -/
theorem entry?_begin (t : Capture) (now : Moment) (n : Nat) (host command : String) {m : Nat}
    {other : String} {c : Captured} (found : t.entry? m other = some c) :
    entry? (t.begin now n host command) m other = some c := by
  have opened := entry?_apply (.begin n host command) t now m other
  rw [found] at opened
  simpa [Operation.apply, Operation.extend, Operation.data] using opened

theorem isSome_find?_apply (o : Operation) (t : Capture) (now : Moment) (n : Nat) :
    ((o.apply t now).find? n).isSome ↔ o.sequence = n ∨ (t.find? n).isSome := by
  rcases o.apply_cases t now with set | ⟨kept, found⟩
  · rw [set, setEntry, Table.find?_insert]
    by_cases same : n = o.sequence
    · simp [same]
    · simp [same, Ne.symm same]
  · rw [kept]
    refine ⟨.inr, ?_⟩
    rintro (rfl | there)
    · obtain ⟨hosts, there, -⟩ := Option.bind_eq_some_iff.mp found
      simp [there]
    · exact there

theorem told_concat (log : Log) (now : Moment) (o : Operation) :
    told (log ++ [(now, o)]) = some (o.extend now (told log)) := by
  cases log with
  | nil => simp [told, Operation.extend]
  | cons x later => simp [told, Operation.extend]

theorem named_concat (log : Log) (now : Moment) (o : Operation) (n : Nat) (host : String) :
    named (log ++ [(now, o)]) n host =
      if o.Names n host then named log n host ++ [(now, o)] else named log n host := by
  unfold named
  rw [List.filter_append]
  by_cases names : o.Names n host <;> simp [names]

theorem after_concat (log : Log) (now : Moment) (o : Operation) :
    after (log ++ [(now, o)]) = o.apply (after log) now := by
  simp [after]

/-- What is captured of an entry is what the operations on it say. -/
theorem entry?_after (log : Log) (n : Nat) (host : String) :
    entry? (after log) n host = told (named log n host) := by
  induction log using List.reverseRecOn with
  | nil => rfl
  | append_singleton log x ih =>
    obtain ⟨now, o⟩ := x
    rw [after_concat, entry?_apply, ih, named_concat]
    split
    next => rw [told_concat]
    next => rfl

theorem isSome_find?_after (log : Log) (n : Nat) :
    ((after log).find? n).isSome ↔ ∃ x ∈ log, x.2.sequence = n := by
  induction log using List.reverseRecOn with
  | nil => simp [after]
  | append_singleton log x ih =>
    obtain ⟨now, o⟩ := x
    rw [after_concat, isSome_find?_apply, ih]
    simp [or_comm, or_and_right, exists_or]

/-! ### Operations on different entries -/

/-- An entry but for its moment. -/
def content? (c : Option Captured) : Option (String × Bytes) :=
  c.map fun c => (c.command, c.output)

theorem untimed_ext {s t : Capture} (present : ∀ n, (s.find? n).isSome ↔ (t.find? n).isSome)
    (same : ∀ n host, content? (s.entry? n host) = content? (t.entry? n host)) :
    untimed s = untimed t := by
  refine Table.ext_find? fun n => ?_
  rw [untimed, untimed, Table.find?_map, Table.find?_map]
  have present := present n
  have same := same n
  unfold entry? at same
  cases left : s.find? n with
  | none =>
    cases right : t.find? n with
    | none => rfl
    | some => simp [left, right] at present
  | some hosts =>
    cases right : t.find? n with
    | none => simp [left, right] at present
    | some hosts' =>
      refine congrArg some (Table.ext_find? fun host => ?_)
      rw [Table.find?_map, Table.find?_map]
      simpa [left, right, content?] using same host

theorem content?_extend {o : Operation} {now now' : Moment} {c d : Option Captured}
    (same : content? c = content? d) :
    content? (some (o.extend now c)) = content? (some (o.extend now' d)) := by
  cases c <;> cases d <;> simp_all [content?, Operation.extend]

/-- Operations on different entries commute, but for the moments. -/
theorem untimed_comm {o p : Operation} (differ : ¬ p.Names o.sequence o.host) (t : Capture)
    (a b a' b' : Moment) :
    untimed (p.apply (o.apply t a) b) = untimed (o.apply (p.apply t a') b') := by
  refine untimed_ext (fun n => ?_) fun n host => ?_
  · simp only [isSome_find?_apply]
    exact or_left_comm
  · simp only [entry?_apply]
    by_cases first : o.Names n host
    · obtain ⟨rfl, rfl⟩ := first
      have self : o.Names o.sequence o.host := ⟨rfl, rfl⟩
      simp only [if_neg differ, if_pos self]
      exact content?_extend rfl
    · simp only [if_neg first]
      split
      · exact content?_extend rfl
      · rfl

theorem content?_told {log log' : Log} (same : log.map (·.2) = log'.map (·.2)) :
    content? (told log) = content? (told log') := by
  have data (later : Log) : later.flatMap (·.2.data) = (later.map (·.2)).flatMap (·.data) := by
    rw [List.flatMap_map]
  cases log with
  | nil =>
    rw [List.map_eq_nil_iff.mp same.symm]
  | cons x later =>
    cases log' with
    | nil => cases same
    | cons y later' =>
      obtain ⟨first, rest⟩ := List.cons.inj same
      simp [told, content?, data, first, rest]

theorem exists_named {log : Log} :
    (∃ x ∈ log, x.2.sequence = n) ↔ ∃ host, (named log n host).map (·.2) ≠ [] := by
  simp only [ne_eq, List.map_eq_nil_iff, named, List.filter_eq_nil_iff, decide_eq_true_eq]
  push Not
  constructor
  · rintro ⟨x, member, same⟩
    exact ⟨x.2.host, x, member, same, rfl⟩
  · rintro ⟨host, x, member, same, -⟩
    exact ⟨x, member, same⟩

/-- Only the order of operations on the same entry matters. -/
theorem untimed_after {log log' : Log}
    (same : ∀ n host, (named log n host).map (·.2) = (named log' n host).map (·.2)) :
    untimed (after log) = untimed (after log') := by
  refine untimed_ext (fun n => ?_) fun n host => ?_
  · rw [isSome_find?_after, isSome_find?_after, exists_named, exists_named]
    simp only [same]
  · rw [entry?_after, entry?_after]
    exact content?_told (same n host)

/-! ### Commands and numbers -/

theorem IsFirstCommand.eq {found : String → Option Captured} {a b : String}
    (first : IsFirstCommand found a) (other : IsFirstCommand found b) : a = b := by
  cases first with
  | @first host c here some_ before =>
    cases other with
    | @first host' c' here' some_' before' =>
      rcases lt_trichotomy host host' with less | rfl | less
      · exact absurd (before' host c less here) some_
      · rw [Option.some.inj (here.symm.trans here')]
      · exact absurd (before host' c' less here') some_'
    | none all => exact absurd (all host c here) some_
  | none all =>
    cases other with
    | first here some_ => exact absurd (all _ _ here) some_
    | none => rfl

/-- The command of a sequence number is the first one that is not empty. -/
theorem isFirstCommand (hosts : Table String Captured) :
    IsFirstCommand hosts.find? (firstCommand hosts) := by
  have search : firstCommand hosts =
      ((hosts.entries.find? (·.2.command ≠ "")).map (·.2.command)).getD "" := by
    rw [firstCommand, Table.values, List.map_map, List.find?_map]
    rfl
  rw [search]
  cases found : hosts.entries.find? (·.2.command ≠ "") with
  | none =>
    refine .none fun host c here => ?_
    simpa using List.find?_eq_none.mp found _ ((hosts.find?_eq_some_iff host c).mp here)
  | some e =>
    obtain ⟨some_, front, back, whole, empty⟩ := List.find?_eq_some_iff_append.mp found
    have here : e ∈ hosts.entries := List.mem_of_find?_eq_some found
    refine .first ((hosts.find?_eq_some_iff e.1 e.2).mpr here) (by simpa using some_) ?_
    intro other d less there
    have member := (hosts.find?_eq_some_iff other d).mp there
    have ascending := hosts.ascending
    rw [whole] at member ascending
    rcases List.mem_append.mp member with before | behind
    · simpa using empty _ before
    · rcases List.mem_cons.mp behind with rfl | behind
      · exact absurd less (lt_irrefl _)
      · have later := (List.pairwise_cons.mp (List.pairwise_append.mp ascending).2.1).1 _ behind
        exact absurd less (lt_asymm (compare_lt_iff_lt.mp later))

theorem mem_keys_iff {t : Capture} : n ∈ t.keys ↔ (t.find? n).isSome := by
  rw [Table.keys, List.mem_map, Option.isSome_iff_exists]
  constructor
  · rintro ⟨e, member, rfl⟩
    exact ⟨e.2, (t.find?_eq_some_iff e.1 e.2).mpr member⟩
  · rintro ⟨hosts, found⟩
    exact ⟨(n, hosts), (t.find?_eq_some_iff n hosts).mp found, rfl⟩

theorem mem_sequences_iff {t : Capture} {command : String} :
    (n, command) ∈ t.sequences ↔
      (t.find? n).isSome ∧ IsFirstCommand (t.entry? n) command := by
  have entries {hosts : Table String Captured} (found : t.find? n = some hosts) :
      t.entry? n = hosts.find? := by
    funext host
    unfold entry?
    rw [found, Option.bind_some]
  rw [sequences, List.mem_map]
  constructor
  · rintro ⟨⟨m, hosts⟩, member, same⟩
    cases same
    have found := (t.find?_eq_some_iff n hosts).mpr member
    rw [found, entries found]
    exact ⟨rfl, isFirstCommand hosts⟩
  · rintro ⟨present, first⟩
    obtain ⟨hosts, found⟩ := Option.isSome_iff_exists.mp present
    rw [entries found] at first
    refine ⟨(n, hosts), (t.find?_eq_some_iff n hosts).mp found, ?_⟩
    exact congrArg (n, ·) ((isFirstCommand hosts).eq first)

theorem ascending_keys (t : Capture) : t.keys.Pairwise (· < ·) :=
  List.pairwise_map.mpr (t.ascending.imp compare_lt_iff_lt.mp)

theorem ascending_sequences (t : Capture) : t.sequences.Pairwise (·.1 < ·.1) :=
  List.pairwise_map.mpr (t.ascending.imp compare_lt_iff_lt.mp)

/-- The last of ascending numbers is the greatest one. -/
theorem getLast?_eq_some_iff {l : List Nat} (ascending : l.Pairwise (· < ·)) :
    l.getLast? = some n ↔ n ∈ l ∧ ∀ m ∈ l, m ≤ n := by
  induction l using List.reverseRecOn with
  | nil => simp
  | append_singleton l last ih =>
    have below := (List.pairwise_append.mp ascending).2.2
    rw [List.getLast?_concat]
    constructor
    · rintro ⟨⟩
      refine ⟨List.mem_concat_self, fun m member => ?_⟩
      rcases List.mem_append.mp member with before | here
      · exact (below m before n List.mem_cons_self).le
      · exact (List.mem_singleton.mp here).le
    · rintro ⟨member, greatest⟩
      have above := greatest last List.mem_concat_self
      rcases List.mem_append.mp member with before | here
      · exact absurd (below n before last List.mem_cons_self) above.not_gt
      · rw [List.mem_singleton.mp here]

theorem latest?_eq_some_iff {t : Capture} :
    t.latest? = some n ↔ (t.find? n).isSome ∧ ∀ m, (t.find? m).isSome → m ≤ n := by
  rw [latest?, getLast?_eq_some_iff t.ascending_keys]
  simp only [mem_keys_iff]

theorem latest?_eq_none_iff {t : Capture} : t.latest? = none ↔ ∀ n, ¬ (t.find? n).isSome := by
  rw [latest?, List.getLast?_eq_none_iff, List.eq_nil_iff_forall_not_mem]
  simp only [mem_keys_iff]

/-! ### What a log leaves behind -/

/-- After any operations, a sequence number is found just if one of them names it, with the entries
that the operations on them tell.  Entries that are there stay as they are when they are opened
again, and operations on different entries may be done in either order.  The sequence numbers are
listed in ascending order, each with its first command, and the latest one is the greatest. -/
theorem after_answers :
    (∀ log n, ((after log).find? n).isSome ↔ ∃ x ∈ log, x.2.sequence = n) ∧
    (∀ log n hosts, (after log).find? n = some hosts →
      ∀ host, hosts.find? host = told (named log n host)) ∧
    (∀ (t : Capture) now n host command m other c, t.entry? m other = some c →
      entry? (t.begin now n host command) m other = some c) ∧
    (∀ (t : Capture) (o p : Operation) a b a' b', ¬ p.Names o.sequence o.host →
      untimed (p.apply (o.apply t a) b) = untimed (o.apply (p.apply t a') b')) ∧
    (∀ log log', (∀ n host, (named log n host).map (·.2) = (named log' n host).map (·.2)) →
      untimed (after log) = untimed (after log')) ∧
    (∀ log, (after log).sequences.Pairwise (·.1 < ·.1) ∧
      ∀ n command, (n, command) ∈ (after log).sequences ↔
        (∃ x ∈ log, x.2.sequence = n) ∧
          IsFirstCommand (fun host => told (named log n host)) command) ∧
    ∀ log, (∀ n, (after log).latest? = some n ↔
        (∃ x ∈ log, x.2.sequence = n) ∧ ∀ x ∈ log, x.2.sequence ≤ n) ∧
      ((after log).latest? = none ↔ log = []) := by
  refine ⟨isSome_find?_after, ?_, ?_, ?_, fun log log' => untimed_after, ?_, ?_⟩
  · intro log n hosts found host
    rw [← entry?_after, entry?, found, Option.bind_some]
  · exact fun t now n host command m other c => entry?_begin t now n host command
  · exact fun t o p a b a' b' differ => untimed_comm differ t a b a' b'
  · intro log
    refine ⟨ascending_sequences _, fun n command => ?_⟩
    have entries : entry? (after log) n = fun host => told (named log n host) :=
      funext (entry?_after log n)
    rw [mem_sequences_iff, isSome_find?_after, entries]
  · intro log
    refine ⟨fun n => ?_, ?_⟩
    · rw [latest?_eq_some_iff, isSome_find?_after]
      refine and_congr_right fun _ => ⟨fun greatest x member => ?_, ?_⟩
      · exact greatest _ ((isSome_find?_after log _).mpr ⟨x, member, rfl⟩)
      · intro greatest m there
        obtain ⟨x, member, rfl⟩ := (isSome_find?_after log m).mp there
        exact greatest x member
    · rw [latest?_eq_none_iff]
      simp only [isSome_find?_after]
      constructor
      · intro none
        cases log with
        | nil => rfl
        | cons x later => exact absurd ⟨x, List.mem_cons_self, rfl⟩ (none x.2.sequence)
      · rintro rfl
        simp

/-- Output that comes before its entry is opened leaves the entry without a command. -/
example (now : Moment) :
    (after [(now, .append 1 "a" [104]), (now, .begin 1 "a" "ls"), (now, .append 1 "a" [105]),
      (now, .begin 2 "b" "ls")]).sequences = [(1, ""), (2, "ls")] :=
  rfl

end Flotilla.Capture
