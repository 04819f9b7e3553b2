import Flotilla.History.Capture
import Flotilla.Json.Decode
import Flotilla.Line.Builtin
import Flotilla.Proofs.Json.RoundTrip

/-!
# What an export says

An export has one line for each captured entry, in ascending order of sequence numbers and hosts,
and each line is a JSON object from which everything about its entry is read back
(`exported_reads`).
-/

namespace Flotilla.Capture

/-! ### The entries in order -/

/-- A captured entry with its place. -/
structure Slot where
  sequence : Nat
  host : String
  entry : Captured

namespace Slot

/-- The order of sequence numbers, and of hosts under one number. -/
def Precedes (a b : Slot) : Prop :=
  a.sequence < b.sequence ∨ a.sequence = b.sequence ∧ a.host < b.host

/-- The entry as it is exported. -/
def record (s : Slot) : Json := Capture.record s.sequence s.host s.entry

end Slot

/-- The captured entries, by sequence number and host. -/
def slots (t : Capture) : List Slot :=
  t.entries.flatMap fun (n, hosts) => hosts.entries.map fun (host, c) => ⟨n, host, c⟩

theorem records_eq (t : Capture) : t.records = t.slots.map Slot.record := by
  rw [records, slots, List.map_flatMap]
  simp [Slot.record, Function.comp_def]

theorem mem_slots_iff {t : Capture} {s : Slot} :
    s ∈ t.slots ↔ t.entry? s.sequence s.host = some s.entry := by
  rw [slots, List.mem_flatMap, entry?, Option.bind_eq_some_iff]
  constructor
  · rintro ⟨⟨n, hosts⟩, listed, here⟩
    obtain ⟨⟨host, c⟩, member, rfl⟩ := List.mem_map.mp here
    exact ⟨hosts, (t.find?_eq_some_iff n hosts).mpr listed,
      (hosts.find?_eq_some_iff host c).mpr member⟩
  · rintro ⟨hosts, listed, member⟩
    exact ⟨(s.sequence, hosts), (t.find?_eq_some_iff _ hosts).mp listed,
      List.mem_map.mpr ⟨(s.host, s.entry), (hosts.find?_eq_some_iff _ _).mp member, rfl⟩⟩

theorem ascending_slots (t : Capture) : t.slots.Pairwise Slot.Precedes := by
  rw [slots, List.pairwise_flatMap]
  constructor
  · rintro ⟨n, hosts⟩ -
    refine List.pairwise_map.mpr (hosts.ascending.imp fun {a b} below => ?_)
    exact .inr ⟨rfl, compareOfLessAndEq_eq_lt.mp below⟩
  · refine t.ascending.imp fun {a b} below => ?_
    rintro _ here _ there
    obtain ⟨_, -, rfl⟩ := List.mem_map.mp here
    obtain ⟨_, -, rfl⟩ := List.mem_map.mp there
    exact .inl (compareOfLessAndEq_eq_lt.mp below)

/-! ### Lines -/

theorem isPlain_record (s : Slot) : s.record.IsPlain := by
  refine .object ?_
  simp [Json.IsPlain.string, Json.IsPlain.nat]

/-- What a line of an export tells. -/
structure Told where
  sequence : Nat := 0
  host : String := ""
  timestamp : String := ""
  command : String := ""
  output : String := ""
  deriving DecidableEq

/-- Decodes a line of an export.  Sequence numbers are 64 bits wide. -/
def Told.decode : Json.Decoder Told :=
  Json.decodeRecord [
    (Json.field "sequence" (Json.decodeBelow Line.sequenceBound)
      fun n told => { told with sequence := n }).mandatory,
    (Json.field "host" Json.decodeString fun s told => { told with host := s }).mandatory,
    (Json.field "timestamp" Json.decodeString fun s told => { told with timestamp := s }).mandatory,
    (Json.field "command" Json.decodeString fun s told => { told with command := s }).mandatory,
    (Json.field "output" Json.decodeString fun s told => { told with output := s }).mandatory] {}

/-- What the line of an entry has to tell. -/
def Slot.told (s : Slot) : Told :=
  ⟨s.sequence, s.host, s.entry.begun.full, s.entry.command, Utf8.lossy s.entry.output⟩

theorem decode_record {s : Slot} (small : s.sequence < Line.sequenceBound) :
    Told.decode s.record = .ok s.told := by
  simp [Told.decode, Slot.record, record, Json.decodeRecord, Json.takeEntries, Json.field,
    Json.RecordField.mandatory, Json.decodeString, Json.decodeBelow_nat small, Except.map,
    Slot.told, Captured.text]

/-- The text of a line of the export. -/
def Slot.line (s : Slot) : String := s.record.print

theorem not_mem_line (s : Slot) : '\n' ∉ s.line.toList := by
  intro member
  exact absurd ((isPlain_record s).visible_print _ member) (by decide)

theorem splitOn_exported {t : Capture} (some_ : t.slots ≠ []) :
    t.exported.toList.splitOn '\n' = t.slots.map (·.line.toList) := by
  have whole : t.exported.toList = ['\n'].intercalate (t.slots.map (·.line.toList)) := by
    rw [exported, records_eq, String.toList_intercalate]
    simp [Function.comp_def, Slot.line]
  rw [whole]
  refine List.splitOn_intercalate _ ?_ (by simpa using some_)
  intro line member
  obtain ⟨s, -, rfl⟩ := List.mem_map.mp member
  exact not_mem_line s

/-- Nothing is exported if nothing is captured.  Otherwise the export has one line for each captured
entry, in ascending order of sequence numbers and hosts: a JSON object that tells its sequence
number, its host and everything that is captured there. -/
theorem exported_reads (t : Capture) :
    (t.slots = [] → t.exported = "") ∧
    (t.slots ≠ [] → ∃ lines : List String,
      t.exported.toList.splitOn '\n' = lines.map String.toList ∧
      List.Forall₂ (fun (s : Slot) line => Json.parse line = ⟨s.record, none⟩ ∧
        (s.sequence < Line.sequenceBound → (Json.parse line).decode Told.decode = .ok s.told))
        t.slots lines) ∧
    t.slots.Pairwise Slot.Precedes ∧
    ∀ n host c, ⟨n, host, c⟩ ∈ t.slots ↔ t.entry? n host = some c := by
  refine ⟨fun none => ?_, fun some_ => ⟨t.slots.map Slot.line, ?_, ?_⟩, t.ascending_slots,
    fun n host c => mem_slots_iff⟩
  · rw [exported, records_eq, none]
    rfl
  · rw [splitOn_exported some_, List.map_map]
    rfl
  · rw [List.forall₂_map_right_iff, List.forall₂_same]
    intro s _
    have read : Json.parse s.line = ⟨s.record, none⟩ := Json.parse_print (isPlain_record s)
    refine ⟨read, fun small => ?_⟩
    rw [read, Json.Document.decode, decode_record small]
    rfl

end Flotilla.Capture
