import Flotilla.Proofs.Shell.Events

/-!
# What wiring does

`start_wired` says what a wired statement is made of: where its tasks are, and what has been opened
for them in the capture.
-/

namespace Flotilla.Shell

open Line (Statement Segment Venue)

/-- Where the tasks of a segment run. -/
def segmentSeats (hosts : List String) (g : Segment) : List (Venue × String) :=
  (Run.hostsOf hosts g).map (g.venue, ·)

/-- Where the tasks of a statement run. -/
def statementSeats (hosts : List String) (s : Statement) : List (Venue × String) :=
  s.segments.flatMap (segmentSeats hosts)

/-- Whether what runs at a venue is recorded. -/
def isRecordedAt : Venue → Bool
  | .shell _ => false
  | _ => true

/-- The hosts with places whose output is recorded. -/
def recordedAt (seats : List (Venue × String)) : List String :=
  (seats.filter (isRecordedAt ·.1)).map (·.2)

@[simp] theorem recordedAt_append (a b : List (Venue × String)) :
    recordedAt (a ++ b) = recordedAt a ++ recordedAt b := by
  simp [recordedAt]

theorem mem_recordedAt {seats : List (Venue × String)} {host : String} :
    host ∈ recordedAt seats ↔ ∃ venue, (venue, host) ∈ seats ∧ isRecordedAt venue := by
  simp [recordedAt]

theorem mem_recordedAt_cons (t : Task) (seats : List (Venue × String)) (host : String) :
    host ∈ recordedAt (Run.seat t :: seats) ↔
      (t.isRecorded ∧ t.host = host) ∨ host ∈ recordedAt seats := by
  have same : isRecordedAt t.venue = t.isRecorded := rfl
  simp only [mem_recordedAt, List.mem_cons, Run.seat, Prod.mk.injEq]
  constructor
  · rintro ⟨venue, ⟨rfl, rfl⟩ | member, recorded⟩
    · exact .inl ⟨same ▸ recorded, rfl⟩
    · exact .inr ⟨venue, member, recorded⟩
  · rintro (⟨recorded, rfl⟩ | ⟨venue, member, recorded⟩)
    · exact ⟨t.venue, .inl ⟨rfl, rfl⟩, same.trans recorded⟩
    · exact ⟨venue, .inr member, recorded⟩

/-- A value that is present stays, however often a default is offered. -/
theorem ite_some_getD {p q : Prop} [Decidable p] [Decidable q] (old : Option String)
    (line : String) :
    (if q then some ((if p then some (old.getD line) else old).getD line)
      else if p then some (old.getD line) else old) =
      if p ∨ q then some (old.getD line) else old := by
  by_cases first : p <;> by_cases second : q <;> simp [first, second]

namespace Run

/-- `s` is `r` with tasks added at their places, all of them about to run, and with their entries
opened for `line`. -/
structure Wired (line : String) (added : List (Venue × String)) (r s : Run) : Prop where
  now : s.now = r.now
  sequence : s.sequence = r.sequence
  leaving : s.leaving = r.leaving
  seats : s.seats = r.seats ++ added
  running : (∀ t ∈ r.tasks, t.running) → ∀ t ∈ s.tasks, t.running
  commands : ∀ n, r.sequence = some n → ∀ m host, s.capture.command? m host =
    if m = n ∧ host ∈ recordedAt added then
      some ((r.capture.command? m host).getD line)
    else r.capture.command? m host
  unnumbered : r.sequence = none → s.capture = r.capture

theorem openEntry_eq (line : String) (r : Run) (t : Task) :
    openEntry line r t = { r with capture := (openEntry line r t).capture } := by
  unfold openEntry
  repeat' split
  all_goals rfl

theorem foldl_openEntry_eq (line : String) (r : Run) (tasks : List Task) :
    tasks.foldl (openEntry line) r =
      { r with capture := (tasks.foldl (openEntry line) r).capture } := by
  induction tasks generalizing r with
  | nil => rfl
  | cons t tasks ih =>
    rw [List.foldl_cons, ih, openEntry_eq]

theorem openEntry_unnumbered {line : String} {r : Run} {t : Task} (none : r.sequence = none) :
    openEntry line r t = r := by
  simp [openEntry, none]

theorem foldl_openEntry_unnumbered {line : String} {r : Run} (tasks : List Task)
    (none : r.sequence = none) : tasks.foldl (openEntry line) r = r := by
  induction tasks with
  | nil => rfl
  | cons t tasks ih => rw [List.foldl_cons, openEntry_unnumbered none, ih]

theorem command?_openEntry {line : String} {r : Run} {n : Nat} (t : Task)
    (numbered : r.sequence = some n) (m : Nat) (host : String) :
    (openEntry line r t).capture.command? m host =
      if m = n ∧ t.isRecorded ∧ t.host = host then some ((r.capture.command? m host).getD line)
      else r.capture.command? m host := by
  unfold openEntry
  rw [numbered]
  cases command : t.isRecorded with
  | false => simp
  | true =>
    simp only [if_true, true_and]
    rw [Capture.command?_begin]
    by_cases same : m = n ∧ host = t.host
    · obtain ⟨rfl, rfl⟩ := same
      simp
    · rw [if_neg same, if_neg (by rwa [eq_comm (a := t.host)])]

theorem command?_foldl_openEntry {line : String} {r : Run} {n : Nat} (tasks : List Task)
    (numbered : r.sequence = some n) (m : Nat) (host : String) :
    (tasks.foldl (openEntry line) r).capture.command? m host =
      if m = n ∧ host ∈ recordedAt (tasks.map seat) then
        some ((r.capture.command? m host).getD line)
      else r.capture.command? m host := by
  induction tasks generalizing r with
  | nil => simp [recordedAt]
  | cons t tasks ih =>
    have still : (openEntry line r t).sequence = some n := by rw [openEntry_eq, numbered]
    rw [List.foldl_cons, ih still, command?_openEntry t numbered, ite_some_getD]
    simp only [List.map_cons, mem_recordedAt_cons, ← and_or_left]

theorem foldl_openEntry_wired {line : String} {r q : Run} {tasks : List Task}
    (added : q.books = (r.now, r.sequence, r.tasks ++ tasks, r.capture, r.leaving))
    (running : ∀ t ∈ tasks, t.running) :
    Wired line (tasks.map seat) r (tasks.foldl (openEntry line) q) := by
  simp only [books, Prod.mk.injEq] at added
  obtain ⟨now, sequence, all, capture, leaving⟩ := added
  have frame := foldl_openEntry_eq line q tasks
  constructor
  · rw [frame, now]
  · rw [frame, sequence]
  · rw [frame, leaving]
  · rw [frame, Run.seats, all, List.map_append, Run.seats]
  · intro before t member
    rw [frame, all, List.mem_append] at member
    exact member.elim (before t) (running t)
  · intro n numbered m host
    rw [command?_foldl_openEntry tasks (sequence.trans numbered), capture]
  · intro none
    rw [foldl_openEntry_unnumbered tasks (sequence.trans none), capture]

theorem books_joinReaders (r : Run) (piped : Bool) (count : Nat) :
    (r.joinReaders piped count).1.books = r.books := by
  unfold joinReaders
  split <;> rfl

theorem addSegment_wired (hosts : List String) (line : String) (piped : Bool) (r : Run)
    (g : Segment) : Wired line (segmentSeats hosts g) r (addSegment hosts line piped r g) := by
  have joined := books_joinReaders r piped (readerCount hosts g)
  simp only [books, Prod.mk.injEq] at joined
  obtain ⟨now, sequence, tasks, capture, leaving⟩ := joined
  unfold addSegment
  dsimp only
  generalize added : List.mapIdx _ (hostsOf hosts g) = new
  have seats : new.map seat = segmentSeats hosts g := by
    rw [← added]
    refine List.ext_getElem (by simp [segmentSeats]) fun i _ _ => ?_
    simp [segmentSeats, seat]
  have running : ∀ t ∈ new, t.running := by
    intro t member
    rw [← added, List.mem_mapIdx] at member
    obtain ⟨i, here, rfl⟩ := member
    rfl
  rw [← seats]
  exact foldl_openEntry_wired (by simp [books, *]) running

theorem Wired.trans {line : String} {a b : List (Venue × String)} {r s u : Run}
    (first : Wired line a r s) (second : Wired line b s u) : Wired line (a ++ b) r u where
  now := second.now.trans first.now
  sequence := second.sequence.trans first.sequence
  leaving := second.leaving.trans first.leaving
  seats := by rw [second.seats, first.seats, List.append_assoc]
  running before := second.running (first.running before)
  commands n numbered m host := by
    rw [second.commands n (first.sequence.trans numbered), first.commands n numbered,
      ite_some_getD]
    simp only [recordedAt_append, List.mem_append, ← and_or_left]
  unnumbered none :=
    (second.unnumbered (first.sequence.trans none)).trans (first.unnumbered none)

theorem addSegments_wired (hosts : List String) (line : String) (piped : Bool) (r : Run)
    (gs : List Segment) :
    Wired line (gs.flatMap (segmentSeats hosts)) r (addSegments hosts line piped r gs) := by
  induction gs generalizing piped r with
  | nil => exact ⟨rfl, rfl, rfl, by simp [addSegments], id, by simp [addSegments, recordedAt],
      fun _ => rfl⟩
  | cons g gs ih =>
    rw [List.flatMap_cons]
    exact (addSegment_wired hosts line piped r g).trans (ih g.piped _)

/-- Wiring opens the entries of all that is recorded, and nothing has ended by then. -/
theorem start_wired (r : Run) (hosts : List String) (line : String) (s : Statement) :
    Wired line (statementSeats hosts s) { r with tasks := [] } (r.start hosts line s) := by
  have wired := addSegments_wired hosts line false { r with tasks := [], pipes := [], live := [] }
    s.segments
  unfold start
  dsimp only
  split
  · exact ⟨wired.now, wired.sequence, wired.leaving, wired.seats, wired.running, wired.commands,
      wired.unnumbered⟩
  · exact ⟨wired.now, wired.sequence, wired.leaving, wired.seats, wired.running, wired.commands,
      wired.unnumbered⟩

end Run

end Flotilla.Shell
