import Flotilla.Proofs.Shell.Wiring

/-!
# Where tasks read and write

Wiring gives every reader of a pipe or of the live input to one task, and counts the tasks that
write into a pipe.
-/

namespace Flotilla.Shell

open Line (Statement Segment Venue)

/-- A place at an inlet, which is pipe `k` for `some k` and the live input for `none`. -/
def Source.at (inlet : Option Nat) (place : Nat) : Source :=
  match inlet with
  | some k => .pipe k place
  | none => .live place

/-- The place at which a task reads from an inlet. -/
def Task.placeAt (inlet : Option Nat) (t : Task) : Option Nat :=
  match t.source with
  | .live i => if inlet = none then some i else none
  | .pipe k i => if inlet = some k then some i else none
  | .nothing => none

theorem placeAt_eq_some {t : Task} {inlet : Option Nat} {i : Nat} :
    t.placeAt inlet = some i ↔ t.source = .at inlet i := by
  unfold Task.placeAt Source.at
  cases inlet <;> cases t.source <;> simp [eq_comm]

theorem placeAt_other {t : Task} {inlet other : Option Nat} {i : Nat}
    (source : t.source = .at inlet i) (different : other ≠ inlet) : t.placeAt other = none := by
  unfold Task.placeAt
  rw [source]
  cases inlet <;> exact if_neg different

theorem filterMap_mapIdx {α β : Type} {f : Nat → α → β} {g : β → Option Nat} {first : Nat}
    (each : ∀ i a, g (f i a) = some (first + i)) (as : List α) :
    (as.mapIdx f).filterMap g = List.range' first as.length := by
  induction as generalizing f first with
  | nil => rfl
  | cons a as ih =>
    have later : ∀ i a, g (f (i + 1) a) = some (first + 1 + i) := fun i a =>
      (each (i + 1) a).trans (congrArg some (by omega))
    rw [List.mapIdx_cons, List.filterMap_cons_some (each 0 a), ih later]
    rfl

namespace Run

def readersAt (r : Run) : Option Nat → List Reader
  | none => r.live
  | some k => (r.pipes[k]?).elim [] (·.readers)

/-- The tasks of a segment. -/
def tasksOf (hosts : List String) (g : Segment) (source : Nat → Source) (sink : Option Nat) :
    List Task :=
  (hostsOf hosts g).mapIdx fun i host => {
    venue := g.venue
    host
    command := g.text
    tagged := match g.venue with
      | .hosts => (hostsOf hosts g).length > 1
      | _ => false
    source := match g.venue with
      | .shell _ => .nothing
      | _ => source i
    sink }

theorem addSegment_eq (hosts : List String) (line : String) (piped : Bool) (r : Run)
    (g : Segment) :
    let joined := r.joinReaders piped (readerCount hosts g)
    let added := tasksOf hosts g joined.2 (if g.piped then some joined.1.pipes.length else none)
    addSegment hosts line piped r g = added.foldl (openEntry line) { joined.1 with
      tasks := joined.1.tasks ++ added
      pipes := if g.piped then joined.1.pipes ++ [.loose added.length] else joined.1.pipes } :=
  rfl

theorem mem_tasksOf {hosts : List String} {g : Segment} {source : Nat → Source}
    {sink : Option Nat} {t : Task} (member : t ∈ tasksOf hosts g source sink) :
    t.venue = g.venue ∧ t.sink = sink ∧ (t.source = .nothing ∨ ∃ i, t.source = source i) := by
  obtain ⟨i, inside, rfl⟩ := List.mem_mapIdx.mp member
  refine ⟨rfl, rfl, ?_⟩
  dsimp only
  split
  · exact .inl rfl
  · exact .inr ⟨i, rfl⟩

theorem mem_tasksOf_builtin {hosts : List String} {g : Segment} {source : Nat → Source}
    {sink : Option Nat} {t : Task} (member : t ∈ tasksOf hosts g source sink) {b : Line.Builtin}
    (venue : g.venue = .shell b) : t.source = .nothing := by
  obtain ⟨i, inside, rfl⟩ := List.mem_mapIdx.mp member
  dsimp only
  rw [venue]

theorem places_tasksOf {hosts : List String} {g : Segment} {inlet : Option Nat} {first : Nat}
    (sink : Option Nat) (other : Option Nat) :
    (tasksOf hosts g (fun i => .at inlet (first + i)) sink).filterMap (·.placeAt other) =
      if other = inlet then List.range' first (readerCount hosts g) else [] := by
  have nowhere {t : Task} (source : t.source = .nothing) : t.placeAt other = none := by
    simp [Task.placeAt, source]
  split
  next same =>
    subst same
    cases venue : g.venue with
    | shell b =>
      have zero : readerCount hosts g = 0 := by simp [readerCount, venue]
      rw [zero]
      exact List.filterMap_eq_nil_iff.mpr fun t member =>
        nowhere (mem_tasksOf_builtin member venue)
    | _ =>
      have all : readerCount hosts g = (hostsOf hosts g).length := by simp [readerCount, venue]
      rw [all]
      exact filterMap_mapIdx (fun i host => placeAt_eq_some.mpr (by simp [venue])) _
  next different =>
    refine List.filterMap_eq_nil_iff.mpr fun t member => ?_
    rcases (mem_tasksOf member).2.2 with source | ⟨i, source⟩
    · exact nowhere source
    · exact placeAt_other source different

/-- What wiring keeps to while it goes through the segments.  `piped` says whether the last pipe
waits for its readers. -/
structure Plumbed (piped : Bool) (r : Run) : Prop where
  /-- Every reader is the one of one task. -/
  places : ∀ inlet,
    r.tasks.filterMap (·.placeAt inlet) = List.range (r.readersAt inlet).length
  /-- A pipe counts the tasks that write into it. -/
  pipes : ∀ k p, r.pipes[k]? = some p →
    ∃ n, p = (Pipe.loose (r.tasks.countP (·.sink = some k))).join n
  live : ∀ rd ∈ r.live, rd = {}
  sinks : ∀ t ∈ r.tasks, ∀ k, t.sink = some k → k < r.pipes.length
  builtins : ∀ t ∈ r.tasks, ∀ b, t.venue = .shell b → t.source = .nothing
  waits : piped = true → r.pipes ≠ [] ∧ r.readersAt (some (r.pipes.length - 1)) = []

/-- The inlet at which the next segment reads. -/
def nextInlet (piped : Bool) (r : Run) : Option Nat :=
  if piped then some (r.pipes.length - 1) else none

theorem Plumbed.length_join {piped : Bool} {r : Run} (plumbed : Plumbed piped r) (count : Nat)
    (inlet : Option Nat) : ((r.joinReaders piped count).1.readersAt inlet).length =
      (r.readersAt inlet).length + if inlet = r.nextInlet piped then count else 0 := by
  cases piped with
  | false => cases inlet <;> simp [joinReaders, readersAt, nextInlet]
  | true =>
    obtain ⟨some, empty⟩ := plumbed.waits rfl
    cases inlet with
    | none => simp [joinReaders, readersAt, nextInlet]
    | some k =>
      by_cases last : k = r.pipes.length - 1
      · have inside : k < r.pipes.length := by
          have := List.length_pos_iff.mpr some
          omega
        have none_ : r.pipes[k].readers = [] := by
          simpa [readersAt, ← last, List.getElem?_eq_getElem inside] using empty
        simp [joinReaders, readersAt, nextInlet, ← last,
          List.getElem?_eq_getElem inside, none_, Pipe.join]
      · simp [joinReaders, readersAt, nextInlet, Ne.symm last, last]

theorem Plumbed.source_join {piped : Bool} {r : Run} (plumbed : Plumbed piped r) (count : Nat) :
    (r.joinReaders piped count).2 =
      fun i => .at (r.nextInlet piped) ((r.readersAt (r.nextInlet piped)).length + i) := by
  cases piped with
  | false => rfl
  | true =>
    obtain ⟨-, empty⟩ := plumbed.waits rfl
    simp [joinReaders, Source.at, nextInlet, empty]

theorem Plumbed.pipes_join {piped : Bool} {r : Run} (plumbed : Plumbed piped r) (count : Nat)
    {k : Nat} {p : Pipe} (here : (r.joinReaders piped count).1.pipes[k]? = some p) :
    ∃ n, p = (Pipe.loose (r.tasks.countP (·.sink = some k))).join n := by
  cases piped with
  | false => exact plumbed.pipes k p here
  | true =>
    simp only [joinReaders, if_true, List.getElem?_modify] at here
    obtain ⟨q, before, rfl⟩ := Option.map_eq_some_iff.mp here
    obtain ⟨n, rfl⟩ := plumbed.pipes k q before
    split
    · exact ⟨count, rfl⟩
    · exact ⟨n, rfl⟩

theorem Plumbed.live_join {piped : Bool} {r : Run} (plumbed : Plumbed piped r) (count : Nat) :
    ∀ rd ∈ (r.joinReaders piped count).1.live, rd = {} := by
  intro rd member
  cases piped with
  | false =>
    rcases List.mem_append.mp member with old | new
    · exact plumbed.live rd old
    · exact (List.mem_replicate.mp new).2
  | true => exact plumbed.live rd member

theorem length_pipes_join (r : Run) (piped : Bool) (count : Nat) :
    (r.joinReaders piped count).1.pipes.length = r.pipes.length := by
  cases piped <;> simp [joinReaders]

theorem tasks_join (r : Run) (piped : Bool) (count : Nat) :
    (r.joinReaders piped count).1.tasks = r.tasks := by
  cases piped <;> rfl

/-- Where the tasks of a segment write. -/
def sinkOf (r : Run) (g : Segment) : Option Nat := if g.piped then some r.pipes.length else none

/-- The tasks that a segment adds. -/
def added (hosts : List String) (piped : Bool) (r : Run) (g : Segment) : List Task :=
  tasksOf hosts g
    (fun i => .at (r.nextInlet piped) ((r.readersAt (r.nextInlet piped)).length + i)) (r.sinkOf g)

theorem Plumbed.addSegment_fields {piped : Bool} {r : Run} (plumbed : Plumbed piped r)
    (hosts : List String) (line : String) (g : Segment) :
    let joined := (r.joinReaders piped (readerCount hosts g)).1
    let s := addSegment hosts line piped r g
    s.tasks = r.tasks ++ added hosts piped r g ∧ s.live = joined.live ∧
      s.pipes = joined.pipes ++
        if g.piped then [.loose (added hosts piped r g).length] else [] := by
  have equation := addSegment_eq hosts line piped r g
  dsimp only at equation ⊢
  rw [equation, foldl_openEntry_eq, plumbed.source_join, length_pipes_join, tasks_join]
  refine ⟨rfl, rfl, ?_⟩
  cases piping : g.piped <;> simp [added, sinkOf, piping]

theorem readersAt_append_loose {s q : Run} {g : Segment} {writers : Nat} (live : s.live = q.live)
    (pipes : s.pipes = q.pipes ++ if g.piped then [.loose writers] else []) (inlet : Option Nat) :
    s.readersAt inlet = q.readersAt inlet := by
  cases inlet with
  | none => exact live
  | some k =>
    rcases Nat.lt_trichotomy k q.pipes.length with inside | last | outside
    · simp [readersAt, pipes, List.getElem?_append_left inside]
    · cases piping : g.piped <;> simp [readersAt, pipes, piping, last, Pipe.loose]
    · have short : s.pipes.length ≤ k := by
        rw [pipes, List.length_append]
        cases g.piped
        · exact Nat.le_of_lt outside
        · exact outside
      rw [readersAt, readersAt, List.getElem?_eq_none short,
        List.getElem?_eq_none (Nat.le_of_lt outside)]

theorem countP_added (hosts : List String) (piped : Bool) (r : Run) (g : Segment) (k : Nat) :
    (added hosts piped r g).countP (·.sink = some k) =
      if r.sinkOf g = some k then (added hosts piped r g).length else 0 := by
  split
  next same =>
    refine List.countP_eq_length.mpr fun t member => ?_
    exact decide_eq_true ((mem_tasksOf member).2.1.trans same)
  next other =>
    refine List.countP_eq_zero.mpr fun t member => ?_
    rw [decide_eq_true_iff, (mem_tasksOf member).2.1]
    exact other

theorem Plumbed.pipes_addSegment {hosts : List String} {piped : Bool} {r s : Run} {g : Segment}
    (plumbed : Plumbed piped r) (tasks : s.tasks = r.tasks ++ added hosts piped r g)
    (pipes : s.pipes = (r.joinReaders piped (readerCount hosts g)).1.pipes ++
      if g.piped then [.loose (added hosts piped r g).length] else [])
    {k : Nat} {p : Pipe} (here : s.pipes[k]? = some p) :
    ∃ n, p = (Pipe.loose (s.tasks.countP (·.sink = some k))).join n := by
  have count := length_pipes_join r piped (readerCount hosts g)
  rw [tasks, List.countP_append, countP_added]
  rw [pipes] at here
  rcases Nat.lt_or_ge k r.pipes.length with inside | outside
  · rw [List.getElem?_append_left (count ▸ inside)] at here
    have elsewhere : r.sinkOf g ≠ some k := by
      unfold sinkOf
      split
      · exact fun same => absurd (Option.some.inj same) (by omega)
      · exact nofun
    rw [if_neg elsewhere]
    exact plumbed.pipes_join _ here
  · rw [List.getElem?_append_right (count ▸ outside), count] at here
    cases piping : g.piped with
    | false => simp [piping] at here
    | true =>
      simp only [piping, if_true] at here
      obtain ⟨last, rfl⟩ : k - r.pipes.length = 0 ∧ Pipe.loose (added hosts piped r g).length = p := by
        simpa [List.getElem?_singleton] using here
      have none_ : r.tasks.countP (·.sink = some k) = 0 := by
        refine List.countP_eq_zero.mpr fun t member sink => ?_
        have := plumbed.sinks t member k (of_decide_eq_true sink)
        omega
      have mine : r.sinkOf g = some k := by
        rw [sinkOf, if_pos piping]
        exact congrArg some (by omega)
      rw [none_, if_pos mine, Nat.zero_add]
      exact ⟨0, rfl⟩

/-- Adding a segment keeps to it. -/
theorem Plumbed.addSegment {piped : Bool} {r : Run} (plumbed : Plumbed piped r)
    (hosts : List String) (line : String) (g : Segment) :
    Plumbed g.piped (Run.addSegment hosts line piped r g) := by
  obtain ⟨tasks, live, pipes⟩ := plumbed.addSegment_fields hosts line g
  generalize Run.addSegment hosts line piped r g = s at tasks live pipes
  have readers := readersAt_append_loose live pipes
  have count := length_pipes_join r piped (readerCount hosts g)
  have length : s.pipes.length = r.pipes.length + if g.piped then 1 else 0 := by
    rw [pipes, List.length_append, count]
    split <;> rfl
  constructor
  case places =>
    intro inlet
    rw [tasks, List.filterMap_append, plumbed.places, readers, plumbed.length_join, added,
      places_tasksOf]
    split
    next same => rw [same, List.range_eq_range', List.range_eq_range', ← List.range'_append_1,
        Nat.zero_add]
    next => rw [List.append_nil, Nat.add_zero]
  case pipes => exact fun k p here => plumbed.pipes_addSegment tasks pipes here
  case live => exact live ▸ plumbed.live_join _
  case sinks =>
    intro t member k sink
    rw [tasks] at member
    rcases List.mem_append.mp member with old | new
    · have := plumbed.sinks t old k sink
      omega
    · rw [(mem_tasksOf new).2.1, sinkOf] at sink
      split at sink
      next piping =>
        have := Option.some.inj sink
        simp only [piping, if_true] at length
        omega
      next => cases sink
  case builtins =>
    intro t member b venue
    rw [tasks] at member
    rcases List.mem_append.mp member with old | new
    · exact plumbed.builtins t old b venue
    · exact mem_tasksOf_builtin new ((mem_tasksOf new).1.symm.trans venue)
  case waits =>
    intro piping
    simp only [piping, if_true] at pipes length
    refine ⟨by rw [pipes]; exact List.append_ne_nil_of_right_ne_nil _ (List.cons_ne_nil _ _), ?_⟩
    simp [readersAt, pipes, Pipe.loose]

theorem Plumbed.addSegments {piped : Bool} {r : Run} (plumbed : Plumbed piped r)
    (hosts : List String) (line : String) (gs : List Segment) :
    ∃ last, Plumbed last (Run.addSegments hosts line piped r gs) := by
  induction gs generalizing piped r with
  | nil => exact ⟨piped, plumbed⟩
  | cons g gs ih => exact ih (plumbed.addSegment hosts line g)

theorem plumbed_nothing (r : Run) :
    Plumbed false { r with tasks := [], pipes := [], live := [] } where
  places inlet := by cases inlet <;> rfl
  pipes k p here := by simp at here
  live := nofun
  sinks := nofun
  builtins := nofun
  waits := nofun

/-- What wiring leaves for the whole run of a statement. -/
structure Laid (r : Run) : Prop where
  /-- Every reader is the one of one task. -/
  places : ∀ inlet, r.tasks.filterMap (·.placeAt inlet) = List.range (r.readersAt inlet).length
  /-- A pipe counts the tasks that write into it and have not ended. -/
  writers : ∀ k p, r.pipes[k]? = some p →
    p.writers = r.tasks.countP fun t => t.running && t.sink = some k
  builtins : ∀ t ∈ r.tasks, ∀ b, t.venue = .shell b → t.source = .nothing

theorem start_plumbed (r : Run) (hosts : List String) (line : String) (s : Statement) :
    (∀ inlet, (r.start hosts line s).tasks.filterMap (·.placeAt inlet) =
        List.range ((r.start hosts line s).readersAt inlet).length) ∧
      (∀ (k : Nat) p, (r.start hosts line s).pipes[k]? = some p → ∃ readers,
        p = (Pipe.loose ((r.start hosts line s).tasks.countP (·.sink = some k))).join readers) ∧
      (∀ t ∈ (r.start hosts line s).tasks, ∀ b, t.venue = .shell b → t.source = .nothing) ∧
      ∀ rd ∈ (r.start hosts line s).live, rd = { fed := (r.start hosts line s).input.isSome } := by
  obtain ⟨last, plumbed⟩ := (plumbed_nothing r).addSegments hosts line s.segments
  unfold start
  dsimp only
  generalize addSegments hosts line false { r with tasks := [], pipes := [], live := [] }
    s.segments = q at plumbed
  cases input : q.input with
  | some _ =>
    rw [Option.isNone_some, if_neg Bool.false_ne_true, input]
    exact ⟨plumbed.places, plumbed.pipes, plumbed.builtins, plumbed.live⟩
  | none =>
    rw [Option.isNone_none, if_pos rfl]
    refine ⟨fun inlet => ?_, plumbed.pipes, plumbed.builtins, fun rd member => ?_⟩
    · change q.tasks.filterMap (·.placeAt inlet) = _
      rw [plumbed.places]
      cases inlet <;> simp [readersAt, endLive]
    · obtain ⟨old, before, rfl⟩ := List.mem_map.mp member
      rw [plumbed.live old before]
      simp [Reader.starve, endLive, input]

theorem start_laid (r : Run) (hosts : List String) (line : String) (s : Statement) :
    Laid (r.start hosts line s) := by
  obtain ⟨places, pipes, builtins, -⟩ := start_plumbed r hosts line s
  have running := (start_wired r hosts line s).running nofun
  refine ⟨places, fun k p here => ?_, builtins⟩
  obtain ⟨readers, rfl⟩ := pipes k p here
  refine List.countP_congr fun t member => ?_
  simp [running t member]

theorem place_unique {tasks : List Task} {inlet : Option Nat} {n : Nat}
    (places : tasks.filterMap (·.placeAt inlet) = List.range n) {i j : Nat} {t u : Task}
    (here : tasks[i]? = some t) (there : tasks[j]? = some u) {place : Nat}
    (mine : t.placeAt inlet = some place) (other : u.placeAt inlet = some place) : i = j := by
  have apart := List.pairwise_filterMap.mp (places ▸ List.nodup_range (n := n))
  obtain ⟨inside, rfl⟩ := List.getElem?_eq_some_iff.mp here
  obtain ⟨within, rfl⟩ := List.getElem?_eq_some_iff.mp there
  rw [List.pairwise_iff_getElem] at apart
  rcases Nat.lt_trichotomy i j with before | same | after
  · exact absurd rfl (apart i j inside within before _ mine _ other)
  · exact same
  · exact absurd rfl (apart j i within inside after _ other _ mine)

/-- A task has the reader that it reads from. -/
theorem Laid.reader_of_place {r : Run} (laid : Laid r) {t : Task} (member : t ∈ r.tasks)
    {inlet : Option Nat} {place : Nat} (mine : t.placeAt inlet = some place) :
    ∃ rd, (r.readersAt inlet)[place]? = some rd := by
  have inside : place ∈ List.range (r.readersAt inlet).length := by
    rw [← laid.places inlet]
    exact List.mem_filterMap.mpr ⟨t, member, mine⟩
  exact ⟨_, List.getElem?_eq_getElem (List.mem_range.mp inside)⟩

end Run

end Flotilla.Shell
