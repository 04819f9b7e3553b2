import Flotilla.Proofs.Line.Segments
import Flotilla.Proofs.Shell.Piping

/-!
# Segments in a row

Wiring hands on a pipe only behind a segment that is piped into the next, so it joins a statement's
segments one to the next as long as they make a row (`InRow`), as those of every line that can be
read do.  `wired_of_parse` says so for all the tasks of a run, at any time.
-/

namespace Flotilla.Shell.Run

open Line (Statement Segment InRow)

/-- Where the segment at place `k` of a row reads: pipe `k - 1`, or the live input if it is the
first. -/
def inletAt : Nat → Option Nat
  | 0 => none
  | k + 1 => some k

/-- The tasks of each of the segments that stand in a row from place `k` on. -/
def crewsFrom (hosts : List String) (k : Nat) : List Segment → List (List Task)
  | [] => []
  | g :: gs =>
    tasksOf hosts g (.at (inletAt k)) (if g.piped then some k else none) ::
      crewsFrom hosts (k + 1) gs

theorem getElem?_crewsFrom (hosts : List String) (k : Nat) (gs : List Segment) (j : Nat) :
    (crewsFrom hosts k gs)[j]? = (gs[j]?).map fun g =>
      tasksOf hosts g (.at (inletAt (k + j))) (if g.piped then some (k + j) else none) := by
  induction gs generalizing k j with
  | nil => rfl
  | cons g gs ih =>
    cases j with
    | zero => rfl
    | succ j =>
      rw [crewsFrom, List.getElem?_cons_succ, List.getElem?_cons_succ, ih, Nat.add_right_comm,
        Nat.add_assoc]

/-- The next segment reads as its place in the row tells, and is the first that reads there. -/
theorem Plumbed.added_inRow {piped : Bool} {r : Run} (plumbed : Plumbed piped r)
    (fresh : piped = false → r.pipes = [] ∧ r.live = []) (hosts : List String) (g : Segment) :
    added hosts piped r g = tasksOf hosts g (.at (inletAt r.pipes.length))
      (if g.piped then some r.pipes.length else none) := by
  have inlet : r.nextInlet piped = inletAt r.pipes.length := by
    cases piped with
    | false => simp [nextInlet, inletAt, (fresh rfl).1]
    | true =>
      obtain ⟨p, ps, pipes⟩ := List.exists_cons_of_ne_nil (plumbed.waits rfl).1
      simp [nextInlet, inletAt, pipes]
  have unread : r.readersAt (r.nextInlet piped) = [] := by
    cases piped with
    | false => exact (fresh rfl).2
    | true => exact (plumbed.waits rfl).2
  unfold added
  rw [unread, inlet]
  simp [sinkOf]

theorem Plumbed.addSegments_inRow {piped : Bool} {r : Run} {gs : List Segment}
    (plumbed : Plumbed piped r) (fresh : piped = false → r.pipes = [] ∧ r.live = [])
    (row : InRow gs) (hosts : List String) (line : String) :
    (Run.addSegments hosts line piped r gs).tasks =
        r.tasks ++ (crewsFrom hosts r.pipes.length gs).flatten ∧
      (Run.addSegments hosts line piped r gs).pipes.length + 1 = r.pipes.length + gs.length := by
  induction row generalizing piped r with
  | @last g ends =>
    obtain ⟨tasks, -, pipes⟩ := plumbed.addSegment_fields hosts line g
    rw [plumbed.added_inRow fresh] at tasks
    simp only [Run.addSegments, tasks, pipes]
    simp [crewsFrom, ends, length_pipes_join]
  | @next g gs goes _ ih =>
    obtain ⟨tasks, -, pipes⟩ := plumbed.addSegment_fields hosts line g
    have more : (Run.addSegment hosts line piped r g).pipes.length = r.pipes.length + 1 := by
      simp [pipes, goes, length_pipes_join]
    obtain ⟨later, count⟩ := ih (plumbed.addSegment hosts line g) (by simp [goes])
    rw [plumbed.added_inRow fresh] at tasks
    rw [Run.addSegments, later, count, more, tasks]
    constructor
    · simp [crewsFrom]
    · simp only [List.length_cons]
      omega

/-- A task as it was when the statement was wired. -/
def asLaid (t : Task) : Task := { t with running := true }

theorem start_inRow (r : Run) (hosts : List String) (line : String) {S : Statement}
    (row : InRow S.segments) :
    (r.start hosts line S).tasks.map asLaid = (crewsFrom hosts 0 S.segments).flatten ∧
      (r.start hosts line S).pipes.length + 1 = S.segments.length := by
  obtain ⟨tasks, pipes⟩ :=
    (plumbed_nothing r).addSegments_inRow (fun _ => ⟨rfl, rfl⟩) row hosts line
  rw [List.nil_append] at tasks
  rw [List.length_nil, Nat.zero_add] at pipes
  have running := (start_wired r hosts line S).running nofun
  have laid : (r.start hosts line S).tasks.map asLaid = (r.start hosts line S).tasks := by
    refine (List.map_congr_left fun t member => ?_).trans (List.map_id _)
    rw [asLaid, ← running t member]
    rfl
  rw [laid]
  unfold start
  dsimp only
  split
  · exact ⟨tasks, pipes⟩
  · exact ⟨tasks, pipes⟩

/-- What tasks are does not change while a statement runs. -/
theorem asLaid_steps (r : Run) (events : List Event) :
    (r.steps events).tasks.map asLaid = r.tasks.map asLaid := by
  induction events generalizing r with
  | nil => rfl
  | cons e events ih =>
    refine (ih (r.step e)).trans ?_
    rw [tasks_step]
    cases ends r e with
    | none => rfl
    | some both => exact map_modify_ended (fun _ => rfl) r.tasks both.1

theorem length_pipes_steps (r : Run) (events : List Event) :
    (r.steps events).pipes.length = r.pipes.length := by
  have same (k : Nat) : (r.steps events).pipes.length ≤ k ↔ r.pipes.length ≤ k := by
    rw [← List.getElem?_eq_none_iff, ← List.getElem?_eq_none_iff, pipes_steps,
      Option.map_eq_none_iff]
  exact Nat.le_antisymm ((same _).mpr le_rfl) ((same _).mp le_rfl)

theorem piped_iff_of_inRow {gs : List Segment} (row : InRow gs) {k : Nat} {g : Segment}
    (here : gs[k]? = some g) : g.piped = true ↔ k + 1 < gs.length := by
  induction row generalizing k with
  | last ends =>
    cases k with
    | zero =>
      obtain rfl := Option.some.inj here
      simp [ends]
    | succ k => cases here
  | next goes rest ih =>
    cases k with
    | zero =>
      obtain rfl := Option.some.inj here
      cases rest <;> simp [goes]
    | succ k => simpa using ih here

/-- In a row only the first segment reads the live input, and only the last writes into no pipe. -/
theorem mem_crewsFrom {hosts : List String} {gs : List Segment} (row : InRow gs) {k : Nat}
    {crew : List Task} (here : (crewsFrom hosts 0 gs)[k]? = some crew) {t : Task}
    (member : t ∈ crew) :
    (∀ i, t.source = .live i → k = 0) ∧ (t.sink = none ↔ k + 1 = gs.length) := by
  rw [getElem?_crewsFrom, Nat.zero_add] at here
  obtain ⟨g, found, rfl⟩ := Option.map_eq_some_iff.mp here
  obtain ⟨-, sink, source⟩ := mem_tasksOf member
  have inside : k < gs.length := (List.getElem?_eq_some_iff.mp found).1
  have piped := piped_iff_of_inRow row found
  constructor
  · intro i live
    cases k with
    | zero => rfl
    | succ k => simp [live, inletAt, Source.at] at source
  · rw [sink]
    split
    next goes =>
      have := piped.mp goes
      simp
      omega
    next ends =>
      have := mt piped.mpr ends
      simp
      omega

/-- A line that can be read becomes sound statements.  The segments of each are those made of its
commands, joined without losing a word, and when it runs, they are wired one to the next: at any time
only the tasks of the first read the live input, and behind the last there is no pipe. -/
theorem wired_of_parse {mark : Char} {line : String} {A : List Statement}
    (read : Line.parse mark line = .ok A) {S : Statement} (statement : S ∈ A) :
    S.IsSound mark ∧
    (∃ cs xs, cs <:+: Line.commands line ∧ List.Forall₂ (Line.Made mark) cs xs ∧ InRow xs ∧
      S.segments = Line.joinHosts xs ∧ Line.barredWords S.segments = Line.barredWords xs) ∧
    ∀ (r : Run) (hosts : List String) (typed : String) (events : List Event),
      ((r.start hosts typed S).steps events).tasks.map asLaid =
        (crewsFrom hosts 0 S.segments).flatten ∧
      ((r.start hosts typed S).steps events).pipes.length + 1 = S.segments.length ∧
      ∀ k crew, (crewsFrom hosts 0 S.segments)[k]? = some crew → ∀ t ∈ crew,
        (∀ i, t.source = .live i → k = 0) ∧ (t.sink = none ↔ k + 1 = S.segments.length) := by
  obtain ⟨sound, made⟩ := Line.isSound_of_parse read statement
  refine ⟨sound, made, fun r hosts typed events => ?_⟩
  obtain ⟨tasks, pipes⟩ := start_inRow r hosts typed sound.row
  rw [asLaid_steps, length_pipes_steps]
  exact ⟨tasks, pipes, fun k crew here t member => mem_crewsFrom sound.row here member⟩

/-- A command on this machine between commands on the hosts, which are joined on either side. -/
theorem wired_of_parse_between :
    ∃ S : Statement, Line.parse '!' "cat log | grep err | !sort | uniq -c | head" = .ok [S] ∧
      S.IsSound '!' ∧ ∀ (r : Run) (typed : String) (events : List Event),
        ((r.start ["web1"] typed S).steps events).tasks.map (fun t => (t.command, t.source, t.sink)) =
          [("cat log | grep err", .live 0, some 0), ("sort", .pipe 0 0, some 1),
            ("uniq -c | head", .pipe 1 0, none)] := by
  have read : Line.parse '!' "cat log | grep err | !sort | uniq -c | head" =
      .ok [⟨[⟨.hosts, ["cat", "log", "|", "grep", "err"], "cat log | grep err", true⟩,
        ⟨.here, ["sort"], "sort", true⟩,
        ⟨.hosts, ["uniq", "-c", "|", "head"], "uniq -c | head", false⟩]⟩] := by cbv
  obtain ⟨sound, -, wired⟩ := wired_of_parse read List.mem_cons_self
  refine ⟨_, read, sound, fun r typed events => ?_⟩
  obtain ⟨tasks, -⟩ := wired r ["web1"] typed events
  have laid := congrArg (List.map fun t : Task => (t.command, t.source, t.sink)) tasks
  rw [List.map_map] at laid
  exact laid

end Flotilla.Shell.Run
