import Flotilla.Proofs.Shell.Piping

/-!
# What becomes of the lines that the user types

A statement takes lines from the live input and brings each to all segments that read.  That a
segment reads no more is noticed only when a line is brought to it, so the last line that a
statement takes may come to nobody.
-/

namespace Flotilla.Shell.Run

open Line (Statement)

/-- The lines that wait in the live input. -/
def pending (r : Run) : List String := (r.input.map (·.lines)).getD []

/-- The line that a statement takes by an event. -/
def takes (r : Run) : Event → List String
  | .takeLine => if r.live.any (·.fed) then r.pending.take 1 else []
  | _ => []

/-- The line that the user types by an event. -/
def types (r : Run) : Event → List String
  | .type line => if r.input.map (·.isOpen) = some true then [line] else []
  | _ => []

/-- The line that a statement takes though no segment listens. -/
def loses (r : Run) (e : Event) : List String :=
  if r.live.any (·.listening) then [] else takes r e

/-- What a segment reads of a line. -/
def chunkOf (line : String) : Bytes := utf8 (line ++ "\n")

/-- What asking for a line can lead to: nothing, the end of the input, or a line. -/
theorem takeLine_cases (r : Run) :
    takes r .takeLine = [] ∧ (r.takeLine = r ∨ r.takeLine = r.endLive) ∨
      ∃ line later, takes r .takeLine = [line] ∧ r.pending = line :: later ∧
        r.live.any (·.fed) = true ∧ r.takeLine.pending = later ∧
        r.takeLine.live = r.live.map (·.bring (chunkOf line)) := by
  unfold takeLine takes
  cases fed : r.live.any (·.fed) with
  | false => exact .inl ⟨rfl, .inl rfl⟩
  | true =>
    cases input : r.input with
    | none => exact .inl ⟨by simp [pending, input], .inl rfl⟩
    | some live =>
      obtain ⟨lines, isOpen⟩ := live
      have waiting : r.pending = lines := by simp [pending, input]
      cases lines with
      | nil =>
        refine .inl ⟨by simp [waiting], ?_⟩
        cases isOpen with
        | true => exact .inl rfl
        | false => exact .inr rfl
      | cons line later => exact .inr ⟨line, later, by simp [waiting], waiting, rfl, rfl, rfl⟩

theorem pending_step (r : Run) (e : Event) :
    r.pending ++ types r e = takes r e ++ (r.step e).pending := by
  have untouched (same : (r.step e).input = r.input) (untyped : types r e = [])
      (untaken : takes r e = []) : r.pending ++ types r e = takes r e ++ (r.step e).pending := by
    rw [untyped, untaken, List.append_nil, List.nil_append, pending, pending, same]
  cases e with
  | takeLine =>
    change r.pending ++ [] = takes r .takeLine ++ r.takeLine.pending
    rw [List.append_nil]
    rcases takeLine_cases r with ⟨untaken, same | same⟩ | ⟨line, later, taken, waiting, -, left, -⟩
    · rw [untaken, same, List.nil_append]
    · rw [untaken, same, List.nil_append]
      rfl
    · rw [taken, waiting, left, List.singleton_append]
  | type line =>
    cases input : r.input with
    | none => simp [types, takes, step, pending, input]
    | some live => cases isOpen : live.isOpen <;> simp [types, takes, step, pending, input, isOpen]
  | endInput =>
    cases input : r.input <;> simp [types, takes, step, pending, input]
  | _ => exact untouched (input_step r (by simp) (by simp) (by simp)) rfl rfl

/-- Lines are taken in the order in which they come, and those that are not taken stay. -/
theorem pending_steps (r : Run) (events : List Event) :
    r.pending ++ observe step types r events =
      observe step takes r events ++ (r.steps events).pending := by
  induction events generalizing r with
  | nil => exact List.append_nil _
  | cons e events ih =>
    rw [observe, observe, ← List.append_assoc, pending_step, List.append_assoc, ih,
      List.append_assoc]
    rfl

theorem handles_cases {r : Run} {e : Event} {t : Task} {f : Reader → Reader}
    (handled : handles r e = some (t, f)) :
    (∃ j, e = .read j ∧ r.command? j = some t ∧ f = .read) ∨ f = .hangUp ∧ ∀ j, e ≠ .read j := by
  cases e with
  | read j =>
    simp only [handles, Option.map_eq_some_iff, Prod.mk.injEq] at handled
    obtain ⟨u, found, rfl, rfl⟩ := handled
    exact .inl ⟨j, rfl, found, rfl⟩
  | hangUp j =>
    simp only [handles, Option.map_eq_some_iff, Prod.mk.injEq] at handled
    obtain ⟨-, -, -, rfl⟩ := handled
    exact .inr ⟨rfl, by simp⟩
  | finish j result =>
    simp only [handles, Option.map_eq_some_iff, Prod.mk.injEq] at handled
    obtain ⟨-, -, -, rfl⟩ := handled
    exact .inr ⟨rfl, by simp⟩
  | answer j =>
    simp only [handles, Option.map_eq_some_iff, Prod.mk.injEq] at handled
    obtain ⟨-, -, -, rfl⟩ := handled
    exact .inr ⟨rfl, by simp⟩
  | _ => simp [handles] at handled

/-- Other events than the taking of a line change one reader at most, that of a task. -/
theorem live_step_cases (r : Run) {e : Event} (other : e ≠ .takeLine) :
    (r.step e).live = r.live ∧ (∀ t f i, handles r e = some (t, f) → t.source ≠ .live i) ∨
      ∃ t f i, handles r e = some (t, f) ∧ t.source = .live i ∧
        (r.step e).live = r.live.modify i f := by
  rw [live_step r e other]
  cases handled : handles r e with
  | none => exact .inl ⟨rfl, by simp⟩
  | some both =>
    obtain ⟨t, f⟩ := both
    simp only [Option.elim_some, useLive]
    cases source : t.source with
    | live i => exact .inr ⟨t, f, i, rfl, source, rfl⟩
    | _ =>
      refine .inl ⟨rfl, fun u g i same => ?_⟩
      obtain ⟨rfl, -⟩ := Prod.mk.inj (Option.some.inj same)
      simp [source]

/-- Other events than the taking of a line neither feed a reader nor bring one back. -/
theorem mem_live_step {r : Run} {e : Event} (other : e ≠ .takeLine) {rd : Reader}
    (member : rd ∈ (r.step e).live) :
    ∃ old ∈ r.live, rd.fed = old.fed ∧ (rd.listening = true → old.listening = true) := by
  rcases live_step_cases r other with ⟨same, -⟩ | ⟨t, f, i, handled, -, same⟩
  · exact ⟨rd, same ▸ member, rfl, id⟩
  · rw [same] at member
    obtain ⟨j, here⟩ := List.mem_iff_getElem?.mp member
    rw [List.getElem?_modify] at here
    obtain ⟨old, before, rfl⟩ := Option.map_eq_some_iff.mp here
    refine ⟨old, List.mem_of_getElem? before, ?_⟩
    split
    · rcases handles_cases handled with ⟨-, -, -, rfl⟩ | ⟨rfl, -⟩
      · exact ⟨rfl, id⟩
      · exact ⟨rfl, fun fed => by cases fed⟩
    · exact ⟨rfl, id⟩

/-- Nobody is fed any more. -/
def IsDone (r : Run) : Prop := ∀ rd ∈ r.live, rd.fed = false

theorem IsDone.step {r : Run} (done : IsDone r) (e : Event) : IsDone (r.step e) := by
  by_cases taking : e = .takeLine
  · subst taking
    have nobody : r.live.any (·.fed) = false := by simpa [IsDone] using done
    have idle : r.step .takeLine = r := by simp [Run.step, takeLine, nobody]
    rw [idle]
    exact done
  · intro rd member
    obtain ⟨old, before, fed, -⟩ := mem_live_step taking member
    exact fed.trans (done old before)

theorem IsDone.takes_eq_nil {r : Run} (done : IsDone r) (events : List Event) :
    observe Run.step takes r events = [] := by
  induction events generalizing r with
  | nil => rfl
  | cons e events ih =>
    have nobody : r.live.any (·.fed) = false := by simpa [IsDone] using done
    have none : takes r e = [] := by
      cases e with
      | takeLine => simp [takes, nobody]
      | _ => rfl
    rw [observe, none, ih (done.step e)]
    rfl

/-- Whoever listens is fed, until nobody is. -/
def Feeds (r : Run) : Prop := (∀ rd ∈ r.live, rd.listening = true → rd.fed = true) ∨ IsDone r

theorem Feeds.listening {r : Run} (feeds : Feeds r) (some_ : r.live.any (·.fed) = true) :
    ∀ rd ∈ r.live, rd.listening = true → rd.fed = true := by
  rcases feeds with each | done
  · exact each
  · obtain ⟨rd, member, fed⟩ := List.any_eq_true.mp some_
    rw [done rd member] at fed
    cases fed

theorem bring_of_listening {rd : Reader} (listens : rd.listening = true) (fed : rd.fed = true)
    (chunk : Bytes) : rd.bring chunk = { rd with waiting := rd.waiting ++ [chunk] } := by
  simp [Reader.bring, listens, fed]

theorem Feeds.step {r : Run} (feeds : Feeds r) (e : Event) : Feeds (r.step e) := by
  by_cases taking : e = .takeLine
  · subst taking
    rcases takeLine_cases r with ⟨-, same | same⟩ | ⟨line, later, -, -, fed, -, brought⟩
    · rw [Run.step, same]
      exact feeds
    · refine .inr fun rd member => ?_
      rw [Run.step, same] at member
      obtain ⟨old, -, rfl⟩ := List.mem_map.mp member
      rfl
    · refine .inl fun rd member listens => ?_
      rw [Run.step, brought] at member
      obtain ⟨old, before, rfl⟩ := List.mem_map.mp member
      rw [Reader.listening_bring] at listens
      have open_ := feeds.listening fed old before listens
      rw [bring_of_listening listens open_]
      exact open_
  · rcases feeds with each | done
    · refine .inl fun rd member listens => ?_
      obtain ⟨old, before, fed, stays⟩ := mem_live_step taking member
      exact fed.trans (each old before (stays listens))
    · exact .inr (done.step e)

theorem Feeds.steps {r : Run} (feeds : Feeds r) (events : List Event) :
    Feeds (r.steps events) := by
  induction events generalizing r with
  | nil => exact feeds
  | cons e events ih => exact ih (feeds.step e)

/-- What an event takes is one line at most, and then the event asks for it. -/
theorem takes_cases {r : Run} {e : Event} {line : String} (member : line ∈ takes r e) :
    e = .takeLine ∧ takes r e = [line] ∧ r.live.any (·.fed) = true ∧
      (r.step e).live = r.live.map (·.bring (chunkOf line)) := by
  cases e with
  | takeLine =>
    rcases takeLine_cases r with ⟨untaken, -⟩ | ⟨first, later, taken, -, fed, -, brought⟩
    · simp [untaken] at member
    · obtain rfl : line = first := by simpa [taken] using member
      exact ⟨rfl, taken, fed, brought⟩
  | _ => cases member

/-- A line that a statement takes though nobody listens is the last one that it takes. -/
theorem takes_after_loss {r : Run} {e : Event} {line : String} (member : line ∈ takes r e)
    (deaf : ∀ rd ∈ r.live, rd.listening = false) (events : List Event) :
    observe step takes (r.step e) events = [] := by
  obtain ⟨-, -, -, brought⟩ := takes_cases member
  refine IsDone.takes_eq_nil (fun rd there => ?_) events
  rw [brought] at there
  obtain ⟨old, before, rfl⟩ := List.mem_map.mp there
  have gone := deaf old before
  cases fed : old.fed <;> simp [Reader.bring, fed, gone]

/-- What the tasks that read the live input have got of the lines that were taken. -/
structure Follows (taken : List String) (got : Nat → List Bytes) (r : Run) : Prop where
  feeds : Feeds r
  heard : ∀ j t i rd, r.tasks[j]? = some t → t.source = .live i → r.live[i]? = some rd →
    rd.listening = true → got j ++ rd.waiting = taken.map chunkOf

theorem Follows.takeLine {taken : List String} {got : Nat → List Bytes} {r : Run}
    (follows : Follows taken got r) :
    Follows (taken ++ takes r .takeLine) got (r.step .takeLine) := by
  refine ⟨follows.feeds.step _, fun j t i rd here source reader listens => ?_⟩
  have tasks : (r.step .takeLine).tasks = r.tasks := tasks_step r .takeLine
  rw [tasks] at here
  change r.takeLine.live[i]? = some rd at reader
  rcases takeLine_cases r with ⟨untaken, same | same⟩ | ⟨line, later, taken', -, fed, -, brought⟩
  · rw [same] at reader
    rw [untaken, List.append_nil]
    exact follows.heard j t i rd here source reader listens
  · rw [same, endLive, List.getElem?_map] at reader
    obtain ⟨old, before, rfl⟩ := Option.map_eq_some_iff.mp reader
    rw [untaken, List.append_nil]
    exact follows.heard j t i old here source before listens
  · rw [brought, List.getElem?_map] at reader
    obtain ⟨old, before, rfl⟩ := Option.map_eq_some_iff.mp reader
    rw [Reader.listening_bring] at listens
    have open_ := follows.feeds.listening fed old (List.mem_of_getElem? before) listens
    rw [bring_of_listening listens open_, taken', List.map_append, ← List.append_assoc,
      follows.heard j t i old here source before listens]
    rfl

/-- What an event does to a task's own reader of the live input. -/
theorem own_reader_step {r : Run} (laid : Laid r) {e : Event} (other : e ≠ .takeLine) {j i : Nat}
    {t : Task} {rd : Reader} (here : r.tasks[j]? = some t) (source : t.source = .live i)
    (reader : (r.step e).live[i]? = some rd) (listens : rd.listening = true) :
    ∃ old, r.live[i]? = some old ∧ old.listening = true ∧
      gets j r e ++ rd.waiting = old.waiting := by
  have own {u : Task} (found : r.command? j = some u) : u = t :=
    Option.some.inj ((command?_eq_some.mp found).1.symm.trans here)
  have unread (elsewhere : ∀ u f, handles r e = some (u, f) → u.source ≠ .live i) :
      gets j r e = [] := by
    cases e with
    | read j' =>
      simp only [gets]
      split
      next same =>
        subst same
        cases found : r.command? j' with
        | none => rfl
        | some u => exact absurd (own found ▸ source) (elsewhere u .read (by simp [handles, found]))
      next => rfl
    | _ => rfl
  rcases live_step_cases r other with ⟨same, elsewhere⟩ | ⟨u, f, i', handled, seated, same⟩
  · rw [unread fun u f handled => elsewhere u f i handled]
    exact ⟨rd, same ▸ reader, listens, rfl⟩
  · rw [same, List.getElem?_modify] at reader
    obtain ⟨old, before, rfl⟩ := Option.map_eq_some_iff.mp reader
    by_cases mine : i' = i
    · subst mine
      simp only [if_true] at listens ⊢
      rcases handles_cases handled with ⟨j', rfl, found, rfl⟩ | ⟨rfl, -⟩
      · have place : t.placeAt none = some i' := placeAt_eq_some.mpr source
        have place' : u.placeAt none = some i' := placeAt_eq_some.mpr seated
        obtain rfl : j' = j := place_unique (laid.places none) (command?_eq_some.mp found).1 here
          place' place
        refine ⟨old, before, listens, ?_⟩
        have head : (r.reader? u) = some old := by simp [reader?, seated, before]
        simp only [gets, found, head, Reader.read, if_true, Option.bind_some]
        cases old.waiting <;> rfl
      · cases listens
    · rw [if_neg mine] at listens ⊢
      refine ⟨old, before, listens, ?_⟩
      rw [unread fun v g handled' there => ?_]
      · rfl
      · obtain ⟨rfl, -⟩ := Prod.mk.inj (Option.some.inj (handled.symm.trans handled'))
        rw [seated] at there
        exact mine (Source.live.inj there)

theorem Follows.step {taken : List String} {got : Nat → List Bytes} {r : Run}
    (follows : Follows taken got r) (laid : Laid r) (e : Event) :
    Follows (taken ++ takes r e) (fun j => got j ++ gets j r e) (r.step e) := by
  by_cases taking : e = .takeLine
  · subst taking
    obtain ⟨feeds, heard⟩ := follows.takeLine
    refine ⟨feeds, fun j t i rd here source reader listens => ?_⟩
    rw [← heard j t i rd here source reader listens]
    exact congrArg (· ++ rd.waiting) (List.append_nil (got j))
  · refine ⟨follows.feeds.step e, fun j t i rd here source reader listens => ?_⟩
    have untaken : takes r e = [] := by
      cases e with
      | takeLine => exact absurd rfl taking
      | _ => rfl
    obtain ⟨f, kept, tasks⟩ := getElem?_tasks_step r e j
    obtain ⟨u, before, rfl⟩ := Option.map_eq_some_iff.mp (tasks ▸ here)
    have seated : u.source = .live i := by
      rcases kept u with stays | ends
      · rwa [stays] at source
      · rwa [ends] at source
    obtain ⟨old, there, listened, waiting⟩ :=
      own_reader_step laid taking before seated reader listens
    rw [untaken, List.append_nil, List.append_assoc, waiting]
    exact follows.heard j u i old before seated there listened

theorem Follows.steps {taken : List String} {got : Nat → List Bytes} {r : Run}
    (follows : Follows taken got r) (laid : Laid r) (events : List Event) :
    Follows (taken ++ observe Run.step takes r events)
      (fun j => got j ++ observe Run.step (gets j) r events) (r.steps events) := by
  induction events generalizing taken got r with
  | nil =>
    simp only [observe, List.append_nil]
    exact follows
  | cons e events ih =>
    simp only [observe, ← List.append_assoc]
    exact ih (follows.step laid e) (laid.step e)

theorem observe_eq_nil {σ ε α : Type} {f : σ → ε → List α} {next : σ → ε → σ} {s : σ}
    {es : List ε} : observe next f s es = [] ↔
      ∀ before e after, es = before ++ e :: after → f (before.foldl next s) e = [] := by
  constructor
  · rintro none before e after rfl
    rw [observe_append, observe, List.append_eq_nil_iff, List.append_eq_nil_iff] at none
    exact none.2.1
  · intro each
    induction es generalizing s with
    | nil => rfl
    | cons e es ih =>
      have first := each [] e es rfl
      have later := ih (s := next s e) fun before e' after same =>
        each (e :: before) e' after (congrArg (e :: ·) same)
      rw [observe, later, List.append_nil]
      exact first

theorem loses_suffix (r : Run) (events : List Event) :
    observe step loses r events <:+ observe step takes r events ∧
      (observe step loses r events).length ≤ 1 := by
  induction events generalizing r with
  | nil => exact ⟨List.suffix_refl [], Nat.zero_le 1⟩
  | cons e events ih =>
    obtain ⟨suffix, short⟩ := ih (r.step e)
    rw [observe, observe]
    by_cases kept : loses r e = []
    · rw [kept, List.nil_append]
      exact ⟨suffix.trans (List.suffix_append _ _), short⟩
    · have deaf : r.live.any (·.listening) = false := by
        cases heard : r.live.any (·.listening) with
        | false => rfl
        | true => exact absurd (by simp [loses, heard]) kept
      have same : loses r e = takes r e := by simp [loses, deaf]
      obtain ⟨line, member⟩ := List.exists_mem_of_ne_nil _ (same ▸ kept)
      have gone : ∀ rd ∈ r.live, rd.listening = false := by simpa using deaf
      have last := takes_after_loss member gone events
      rw [last] at suffix ⊢
      rw [List.suffix_nil.mp suffix, same, (takes_cases member).2.1]
      exact ⟨List.suffix_refl _, Nat.le_refl 1⟩

/-- Whether each line that a statement takes is brought to a task that listens. -/
def HearsAll (started : Run) (events : List Event) : Prop :=
  ∀ before e after, events = before ++ e :: after →
    ∀ line ∈ takes (started.steps before) e,
      ∃ t ∈ (started.steps before).tasks, ∃ i rd, t.source = .live i ∧
        (started.steps before).live[i]? = some rd ∧ rd.listening = true ∧
        ((started.steps before).step e).live[i]? =
          some { rd with waiting := rd.waiting ++ [chunkOf line] }

/-- A line that is not lost is brought to a task that listens, and one that is lost to none. -/
theorem heard_iff {r : Run} (laid : Laid r) (feeds : Feeds r) (e : Event) :
    loses r e = [] ↔ ∀ line ∈ takes r e, ∃ t ∈ r.tasks, ∃ i rd, t.source = .live i ∧
      r.live[i]? = some rd ∧ rd.listening = true ∧
      (r.step e).live[i]? = some { rd with waiting := rd.waiting ++ [chunkOf line] } := by
  constructor
  · intro kept line member
    obtain ⟨-, taken, fed, brought⟩ := takes_cases member
    have heard : r.live.any (·.listening) = true := by
      cases heard : r.live.any (·.listening) with
      | true => rfl
      | false => simp [loses, heard, taken] at kept
    obtain ⟨rd, there, listens⟩ := List.any_eq_true.mp heard
    obtain ⟨i, here⟩ := List.mem_iff_getElem?.mp there
    have place : i ∈ List.range (r.readersAt none).length :=
      List.mem_range.mpr (List.getElem?_eq_some_iff.mp here).1
    rw [← laid.places none] at place
    obtain ⟨t, task, seated⟩ := List.mem_filterMap.mp place
    refine ⟨t, task, i, rd, placeAt_eq_some.mp seated, here, listens, ?_⟩
    have open_ := feeds.listening fed rd there listens
    rw [brought, List.getElem?_map, here, Option.map_some, bring_of_listening listens open_]
  · intro heard
    unfold loses
    split
    · rfl
    next deaf =>
      refine List.eq_nil_iff_forall_not_mem.mpr fun line member => ?_
      obtain ⟨t, -, i, rd, -, here, listens, -⟩ := heard line member
      exact deaf (List.any_eq_true.mpr ⟨rd, List.mem_of_getElem? here, listens⟩)

/-- What becomes of the lines of the live input while a statement runs. -/
structure LinesKept (started : Run) (events : List Event) : Prop where
  /-- They are taken in order, and those that are not taken stay. -/
  order : started.pending ++ observe step types started events =
    observe step takes started events ++ (started.steps events).pending
  /-- A task that listens has got all that were taken, or has them before it. -/
  readers : ∀ j t i rd, (started.steps events).tasks[j]? = some t → t.source = .live i →
    (started.steps events).live[i]? = some rd → rd.listening = true →
    observe step (gets j) started events ++ rd.waiting =
      (observe step takes started events).map chunkOf
  /-- One line may be lost, the last that is taken. -/
  lost : observe step loses started events <:+ observe step takes started events ∧
    (observe step loses started events).length ≤ 1
  heard : HearsAll started events ↔ observe step loses started events = []

theorem start_keepsLines (r : Run) (hosts : List String) (line : String) (s : Statement)
    (events : List Event) : LinesKept (r.start hosts line s) events := by
  have laid := start_laid r hosts line s
  obtain ⟨-, -, -, live⟩ := start_plumbed r hosts line s
  generalize r.start hosts line s = started at laid live
  have feeds : Feeds started := by
    cases input : started.input with
    | some _ => exact .inl fun rd member _ => by rw [live rd member, input]; rfl
    | none => exact .inr fun rd member => by rw [live rd member, input]; rfl
  have follows : Follows [] (fun _ => []) started :=
    ⟨feeds, fun j t i rd _ _ reader _ => by rw [live rd (List.mem_of_getElem? reader)]; rfl⟩
  constructor
  case order => exact pending_steps started events
  case readers => exact (follows.steps laid events).heard
  case lost => exact loses_suffix started events
  case heard =>
    rw [observe_eq_nil]
    refine forall_congr' fun before => forall_congr' fun e => forall_congr' fun after => ?_
    refine imp_congr_right fun _ => ?_
    exact (heard_iff (laid.steps before) (feeds.steps before) e).symm

/-- A statement on one host whose only reader of the live input soon ends. -/
def hasty : Run :=
  start { now := ⟨"2000-01-01", "00:00:00", "+00:00"⟩, sequence := some 1, input := some ⟨[], true⟩,
          capture := .empty, logPath := none, files := {} }
    ["web1"] "hostname | !sleep 1"
    ⟨[⟨.hosts, ["hostname"], "hostname", true⟩, ⟨.here, ["sleep", "1"], "sleep 1", false⟩]⟩

/-- What happens to it before the user's line is taken. -/
def hurry : List Event :=
  [.write 0 (utf8 "web1\n") 5, .finish 0 (.ok (some 0)), .type "say kept"]

example : (hasty.steps hurry).isFinished = false := by decide

/-- A line that comes when the host has ended is taken and lost, while the statement goes on. -/
theorem not_hearsAll_hasty : ¬ HearsAll hasty (hurry ++ [.takeLine]) := by
  intro heard
  have taken : "say kept" ∈ takes (hasty.steps hurry) .takeLine := by decide
  obtain ⟨t, -, i, rd, -, here, listens, -⟩ := heard hurry .takeLine [] rfl _ taken
  have gone : ∀ rd ∈ (hasty.steps hurry).live, rd.listening = false := by decide
  rw [gone rd (List.mem_of_getElem? here)] at listens
  cases listens

end Flotilla.Shell.Run
