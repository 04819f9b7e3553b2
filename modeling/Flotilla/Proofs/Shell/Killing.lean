import Mathlib.Tactic.ByContra
import Flotilla.Shell.Child

/-!
# Whether a child is killed when its output is refused

A child whose output is refused is to be killed.  The runner comes to it only when both copies have
ended, so a child that holds its other stream open, and that is stuck as nobody empties the refused
one, is never killed: `canKill_iff` says when the kill can be reached, and `IsDeadlocked.blocked`
what a command looks like that only the user can end.
-/

namespace Flotilla.Shell

def Stream.other : Stream → Stream
  | .out => .err
  | .err => .out

theorem Stream.eq_or_other (s t : Stream) : t = s ∨ t = s.other := by
  cases s <;> cases t <;> simp [other]

@[simp] theorem Stream.ne_other (s : Stream) : s ≠ s.other := by
  cases s <;> nofun

/-- Whether the copy of a stream goes on for as long as the child leaves the stream open. -/
def Outlet.isHeld (o : Outlet) : Prop := o.copying = .going ∧ o.isOpen = true

namespace ChildRun

variable {capacity : Nat} {r r' : ChildRun} {s : Stream}

/-! ### Streams -/

@[simp] theorem outlet_setOutlet (r : ChildRun) (s t : Stream) (o : Outlet) :
    (r.setOutlet s o).outlet t = if t = s then o else r.outlet t := by
  cases s <;> cases t <;> rfl

@[simp] theorem child_setOutlet (r : ChildRun) (s : Stream) (o : Outlet) :
    (r.setOutlet s o).child = r.child := by
  cases s <;> rfl

@[simp] theorem killed_setOutlet (r : ChildRun) (s : Stream) (o : Outlet) :
    (r.setOutlet s o).killed = r.killed := by
  cases s <;> rfl

@[simp] theorem result_setOutlet (r : ChildRun) (s : Stream) (o : Outlet) :
    (r.setOutlet s o).result = r.result := by
  cases s <;> rfl

@[simp] theorem capacity_setOutlet (r : ChildRun) (s : Stream) (o : Outlet) :
    (r.setOutlet s o).capacity = r.capacity := by
  cases s <;> rfl

@[simp] theorem outlet_endChild (r : ChildRun) (status : Option Nat) (s : Stream) :
    (r.endChild status).outlet s = { r.outlet s with isOpen := false } := by
  cases s <;> rfl

theorem copiesEnded_iff : r.copiesEnded = true ↔ ∀ s, (r.outlet s).copying ≠ .going := by
  simp only [copiesEnded, Bool.and_eq_true, decide_eq_true_eq]
  exact ⟨fun ended s => by cases s <;> simp [outlet, ended], fun ended => ⟨ended .out, ended .err⟩⟩

theorem copyFailed_iff : r.copyFailed = true ↔ ∃ s, (r.outlet s).copying = .failed := by
  simp only [copyFailed, Bool.or_eq_true, decide_eq_true_eq]
  constructor
  · rintro (failed | failed)
    · exact ⟨.out, failed⟩
    · exact ⟨.err, failed⟩
  · rintro ⟨s, failed⟩
    cases s
    · exact .inl failed
    · exact .inr failed

@[simp] theorem outlet_fill (r : ChildRun) (s t : Stream) (data : Bytes) :
    (r.fill s data).outlet t =
      if t = s then
        { r.outlet s with
          waiting := (r.outlet s).waiting ++ data.take (r.capacity - (r.outlet s).waiting.length) }
      else r.outlet t := by
  cases s <;> cases t <;> rfl

@[simp] theorem killed_fill (r : ChildRun) (s : Stream) (data : Bytes) :
    (r.fill s data).killed = r.killed := by
  cases s <;> rfl

@[simp] theorem result_fill (r : ChildRun) (s : Stream) (data : Bytes) :
    (r.fill s data).result = r.result := by
  cases s <;> rfl

@[simp] theorem capacity_fill (r : ChildRun) (s : Stream) (data : Bytes) :
    (r.fill s data).capacity = r.capacity := by
  cases s <;> rfl

theorem child_fill (r : ChildRun) (s : Stream) (data : Bytes) :
    (r.fill s data).child = .running ∨ ∃ rest, (r.fill s data).child = .stuck s rest := by
  unfold fill
  dsimp only
  split
  · exact .inl rfl
  · exact .inr ⟨_, rfl⟩

theorem isAlive_fill (r : ChildRun) (s : Stream) (data : Bytes) :
    (r.fill s data).isAlive = true := by
  rcases child_fill r s data with child | ⟨rest, child⟩ <;> rw [isAlive, child]

/-! ### Steps -/

/-- What a command comes to by a step that it can take. -/
inductive Moves (r : ChildRun) : Step → ChildRun → Prop
  | write {s : Stream} {data : Bytes} (running : r.child = .running)
    (isOpen : (r.outlet s).isOpen = true) : Moves r (.child (.write s data)) (r.fill s data)
  | resume {s : Stream} {rest : Bytes} (stuck : r.child = .stuck s rest)
    (room : (r.outlet s).waiting.length < r.capacity) : Moves r (.child .resume) (r.fill s rest)
  | close {s : Stream} (running : r.child = .running) :
    Moves r (.child (.close s)) (r.setOutlet s { r.outlet s with isOpen := false })
  | exit {status : Nat} (running : r.child = .running) :
    Moves r (.child (.exit status)) (r.endChild (some status))
  | die (killed : r.killed = true) (alive : r.isAlive = true) :
    Moves r (.child .die) (r.endChild none)
  | copy {s : Stream} (going : (r.outlet s).copying = .going) (some_ : (r.outlet s).waiting ≠ []) :
    Moves r (.runner (.copy s true)) (r.setOutlet s { r.outlet s with
      waiting := [], copied := (r.outlet s).copied ++ (r.outlet s).waiting })
  | refuse {s : Stream} (going : (r.outlet s).copying = .going)
    (some_ : (r.outlet s).waiting ≠ []) :
    Moves r (.runner (.copy s false)) (r.setOutlet s { r.outlet s with
      waiting := [], copying := .failed })
  | endCopy {s : Stream} (going : (r.outlet s).copying = .going)
    (none : (r.outlet s).waiting = []) (shut : (r.outlet s).isOpen = false) :
    Moves r (.runner (.endCopy s)) (r.setOutlet s { r.outlet s with copying := .ended })
  | kill {s : Stream} (ended : ∀ s, (r.outlet s).copying ≠ .going)
    (failed : (r.outlet s).copying = .failed)
    (spared : r.killed = false) : Moves r (.runner .kill) { r with killed := true }
  | reap {status : Option Nat} (ended : ∀ s, (r.outlet s).copying ≠ .going)
    (killed : (∃ s, (r.outlet s).copying = .failed) → r.killed = true)
    (gone : r.child = .ended status) : Moves r (.runner .reap) { r with result := some status }
  | interrupt : Moves r .interrupt { r.endChild none with killed := true, result := some none }

theorem moves_of_afterDeed {deed : Deed} (next : r.afterDeed deed = some r') :
    Moves r (.child deed) r' := by
  cases deed with
  | resume =>
    unfold afterDeed at next
    cases child : r.child with
    | stuck s rest =>
      simp only [child, Option.ite_none_right_eq_some, Option.some.injEq] at next
      obtain ⟨room, rfl⟩ := next
      exact .resume child room
    | running | ended => simp [child] at next
  | write s data =>
    simp only [afterDeed, Option.ite_none_right_eq_some, Option.some.injEq] at next
    obtain ⟨⟨running, isOpen⟩, rfl⟩ := next
    exact .write running isOpen
  | close s =>
    simp only [afterDeed, Option.ite_none_right_eq_some, Option.some.injEq] at next
    obtain ⟨running, rfl⟩ := next
    exact .close running
  | exit status =>
    simp only [afterDeed, Option.ite_none_right_eq_some, Option.some.injEq] at next
    obtain ⟨running, rfl⟩ := next
    exact .exit running
  | die =>
    simp only [afterDeed, Option.ite_none_right_eq_some, Option.some.injEq] at next
    obtain ⟨⟨killed, alive⟩, rfl⟩ := next
    exact .die killed alive

theorem moves_of_afterChore {chore : Chore} (next : r.afterChore chore = some r') :
    Moves r (.runner chore) r' := by
  cases chore with
  | copy s accepted =>
    simp only [afterChore, Option.ite_none_right_eq_some, Option.some.injEq] at next
    obtain ⟨⟨going, some_⟩, rfl⟩ := next
    cases accepted with
    | true => exact .copy going some_
    | false => exact .refuse going some_
  | endCopy s =>
    simp only [afterChore, Option.ite_none_right_eq_some, Option.some.injEq,
      Bool.not_eq_true'] at next
    obtain ⟨⟨going, none, shut⟩, rfl⟩ := next
    exact .endCopy going none shut
  | kill =>
    simp only [afterChore, Option.ite_none_right_eq_some, Option.some.injEq, copiesEnded_iff,
      copyFailed_iff, Bool.not_eq_true'] at next
    obtain ⟨⟨ended, ⟨s, failed⟩, spared⟩, rfl⟩ := next
    exact .kill ended failed spared
  | reap =>
    simp only [afterChore, Option.ite_none_right_eq_some, copiesEnded_iff, copyFailed_iff] at next
    obtain ⟨⟨ended, killed⟩, next⟩ := next
    split at next
    next gone =>
      cases next
      exact .reap ended killed gone
    next => cases next

theorem Moves.next? {step : Step} (going : r.result = none) (moves : Moves r step r') :
    r.next? step = some r' := by
  cases moves with
  | kill ended failed spared =>
    simp [ChildRun.next?, afterChore, going, copiesEnded_iff.mpr ended,
      copyFailed_iff.mpr ⟨_, failed⟩, spared]
  | reap ended killed gone =>
    have told : r.copyFailed = true → r.killed = true :=
      fun failed => killed (copyFailed_iff.mp failed)
    simp [ChildRun.next?, afterChore, going, copiesEnded_iff.mpr ended, gone]
    exact told
  | _ => simp_all [ChildRun.next?, afterDeed, afterChore]

/-- A command that is not done with takes a step exactly as `Moves` says. -/
theorem next?_eq_some_iff {step : Step} :
    r.next? step = some r' ↔ r.result = none ∧ Moves r step r' := by
  refine ⟨fun next => ?_, fun ⟨going, moves⟩ => moves.next? going⟩
  unfold ChildRun.next? at next
  split at next
  · cases next
  next going =>
    refine ⟨by simpa using going, ?_⟩
    cases step with
    | child deed => exact moves_of_afterDeed next
    | runner chore => exact moves_of_afterChore next
    | interrupt =>
      cases next
      exact .interrupt

/-! ### What holds in all that can be reached -/

/-- What holds of a command at any time. -/
structure Sound (r : ChildRun) : Prop where
  /-- A command that goes on after the kill has ended its copies. -/
  copies : r.killed = true → r.result = none → ∀ s, (r.outlet s).copying ≠ .going
  stuck : ∀ s rest, r.child = .stuck s rest → (r.outlet s).isOpen = true
  closed : r.isAlive = false → ∀ s, (r.outlet s).isOpen = false
  /-- Only a stream that is closed comes to its end. -/
  ended : ∀ s, (r.outlet s).copying = .ended → (r.outlet s).isOpen = false

theorem Sound.start : Sound { capacity } where
  copies killed := by cases killed
  stuck _ _ stuck := by cases stuck
  closed gone := by cases gone
  ended s ended := by cases s <;> cases ended

theorem Sound.fill (sound : Sound r) (isOpen : (r.outlet s).isOpen = true) (data : Bytes) :
    Sound (r.fill s data) where
  copies killed going t := by
    rw [killed_fill] at killed
    rw [result_fill] at going
    rw [outlet_fill]
    split
    next same => exact sound.copies killed going s
    next => exact sound.copies killed going t
  stuck t rest stuck := by
    rcases child_fill r s data with child | ⟨rest', child⟩
    · rw [child] at stuck
      cases stuck
    · rw [child] at stuck
      cases stuck
      rw [outlet_fill, if_pos rfl]
      exact isOpen
  closed gone := by simp [isAlive_fill] at gone
  ended t ended := by
    rw [outlet_fill] at ended ⊢
    split at ended
    next same =>
      subst same
      rw [sound.ended t ended] at isOpen
      cases isOpen
    next other =>
      rw [if_neg other]
      exact sound.ended t ended

theorem Sound.endChild (sound : Sound r) (status : Option Nat) : Sound (r.endChild status) where
  copies killed going s := by
    rw [outlet_endChild]
    exact sound.copies killed going s
  stuck _ _ stuck := by cases stuck
  closed _ s := by rw [outlet_endChild]
  ended s _ := by rw [outlet_endChild]

theorem Sound.setOutlet (sound : Sound r) {o : Outlet}
    (goes : o.copying = .going → (r.outlet s).copying = .going)
    (ends : o.copying = .ended → o.isOpen = false)
    (opened : o.isOpen = true → (r.outlet s).isOpen = true)
    (stuck : ∀ rest, r.child = .stuck s rest → o.isOpen = true) : Sound (r.setOutlet s o) where
  copies killed going t := by
    rw [killed_setOutlet] at killed
    rw [result_setOutlet] at going
    rw [outlet_setOutlet]
    split
    · exact fun copying => sound.copies killed going s (goes copying)
    · exact sound.copies killed going t
  stuck t rest blocked := by
    rw [child_setOutlet] at blocked
    rw [outlet_setOutlet]
    split
    next same =>
      subst same
      exact stuck rest blocked
    next => exact sound.stuck t rest blocked
  closed gone t := by
    rw [isAlive, child_setOutlet, ← isAlive] at gone
    rw [outlet_setOutlet]
    split
    · have shut := sound.closed gone s
      exact Bool.eq_false_iff.mpr fun isOpen => by simp [opened isOpen] at shut
    · exact sound.closed gone t
  ended t ended := by
    rw [outlet_setOutlet] at ended ⊢
    split at ended
    next same => rw [if_pos same]; exact ends ended
    next other => rw [if_neg other]; exact sound.ended t ended

theorem Sound.done (sound : Sound r) (killed : Bool) (status : Option Nat) :
    Sound { r with killed, result := some status } :=
  ⟨fun _ going => (by cases going), sound.stuck, sound.closed, sound.ended⟩

theorem Sound.next? (sound : Sound r) {step : Step} (next : r.next? step = some r') : Sound r' := by
  obtain ⟨-, moves⟩ := next?_eq_some_iff.mp next
  cases moves with
  | write running isOpen => exact sound.fill isOpen _
  | resume stuck room => exact sound.fill (sound.stuck _ _ stuck) _
  | close running =>
    exact sound.setOutlet id (fun _ => rfl) (fun isOpen => (by cases isOpen))
      fun rest stuck => (by rw [running] at stuck; cases stuck)
  | exit => exact sound.endChild _
  | die => exact sound.endChild _
  | copy going =>
    exact sound.setOutlet id (fun ended => sound.ended _ ended) id (sound.stuck _)
  | refuse going =>
    exact sound.setOutlet (fun _ => going) (fun ended => (by cases ended)) id (sound.stuck _)
  | endCopy going none shut =>
    exact sound.setOutlet (fun _ => going) (fun _ => shut) id (sound.stuck _)
  | kill ended => exact ⟨fun _ _ => ended, sound.stuck, sound.closed, sound.ended⟩
  | reap => exact sound.done _ _
  | interrupt => exact (sound.endChild none).done true none

theorem Reachable.sound (reached : Reachable capacity r) : Sound r := by
  induction reached with
  | start => exact Sound.start
  | step _ next ih => exact ih.next? next

theorem capacity_next? {step : Step} (next : r.next? step = some r') :
    r'.capacity = r.capacity := by
  obtain ⟨-, moves⟩ := next?_eq_some_iff.mp next
  cases moves <;> first | rfl | exact capacity_setOutlet ..

theorem Reachable.capacity_eq (reached : Reachable capacity r) : r.capacity = capacity := by
  induction reached with
  | start => rfl
  | step _ next ih => rw [capacity_next? next, ih]

/-! ### Reaching the kill -/

/-- Whether a chore brings nothing that refuses bytes. -/
def Chore.isAccepting : Chore → Bool
  | .copy _ accepted => accepted
  | _ => true

/-- Whether the runner can get the child killed, whatever the child does not do. -/
def CanKill (r : ChildRun) : Prop :=
  ∃ chores : List Chore, (∀ c ∈ chores, c.isAccepting = true) ∧
    ∃ r', r.run? (chores.map .runner) = some r' ∧ r'.killed = true

theorem canKill_of_moves {c : Chore} (accepting : c.isAccepting = true) (going : r.result = none)
    (moves : Moves r (.runner c) r') (can : r'.CanKill) : r.CanKill := by
  obtain ⟨chores, accepts, r'', runs, killed⟩ := can
  refine ⟨c :: chores, ?_, r'', ?_, killed⟩
  · simpa [accepting] using accepts
  · rw [List.map_cons, run?, moves.next? going, Option.bind_some, runs]

/-- Once both copies have ended, one of them by a refusal, the kill is at hand. -/
theorem canKill_of_copies (going : r.result = none) (ended : ∀ s, (r.outlet s).copying ≠ .going)
    (failed : (r.outlet s).copying = .failed) : r.CanKill := by
  cases killed : r.killed with
  | true => exact ⟨[], by simp, r, rfl, killed⟩
  | false => exact canKill_of_moves rfl going (.kill ended failed killed) ⟨[], by simp, _, rfl, rfl⟩

/-- A stream was refused, and the runner still waits for the child to close the other one. -/
structure Waits (s : Stream) (r : ChildRun) : Prop where
  refused : (r.outlet s).copying = .failed
  held : (r.outlet s.other).isHeld
  spared : r.killed = false
  going : r.result = none

/-- All that the runner can do while it waits is to copy the other stream. -/
theorem Waits.chore_eq (waits : Waits s r) {c : Chore} (moves : Moves r (.runner c) r') :
    (r.outlet s.other).waiting ≠ [] ∧ ∃ accepted, c = .copy s.other accepted := by
  -- This stream was refused, so a copy that goes on is that of the other one.
  have other {t : Stream} (going : (r.outlet t).copying = .going) : t = s.other := by
    refine (s.eq_or_other t).resolve_left fun same => ?_
    rw [same, waits.refused] at going
    cases going
  cases moves with
  | copy going some_ =>
    obtain rfl := other going
    exact ⟨some_, true, rfl⟩
  | refuse going some_ =>
    obtain rfl := other going
    exact ⟨some_, false, rfl⟩
  | endCopy going none shut =>
    obtain rfl := other going
    rw [waits.held.2] at shut
    cases shut
  | kill ended => exact (ended s.other waits.held.1).elim
  | reap ended => exact (ended s.other waits.held.1).elim

theorem Waits.chore (waits : Waits s r) {c : Chore} (accepting : c.isAccepting = true)
    (moves : Moves r (.runner c) r') :
    Waits s r' ∧ r'.child = r.child ∧ r'.outlet s = r.outlet s ∧ r'.capacity = r.capacity := by
  obtain ⟨-, accepted, rfl⟩ := waits.chore_eq moves
  cases moves with
  | copy going some_ =>
    refine ⟨⟨?_, ?_, ?_, ?_⟩, ?_, ?_, ?_⟩
    all_goals simp [waits.refused, waits.spared, waits.going]
    exact waits.held
  | refuse => cases accepting

theorem Waits.not_canKill (waits : Waits s r) : ¬ r.CanKill := by
  rintro ⟨chores, accepts, r', runs, killed⟩
  induction chores generalizing r with
  | nil =>
    cases runs
    rw [waits.spared] at killed
    cases killed
  | cons c chores ih =>
    obtain ⟨r₁, next, later⟩ := Option.bind_eq_some_iff.mp runs
    have moves := (next?_eq_some_iff.mp next).2
    exact ih (waits.chore (accepts c List.mem_cons_self) moves).1
      (fun d later => accepts d (List.mem_cons_of_mem c later)) later

theorem Waits.of_isHeld (sound : Sound r) (going : r.result = none)
    (failed : (r.outlet s).copying = .failed) (held : (r.outlet s.other).isHeld) : Waits s r where
  refused := failed
  held := held
  spared := Bool.eq_false_iff.mpr fun killed => sound.copies killed going s.other held.1
  going := going

theorem canKill_of_emptied (going : r.result = none) (failed : (r.outlet s).copying = .failed)
    (copying : (r.outlet s.other).copying = .going) (none : (r.outlet s.other).waiting = [])
    (shut : (r.outlet s.other).isOpen = false) : r.CanKill := by
  refine canKill_of_moves rfl going (.endCopy copying none shut) ?_
  refine canKill_of_copies (s := s) ?_ (fun t => ?_) ?_
  · simp [going]
  · obtain rfl | rfl := s.eq_or_other t <;> simp [failed]
  · simp [failed]

/-- The copy of a closed stream can be brought to its end, and then the kill is at hand. -/
theorem canKill_of_not_isHeld (going : r.result = none) (failed : (r.outlet s).copying = .failed)
    (free : ¬ (r.outlet s.other).isHeld) : r.CanKill := by
  by_cases copying : (r.outlet s.other).copying = .going
  · have shut : (r.outlet s.other).isOpen = false :=
      Bool.eq_false_iff.mpr fun isOpen => free ⟨copying, isOpen⟩
    by_cases none : (r.outlet s.other).waiting = []
    · exact canKill_of_emptied going failed copying none shut
    · refine canKill_of_moves rfl going (.copy copying none) ?_
      apply canKill_of_emptied (s := s)
      all_goals simp [going, failed, copying, shut]
  · refine canKill_of_copies going (fun t => ?_) failed
    obtain rfl | rfl := s.eq_or_other t
    · simp [failed]
    · exact copying

/-- A refusal gets the child killed unless the runner waits for the other stream. -/
theorem canKill_iff (sound : Sound r) (going : r.result = none)
    (failed : (r.outlet s).copying = .failed) : r.CanKill ↔ ¬ (r.outlet s.other).isHeld :=
  ⟨fun can held => (Waits.of_isHeld sound going failed held).not_canKill can,
    canKill_of_not_isHeld going failed⟩

/-! ### Where nothing goes on -/

/-- The child is stuck on a full stream that was refused, and the runner waits for it. -/
structure Blocked (s : Stream) (r : ChildRun) : Prop where
  waits : Waits s r
  stuck : ∃ rest, r.child = .stuck s rest
  full : r.capacity ≤ (r.outlet s).waiting.length

/-- Whether a step neither comes from the user nor refuses bytes. -/
def Step.isOrdinary : Step → Bool
  | .child _ => true
  | .runner c => c.isAccepting
  | .interrupt => false

theorem Blocked.not_deed (blocked : Blocked s r) {deed : Deed} :
    ¬ Moves r (.child deed) r' := by
  obtain ⟨waits, ⟨rest, stuck⟩, full⟩ := blocked
  intro moves
  cases moves with
  | write running | close running | exit running =>
    rw [stuck] at running
    cases running
  | resume stuck' room =>
    rw [stuck] at stuck'
    cases stuck'
    exact absurd room (Nat.not_lt.mpr full)
  | die killed =>
    rw [waits.spared] at killed
    cases killed

theorem Blocked.next? (blocked : Blocked s r) {step : Step} (ordinary : step.isOrdinary = true)
    (next : r.next? step = some r') : Blocked s r' := by
  obtain ⟨-, moves⟩ := next?_eq_some_iff.mp next
  cases step with
  | child deed => exact (blocked.not_deed moves).elim
  | runner c =>
    obtain ⟨waits, ⟨rest, stuck⟩, full⟩ := blocked
    obtain ⟨still, child, outlet, capacity⟩ := waits.chore ordinary moves
    exact ⟨still, ⟨rest, child.trans stuck⟩, by rwa [capacity, outlet]⟩
  | interrupt => cases ordinary

theorem Blocked.run? (blocked : Blocked s r) {steps : List Step}
    (ordinary : ∀ t ∈ steps, t.isOrdinary = true) (runs : r.run? steps = some r') :
    Blocked s r' := by
  induction steps generalizing r with
  | nil =>
    cases runs
    exact blocked
  | cons t steps ih =>
    obtain ⟨r₁, next, later⟩ := Option.bind_eq_some_iff.mp runs
    exact ih (blocked.next? (ordinary t List.mem_cons_self) next)
      (fun u member => ordinary u (List.mem_cons_of_mem t member)) later

/-- A command that goes on only if the user interrupts it. -/
def IsDeadlocked (r : ChildRun) : Prop :=
  r.result = none ∧ ∀ t r', r.next? t = some r' → t = .interrupt

theorem Blocked.isDeadlocked (blocked : Blocked s r) (none : (r.outlet s.other).waiting = []) :
    r.IsDeadlocked := by
  refine ⟨blocked.waits.going, fun t r' next => ?_⟩
  obtain ⟨-, moves⟩ := next?_eq_some_iff.mp next
  cases t with
  | child deed => exact (blocked.not_deed moves).elim
  | runner c => exact ((blocked.waits.chore_eq moves).1 none).elim
  | interrupt => rfl

namespace IsDeadlocked

variable (dead : r.IsDeadlocked)
include dead

theorem eq_interrupt {t : Step} (moves : Moves r t r') : t = .interrupt :=
  dead.2 t r' (moves.next? dead.1)

/-- A copy that has not ended waits for the child. -/
theorem waits_of_going (going : (r.outlet s).copying = .going) :
    (r.outlet s).waiting = [] ∧ (r.outlet s).isOpen = true := by
  have none : (r.outlet s).waiting = [] := by
    by_contra some_
    cases dead.eq_interrupt (.copy going some_)
  refine ⟨none, eq_true_of_ne_false fun shut => ?_⟩
  cases dead.eq_interrupt (.endCopy going none shut)

theorem child_ne_ended (sound : Sound r) (status : Option Nat) : r.child ≠ .ended status := by
  intro gone
  have shut (s : Stream) : (r.outlet s).isOpen = false := sound.closed (by rw [isAlive, gone]) s
  have ended (s : Stream) : (r.outlet s).copying ≠ .going := by
    intro going
    have isOpen := (dead.waits_of_going going).2
    rw [shut s] at isOpen
    cases isOpen
  -- A refusal calls for the kill first; then the status is taken up.
  by_cases told : (∃ s, (r.outlet s).copying = .failed) → r.killed = true
  · cases dead.eq_interrupt (.reap ended told gone)
  · obtain ⟨⟨s, failed⟩, spared⟩ := Classical.not_imp.mp told
    cases dead.eq_interrupt (.kill ended failed (Bool.eq_false_iff.mpr spared))

theorem blocked (sound : Sound r) (room : 0 < r.capacity) :
    ∃ s, Blocked s r ∧ (r.outlet s.other).waiting = [] := by
  cases child : r.child with
  | running => cases dead.eq_interrupt (@Moves.exit r 0 child)
  | ended status => exact (dead.child_ne_ended sound status child).elim
  | stuck s rest =>
    -- Each step that could be taken is ruled out in turn: going on with the rest, a copy of the
    -- stream, the death of the child, and the kill.
    have full : r.capacity ≤ (r.outlet s).waiting.length := by
      refine Nat.not_lt.mp fun room => ?_
      cases dead.eq_interrupt (.resume child room)
    have refused : (r.outlet s).copying = .failed := by
      cases copying : (r.outlet s).copying with
      | failed => rfl
      | going =>
        rw [(dead.waits_of_going copying).1] at full
        exact absurd full (Nat.not_le.mpr room)
      | ended =>
        have shut := sound.ended s copying
        rw [sound.stuck s rest child] at shut
        cases shut
    have spared : r.killed = false := by
      refine Bool.eq_false_iff.mpr fun killed => ?_
      cases dead.eq_interrupt (.die killed (by rw [isAlive, child]))
    have going : (r.outlet s.other).copying = .going := by
      by_contra done
      refine absurd (dead.eq_interrupt (.kill (fun t => ?_) refused spared)) nofun
      obtain rfl | rfl := s.eq_or_other t
      · simp [refused]
      · exact done
    obtain ⟨none, isOpen⟩ := dead.waits_of_going going
    exact ⟨s, ⟨⟨refused, ⟨going, isOpen⟩, spared, dead.1⟩, ⟨rest, child⟩, full⟩, none⟩

end IsDeadlocked

/-! ### Refused output -/

/-- A child whose output was refused can be killed by steps of the runner alone. -/
def KillsInTime (r : ChildRun) : Prop :=
  r.out.copying = .failed → r.isAlive = true → r.result = none → r.CanKill

/-- What becomes of a command whose output is refused. -/
structure KillVerdict (r : ChildRun) : Prop where
  kills : r.KillsInTime ↔ ¬ Waits .out r
  canKill : ∀ s, (r.outlet s).copying = .failed → r.result = none →
    (r.CanKill ↔ ¬ (r.outlet s.other).isHeld)
  /-- Once the child is stuck, it stays so until the user interrupts it or its other stream is
  refused too. -/
  blocked : ∀ s steps r', Blocked s r → (∀ t ∈ steps, t.isOrdinary = true) →
    r.run? steps = some r' → Blocked s r' ∧ ¬ r'.CanKill
  deadlocked : r.IsDeadlocked ↔ ∃ s, Blocked s r ∧ (r.outlet s.other).waiting = []

theorem killVerdict_of_reachable (room : 0 < capacity) (reached : Reachable capacity r) :
    KillVerdict r := by
  have sound := reached.sound
  have can (s : Stream) := @canKill_iff r s sound
  refine ⟨⟨fun kills waits => ?_, fun free refused alive going => ?_⟩,
    fun s failed going => can s going failed, fun s steps r' blocked ordinary runs => ?_,
    fun dead => dead.blocked sound (by rwa [reached.capacity_eq]),
    fun ⟨_, blocked, empty⟩ => blocked.isDeadlocked empty⟩
  · have alive : r.isAlive = true := by
      refine eq_true_of_ne_false fun gone => ?_
      have shut := sound.closed gone .err
      rw [show (r.outlet .err).isOpen = true from waits.held.2] at shut
      cases shut
    exact waits.not_canKill (kills waits.refused alive waits.going)
  · exact (can .out going refused).mpr fun held =>
      free (Waits.of_isHeld sound going refused held)
  · have blocked := blocked.run? ordinary runs
    exact ⟨blocked, blocked.waits.not_canKill⟩

/-- What a child writes and what becomes of it when nobody reads its output any more. -/
def flood (capacity : Nat) : List Step :=
  [.child (.write .out [0]), .runner (.copy .out false),
    .child (.write .out (List.replicate (capacity + 1) 0))]

def flooded (capacity : Nat) : ChildRun where
  capacity := capacity
  child := .stuck .out [0]
  out := { waiting := List.replicate capacity 0, copying := .failed }

theorem run?_flood (room : 0 < capacity) :
    ({ capacity } : ChildRun).run? (flood capacity) = some (flooded capacity) := by
  simp [flood, flooded, run?, next?, afterDeed, afterChore, fill, outlet, setOutlet,
    Nat.ne_of_gt room, Nat.one_le_of_lt room]

theorem Reachable.run? (reached : Reachable capacity r) {steps : List Step}
    (runs : r.run? steps = some r') : Reachable capacity r' := by
  induction steps generalizing r with
  | nil =>
    cases runs
    exact reached
  | cons t steps ih =>
    obtain ⟨r₁, next, later⟩ := Option.bind_eq_some_iff.mp runs
    exact ih (.step reached next) later

theorem reachable_flooded (room : 0 < capacity) : Reachable capacity (flooded capacity) :=
  Reachable.start.run? (run?_flood room)

theorem blocked_flooded (capacity : Nat) : Blocked .out (flooded capacity) where
  waits := ⟨rfl, ⟨rfl, rfl⟩, rfl, rfl⟩
  stuck := ⟨[0], rfl⟩
  full := by simp [flooded, outlet]

theorem killVerdict_of_reachable_flooded :
    0 < 65536 ∧ Reachable 65536 (flooded 65536) ∧
      ∀ steps r', (∀ t ∈ steps, t.isOrdinary = true) →
        (flooded 65536).run? steps = some r' → ¬ r'.CanKill := by
  have room : 0 < 65536 := by decide
  have reached := reachable_flooded room
  exact ⟨room, reached, fun steps r' ordinary runs =>
    ((killVerdict_of_reachable room reached).blocked .out steps r' (blocked_flooded 65536) ordinary
      runs).2⟩

/-- Over a pipe of the usual size, a child whose output is refused can come to where only the user
ends it. -/
theorem not_killsInTime_flooded :
    Reachable 65536 (flooded 65536) ∧ ¬ (flooded 65536).KillsInTime ∧
      (flooded 65536).IsDeadlocked := by
  have blocked := blocked_flooded 65536
  exact ⟨reachable_flooded (by decide), fun kills => blocked.waits.not_canKill (kills rfl rfl rfl),
    blocked.isDeadlocked rfl⟩

end ChildRun

end Flotilla.Shell
