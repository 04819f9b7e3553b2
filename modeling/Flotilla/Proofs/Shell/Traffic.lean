import Flotilla.Shell.Pipe

/-!
# Traffic through a pipe

A pipe goes through acts of its writers, of its readers and of its own.  `Balanced` weighs what was
put in against what was got out, and every act keeps the balance.  `closing_unnoticed` says that a
reader that hangs up takes nothing from the others.
-/

namespace Flotilla.Shell

/-- What `f` sees along a list of events. -/
def observe {σ ε α : Type} (step : σ → ε → σ) (f : σ → ε → List α) (s : σ) : List ε → List α
  | [] => []
  | e :: es => f s e ++ observe step f (step s e) es

theorem observe_append {σ ε α : Type} (step : σ → ε → σ) (f : σ → ε → List α) (s : σ)
    (es fs : List ε) : observe step f s (es ++ fs) =
      observe step f s es ++ observe step f (es.foldl step s) fs := by
  induction es generalizing s with
  | nil => rfl
  | cons e es ih => rw [List.cons_append, observe, observe, ih, List.append_assoc, List.foldl_cons]

theorem Reader.listening_bring (rd : Reader) (chunk : Bytes) :
    (rd.bring chunk).listening = rd.listening := by
  unfold Reader.bring
  repeat' split
  all_goals rfl

namespace Pipe

/-- Something that happens to a pipe. -/
inductive Act where
  | write (chunk : Bytes)
  | carry
  | finishWriter
  | read (reader : Nat)
  | hangUp (reader : Nat)
  deriving DecidableEq

def act (p : Pipe) : Act → Pipe
  | .write chunk => p.write chunk
  | .carry => p.carry
  | .finishWriter => p.finishWriter
  | .read i => p.changeReader i .read
  | .hangUp i => p.changeReader i .hangUp

def acts (p : Pipe) (as : List Act) : Pipe := as.foldl act p

theorem acts_append (p : Pipe) (as bs : List Act) : p.acts (as ++ bs) = (p.acts as).acts bs :=
  List.foldl_append

/-- The chunk that the pipe takes in, if it takes one. -/
def took (p : Pipe) : Act → List Bytes
  | .write chunk => if p.carries then [chunk] else []
  | _ => []

/-- The chunk that reader `i` reads, if it reads one. -/
def gave (i : Nat) (p : Pipe) : Act → List Bytes
  | .read j => if j = i then ((p.readers[i]?).bind (·.waiting.head?)).toList else []
  | _ => []

/-- The books of a pipe that took in `taken` and of which reader `i` has read `got i`. -/
structure Balanced (taken : List Bytes) (got : Nat → List Bytes) (p : Pipe) : Prop where
  /-- A reader that listens has read, or has before it, all that was taken in. -/
  listening : ∀ i rd, p.readers[i]? = some rd → rd.listening = true →
    got i ++ rd.waiting ++ p.chunks = taken ∧ rd.fed = p.carries
  gone : ∀ i rd, p.readers[i]? = some rd → rd.listening = false →
    rd.waiting = [] ∧ got i <+: taken
  /-- A pipe stops with all its chunks carried, and not before its writers have finished unless
  nobody listens. -/
  stopped : p.carries = false → p.chunks = [] ∧ ∀ rd ∈ p.readers, rd.listening = true → p.writers = 0

variable {taken : List Bytes} {got : Nat → List Bytes} {p : Pipe}

theorem Balanced.of_eq {taken' : List Bytes} {got' : Nat → List Bytes} (b : Balanced taken got p)
    (puts : taken' = taken) (gets : ∀ i, got' i = got i) : Balanced taken' got' p := by
  obtain rfl : got' = got := funext gets
  exact puts ▸ b

theorem Balanced.got_isPrefix (b : Balanced taken got p) {i : Nat} {rd : Reader}
    (here : p.readers[i]? = some rd) : got i <+: taken := by
  cases listens : rd.listening with
  | false => exact (b.gone i rd here listens).2
  | true =>
    obtain ⟨total, -⟩ := b.listening i rd here listens
    rw [List.append_assoc] at total
    exact ⟨_, total⟩

theorem Balanced.write (b : Balanced taken got p) (chunk : Bytes) :
    Balanced (taken ++ p.took (.write chunk)) got (p.write chunk) := by
  unfold took Pipe.write
  cases carries : p.carries with
  | false => simpa using b
  | true =>
    simp only [if_true]
    refine ⟨fun i rd here listens => ?_, fun i rd here gone => ?_, fun halted => ?_⟩
    · obtain ⟨total, fed⟩ := b.listening i rd here listens
      exact ⟨by simp [← total], fed.trans carries⟩
    · obtain ⟨waiting, before⟩ := b.gone i rd here gone
      exact ⟨waiting, before.trans (List.prefix_append _ _)⟩
    · cases halted

theorem Balanced.stop (b : Balanced taken got p)
    (ended : ∀ rd ∈ p.readers, rd.listening = true → p.chunks = [] ∧ p.writers = 0) :
    Balanced taken got p.stop := by
  have starved {i : Nat} {rd : Reader} (here : p.stop.readers[i]? = some rd) :
      ∃ old, p.readers[i]? = some old ∧ old.starve = rd := by
    simpa [Pipe.stop] using here
  refine ⟨fun i rd here listens => ?_, fun i rd here gone => ?_, fun _ => ⟨rfl, fun rd member => ?_⟩⟩
  · obtain ⟨old, before, rfl⟩ := starved here
    obtain ⟨total, -⟩ := b.listening i old before listens
    rw [(ended old (List.mem_of_getElem? before) listens).1] at total
    exact ⟨total, rfl⟩
  · obtain ⟨old, before, rfl⟩ := starved here
    exact b.gone i old before gone
  · intro listens
    obtain ⟨i, here⟩ := List.mem_iff_getElem?.mp member
    obtain ⟨old, before, rfl⟩ := starved here
    exact (ended old (List.mem_of_getElem? before) listens).2

theorem Balanced.bring {chunk : Bytes} {later : List Bytes} (b : Balanced taken got p)
    (carries : p.carries = true) (next : p.chunks = chunk :: later) :
    Balanced taken got { p with readers := p.readers.map (·.bring chunk), chunks := later } := by
  refine ⟨fun i rd here listens => ?_, fun i rd here gone => ?_, fun halted => ?_⟩
  · obtain ⟨old, before, rfl⟩ : ∃ old, p.readers[i]? = some old ∧ old.bring chunk = rd := by
      simpa using here
    rw [Reader.listening_bring] at listens
    obtain ⟨total, fed⟩ := b.listening i old before listens
    rw [carries] at fed
    rw [next] at total
    have brought : old.bring chunk = { old with waiting := old.waiting ++ [chunk] } := by
      simp [Reader.bring, fed, listens]
    rw [brought]
    exact ⟨by simpa using total, fed.trans carries.symm⟩
  · obtain ⟨old, before, rfl⟩ : ∃ old, p.readers[i]? = some old ∧ old.bring chunk = rd := by
      simpa using here
    rw [Reader.listening_bring] at gone
    obtain ⟨waiting, prior⟩ := b.gone i old before gone
    refine ⟨?_, prior⟩
    unfold Reader.bring
    simp only [gone]
    split <;> exact waiting
  · exact absurd (halted.symm.trans carries) (by decide)

theorem Balanced.carry (b : Balanced taken got p) : Balanced taken got p.carry := by
  unfold Pipe.carry
  split
  · exact b
  next carries =>
    rw [Bool.not_eq_true', Bool.not_eq_false] at carries
    split
    next chunk later next =>
      have brought := b.bring carries next
      dsimp only
      split
      · exact brought
      next unfed =>
        -- A reader that listens is fed, so nobody listens any more.
        refine brought.stop fun rd member listens => ?_
        obtain ⟨i, here⟩ := List.mem_iff_getElem?.mp member
        have fed := (brought.listening i rd here listens).2
        exact absurd (List.any_eq_true.mpr ⟨rd, member, fed.trans carries⟩) unfed
    next empty =>
      split
      next finished => exact b.stop fun _ _ _ => ⟨empty, finished⟩
      · exact b

theorem Balanced.finishWriter (b : Balanced taken got p) : Balanced taken got p.finishWriter := by
  refine ⟨b.listening, b.gone, fun halted => ?_⟩
  obtain ⟨empty, ended⟩ := b.stopped halted
  refine ⟨empty, fun rd member listens => ?_⟩
  have zero := ended rd member listens
  change p.writers - 1 = 0
  omega

theorem getElem?_changeReader (p : Pipe) (i j : Nat) (f : Reader → Reader) :
    (p.changeReader i f).readers[j]? =
      (p.readers[j]?).map fun rd => if i = j then f rd else rd := by
  simp [changeReader, List.getElem?_modify]

/-- What a reader does for itself leaves the books of the others as they are. -/
theorem Balanced.changeReader {got' : Nat → List Bytes} {i : Nat} {f : Reader → Reader}
    (b : Balanced taken got p) (others : ∀ j, j ≠ i → got' j = got j)
    (stays : ∀ rd, p.readers[i]? = some rd → (f rd).listening = true →
      rd.listening = true ∧ (f rd).fed = rd.fed ∧
        got' i ++ (f rd).waiting = got i ++ rd.waiting)
    (leaves : ∀ rd, p.readers[i]? = some rd → (f rd).listening = false →
      (f rd).waiting = [] ∧ got' i = got i) :
    Balanced taken got' (p.changeReader i f) := by
  have changed {j : Nat} {rd : Reader} (here : (p.changeReader i f).readers[j]? = some rd) :
      ∃ old, p.readers[j]? = some old ∧ (if i = j then f old else old) = rd := by
    rw [getElem?_changeReader] at here
    exact Option.map_eq_some_iff.mp here
  refine ⟨fun j rd here listens => ?_, fun j rd here gone => ?_, fun halted => ?_⟩
  · obtain ⟨old, before, rfl⟩ := changed here
    by_cases same : i = j
    · subst same
      rw [if_pos rfl] at listens ⊢
      obtain ⟨listened, fed, read⟩ := stays old before listens
      obtain ⟨total, carries⟩ := b.listening i old before listened
      exact ⟨by rw [read]; exact total, fed.trans carries⟩
    · rw [if_neg same] at listens ⊢
      rw [others j (Ne.symm same)]
      exact b.listening j old before listens
  · obtain ⟨old, before, rfl⟩ := changed here
    by_cases same : i = j
    · subst same
      rw [if_pos rfl] at gone ⊢
      obtain ⟨waiting, read⟩ := leaves old before gone
      exact ⟨waiting, read ▸ b.got_isPrefix before⟩
    · rw [if_neg same] at gone ⊢
      rw [others j (Ne.symm same)]
      exact b.gone j old before gone
  · obtain ⟨empty, ended⟩ := b.stopped halted
    refine ⟨empty, fun rd member listens => ?_⟩
    obtain ⟨j, here⟩ := List.mem_iff_getElem?.mp member
    obtain ⟨old, before, rfl⟩ := changed here
    refine ended old (List.mem_of_getElem? before) ?_
    by_cases same : i = j
    · subst same
      rw [if_pos rfl] at listens
      exact (stays old before listens).1
    · rwa [if_neg same] at listens

theorem Balanced.read (b : Balanced taken got p) (i : Nat) :
    Balanced taken (fun j => got j ++ p.gave j (.read i)) (p.changeReader i .read) := by
  refine b.changeReader (fun j other => ?_) (fun rd here listens => ?_) fun rd here gone => ?_
  · simp [gave, Ne.symm other]
  · refine ⟨listens, rfl, ?_⟩
    simp only [gave, if_true, here, Option.bind_some, Reader.read]
    cases rd.waiting <;> simp
  · obtain ⟨waiting, -⟩ := b.gone i rd here gone
    simp [gave, here, Reader.read, waiting]

theorem Balanced.hangUp (b : Balanced taken got p) (i : Nat) :
    Balanced taken got (p.changeReader i .hangUp) :=
  b.changeReader (fun _ _ => rfl) (fun _ _ listens => nomatch listens) fun _ _ _ => ⟨rfl, rfl⟩

theorem acts_cons (p : Pipe) (a : Act) (as : List Act) : p.acts (a :: as) = (p.act a).acts as :=
  rfl

theorem Balanced.act (b : Balanced taken got p) (a : Act) :
    Balanced (taken ++ p.took a) (fun i => got i ++ p.gave i a) (Pipe.act p a) := by
  cases a with
  | write chunk => exact (b.write chunk).of_eq rfl fun i => List.append_nil _
  | carry => exact b.carry.of_eq (List.append_nil _) fun i => List.append_nil _
  | finishWriter => exact b.finishWriter.of_eq (List.append_nil _) fun i => List.append_nil _
  | read i => exact (b.read i).of_eq (List.append_nil _) fun _ => rfl
  | hangUp i => exact (b.hangUp i).of_eq (List.append_nil _) fun i => List.append_nil _

/-- Whatever happens keeps the balance of a pipe. -/
theorem Balanced.acts (b : Balanced taken got p) (as : List Act) :
    Balanced (taken ++ observe Pipe.act took p as) (fun i => got i ++ observe Pipe.act (gave i) p as)
      (Pipe.acts p as) := by
  induction as generalizing taken got p with
  | nil => exact b.of_eq (List.append_nil _) fun i => List.append_nil _
  | cons a as ih =>
    have later := ih (b.act a)
    exact later.of_eq (List.append_assoc _ _ _).symm fun i => (List.append_assoc _ _ _).symm

/-- Nothing has gone through a pipe that has only been joined. -/
theorem balanced_join (writers readers : Nat) :
    Balanced [] (fun _ => []) ((loose writers).join readers) := by
  have each {i : Nat} {rd : Reader} (here : ((loose writers).join readers).readers[i]? = some rd) :
      rd = {} ∧ readers ≠ 0 := by
    obtain ⟨-, rfl⟩ := List.mem_replicate.mp (List.mem_of_getElem? here)
    exact ⟨rfl, (List.mem_replicate.mp (List.mem_of_getElem? here)).1⟩
  refine ⟨fun i rd here _ => ?_, fun i rd here gone => ?_, fun halted => ⟨rfl, fun rd member => ?_⟩⟩
  · obtain ⟨rfl, some⟩ := each here
    exact ⟨rfl, (decide_eq_true some).symm⟩
  · obtain ⟨rfl, -⟩ := each here
    cases gone
  · exact absurd (List.mem_replicate.mp member).1 (of_decide_eq_false halted)

/-!
As long as a reader listens, what it gets depends on nothing that the other readers do.
-/

/-- Whether an act is one of the writers, of the pipe or of reader `i`. -/
def Act.concerns (i : Nat) : Act → Bool
  | .read j | .hangUp j => j = i
  | _ => true

/-- The pipe as reader `i` sees it while it listens. -/
def view (i : Nat) (p : Pipe) : Option Pipe :=
  ((p.readers[i]?).filter (·.listening)).map fun rd => { p with readers := [rd] }

theorem view_eq_some {i : Nat} {p v : Pipe} : view i p = some v ↔
    ∃ rd, p.readers[i]? = some rd ∧ rd.listening = true ∧ { p with readers := [rd] } = v := by
  simp [view, Option.filter_eq_some_iff, and_assoc]

theorem view_eq_none {i : Nat} {p : Pipe} : view i p = none ↔
    ∀ rd, p.readers[i]? = some rd → rd.listening = false := by
  simp [view]

theorem view_changeReader {i j : Nat} (other : j ≠ i) (p : Pipe) (f : Reader → Reader) :
    view i (p.changeReader j f) = view i p := by
  have same := getElem?_changeReader p j i f
  simp only [if_neg other, Option.map_id'] at same
  rw [view, same]
  rfl

theorem view_act_other {i : Nat} {a : Act} (other : a.concerns i = false) (p : Pipe) :
    view i (p.act a) = view i p := by
  cases a with
  | read j => exact view_changeReader (of_decide_eq_false other) p _
  | hangUp j => exact view_changeReader (of_decide_eq_false other) p _
  | _ => cases other

theorem gave_other {i : Nat} {a : Act} (other : a.concerns i = false) (p : Pipe) :
    gave i p a = [] := by
  cases a with
  | read j => exact if_neg (of_decide_eq_false other)
  | _ => rfl

/-- What carrying does where a reader listens. -/
theorem Balanced.carry_eq (b : Balanced taken got p) {i : Nat} {rd : Reader}
    (here : p.readers[i]? = some rd) (listens : rd.listening = true) :
    let more := p.carries && (p.chunks ≠ [] || p.writers ≠ 0)
    p.carry.readers[i]? = some { rd with waiting := rd.waiting ++ p.chunks.take 1, fed := more } ∧
      p.carry.chunks = p.chunks.drop 1 ∧ p.carry.writers = p.writers ∧ p.carry.carries = more := by
  obtain ⟨-, fed⟩ := b.listening i rd here listens
  cases carries : p.carries with
  | false =>
    obtain ⟨empty, -⟩ := b.stopped carries
    rw [carries] at fed
    have still : p.carry = p := by simp [Pipe.carry, carries]
    rw [still, here, empty]
    obtain ⟨waiting, listening, open_⟩ := rd
    obtain rfl : open_ = false := fed
    exact ⟨by simp, rfl, rfl, carries⟩
  | true =>
    rw [carries] at fed
    cases next : p.chunks with
    | cons chunk later =>
      have brought : rd.bring chunk = { rd with waiting := rd.waiting ++ [chunk] } := by
        simp [Reader.bring, fed, listens]
      have carried : p.carry =
          { p with readers := p.readers.map (·.bring chunk), chunks := later } := by
        have member := List.mem_map_of_mem (f := (·.bring chunk)) (List.mem_of_getElem? here)
        have someone : (p.readers.map (·.bring chunk)).any (·.fed) = true := by
          refine List.any_eq_true.mpr ⟨_, member, ?_⟩
          rw [brought]
          exact fed
        simp only [Pipe.carry, carries, next, someone, Bool.not_true, if_true]
        rfl
      rw [carried]
      refine ⟨?_, rfl, rfl, carries⟩
      simp [here, brought, ← fed]
    | nil =>
      by_cases finished : p.writers = 0
      · have stopped : p.carry = p.stop := by simp [Pipe.carry, carries, next, finished]
        rw [stopped]
        exact ⟨by simp [Pipe.stop, here, Reader.starve, finished], rfl, rfl, by simp [Pipe.stop, finished]⟩
      · have still : p.carry = p := by simp [Pipe.carry, carries, next, finished]
        rw [still, here, next]
        exact ⟨by simp [finished, ← fed], rfl, rfl, by simp [carries, finished]⟩

theorem readers_carry (p : Pipe) : ∃ f : Reader → Reader,
    (∀ rd, (f rd).listening = rd.listening) ∧ p.carry.readers = p.readers.map f := by
  unfold Pipe.carry
  split
  · exact ⟨id, fun _ => rfl, (List.map_id _).symm⟩
  split
  next chunk later next =>
    dsimp only
    split
    · exact ⟨_, fun rd => Reader.listening_bring rd chunk, rfl⟩
    · exact ⟨.starve ∘ (·.bring chunk), fun rd => Reader.listening_bring rd chunk, List.map_map⟩
  next =>
    split
    · exact ⟨.starve, fun _ => rfl, rfl⟩
    · exact ⟨id, fun _ => rfl, (List.map_id _).symm⟩

/-- A reader stops listening by hanging up, and by nothing else. -/
theorem listening_act {i : Nat} {a : Act} {rd : Reader}
    (here : (p.act a).readers[i]? = some rd) : ∃ old, p.readers[i]? = some old ∧
      (rd.listening = true ↔ old.listening = true ∧ a ≠ .hangUp i) := by
  have changed {f : Reader → Reader} {j : Nat}
      (here : (p.changeReader j f).readers[i]? = some rd) :
      ∃ old, p.readers[i]? = some old ∧ (if j = i then f old else old) = rd := by
    rw [getElem?_changeReader] at here
    exact Option.map_eq_some_iff.mp here
  cases a with
  | write chunk =>
    refine ⟨rd, ?_, by simp⟩
    simp only [act, Pipe.write] at here
    split at here <;> exact here
  | carry =>
    obtain ⟨f, stays, readers⟩ := readers_carry p
    change p.carry.readers[i]? = some rd at here
    rw [readers, List.getElem?_map] at here
    obtain ⟨old, before, rfl⟩ := Option.map_eq_some_iff.mp here
    exact ⟨old, before, by simp [stays]⟩
  | finishWriter => exact ⟨rd, here, by simp⟩
  | read j =>
    obtain ⟨old, before, rfl⟩ := changed here
    refine ⟨old, before, ?_⟩
    split <;> simp [Reader.read]
  | hangUp j =>
    obtain ⟨old, before, rfl⟩ := changed here
    refine ⟨old, before, ?_⟩
    by_cases same : j = i <;> simp [same, Reader.hangUp]

theorem listening_acts {i : Nat} {as : List Act} {rd : Reader}
    (here : (p.acts as).readers[i]? = some rd) : ∃ old, p.readers[i]? = some old ∧
      (rd.listening = true ↔ old.listening = true ∧ .hangUp i ∉ as) := by
  induction as generalizing p with
  | nil => exact ⟨rd, here, by simp⟩
  | cons a as ih =>
    obtain ⟨middle, between, after⟩ := ih here
    obtain ⟨old, before, first⟩ := listening_act between
    refine ⟨old, before, after.trans ?_⟩
    rw [first, List.mem_cons, not_or, and_assoc, ne_comm]

theorem view_act_none {i : Nat} (gone : view i p = none) (a : Act) : view i (p.act a) = none := by
  rw [view_eq_none] at gone ⊢
  intro rd here
  obtain ⟨old, before, stays⟩ := listening_act here
  rw [gone old before] at stays
  exact Bool.eq_false_iff.mpr fun listens => nomatch (stays.mp listens).1

/-- Who does not listen is given nothing. -/
theorem Balanced.gave_none (b : Balanced taken got p) {i : Nat} (gone : view i p = none)
    (a : Act) : gave i p a = [] := by
  rw [view_eq_none] at gone
  cases a with
  | read j =>
    cases here : p.readers[i]? with
    | none => simp [gave, here]
    | some rd =>
      obtain ⟨waiting, -⟩ := b.gone i rd here (gone rd here)
      simp [gave, here, waiting]
  | _ => rfl

/-- Where two pipes look alike to reader `i`, what concerns it does the same to them. -/
theorem Balanced.act_alike {taken' : List Bytes} {got' : Nat → List Bytes} {q : Pipe}
    (b : Balanced taken got p) (c : Balanced taken' got' q) {i : Nat}
    (alike : view i p = view i q) {a : Act} (concerns : a.concerns i = true) :
    view i (p.act a) = view i (q.act a) ∧ gave i p a = gave i q a := by
  cases sees : view i p with
  | none =>
    have blind : view i q = none := alike.symm.trans sees
    rw [view_act_none sees, view_act_none blind, b.gave_none sees, c.gave_none blind]
    exact ⟨rfl, rfl⟩
  | some v =>
    obtain ⟨rd, here, listens, rfl⟩ := view_eq_some.mp sees
    obtain ⟨rd', there, -, same⟩ := view_eq_some.mp (alike.symm.trans sees)
    simp only [Pipe.mk.injEq, List.cons.injEq, and_true] at same
    obtain ⟨writers, rfl, chunks, carries⟩ := same
    cases a with
    | write chunk =>
      refine ⟨?_, rfl⟩
      cases carrying : p.carries <;>
        simp [Pipe.act, Pipe.write, view, here, there, carrying, carries, chunks, writers]
    | carry =>
      refine ⟨?_, rfl⟩
      obtain ⟨reader, rest, left, on⟩ := b.carry_eq here listens
      obtain ⟨reader', rest', left', on'⟩ := c.carry_eq there listens
      simp only [Pipe.act, view, reader, reader', rest, rest', left, left', on, on', carries, chunks,
        writers]
    | finishWriter =>
      refine ⟨?_, rfl⟩
      simp [Pipe.act, Pipe.finishWriter, view, here, there, carries, chunks, writers]
    | read j =>
      obtain rfl : j = i := of_decide_eq_true concerns
      refine ⟨?_, by simp [gave, here, there]⟩
      simp only [Pipe.act, view, getElem?_changeReader, here, there]
      simp only [Pipe.changeReader, carries, chunks, writers]
    | hangUp j =>
      obtain rfl : j = i := of_decide_eq_true concerns
      refine ⟨?_, rfl⟩
      simp only [Pipe.act, view, getElem?_changeReader, here, there]
      simp only [Pipe.changeReader, carries, chunks, writers]

/-- What the other readers do makes no difference to reader `i`. -/
theorem Balanced.alike_of_filter {taken' : List Bytes} {got' : Nat → List Bytes} {q : Pipe}
    (b : Balanced taken got p) (c : Balanced taken' got' q) {i : Nat}
    (alike : view i p = view i q) (as : List Act) :
    view i (p.acts as) = view i (q.acts (as.filter (·.concerns i))) ∧
      observe Pipe.act (gave i) p as = observe Pipe.act (gave i) q (as.filter (·.concerns i)) := by
  induction as generalizing taken got p taken' got' q with
  | nil => exact ⟨alike, rfl⟩
  | cons a as ih =>
    cases concerns : a.concerns i with
    | false =>
      obtain ⟨views, gets⟩ := ih (b.act a) c ((view_act_other concerns p).trans alike)
      rw [List.filter_cons_of_neg (by simp [concerns]), acts_cons, observe, gave_other concerns]
      exact ⟨views, gets⟩
    | true =>
      obtain ⟨views, gave⟩ := b.act_alike c alike concerns
      obtain ⟨views, gets⟩ := ih (b.act a) (c.act a) views
      rw [List.filter_cons_of_pos concerns, acts_cons, acts_cons, observe, observe, gave, gets]
      exact ⟨views, rfl⟩

/-- A reader that hangs up takes nothing from the others. -/
theorem Balanced.closing_unnoticed (b : Balanced taken got p) {i c : Nat} (other : c ≠ i)
    (as : List Act) :
    view i (p.acts (as.filter (· ≠ .hangUp c))) = view i (p.acts as) ∧
      observe Pipe.act (gave i) p (as.filter (· ≠ .hangUp c)) =
        observe Pipe.act (gave i) p as := by
  have same : (as.filter (· ≠ .hangUp c)).filter (·.concerns i) = as.filter (·.concerns i) := by
    rw [List.filter_filter]
    refine List.filter_congr fun a _ => ?_
    by_cases closing : a = .hangUp c
    · simp [closing, Act.concerns, other]
    · simp [closing]
  obtain ⟨views, gets⟩ := b.alike_of_filter b rfl (as.filter (· ≠ .hangUp c))
  obtain ⟨views', gets'⟩ := b.alike_of_filter b rfl as
  rw [same] at views gets
  exact ⟨views.trans views'.symm, gets.trans gets'.symm⟩

/-- Carrying on brings to a reader that listens all that is still on its way, and the end if all
writers have finished. -/
theorem Balanced.carry_out (b : Balanced taken got p) {i : Nat} {rd : Reader}
    (here : p.readers[i]? = some rd) (listens : rd.listening = true) :
    ∃ last : Reader,
      (p.acts (List.replicate (p.chunks.length + 1) .carry)).readers[i]? = some last ∧
      (p.acts (List.replicate (p.chunks.length + 1) .carry)).chunks = [] ∧
      last.listening = true ∧ (p.writers = 0 → last.fed = false) := by
  induction chunks : p.chunks generalizing got p rd with
  | nil =>
    obtain ⟨reader, rest, -⟩ := b.carry_eq here listens
    refine ⟨_, reader, rest.trans (by rw [chunks]; rfl), listens, fun finished => ?_⟩
    simp [chunks, finished]
  | cons chunk later ih =>
    obtain ⟨reader, rest, left, -⟩ := b.carry_eq here listens
    rw [chunks] at rest
    obtain ⟨last, there, empty, listening, fed⟩ := ih b.carry reader listens rest
    exact ⟨last, there, empty, listening, fun finished => fed (left.trans finished)⟩

theorem acts_reads (p : Pipe) {i : Nat} {rd : Reader} (here : p.readers[i]? = some rd) (n : Nat) :
    (p.acts (List.replicate n (.read i))).readers[i]? =
        some { rd with waiting := rd.waiting.drop n } ∧
      (p.acts (List.replicate n (.read i))).chunks = p.chunks := by
  induction n generalizing p rd with
  | zero => exact ⟨here, rfl⟩
  | succ n ih =>
    have read : (p.act (.read i)).readers[i]? = some rd.read := by
      simp [act, getElem?_changeReader, here]
    obtain ⟨reader, chunks⟩ := ih (p.act (.read i)) read
    refine ⟨reader.trans ?_, chunks⟩
    rw [Reader.read, List.drop_drop, Nat.add_comm]

/-- Whoever listens can come to have read all that was put in, and to see the end once all writers
have finished. -/
theorem Balanced.serve_out (b : Balanced taken got p) {i : Nat} {rd : Reader}
    (here : p.readers[i]? = some rd) (listens : rd.listening = true) :
    ∃ (as : List Act) (last : Reader), (∀ a ∈ as, a = .carry ∨ a = .read i) ∧
      (p.acts as).readers[i]? = some last ∧ last.listening = true ∧ last.waiting = [] ∧
      (p.acts as).chunks = [] ∧ (p.writers = 0 → last.fed = false) := by
  obtain ⟨full, there, empty, listening, fed⟩ := b.carry_out here listens
  obtain ⟨read, chunks⟩ := acts_reads _ there full.waiting.length
  rw [← acts_append] at read chunks
  refine ⟨_, _, fun a member => ?_, read, listening, List.drop_length, chunks.trans empty, fed⟩
  rcases List.mem_append.mp member with carries | reads
  · exact .inl (List.mem_replicate.mp carries).2
  · exact .inr (List.mem_replicate.mp reads).2

end Pipe

end Flotilla.Shell
