import Mathlib
import Flotilla.Connect.Factory

/-!
# Calls side by side

Calls that connect hosts which are not configured share one inventory, and each of them looks,
enters its host, dials and cleans up in turns of its own.  `steps_settled` says what the inventory
holds when all have ended: what was there before, and of the other hosts just those that no call
has taken away again since they were entered.  `Factory.connectAdhoc` is one such call on its own.
-/

namespace Flotilla

namespace AdhocCall

/-- Whether the call found its host unknown and has not ended. -/
def Takes (c : AdhocCall) : Prop :=
  c.stage = .looked false ∨ c.stage = .entered false ∨ ∃ r, c.stage = .dialled false r

/-- Whether the call was to keep its host and connected it. -/
def Keeps (c : AdhocCall) : Prop := c.persist ∧ ∃ connection, c.result? = some (.ok connection)

/-- Whether the call has begun and has not ended. -/
def UnderWay (c : AdhocCall) : Prop :=
  match c.stage with
  | .fresh | .ended _ => False
  | _ => True

/-- Whether the call has come to where its host was in the inventory. -/
def Passed (c : AdhocCall) : Prop :=
  match c.stage with
  | .fresh | .looked false | .ended (.error _) => False
  | _ => True

theorem keeps_iff_not_isForgotten {c : AdhocCall} {r : Except ConnectError Connection} :
    ({ c with stage := .ended r } : AdhocCall).Keeps ↔ c.isForgotten false r = false := by
  cases r <;> simp [Keeps, result?, isForgotten, Except.toOption]

theorem Keeps.passed {c : AdhocCall} (keeps : c.Keeps) : c.Passed := by
  obtain ⟨-, connection, result⟩ := keeps
  unfold result? at result
  unfold Passed
  split at result
  next r stage =>
    obtain rfl := Option.some.inj result
    simp [stage]
  next => cases result

/-- What one turn makes of a call and of the inventory. -/
inductive Moves (inv : Inventory) (c : AdhocCall) : AdhocCall → Inventory → Prop where
  | stays : Moves inv c c inv
  | looks (fresh : c.stage = .fresh) :
      Moves inv c { c with stage := .looked (inv.knows c.name) } inv
  | passes (looked : c.stage = .looked true) : Moves inv c { c with stage := .entered true } inv
  | refused {e : ConnectError} (looked : c.stage = .looked false)
      (wrong : entry inv c.name = .error e) : Moves inv c { c with stage := .ended (.error e) } inv
  | enters {s : Server} (looked : c.stage = .looked false) (right : entry inv c.name = .ok s) :
      Moves inv c { c with stage := .entered false } (inv.remember c.name s)
  | dials {known : Bool} {r : Except ConnectError Connection} (entered : c.stage = .entered known) :
      Moves inv c { c with stage := .dialled known r } inv
  | ends {known : Bool} {r : Except ConnectError Connection} (dialled : c.stage = .dialled known r)
      (left : c.isForgotten known r = false) : Moves inv c { c with stage := .ended r } inv
  | forgets {r : Except ConnectError Connection} (dialled : c.stage = .dialled false r)
      (taken : c.isForgotten false r) :
      Moves inv c { c with stage := .ended r } (inv.forget c.name)

theorem next_moves (c : AdhocCall) (inv : Inventory) :
    Moves inv c (c.next inv).1 (c.next inv).2 := by
  unfold next
  cases stage : c.stage with
  | fresh => exact .looks stage
  | looked known =>
    cases known with
    | true => exact .passes stage
    | false =>
      cases made : entry inv c.name with
      | error e => exact .refused stage made
      | ok s => exact .enters stage made
  | entered known => exact .stays
  | dialled known result =>
    by_cases taken : c.isForgotten known result
    · have unknown : known = false := by
        cases known with
        | true => simp [isForgotten] at taken
        | false => rfl
      subst unknown
      simp only [taken, if_true]
      exact .forgets stage taken
    · rw [Bool.not_eq_true] at taken
      simp only [taken]
      exact .ends stage taken
  | ended result => exact .stays

theorem dial_moves (c : AdhocCall) (outcome : Except ConnectError Connection) (inv : Inventory) :
    Moves inv c (c.dial outcome) inv := by
  unfold dial
  cases stage : c.stage with
  | entered known => exact .dials stage
  | _ => exact .stays

/-- What is asked of the call. -/
def order (c : AdhocCall) : String × Bool := (c.name, c.persist)

end AdhocCall

theorem Inventory.knows_remember (inv : Inventory) (name other : String) (e : Server) :
    (inv.remember name e).knows other = (decide (other = name) || inv.knows other) := by
  unfold knows remember Table.contains
  dsimp only
  rw [Table.find?_insert]
  by_cases same : other = name <;> simp [same]

theorem Inventory.knows_forget (inv : Inventory) (name other : String) :
    (inv.forget name).knows other = (! decide (other = name) && inv.knows other) := by
  unfold knows forget Table.contains
  dsimp only
  rw [Table.find?_erase]
  by_cases same : other = name <;> simp [same]

namespace AdhocCall.Moves

variable {inv inv' : Inventory} {c c' : AdhocCall} {name : String}

theorem order_eq (moves : Moves inv c c' inv') : c'.order = c.order := by
  cases moves <;> rfl

theorem name_eq (moves : Moves inv c c' inv') : c'.name = c.name :=
  congrArg Prod.fst moves.order_eq

theorem common_eq (moves : Moves inv c c' inv') : inv'.common = inv.common := by
  cases moves <;> rfl

theorem eq_of_ended (moves : Moves inv c c' inv') (ended : c.result?.isSome) : c' = c := by
  cases moves with
  | stays => rfl
  | looks stage => simp [result?, stage] at ended
  | passes stage => simp [result?, stage] at ended
  | refused stage => simp [result?, stage] at ended
  | enters stage => simp [result?, stage] at ended
  | dials stage => simp [result?, stage] at ended
  | ends stage => simp [result?, stage] at ended
  | forgets stage => simp [result?, stage] at ended

/-- A call takes its host only when it has found that the host is unknown. -/
theorem takes (moves : Moves inv c c' inv') (took : c'.Takes) :
    c.Takes ∨ inv.knows c.name = false := by
  cases moves with
  | stays => exact .inl took
  | looks => exact .inr (by simpa [Takes] using took)
  | enters looked => exact .inl (.inl looked)
  | dials entered =>
    obtain rfl : _ = false := by simpa [Takes] using took
    exact .inl (.inr (.inl entered))
  | _ => simp [Takes] at took

/-- Only calls that take a host change its entry. -/
theorem find?_eq (moves : Moves inv c c' inv') (other : ¬ (c.name = name ∧ c.Takes)) :
    inv'.servers.find? name = inv.servers.find? name := by
  cases moves with
  | enters looked =>
    have elsewhere : name ≠ c.name := fun same => other ⟨same.symm, .inl looked⟩
    rw [Inventory.remember, Table.find?_insert, if_neg elsewhere]
  | forgets dialled =>
    have elsewhere : name ≠ c.name := fun same => other ⟨same.symm, .inr (.inr ⟨_, dialled⟩)⟩
    rw [Inventory.forget, Table.find?_erase, if_neg elsewhere]
  | _ => rfl

/-- A host comes into the inventory just when a call enters it. -/
theorem enters_of_knows (moves : Moves inv c c' inv') (unknown : inv.knows name = false)
    (known : inv'.knows name) :
    c.name = name ∧ c'.stage = .entered false ∧ ∃ s, entry inv name = .ok s := by
  cases moves with
  | enters _ right =>
    obtain rfl : name = c.name := by simpa [Inventory.knows_remember, unknown] using known
    exact ⟨rfl, rfl, _, right⟩
  | forgets => simp [Inventory.knows_forget, unknown] at known
  | _ => exact absurd (known.symm.trans unknown) (by simp)

/-- A host is taken out of the inventory just when a call that found it unknown ends and does not
keep it. -/
theorem forgets_of_unknown (moves : Moves inv c c' inv') (known : inv.knows name)
    (unknown : inv'.knows name = false) :
    c.name = name ∧ c.Takes ∧ c'.result?.isSome ∧ ¬ c'.Keeps := by
  cases moves with
  | enters => simp [Inventory.knows_remember, known] at unknown
  | forgets dialled taken =>
    obtain rfl : name = c.name := by simpa [Inventory.knows_forget, known] using unknown
    refine ⟨rfl, .inr (.inr ⟨_, dialled⟩), rfl, fun keeps => ?_⟩
    rw [keeps_iff_not_isForgotten, taken] at keeps
    cases keeps
  | _ => exact absurd (known.symm.trans unknown) (by simp)

/-- Where hosts of this name can be entered, a call that takes its host goes on to take it, or keeps
it, or else the host is gone. -/
theorem takes_or_keeps (moves : Moves inv c c' inv') (took : c.Takes) {s : Server}
    (right : entry inv c.name = .ok s) (known : inv'.knows c.name) : c'.Takes ∨ c'.Keeps := by
  cases moves with
  | stays => exact .inl took
  | looks fresh => simp [Takes, fresh] at took
  | passes looked => simp [Takes, looked] at took
  | refused _ wrong => cases right.symm.trans wrong
  | enters => exact .inl (.inr (.inl rfl))
  | dials entered =>
    obtain rfl : _ = false := by simpa [Takes, entered] using took
    exact .inl (.inr (.inr ⟨_, rfl⟩))
  | ends dialled left =>
    obtain rfl : _ = false := by simpa [Takes, dialled] using took
    exact .inr (keeps_iff_not_isForgotten.mpr left)
  | forgets => simp [Inventory.knows_forget] at known

/-- A call passes when its host is in the inventory. -/
theorem passed (moves : Moves inv c c' inv') (passed : c'.Passed) :
    c.Passed ∨ inv'.knows c.name ∧ c'.UnderWay := by
  cases moves with
  | stays => exact .inl passed
  | looks =>
    refine .inr ⟨?_, trivial⟩
    cases known : inv.knows c.name with
    | true => rfl
    | false => simp [Passed, known] at passed
  | passes looked => exact .inl (by simp [Passed, looked])
  | refused => simp [Passed] at passed
  | enters => exact .inr ⟨by simp [Inventory.knows_remember], trivial⟩
  | dials entered => exact .inl (by simp [Passed, entered])
  | ends dialled => exact .inl (by simp [Passed, dialled])
  | forgets dialled => exact .inl (by simp [Passed, dialled])

end AdhocCall.Moves

namespace AdhocCalls

/-- Calls that have not begun. -/
def start (inventory : Inventory) (specs : List (String × Bool)) : AdhocCalls :=
  ⟨inventory, specs.map fun spec => .ofSpec spec.1 spec.2⟩

/-- A turn is a move of one call. -/
theorem step_cases (s : AdhocCalls) (turn : AdhocTurn) :
    s.step turn = s ∨ ∃ i c c' inv, s.calls[i]? = some c ∧ c.Moves s.inventory c' inv ∧
      s.step turn = ⟨inv, s.calls.set i c'⟩ := by
  cases turn with
  | next i =>
    cases at_i : s.calls[i]? with
    | none => exact .inl (by simp only [step, at_i])
    | some c =>
      refine .inr ⟨i, c, (c.next s.inventory).1, (c.next s.inventory).2, at_i, c.next_moves _, ?_⟩
      simp only [step, at_i]
  | dial i outcome =>
    cases at_i : s.calls[i]? with
    | none =>
      refine .inl ?_
      have short : s.calls.length ≤ i := List.getElem?_eq_none_iff.mp at_i
      simp only [step, List.modify_eq_self short]
    | some c =>
      refine .inr ⟨i, c, c.dial outcome, s.inventory, at_i, c.dial_moves outcome _, ?_⟩
      have moved : s.calls.modify i (·.dial outcome) = s.calls.set i (c.dial outcome) := by
        refine List.ext_getElem? fun j => ?_
        rw [List.getElem?_modify, List.getElem?_set]
        by_cases here : i = j
        · subst here
          obtain ⟨small, found⟩ := List.getElem?_eq_some_iff.mp at_i
          simp [small, found]
        · simp [here]
      simp only [step, moved]

/-- A turn leaves the call in a place alone, or is a move of it. -/
theorem getElem?_calls_step (s : AdhocCalls) (turn : AdhocTurn) (j : Nat) :
    (s.step turn).calls[j]? = s.calls[j]? ∨
      ∃ c c', s.calls[j]? = some c ∧ (s.step turn).calls[j]? = some c' ∧
        c.Moves s.inventory c' (s.step turn).inventory := by
  obtain same | ⟨i, c, c', inv, at_i, moves, moved⟩ := s.step_cases turn
  · exact .inl (by rw [same])
  rw [moved]
  by_cases here : i = j
  · subst here
    refine .inr ⟨c, c', at_i, ?_, moves⟩
    exact List.getElem?_set_self (List.getElem?_eq_some_iff.mp at_i).1
  · exact .inl (List.getElem?_set_ne here)

/-- A turn leaves the inventory alone, or is a move of some call. -/
theorem inventory_step (s : AdhocCalls) (turn : AdhocTurn) :
    (s.step turn).inventory = s.inventory ∨
      ∃ (i : Nat) (c c' : AdhocCall), s.calls[i]? = some c ∧
        (s.step turn).calls[i]? = some c' ∧ c.Moves s.inventory c' (s.step turn).inventory := by
  obtain same | ⟨i, c, c', inv, at_i, moves, moved⟩ := s.step_cases turn
  · exact .inl (by rw [same])
  rw [moved]
  exact .inr ⟨i, c, c', at_i, List.getElem?_set_self (List.getElem?_eq_some_iff.mp at_i).1, moves⟩

theorem common_step (s : AdhocCalls) (turn : AdhocTurn) :
    (s.step turn).inventory.common = s.inventory.common := by
  obtain same | ⟨_, _, _, -, -, moves⟩ := s.inventory_step turn
  · rw [same]
  · exact moves.common_eq

theorem entry_step (s : AdhocCalls) (turn : AdhocTurn) (name : String) :
    AdhocCall.entry (s.step turn).inventory name = AdhocCall.entry s.inventory name := by
  rw [AdhocCall.entry, common_step]
  rfl

theorem map_order_step (s : AdhocCalls) (turn : AdhocTurn) :
    (s.step turn).calls.map (·.order) = s.calls.map (·.order) := by
  refine List.ext_getElem? fun j => ?_
  rw [List.getElem?_map, List.getElem?_map]
  obtain same | ⟨c, c', before, after, moves⟩ := s.getElem?_calls_step turn j
  · rw [same]
  · rw [before, after, Option.map_some, Option.map_some, moves.order_eq]

theorem map_order_steps (s : AdhocCalls) (turns : List AdhocTurn) :
    (s.steps turns).calls.map (·.order) = s.calls.map (·.order) := by
  induction turns generalizing s with
  | nil => rfl
  | cons turn turns ih => exact (ih (s.step turn)).trans (map_order_step s turn)

theorem steps_append (s : AdhocCalls) (earlier later : List AdhocTurn) :
    s.steps (earlier ++ later) = (s.steps earlier).steps later :=
  List.foldl_append

theorem steps_concat (s : AdhocCalls) (turns : List AdhocTurn) (turn : AdhocTurn) :
    s.steps (turns ++ [turn]) = (s.steps turns).step turn :=
  steps_append s turns [turn]

/-- A call that has ended does nothing any more. -/
theorem getElem?_calls_steps_of_ended {s : AdhocCalls} {j : Nat} {c : AdhocCall}
    (at_j : s.calls[j]? = some c) (ended : c.result?.isSome) (turns : List AdhocTurn) :
    (s.steps turns).calls[j]? = some c := by
  induction turns generalizing s with
  | nil => exact at_j
  | cons turn turns ih =>
    refine ih ?_
    obtain same | ⟨d, d', before, after, moves⟩ := s.getElem?_calls_step turn j
    · rw [same, at_j]
    · obtain rfl : d = c := Option.some.inj (before.symm.trans at_j)
      rw [after, moves.eq_of_ended ended]

/-- Whether a call of `m` is `c'` in `s`. -/
def Becomes (m s : AdhocCalls) (c c' : AdhocCall) : Prop :=
  ∃ j : Nat, m.calls[j]? = some c ∧ s.calls[j]? = some c'

theorem exists_becomes {m : AdhocCalls} {c : AdhocCall} (member : c ∈ m.calls)
    (turns : List AdhocTurn) : ∃ c', Becomes m (m.steps turns) c c' ∧ c'.name = c.name := by
  obtain ⟨j, at_j⟩ := List.mem_iff_getElem?.mp member
  have orders := congrArg (·[j]?) (map_order_steps m turns)
  simp only [List.getElem?_map, at_j, Option.map_some, Option.map_eq_some_iff] at orders
  obtain ⟨c', after, same⟩ := orders
  exact ⟨c', ⟨j, at_j, after⟩, congrArg Prod.fst same⟩

/-! ### A call on its own -/

theorem step_next_alone (inv : Inventory) (c : AdhocCall) :
    step ⟨inv, [c]⟩ (.next 0) = ⟨(c.next inv).2, [(c.next inv).1]⟩ :=
  rfl

theorem step_dial_alone (inv : Inventory) (c : AdhocCall)
    (outcome : Except ConnectError Connection) :
    step ⟨inv, [c]⟩ (.dial 0 outcome) = ⟨inv, [c.dial outcome]⟩ :=
  rfl

theorem inventory_dialAdhoc (f : Factory) (net : Network) (m : Machine) (name : String) :
    (f.dialAdhoc net m name).1.inventory = f.inventory := by
  unfold Factory.dialAdhoc
  dsimp only
  split <;> rfl

/-- `connectAdhoc` takes the turns of one call. -/
theorem exists_turns_connectAdhoc {f f' : Factory} {net : Network} {m : Machine} {spec : String}
    {persist : Bool} {r : Except ConnectError Connection}
    (done : f.connectAdhoc net m spec persist = (f', some r)) :
    ∃ turns c, (start f.inventory [(spec, persist)]).steps turns = ⟨f'.inventory, [c]⟩ ∧
      c.result? = some r := by
  unfold Factory.connectAdhoc Factory.advance at done
  dsimp only at done
  generalize looked : (AdhocCall.ofSpec spec persist).next f.inventory = first at done
  generalize entered : first.1.next first.2 = reached at done
  have begun : (start f.inventory [(spec, persist)]).steps [.next 0, .next 0] =
      ⟨reached.2, [reached.1]⟩ := by
    rw [start, List.map_singleton, steps, List.foldl_cons, List.foldl_cons, List.foldl_nil,
      step_next_alone, looked, step_next_alone, entered]
  split at done
  · have inventory := inventory_dialAdhoc { f with inventory := reached.2 } net m reached.1.name
    split at done
    · cases done
    next g outcome dialled =>
      rw [dialled] at inventory
      obtain ⟨rfl, result⟩ := Prod.mk.inj done
      refine ⟨[.next 0, .next 0] ++ [.dial 0 outcome, .next 0], _, ?_, result⟩
      rw [steps_append, begun, steps, List.foldl_cons, List.foldl_cons, List.foldl_nil,
        step_dial_alone, step_next_alone, inventory]
  · obtain ⟨rfl, result⟩ := Prod.mk.inj done
    exact ⟨[.next 0, .next 0], reached.1, begun, result⟩

/-! ### Hosts that were known -/

/-- The host was known from the start, and no call thinks otherwise. -/
structure Untouched (name : String) (e : Server) (s : AdhocCalls) : Prop where
  entry : s.inventory.servers.find? name = some e
  known : ∀ c ∈ s.calls, ¬ (c.name = name ∧ c.Takes)

theorem knows_of_find? {inv : Inventory} {name : String} {e : Server}
    (entry : inv.servers.find? name = some e) : inv.knows name := by
  rw [Inventory.knows, Table.contains, entry]
  rfl

theorem Untouched.step {name : String} {e : Server} {s : AdhocCalls}
    (untouched : Untouched name e s) (turn : AdhocTurn) : Untouched name e (s.step turn) := by
  constructor
  · obtain same | ⟨i, c, c', before, -, moves⟩ := s.inventory_step turn
    · rw [same]
      exact untouched.entry
    · have other := untouched.known c (List.mem_of_getElem? before)
      exact (moves.find?_eq other).trans untouched.entry
  · rintro c' member ⟨named, took⟩
    obtain ⟨j, at_j⟩ := List.mem_iff_getElem?.mp member
    obtain same | ⟨c, d, before, after, moves⟩ := s.getElem?_calls_step turn j
    · exact untouched.known c' (List.mem_of_getElem? (same ▸ at_j)) ⟨named, took⟩
    · obtain rfl : d = c' := Option.some.inj (after.symm.trans at_j)
      have here : c.name = name := moves.name_eq.symm.trans named
      rcases moves.takes took with before_ | unknown
      · exact untouched.known c (List.mem_of_getElem? before) ⟨here, before_⟩
      · rw [here, knows_of_find? untouched.entry] at unknown
        cases unknown

/-! ### Hosts that were not known -/

/-- None of the calls that in `m` take the host has given it up in `s`. -/
def Spared (name : String) (m s : AdhocCalls) : Prop :=
  ∀ c c', Becomes m s c c' → c'.name = name → c.Takes → c'.Takes ∨ c'.Keeps

theorem Spared.step {name : String} {m s : AdhocCalls} (spared : Spared name m s) {e : Server}
    (right : AdhocCall.entry s.inventory name = .ok e) {turn : AdhocTurn}
    (known : (s.step turn).inventory.knows name) : Spared name m (s.step turn) := by
  rintro c c' ⟨j, before, after⟩ named took
  obtain same | ⟨d, d', between, after', moves⟩ := s.getElem?_calls_step turn j
  · exact spared c c' ⟨j, before, same ▸ after⟩ named took
  · obtain rfl : d' = c' := Option.some.inj (after'.symm.trans after)
    have here : d.name = name := moves.name_eq.symm.trans named
    rcases spared c d ⟨j, before, between⟩ here took with takes | keeps
    · exact moves.takes_or_keeps takes (here ▸ right) (here ▸ known)
    · obtain ⟨-, connection, result⟩ := id keeps
      rw [moves.eq_of_ended (by simp [result])]
      exact .inr keeps

/-- A host that was not known, and is there now, has been entered at some moment, and none of the
calls that took it then has given it up. -/
theorem exists_spared {begun : AdhocCalls} {name : String}
    (unknown : begun.inventory.knows name = false) (turns : List AdhocTurn)
    (known : (begun.steps turns).inventory.knows name) :
    (∃ earlier later, turns = earlier ++ later ∧ (begun.steps earlier).inventory.knows name ∧
      (∃ c ∈ (begun.steps earlier).calls, c.name = name ∧ c.Takes) ∧
      Spared name (begun.steps earlier) (begun.steps turns)) ∧
    ∃ e, AdhocCall.entry (begun.steps turns).inventory name = .ok e := by
  induction turns using List.reverseRecOn with
  | nil => exact absurd (known.symm.trans unknown) (by simp)
  | append_singleton turns turn ih =>
    rw [steps_concat] at known
    rw [steps_concat, entry_step]
    cases before : (begun.steps turns).inventory.knows name with
    | true =>
      obtain ⟨⟨earlier, later, whole, moment, taken, spared⟩, e, right⟩ := ih before
      refine ⟨⟨earlier, later ++ [turn], ?_, moment, taken, spared.step right known⟩, e, right⟩
      rw [whole, List.append_assoc]
    | false =>
      obtain same | ⟨i, c, c', -, after, moves⟩ := (begun.steps turns).inventory_step turn
      · rw [same, before] at known
        cases known
      obtain ⟨named, entered, e, right⟩ := moves.enters_of_knows before known
      refine ⟨⟨turns ++ [turn], [], (List.append_nil _).symm, ?_⟩, e, right⟩
      rw [steps_concat]
      refine ⟨known, ⟨c', List.mem_of_getElem? after, moves.name_eq.trans named,
        .inr (.inl entered)⟩, ?_⟩
      rintro d d' ⟨j, here, there⟩ - took
      obtain rfl : d = d' := Option.some.inj (here.symm.trans there)
      exact .inl took

/-- The host has been there since `m`, and no call has taken it since. -/
structure Since (name : String) (m s : AdhocCalls) : Prop where
  knows : s.inventory.knows name
  takes : ∀ (j : Nat) c', s.calls[j]? = some c' → c'.name = name → c'.Takes →
    ∃ c, m.calls[j]? = some c ∧ c.Takes

/-- A host that is there stays, if all calls that take it then keep it in the end. -/
theorem Since.steps {name : String} {m s : AdhocCalls} (since : Since name m s)
    (turns : List AdhocTurn)
    (kept : ∀ c c', Becomes m (s.steps turns) c c' → c'.name = name → c.Takes → c'.Keeps) :
    (s.steps turns).inventory.knows name := by
  induction turns generalizing s with
  | nil => exact since.knows
  | cons turn turns ih =>
    refine ih ⟨?_, fun j c' at_j named took => ?_⟩ kept
    · by_contra gone
      rw [Bool.not_eq_true] at gone
      obtain same | ⟨i, c, c', before, after, moves⟩ := s.inventory_step turn
      · rw [same, since.knows] at gone
        cases gone
      obtain ⟨named, took, ended, lost⟩ := moves.forgets_of_unknown since.knows gone
      obtain ⟨d, there, taken⟩ := since.takes i c before named took
      have after := getElem?_calls_steps_of_ended after ended turns
      exact lost (kept d c' ⟨i, there, after⟩ (moves.name_eq.trans named) taken)
    · obtain same | ⟨c, d, before, after, moves⟩ := s.getElem?_calls_step turn j
      · exact since.takes j c' (same ▸ at_j) named took
      · obtain rfl : d = c' := Option.some.inj (after.symm.trans at_j)
        have here : c.name = name := moves.name_eq.symm.trans named
        rcases moves.takes took with took | unknown
        · exact since.takes j c before here took
        · rw [here, since.knows] at unknown
          cases unknown

/-- A call that passed was under way at some moment when its host was in the inventory. -/
theorem exists_passed {begun : AdhocCalls} (fresh : ∀ c ∈ begun.calls, c.stage = .fresh)
    (turns : List AdhocTurn) {j : Nat} {c' : AdhocCall}
    (at_j : (begun.steps turns).calls[j]? = some c') (passed : c'.Passed) :
    ∃ earlier later, turns = earlier ++ later ∧
      (begun.steps earlier).inventory.knows c'.name ∧
      ∃ c, (begun.steps earlier).calls[j]? = some c ∧ c.UnderWay := by
  induction turns using List.reverseRecOn generalizing c' with
  | nil => simp [AdhocCall.Passed, fresh c' (List.mem_of_getElem? at_j)] at passed
  | append_singleton turns turn ih =>
    rw [steps_concat] at at_j
    have further {c : AdhocCall} (before : (begun.steps turns).calls[j]? = some c)
        (named : c.name = c'.name) (passed : c.Passed) :
        ∃ earlier later, turns ++ [turn] = earlier ++ later ∧
          (begun.steps earlier).inventory.knows c'.name ∧
          ∃ c, (begun.steps earlier).calls[j]? = some c ∧ c.UnderWay := by
      obtain ⟨earlier, later, whole, known, moment⟩ := ih before passed
      refine ⟨earlier, later ++ [turn], ?_, named ▸ known, moment⟩
      rw [whole, List.append_assoc]
    obtain same | ⟨c, d, before, after, moves⟩ := (begun.steps turns).getElem?_calls_step turn j
    · exact further (same ▸ at_j) rfl passed
    · obtain rfl : d = c' := Option.some.inj (after.symm.trans at_j)
      rcases moves.passed passed with earlier | ⟨known, underWay⟩
      · exact further before moves.name_eq.symm earlier
      · refine ⟨turns ++ [turn], [], (List.append_nil _).symm, ?_⟩
        rw [steps_concat, moves.name_eq]
        exact ⟨known, d, after, underWay⟩

/-! ### When all calls have ended -/

/-- A moment from which on the host stays: it is in the inventory, some call takes it, and all that
do keep it in the end. -/
structure Secured (name : String) (m s : AdhocCalls) : Prop where
  knows : m.inventory.knows name
  taken : ∃ c ∈ m.calls, c.name = name ∧ c.Takes
  kept : ∀ c c', Becomes m s c c' → c'.name = name → c.Takes → c'.Keeps

/-- What the calls leave behind when all of them have ended. -/
structure Settled (begun : AdhocCalls) (turns : List AdhocTurn) : Prop where
  /-- Hosts that were known keep their entries. -/
  known : ∀ name e, begun.inventory.servers.find? name = some e →
    (begun.steps turns).inventory.servers.find? name = some e
  /-- Of the others only those are there that some call was to keep and did connect. -/
  wanted : ∀ name, begun.inventory.knows name = false →
    (begun.steps turns).inventory.knows name →
    ∃ c ∈ (begun.steps turns).calls, c.name = name ∧ c.Keeps
  /-- They are there if there was a moment that secured them, and not otherwise. -/
  there : ∀ name, begun.inventory.knows name = false →
    ((begun.steps turns).inventory.knows name ↔
      ∃ earlier later, turns = earlier ++ later ∧
        Secured name (begun.steps earlier) (begun.steps turns))
  /-- A call that keeps its host leaves it there, unless a call that found the host unknown and does
  not keep it was under way at the same time. -/
  apart : ∀ (j : Nat) k, (begun.steps turns).calls[j]? = some k → k.Keeps →
    (∀ earlier later, turns = earlier ++ later →
      ∀ c, (begun.steps earlier).calls[j]? = some c → c.UnderWay →
      ∀ d d', Becomes (begun.steps earlier) (begun.steps turns) d d' → d'.name = k.name →
        d.Takes → d'.Keeps) →
    (begun.steps turns).inventory.knows k.name

theorem not_takes_of_ended {c : AdhocCall} (ended : c.result?.isSome) : ¬ c.Takes := by
  rintro (looked | entered | ⟨r, dialled⟩)
  · simp [AdhocCall.result?, looked] at ended
  · simp [AdhocCall.result?, entered] at ended
  · simp [AdhocCall.result?, dialled] at ended

theorem knows_of_moment {begun : AdhocCalls} {name : String} {earlier later : List AdhocTurn}
    (known : (begun.steps earlier).inventory.knows name)
    (kept : ∀ c c', Becomes (begun.steps earlier) (begun.steps (earlier ++ later)) c c' →
      c'.name = name → c.Takes → c'.Keeps) :
    (begun.steps (earlier ++ later)).inventory.knows name := by
  rw [steps_append] at kept ⊢
  have now : Since name (begun.steps earlier) (begun.steps earlier) :=
    ⟨known, fun j c at_j _ took => ⟨c, at_j, took⟩⟩
  exact now.steps later kept

theorem exists_secured {begun : AdhocCalls} {turns : List AdhocTurn} {name : String}
    (ended : ∀ c ∈ (begun.steps turns).calls, c.result?.isSome)
    (unknown : begun.inventory.knows name = false)
    (known : (begun.steps turns).inventory.knows name) :
    ∃ earlier later, turns = earlier ++ later ∧
      Secured name (begun.steps earlier) (begun.steps turns) := by
  obtain ⟨⟨earlier, later, whole, moment, taken, spared⟩, -⟩ := exists_spared unknown turns known
  refine ⟨earlier, later, whole, moment, taken, fun c c' becomes named took => ?_⟩
  rcases spared c c' becomes named took with takes | keeps
  · obtain ⟨j, -, after⟩ := becomes
    exact absurd takes (not_takes_of_ended (ended c' (List.mem_of_getElem? after)))
  · exact keeps

section

variable (inv : Inventory) (specs : List (String × Bool)) (turns : List AdhocTurn)

theorem fresh_of_mem_start : ∀ c ∈ (start inv specs).calls, c.stage = .fresh := by
  intro c member
  obtain ⟨spec, -, rfl⟩ := List.mem_map.mp member
  rfl

theorem untouched_steps {name : String} {e : Server} (entry : inv.servers.find? name = some e) :
    Untouched name e ((start inv specs).steps turns) := by
  induction turns using List.reverseRecOn with
  | nil =>
    refine ⟨entry, fun c member both => ?_⟩
    obtain ⟨-, took⟩ := both
    simp [AdhocCall.Takes, fresh_of_mem_start inv specs c member] at took
  | append_singleton turns turn ih =>
    rw [steps_concat]
    exact ih.step turn

/-- Whatever turns the calls take, hosts that were known are left alone, and of the others just
those stay that a call has entered and none has taken away since. -/
theorem steps_settled (finished : ((start inv specs).steps turns).isFinished) :
    ((start inv specs).steps turns).calls.map (·.order) = (start inv specs).calls.map (·.order) ∧
      Settled (start inv specs) turns := by
  have ended : ∀ c ∈ ((start inv specs).steps turns).calls, c.result?.isSome :=
    List.all_eq_true.mp finished
  refine ⟨map_order_steps _ turns, ?_⟩
  constructor
  case known => exact fun name e entry => (untouched_steps inv specs turns entry).entry
  case wanted =>
    intro name unknown known
    obtain ⟨earlier, later, whole, -, ⟨c, member, named, took⟩, kept⟩ :=
      exists_secured ended unknown known
    obtain ⟨c', becomes, same⟩ := exists_becomes member later
    rw [← steps_append, ← whole] at becomes
    have keeps := kept c c' becomes (same.trans named) took
    obtain ⟨j, -, after⟩ := becomes
    exact ⟨c', List.mem_of_getElem? after, same.trans named, keeps⟩
  case there =>
    refine fun name unknown => ⟨exists_secured ended unknown, ?_⟩
    rintro ⟨earlier, later, rfl, secured⟩
    exact knows_of_moment secured.knows secured.kept
  case apart =>
    intro j k at_j keeps others
    obtain ⟨earlier, later, whole, known, c, moment, underWay⟩ :=
      exists_passed (fresh_of_mem_start inv specs) turns at_j keeps.passed
    have kept := others earlier later whole c moment underWay
    subst whole
    exact knows_of_moment known kept

end

/-- Two calls for one host that take their turns one after the other. -/
def overlap : List AdhocTurn :=
  [.next 0, .next 1, .next 0, .next 1, .dial 0 (.ok ⟨"h", []⟩), .dial 1 (.ok ⟨"h", []⟩), .next 0,
    .next 1]

theorem steps_settled_overlap :
    ((start {} [("h", true), ("h", true)]).steps overlap).isFinished ∧
      Settled (start {} [("h", true), ("h", true)]) overlap :=
  ⟨by cbv, (steps_settled {} [("h", true), ("h", true)] overlap (by cbv)).2⟩

/-- Both calls find the host unknown, and the one that was not to keep it takes it away from the one
that was. -/
theorem not_kept_overlap : ¬ ∀ turns,
    let after := (start {} [("h", true), ("h", false)]).steps turns
    after.isFinished → (after.inventory.knows "h" ↔ ∃ c ∈ after.calls, c.name = "h" ∧ c.Keeps) := by
  intro all
  have calls : ((start {} [("h", true), ("h", false)]).steps overlap).calls =
      [⟨"h", true, .ended (.ok ⟨"h", []⟩)⟩, ⟨"h", false, .ended (.ok ⟨"h", []⟩)⟩] := by cbv
  have gone : ((start {} [("h", true), ("h", false)]).steps overlap).inventory.knows "h" = false := by
    cbv
  have known := (all overlap (by cbv)).mpr
    ⟨⟨"h", true, .ended (.ok ⟨"h", []⟩)⟩, by rw [calls]; exact List.mem_cons_self, rfl, rfl,
      ⟨"h", []⟩, rfl⟩
  rw [gone] at known
  cases known

end AdhocCalls

end Flotilla
