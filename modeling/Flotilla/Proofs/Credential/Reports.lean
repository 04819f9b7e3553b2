import Flotilla.Proofs.Credential.Derivation
import Flotilla.Proofs.Credential.Sharing

/-!
# What a cache lists and what its reports say

Calls add to what a cache lists and take nothing away, while each has a report of its own.  So a
report tells of a server that it resolved, or that no call did, what the cache lists
(`Cache.Call.isAccurate_iff_of_past`).  Each call may come with its own machine and inventory, and
derive of credentials whatever fits their kinds.
-/

namespace Flotilla

/-- A machine on which there is nothing. -/
def Machine.bare : Machine where
  env := {}
  files := {}
  run _ := .error .missing
  agent := .error .unset

namespace Cache

/-- Whether there is a method for a server. -/
def Lists (c : Cache) (name : String) : Prop :=
  ∃ methods, c.methodsFor name = some methods ∧ methods ≠ []

/-! ### What a call takes up -/

/-- Before anything is derived, a report excludes the servers that the inventory does not know. -/
theorem plan_report (env : Environment) (inv : Inventory) (servers : List String) :
    (plan env inv servers).2.resolved = [] ∧
      (plan env inv servers).2.excluded = servers.filter (inv.knows · = false) := by
  induction servers using List.reverseRecOn with
  | nil => exact ⟨rfl, rfl⟩
  | append_singleton servers name ih =>
    obtain ⟨resolved, excluded⟩ := ih
    rw [plan_concat, List.filter_append, ← excluded]
    cases known : inv.server name <;> simp [Inventory.knows_eq, known, resolved, Except.toOption]

/-- Which servers a report has once what was found is taken up. -/
theorem settle_report (found : Table String (List SharedMethod)) (c : Cache)
    (report : ResolutionReport) (servers : List String) (name : String) :
    (name ∈ (settle found c report servers).2.resolved ↔
      name ∈ report.resolved ∨ name ∈ servers ∧ ((found.find? name).bind entry).isSome) ∧
    (name ∈ (settle found c report servers).2.excluded ↔
      name ∈ report.excluded ∨ name ∈ servers ∧ found.find? name = some []) := by
  induction servers generalizing found c report with
  | nil => simp [settle]
  | cons first later ih =>
    rw [settle]
    split
    next none =>
      obtain ⟨resolved, excluded⟩ := ih found c report
      constructor <;> grind
    next none =>
      obtain ⟨resolved, excluded⟩ := ih (found.erase first) c
        { report with excluded := report.excluded ++ [first] }
      simp only [Table.find?_erase, List.mem_append, List.mem_singleton] at resolved excluded
      constructor <;> grind [entry]
    next methods some_ there =>
      obtain ⟨resolved, excluded⟩ := ih (found.erase first)
        { c with servers := c.servers.insert first methods }
        { report with resolved := report.resolved ++ [first] }
      simp only [Table.find?_erase, List.mem_append, List.mem_singleton] at resolved excluded
      constructor <;> grind [entry]

/-- What is found for a server is what its last task found. -/
theorem find?_foldl_last (name : String) (tasks : List ResolvingTask)
    (found : Table String (List SharedMethod)) :
    (tasks.foldl (fun found t => found.insert t.server t.methods) found).find? name =
      ((tasks.reverse.find? (·.server = name)).map (·.methods)).or (found.find? name) := by
  induction tasks generalizing found with
  | nil => rfl
  | cons t tasks ih =>
    rw [List.foldl_cons, ih, Table.find?_insert, List.reverse_cons, List.find?_append]
    by_cases same : name = t.server
    · subst same
      cases tasks.reverse.find? (·.server = t.server) <;> simp
    · have other : ¬ t.server = name := fun e => same e.symm
      cases tasks.reverse.find? (·.server = name) <;> simp [same, other]

/-- A call of a cache: the machine and the inventory of that moment, the servers that it is for,
and the turns that their tasks take. -/
structure Call where
  machine : Machine
  inventory : Inventory
  servers : List String
  turns : List Turn
  /-- What becomes of credentials during the call.  Which of them can be derived is open, but what
  is made of them fits their kinds. -/
  derive : Derivation := Credential.derive machine
  fits : ∀ c method, derive c = .ok method → method.Fits c.kind := by
    exact fun _ _ => Credential.derive_fits

namespace Call

variable (call : Call) (c : Cache)

/-- The tasks of a call after their turns. -/
def work : Resolving :=
  (c.start call.machine.env call.inventory call.servers).run
    call.derive call.machine.env call.turns

/-- Whether the turns bring the call to its end. -/
def IsOver : Prop := (call.work c).isFinished

instance : Decidable (call.IsOver c) := inferInstanceAs (Decidable (_ = true))

/-- The cache after a call, and the report. -/
def answer : Cache × ResolutionReport :=
  c.resolveBy (fun _ => call.turns) call.derive call.machine.env call.inventory call.servers

/-- Resolving one server after the other is a call that comes to its end. -/
theorem isOver_resolve (m : Machine) (inv : Inventory) (servers : List String) (c : Cache) :
    let turns := (c.start m.env inv servers).inOrder
    let call : Call := { machine := m, inventory := inv, servers, turns }
    call.IsOver c ∧ call.answer c = c.resolve (Credential.derive m) m.env inv servers :=
  ⟨(atRest_start m.env c inv servers).isFinished_inOrder _ _, rfl⟩

/-- What a call finds for a server: the methods of its last task. -/
def finds (name : String) : Option (List SharedMethod) :=
  ((call.work c).results.reverse.find? (·.server = name)).map (·.methods)

variable {call c} {name : String}

theorem mem_of_finds (ended : call.IsOver c) {methods : List SharedMethod}
    (found : call.finds c name = some methods) :
    ∃ t ∈ (call.work c).tasks, t.server = name ∧ t.methods = methods := by
  obtain ⟨t, there, same⟩ := Option.map_eq_some_iff.mp found
  refine ⟨t, ?_, by simpa using List.find?_some there, same⟩
  apply (Resolving.mem_results_iff ended).mp
  exact List.mem_reverse.mp (List.mem_of_find?_eq_some there)

/-- A call finds something, if only that there is no method, for the servers that are known. -/
theorem finds_isSome (ended : call.IsOver c) :
    (call.finds c name).isSome ↔ name ∈ call.servers ∧ call.inventory.knows name := by
  have tasks : (∃ t ∈ (call.work c).tasks, t.server = name) ↔ _ := exists_task_iff ..
  rw [← tasks, finds, Option.isSome_map, List.find?_isSome]
  simp [Resolving.mem_results_iff ended]

/-- What a call adds to what is listed of a server. -/
def gains (call : Call) (c : Cache) (name : String) : Option (List SharedMethod) :=
  (call.finds c name).bind entry

theorem answer_eq (call : Call) (c : Cache) :
    ∃ found : Table String (List SharedMethod), ∃ report : ResolutionReport,
      (∀ name, found.find? name = call.finds c name) ∧ report.resolved = [] ∧
      report.excluded = call.servers.filter (call.inventory.knows · = false) ∧
      call.answer c =
        settle found { c with store := (call.work c).store } report call.servers := by
  let planned := (plan call.machine.env call.inventory call.servers).2
  let failures := planned.failures ++
    (call.work c).results.flatMap fun t => t.failures.map (t.server, ·)
  obtain ⟨resolved, excluded⟩ := plan_report call.machine.env call.inventory call.servers
  refine ⟨_, { planned with failures }, fun name => ?_, resolved, excluded, rfl⟩
  rw [find?_foldl_last, Table.find?_empty, Option.or_none]
  rfl

theorem store_answer (call : Call) (c : Cache) :
    (call.answer c).1.store = (call.work c).store := by
  obtain ⟨found, report, -, -, -, answer⟩ := call.answer_eq c
  rw [answer, (settle_servers ..).1]

theorem gains_isSome_of (ended : call.IsOver c) (gained : (call.gains c name).isSome) :
    name ∈ call.servers := by
  have found : (call.finds c name).isSome := by
    cases there : call.finds c name with
    | none => simp [gains, there] at gained
    | some => rfl
  exact ((finds_isSome ended).mp found).1

/-- A call resolves the servers for which it gains methods. -/
theorem mem_resolved (ended : call.IsOver c) :
    name ∈ (call.answer c).2.resolved ↔ (call.gains c name).isSome := by
  obtain ⟨found, report, same, resolved, -, answer⟩ := call.answer_eq c
  rw [answer, (settle_report ..).1, resolved, same]
  constructor
  · rintro (none | ⟨-, gained⟩)
    · cases none
    · exact gained
  · exact fun gained => .inr ⟨gains_isSome_of ended gained, gained⟩

/-- And it excludes the others that it is for. -/
theorem mem_excluded (ended : call.IsOver c) :
    name ∈ (call.answer c).2.excluded ↔ name ∈ call.servers ∧ call.gains c name = none := by
  obtain ⟨found, report, same, -, excluded, answer⟩ := call.answer_eq c
  have known : (call.finds c name).isSome ↔ name ∈ call.servers ∧ call.inventory.knows name :=
    finds_isSome ended
  rw [answer, (settle_report ..).2, excluded, same, List.mem_filter, ← and_or_left]
  refine and_congr_right fun member => ?_
  unfold gains
  cases there : call.finds c name with
  | none => simp_all
  | some methods => cases methods <;> simp_all [entry]

theorem find?_answer (ended : call.IsOver c) (name : String) :
    (call.answer c).1.servers.find? name = (call.gains c name).or (c.servers.find? name) := by
  obtain ⟨found, report, same, -, -, answer⟩ := call.answer_eq c
  rw [answer, (settle_servers ..).2, same]
  split
  next => rfl
  next other =>
    cases gained : call.gains c name with
    | none => rfl
    | some => exact absurd (gains_isSome_of ended (gained ▸ rfl)) other

theorem gains_ne_nil {methods : List SharedMethod} (gained : call.gains c name = some methods) :
    methods ≠ [] := by
  obtain ⟨found, -, same⟩ := Option.bind_eq_some_iff.mp gained
  rintro rfl
  cases found <;> cases same

/-- A server that a call resolves is listed with what its task found. -/
theorem exists_task_of_resolved (ended : call.IsOver c)
    (resolved : name ∈ (call.answer c).2.resolved) :
    ∃ t ∈ (call.work c).tasks, t.server = name ∧ t.methods ≠ [] ∧
      (call.answer c).1.methodsFor name = some (t.methods.map (·.method)) := by
  obtain ⟨methods, gained⟩ := Option.isSome_iff_exists.mp ((mem_resolved ended).mp resolved)
  obtain ⟨found, finds, same⟩ := Option.bind_eq_some_iff.mp gained
  obtain rfl : found = methods := by
    cases found with
    | nil => cases same
    | cons => exact Option.some.inj same
  obtain ⟨t, member, server, rfl⟩ := mem_of_finds ended finds
  refine ⟨t, member, server, gains_ne_nil gained, ?_⟩
  rw [methodsFor, find?_answer ended, gained]
  rfl

/-- Whether a report tells what the cache lists of the servers of its call. -/
def IsAccurate (call : Call) (c : Cache) : Prop :=
  ∀ name ∈ call.servers,
    ((call.answer c).1.Lists name ↔ name ∈ (call.answer c).2.resolved)

end Call

/-! ### Calls one after the other -/

/-- A cache after calls, with their reports, the latest one first. -/
inductive Past : Cache → List ResolutionReport → Prop where
  | new : Past {} []
  | call {c : Cache} {reports : List ResolutionReport} (past : Past c reports) (call : Call)
      (ended : call.IsOver c) : Past (call.answer c).1 ((call.answer c).2 :: reports)

variable {c : Cache} {reports : List ResolutionReport} {name : String}

theorem Past.ne_nil (past : Past c reports) {methods : List SharedMethod}
    (listed : c.servers.find? name = some methods) : methods ≠ [] := by
  induction past with
  | new => cases listed
  | @call c reports past call ended ih =>
    rw [Call.find?_answer ended] at listed
    rcases Option.or_eq_some_iff.mp listed with gained | ⟨-, before⟩
    · exact Call.gains_ne_nil gained
    · exact ih before

/-- A cache lists the servers that some call resolved, and no others. -/
theorem Past.lists_iff (past : Past c reports) :
    c.Lists name ↔ ∃ report ∈ reports, name ∈ report.resolved := by
  have listed : c.Lists name ↔ (c.servers.find? name).isSome := by
    rw [Option.isSome_iff_exists]
    constructor
    · rintro ⟨methods, found, -⟩
      obtain ⟨shared, found, -⟩ := Option.map_eq_some_iff.mp found
      exact ⟨shared, found⟩
    · rintro ⟨shared, found⟩
      refine ⟨shared.map (·.method), ?_, ?_⟩
      · rw [methodsFor, found]
        rfl
      · rw [ne_eq, List.map_eq_nil_iff]
        exact past.ne_nil found
  rw [listed]
  clear listed
  induction past with
  | new => simp [Table.find?_empty]
  | @call c reports past call ended ih =>
    rw [Call.find?_answer ended, Option.isSome_or, Bool.or_eq_true]
    apply (or_congr (Call.mem_resolved ended).symm ih).trans
    simp

namespace Call

variable {call : Call}

/-- Whatever calls were made before, a call resolves or excludes each of its servers.  A server that
it resolves is listed with what its task found, and of all others the cache lists what it did
before.  So a server is listed if and only if this call or an earlier one resolved it, and the
report is accurate if and only if it excludes no server that an earlier call resolved. -/
theorem isAccurate_iff_of_past (past : Past c reports) (ended : call.IsOver c) :
    let after := (call.answer c).1
    let report := (call.answer c).2
    (∀ name ∈ call.servers, name ∈ report.resolved ↔ name ∉ report.excluded) ∧
    (∀ name ∈ report.resolved, ∃ t ∈ (call.work c).tasks, t.server = name ∧ t.methods ≠ [] ∧
      after.methodsFor name = some (t.methods.map (·.method))) ∧
    (∀ name, name ∉ report.resolved → after.methodsFor name = c.methodsFor name) ∧
    (∀ name, after.Lists name ↔ ∃ r ∈ report :: reports, name ∈ r.resolved) ∧
    (call.IsAccurate c ↔
      ∀ name ∈ report.excluded, ∀ earlier ∈ reports, name ∉ earlier.resolved) := by
  intro after report
  have parted : ∀ name ∈ call.servers,
      (name ∈ (call.answer c).2.resolved ↔ name ∉ (call.answer c).2.excluded) := by
    intro name member
    rw [mem_resolved ended, mem_excluded ended]
    simp [member, Option.isSome_iff_ne_none]
  have lists : ∀ name, (call.answer c).1.Lists name ↔ _ :=
    fun name => (past.call call ended).lists_iff
  refine ⟨parted, fun name => exists_task_of_resolved ended, ?_, lists, ?_⟩
  · intro name excluded
    rw [mem_resolved ended, Option.not_isSome_iff_eq_none] at excluded
    rw [methodsFor, find?_answer ended, excluded]
    rfl
  · constructor
    · intro accurate name excluded earlier before resolved
      have member := ((mem_excluded ended).mp excluded).1
      have listed := (lists name).mpr ⟨earlier, .tail _ before, resolved⟩
      exact (parted name member).mp ((accurate name member).mp listed) excluded
    · intro fresh name member
      rw [lists]
      constructor
      · rintro ⟨r, here, resolved⟩
        rcases List.mem_cons.mp here with rfl | before
        · exact resolved
        · by_contra missing
          have excluded := not_not.mp (mt (parted name member).mpr missing)
          exact fresh name excluded r before resolved
      · exact fun resolved => ⟨_, List.mem_cons_self, resolved⟩

/-- Server `a` has a password, server `b` nothing. -/
def opening : Call where
  machine := .bare
  inventory :=
    { servers := .ofList [("a", { password := some "pw", agent := some false }),
        ("b", { agent := some false })] }
  servers := ["a", "b"]
  turns := [0, 1, 0, 0]

/-- By then the inventory no longer has the password of server `a`. -/
def withdrawal : Call where
  machine := .bare
  inventory :=
    { servers := .ofList [("a", { agent := some false }), ("b", { agent := some false })] }
  servers := ["b", "a"]
  turns := [1, 0]

/-- A second call for server `b` alone excludes it again. -/
theorem isAccurate_iff_of_past_opening :
    let c := (opening.answer {}).1
    let again := { withdrawal with servers := ["b"] }
    Past c [(opening.answer {}).2] ∧ again.IsOver c ∧ again.IsAccurate c ∧
      ¬ (again.answer c).1.Lists "b" ∧ (again.answer c).1.Lists "a" := by
  intro c again
  have past : Past c [(opening.answer {}).2] := Past.new.call opening (by decide +kernel)
  have ended : again.IsOver c := by decide +kernel
  have reports : (opening.answer {}).2.resolved = ["a"] ∧ (again.answer c).2.resolved = [] ∧
      (again.answer c).2.excluded = ["b"] := by decide +kernel
  obtain ⟨first, none, excluded⟩ := reports
  obtain ⟨-, -, -, lists, accurate⟩ := isAccurate_iff_of_past past ended
  refine ⟨past, ended, accurate.mpr ?_, ?_, ?_⟩
  · simp [excluded, first]
  · rw [lists]
    simp [none, first]
  · rw [lists]
    simp [none, first]

/-- A call excludes a server whose password is gone, and the cache lists the password as before. -/
theorem not_isAccurate_withdrawal :
    let c := (opening.answer {}).1
    Past c [(opening.answer {}).2] ∧ withdrawal.IsOver c ∧
      (withdrawal.answer c).2.resolved = [] ∧ (withdrawal.answer c).2.excluded = ["b", "a"] ∧
      (withdrawal.answer c).1.methodsFor "a" = some [.password "pw"] ∧
      ¬ withdrawal.IsAccurate c := by
  intro c
  have resolved : (withdrawal.answer c).2.resolved = [] := by decide +kernel
  have listed : (withdrawal.answer c).1.methodsFor "a" = some [.password "pw"] := by
    decide +kernel
  refine ⟨Past.new.call opening (by decide +kernel), by decide +kernel, resolved, by decide +kernel,
    listed, fun accurate => ?_⟩
  have member := (accurate "a" (by decide)).mp ⟨_, listed, List.cons_ne_nil _ _⟩
  rw [resolved] at member
  cases member

end Call

end Cache

end Flotilla
