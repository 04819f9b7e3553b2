import Flotilla.Proofs.Connect.Order

/-!
# Servers that are not dialled

A server without a plan, or without methods to log in with, is not dialled, and neither is any
server behind it: the recursion over the bastions looks at every one of them before it reaches out
for the first (`refused_of_calls`).
-/

namespace Flotilla.Inventory

/-- Why a server is not dialled. -/
inductive Bars (inv : Inventory) (cache : Cache) (name : String) : ConnectError → Prop where
  | plan {e : ConnectError} (failed : inv.plan name = .error e) : Bars inv cache name e
  | methods {p : DialPlan} (planned : inv.plan name = .ok p)
      (none : cache.methodsFor name = none) : Bars inv cache name (.noMethods name)

/-- The way over bastions from one server to another that goes around some servers, and over no
server twice. -/
inductive Leads (inv : Inventory) : List String → String → String → Prop where
  | here {around : List String} {b : String} : Leads inv around b b
  | step {around : List String} {name b c : String} {p : DialPlan} (new : name ∉ around)
      (planned : inv.plan name = .ok p) (across : p.outer = .bastion c)
      (rest : Leads inv (name :: around) c b) : Leads inv around name b

variable {inv : Inventory} {name b c : String} {p : DialPlan}

/-! ### The way to a server -/

theorem Leads.mono {around fewer : List String} (way : inv.Leads around name b)
    (sub : fewer ⊆ around) : inv.Leads fewer name b := by
  induction way generalizing fewer with
  | here => exact .here
  | step new planned across rest ih =>
    apply Leads.step (fun member => new (sub member)) planned across
    exact ih (List.cons_subset_cons _ sub)

/-- A way leads over a server, or it goes around it. -/
theorem Leads.around_or {around : List String} (way : inv.Leads around c b) (name : String) :
    inv.Leads [] name b ∨ inv.Leads (name :: around) c b := by
  induction way with
  | here => exact .inr .here
  | @step around n b d p new planned across rest ih =>
    by_cases same : n = name
    · subst same
      left
      exact (Leads.step new planned across rest).mono (List.nil_subset _)
    · rcases ih with shorter | aside
      · exact .inl shorter
      · right
        apply Leads.step (by simp [same, new]) planned across
        apply aside.mono
        intro member there
        simp only [List.mem_cons] at there ⊢
        tauto

/-- A way can be led on from the server in front of it, without its loops. -/
theorem Leads.cons (planned : inv.plan name = .ok p) (across : p.outer = .bastion c)
    (way : inv.Leads [] c b) : inv.Leads [] name b := by
  rcases way.around_or name with shorter | aside
  · exact shorter
  · exact .step List.not_mem_nil planned across aside

theorem leads_of_calls (call : inv.Calls name b) : inv.Leads [] name b := by
  suffices onward : ∀ {d}, inv.Leads [] b d → inv.Leads [] name d from onward .here
  induction call with
  | self => exact id
  | bastion _ planned across ih =>
    intro d way
    exact ih (way.cons planned across)

theorem mem_keys_of_plan (planned : inv.plan name = .ok p) : name ∈ inv.servers.keys := by
  obtain ⟨r, routed⟩ := route_of_plan planned
  obtain ⟨s, known, -⟩ := route_target routed
  exact mem_keys_of_find? known

/-! ### Dialling along the way -/

section

variable (net : Network) (env : Environment) {cache : Cache}

theorem exists_bars (closed : (∃ e, inv.plan b = .error e) ∨ cache.methodsFor b = none) :
    ∃ e, inv.Bars cache b e := by
  cases plan : inv.plan b with
  | error e => exact ⟨e, .plan plan⟩
  | ok p =>
    rcases closed with ⟨e, failed⟩ | none
    · rw [plan] at failed
      cases failed
    · exact ⟨_, .methods plan none⟩

theorem connectFor_of_bars {e : ConnectError} (bars : inv.Bars cache name e) (fuel : Nat) :
    connectFor net env inv cache (fuel + 1) name = .done (.error e) := by
  rw [connectFor]
  cases bars with
  | plan failed => rw [failed]
  | methods planned none =>
    rw [planned]
    dsimp only
    rw [none]

/-- Nothing is done behind a bastion that is not dialled. -/
theorem connectFor_of_bastion {methods : List Method} (planned : inv.plan name = .ok p)
    (across : p.outer = .bastion c) (listed : cache.methodsFor name = some methods) {fuel : Nat}
    {e : ConnectError} (refused : connectFor net env inv cache fuel c = .done (.error e)) :
    connectFor net env inv cache (fuel + 1) name = .done (.error e) := by
  rw [connectFor, planned]
  dsimp only
  rw [listed]
  dsimp only
  rw [across]
  dsimp only
  rw [refused]
  rfl

/-- The first server on a way that is not dialled decides how the call ends.  Before it no more
servers are called than the way has not yet gone over. -/
theorem Leads.refused {around : List String} (way : inv.Leads around name b)
    {e : ConnectError} (bars : inv.Bars cache b e) :
    ∃ c e, inv.Calls name c ∧ inv.Bars cache c e ∧
      ∀ fuel, (inv.unvisited around).length < fuel →
        connectFor net env inv cache fuel name = .done (.error e) := by
  induction way with
  | here =>
    refine ⟨_, e, .self, bars, ?_⟩
    intro fuel enough
    obtain ⟨fuel, rfl⟩ := Nat.exists_eq_succ_of_ne_zero (Nat.ne_zero_of_lt enough)
    exact connectFor_of_bars net env bars fuel
  | @step around name b c p new planned across rest ih =>
    have fewer := unvisited_cons_lt new (mem_keys_of_plan planned)
    cases listed : cache.methodsFor name with
    | none =>
      refine ⟨name, _, .self, .methods planned listed, ?_⟩
      intro fuel enough
      obtain ⟨fuel, rfl⟩ := Nat.exists_eq_succ_of_ne_zero (Nat.ne_zero_of_lt enough)
      exact connectFor_of_bars net env (.methods planned listed) fuel
    | some methods =>
      obtain ⟨d, e, call, barred, refused⟩ := ih bars
      refine ⟨d, e, .trans (.bastion .self planned across) call, barred, ?_⟩
      intro fuel enough
      obtain ⟨fuel, rfl⟩ := Nat.exists_eq_succ_of_ne_zero (Nat.ne_zero_of_lt enough)
      have shorter : connectFor net env inv cache fuel c = .done (.error e) := by
        apply refused
        omega
      exact connectFor_of_bastion net env planned across listed shorter

/-- If a call comes to a server that has no plan or no methods, over however many bastions, it
fails for the reason of the first such server, and nothing was reached out for. -/
theorem refused_of_calls (cache : Cache) (call : inv.Calls name b)
    (closed : (∃ e, inv.plan b = .error e) ∨ cache.methodsFor b = none) :
    ∃ c e, inv.Calls name c ∧ inv.Bars cache c e ∧
      (inv.connect net env cache name).contacts = [] ∧
      (inv.connect net env cache name).result = some (.error e) ∧
      ∀ fuel, inv.servers.keys.length < fuel →
        connectFor net env inv cache fuel name = .done (.error e) := by
  obtain ⟨e, bars⟩ := exists_bars closed
  obtain ⟨c, e, call, barred, refused⟩ := (leads_of_calls call).refused net env bars
  have servers := inv.unvisited_length_le []
  have always : ∀ fuel, inv.servers.keys.length < fuel →
      connectFor net env inv cache fuel name = .done (.error e) := by
    intro fuel enough
    apply refused
    omega
  have ended : inv.connect net env cache name = .done (.error e) := always _ (Nat.lt_succ_self _)
  rw [ended]
  exact ⟨c, e, call, barred, rfl, rfl, always⟩

end

/-- A network in which nothing fails. -/
def obliging : Network where
  dial _ _ := .ok { answer := fun _ => some [] }
  encrypt _ peer := .ok peer
  socks _ peer _ := .ok { peer }
  start _ := .ok { answer := fun _ => some [] }
  tunnel _ _ _ := .ok { answer := fun _ => some [] }
  login _ _ := .ok ()

/-- The methods of a target and of the bastion next to it. -/
def nearMethods : Cache where
  servers := .ofList [("web1", [⟨.password "pw", 1⟩]), ("b2", [⟨.password "pw", 1⟩])]

/-- The outer bastion of the chain has no methods, so not even its proxy service is dialled. -/
theorem refused_of_calls_chain :
    chain.Calls "web1" "b1" ∧ nearMethods.methodsFor "b1" = none ∧
      (chain.connect obliging {} nearMethods "web1").contacts = [] ∧
      ∃ e, (chain.connect obliging {} nearMethods "web1").result = some (.error e) := by
  have web1 : chain.plan "web1" = .ok ⟨{ proxy := some "b2" }, .bastion "b2"⟩ := by cbv
  have b2 : chain.plan "b2" = .ok ⟨{ proxy := some "b1" }, .bastion "b1"⟩ := by cbv
  have call : chain.Calls "web1" "b1" := .bastion (.bastion .self web1 rfl) b2 rfl
  have none : nearMethods.methodsFor "b1" = none := rfl
  obtain ⟨-, e, -, -, silent, failed, -⟩ :=
    refused_of_calls obliging {} nearMethods call (.inr none)
  exact ⟨call, none, silent, e, failed⟩

end Flotilla.Inventory
