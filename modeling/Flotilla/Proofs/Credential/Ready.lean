import Flotilla.Proofs.Credential.Outcomes
import Flotilla.Proofs.Credential.Reports

/-!
# The methods of a server by kind

A server that a call resolves has at most one method of each kind, in the order of the kinds, and
none of those kinds whose credential the server does not have or nothing could be derived of
(`Cache.Call.exists_readies`).
-/

namespace Flotilla

namespace Credential.Kind

/-- The kinds, in the order in which they are tried. -/
def all : List Kind := [.password, .keyFile, .keyCommand, .certificate, .pkcs11, .agent]

theorem mem_all (kind : Kind) : kind ∈ all := by cases kind <;> decide

theorem nodup_all : all.Nodup := by decide

theorem sublist_all {kinds : List Kind} (ascending : kinds.Pairwise (·.rank < ·.rank)) :
    kinds.Sublist all := by
  have : Std.Antisymm fun a b : Kind => a.rank < b.rank :=
    ⟨fun a b before behind => absurd behind (Nat.lt_asymm before)⟩
  have distinct : kinds.Nodup := ascending.imp fun before same => by
    rw [same] at before
    exact absurd before (Nat.lt_irrefl _)
  apply List.sublist_of_subperm_of_pairwise _ ascending
  · decide
  · exact distinct.subperm fun kind _ => mem_all kind

end Credential.Kind

/-- What a list has in some places is what a longer list of places has, in the same order. -/
theorem filterMap_eq_of_sublist {κ α : Type} [DecidableEq κ] {l : List (κ × Option α)}
    {places : List κ} (nodup : places.Nodup) (within : (l.map (·.1)).Sublist places) :
    l.filterMap (·.2) = places.filterMap fun k => (l.lookup k).join := by
  induction places generalizing l with
  | nil =>
    rw [List.map_eq_nil_iff.mp (List.sublist_nil.mp within)]
    rfl
  | cons k places ih =>
    obtain ⟨absent, nodup⟩ := List.nodup_cons.mp nodup
    rcases List.sublist_cons_iff.mp within with rest | ⟨keys, split, rest⟩
    · have none : l.lookup k = none := by
        rw [List.lookup_eq_none_iff]
        intro e member
        have other := rest.subset (List.mem_map_of_mem member)
        simp only [bne_iff_ne]
        rintro rfl
        exact absent other
      rw [ih nodup rest, List.filterMap_cons, none]
      rfl
    · obtain ⟨⟨k', o⟩, later, rfl, same, rfl⟩ := List.map_eq_cons_iff.mp split
      obtain rfl : k = k' := same.symm
      have elsewhere : ∀ other ∈ places, ((k, o) :: later).lookup other = later.lookup other := by
        intro other member
        have differs : (other == k) = false := by
          rw [beq_eq_false_iff_ne]
          rintro rfl
          exact absent member
        rw [List.lookup_cons, differs]
      rw [List.filterMap_cons, List.filterMap_cons, ih nodup rest, List.lookup_cons_self]
      rw [List.filterMap_congr fun other member => congrArg Option.join (elsewhere other member)]
      cases o <;> rfl

/-- What came of credentials, by their kinds. -/
def byKind (l : List Credential) (outcomes : List (Except String Method)) :
    List (Credential.Kind × Option Method) :=
  List.zipWith (fun c o => (c.kind, o.toOption)) l outcomes

section

variable {gives : Credential → Except String Method → Prop} {l : List Credential}
variable {outcomes : List (Except String Method)}

theorem kinds_byKind (each : List.Forall₂ gives l outcomes) :
    (byKind l outcomes).map (·.1) = l.map (·.kind) := by
  induction each with
  | nil => rfl
  | cons here later ih => exact congrArg (_ :: ·) ih

theorem methods_byKind (each : List.Forall₂ gives l outcomes) :
    (byKind l outcomes).filterMap (·.2) = outcomes.filterMap Except.toOption := by
  induction each with
  | nil => rfl
  | @cons c o l outcomes here later ih =>
    show ((c.kind, o.toOption) :: byKind l outcomes).filterMap (·.2) = _
    rw [List.filterMap_cons, List.filterMap_cons, ih]

/-- The method that came of the credential of a kind. -/
def madeOf (l : List Credential) (outcomes : List (Except String Method))
    (kind : Credential.Kind) : Option Method :=
  ((byKind l outcomes).lookup kind).join

theorem madeOf_of_missing (each : List.Forall₂ gives l outcomes) {kind : Credential.Kind}
    (missing : ∀ d ∈ l, d.kind ≠ kind) : madeOf l outcomes kind = none := by
  have none : (byKind l outcomes).lookup kind = none := by
    rw [List.lookup_eq_none_iff]
    intro e member
    have there : e.1 ∈ (byKind l outcomes).map (·.1) := List.mem_map_of_mem member
    rw [kinds_byKind each] at there
    obtain ⟨d, offered, same⟩ := List.mem_map.mp there
    rw [bne_iff_ne, ← same]
    exact (missing d offered).symm
  rw [madeOf, none]
  rfl

/-- What came of a credential is found under its kind, if there is one of each kind at most. -/
theorem madeOf_kind (each : List.Forall₂ gives l outcomes)
    (ascending : l.Pairwise fun a b => a.kind.rank < b.kind.rank) {d : Credential}
    (member : d ∈ l) : ∃ o, gives d o ∧ madeOf l outcomes d.kind = o.toOption := by
  unfold madeOf
  induction each with
  | nil => cases member
  | @cons c o l outcomes here later ih =>
    obtain ⟨first, ascending⟩ := List.pairwise_cons.mp ascending
    show ∃ o', gives d o' ∧
      (((c.kind, o.toOption) :: byKind l outcomes).lookup d.kind).join = o'.toOption
    rcases List.mem_cons.mp member with rfl | member
    · exact ⟨o, here, by rw [List.lookup_cons_self, Option.join_some]⟩
    · have differs : (d.kind == c.kind) = false := by
        rw [beq_eq_false_iff_ne]
        intro same
        have less := first d member
        rw [same] at less
        exact Nat.lt_irrefl _ less
      rw [List.lookup_cons, differs]
      exact ih ascending member

/-- The methods in the order of the credentials are the methods in the order of the kinds. -/
theorem filterMap_madeOf (each : List.Forall₂ gives l outcomes)
    (ascending : l.Pairwise fun a b => a.kind.rank < b.kind.rank) :
    outcomes.filterMap Except.toOption =
      Credential.Kind.all.filterMap (madeOf l outcomes) := by
  rw [← methods_byKind each, filterMap_eq_of_sublist Credential.Kind.nodup_all]
  · rfl
  · rw [kinds_byKind each]
    apply Credential.Kind.sublist_all
    exact List.pairwise_map.mpr ascending

end

namespace Cache

variable {c : Cache} {reports : List ResolutionReport} {call : Call} {name : String}

namespace Call

/-- The credentials of a server in a call. -/
def offer (call : Call) (name : String) : List Credential :=
  call.inventory.offer call.machine.env name

/-- Whether this may come of the credentials with a key in a call. -/
def Gives (call : Call) (c : Cache) (key : Credential.Key) (outcome : Except String Method) :
    Prop :=
  KnownMethods.Gives call.derive call.machine.env call.offer call.servers
    c.store.known key outcome

/-- Whether these are the methods that a call makes ready for a server, by their kinds. -/
structure Readies (call : Call) (c : Cache) (name : String)
    (found : Credential.Kind → Option Method) : Prop where
  absent : ∀ kind, (∀ d ∈ call.offer name, d.kind ≠ kind) → found kind = none
  known : ∀ d ∈ call.offer name, ∀ m, c.store.known.lookup (d.key call.machine.env) = some m →
    found d.kind = some m.method
  /-- What was not known before is derived, of this credential or of one with the same key. -/
  derived : ∀ d ∈ call.offer name, c.store.known.lookup (d.key call.machine.env) = none →
    ∃ other ∈ call.servers, ∃ e ∈ call.offer other,
      e.key call.machine.env = d.key call.machine.env ∧
        found d.kind = (call.derive e).toOption
  fits : ∀ kind method, found kind = some method → method.Fits kind

/-- A credential that was not known before is ready if and only if it can be derived, if those with
its key are alike. -/
theorem Readies.eq_derive {found : Credential.Kind → Option Method}
    (readies : call.Readies c name found) {d : Credential} (offered : d ∈ call.offer name)
    (unknown : c.store.known.lookup (d.key call.machine.env) = none)
    (alike : ∀ other ∈ call.servers, ∀ e ∈ call.offer other,
      e.key call.machine.env = d.key call.machine.env →
        call.derive e = call.derive d) :
    found d.kind = (call.derive d).toOption := by
  obtain ⟨other, asked, e, there, same, made⟩ := readies.derived d offered unknown
  rw [made, alike other asked e there same]

/-- A server has one credential of each kind at most. -/
theorem eq_of_kind {d e : Credential} (here : d ∈ call.offer name) (there : e ∈ call.offer name)
    (same : d.kind = e.kind) : d = e := by
  have ascending := call.inventory.offer_ascending call.machine.env name
  have distinct : ((call.offer name).map (·.kind)).Nodup := by
    apply List.pairwise_map.mpr
    refine ascending.imp fun less equal => ?_
    rw [equal] at less
    exact Nat.lt_irrefl _ less
  exact List.inj_on_of_nodup_map distinct here there same

theorem draws (call : Call) (c : Cache) :
    (call.work c).Draws call.derive call.machine.env call.offer call.servers
      c.store.known := by
  apply Resolving.Draws.run
  constructor
  case grows => exact fun key m found => found
  case known =>
    intro key m found
    have before : c.store.known.lookup key = some m := found
    rw [KnownMethods.Gives, before]
  case tasks =>
    intro t member
    obtain ⟨name, asked, rfl⟩ := eq_of_mem_start member
    exact ⟨asked, ⟨[], [], rfl, .nil, rfl⟩, by simp [ResolvingTask.isWorking], by simp⟩
  case ended => exact fun i member => absurd member List.not_mem_nil

theorem Gives.fits {key : Credential.Key} {method : Method} (gives : call.Gives c key (.ok method))
    (before : ∀ m, c.store.known.lookup key = some m → m.method.Fits key.kind) :
    method.Fits key.kind := by
  unfold Gives KnownMethods.Gives at gives
  split at gives
  next m known =>
    cases gives
    exact before m known
  next =>
    obtain ⟨_, -, e, -, rfl, made⟩ := gives
    exact call.fits e method made

end Call

/-- What a cache knows after calls fits the kinds of the credentials that it was made of. -/
theorem Past.fits (past : Past c reports) {key : Credential.Key} {m : SharedMethod}
    (known : c.store.known.lookup key = some m) : m.method.Fits key.kind := by
  induction past generalizing m with
  | new => cases known
  | @call c reports past call ended ih =>
    rw [Call.store_answer] at known
    have gives : call.Gives c key (.ok m.method) := (call.draws c).known key m known
    exact gives.fits fun m known => ih known

theorem Call.readies_of (past : Past c reports) {outcomes : List (Except String Method)}
    (each : List.Forall₂ (fun d o => call.Gives c (d.key call.machine.env) o) (call.offer name)
      outcomes) :
    call.Readies c name (madeOf (call.offer name) outcomes) := by
  have drawn {d : Credential} (offered : d ∈ call.offer name) :=
    madeOf_kind each (call.inventory.offer_ascending call.machine.env name) offered
  constructor
  case absent => exact fun kind missing => madeOf_of_missing each missing
  case known =>
    intro d offered m known
    obtain ⟨o, gives, there⟩ := drawn offered
    rw [Gives, KnownMethods.Gives, known] at gives
    rw [there, gives]
    rfl
  case derived =>
    intro d offered unknown
    obtain ⟨o, gives, there⟩ := drawn offered
    rw [Gives, KnownMethods.Gives, unknown] at gives
    obtain ⟨other, asked, e, here, same, rfl⟩ := gives
    exact ⟨other, asked, e, here, same, there⟩
  case fits =>
    intro kind method found
    by_cases missing : ∀ d ∈ call.offer name, d.kind ≠ kind
    · rw [madeOf_of_missing each missing] at found
      cases found
    · push Not at missing
      obtain ⟨d, offered, rfl⟩ := missing
      obtain ⟨o, gives, there⟩ := drawn offered
      rw [found] at there
      obtain rfl : o = .ok method := by
        cases o <;> cases there
        rfl
      exact gives.fits fun m known => past.fits known

/-- A server that a call resolves has the methods that the call makes ready for it, in the order of
their kinds. -/
theorem Call.exists_readies (past : Past c reports) (ended : call.IsOver c)
    (resolved : name ∈ (call.answer c).2.resolved) :
    ∃ found, call.Readies c name found ∧
      (call.answer c).1.methodsFor name = some (Credential.Kind.all.filterMap found) := by
  obtain ⟨t, member, rfl, -, listed⟩ := exists_task_of_resolved ended resolved
  obtain ⟨outcomes, each, methods⟩ := (call.draws c).methods_of_isFinished ended member
  refine ⟨_, readies_of past each, ?_⟩
  rw [listed, methods,
    filterMap_madeOf each (call.inventory.offer_ascending call.machine.env t.server)]

end Cache

end Flotilla
