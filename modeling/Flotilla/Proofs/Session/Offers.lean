import Flotilla.Proofs.Credential.Ready
import Flotilla.Session.Authentication

/-!
# Which credentials are offered

A login goes through the credentials that its methods stand for, in their order, until one is
accepted (`Login.authenticate_ends`).  With the methods that a call made ready for the server, that
is the order of the kinds (`Login.authenticate_in_order`).
-/

namespace Flotilla

/-- The keys that the agent holds, if it can be reached. -/
def heldKeys (agent : Except Agent.Absence Agent) : List PublicKey :=
  match agent with
  | .ok a => a.identities.toOption.getD []
  | .error _ => []

/-- The credentials that a method stands for. -/
def Method.tries (agent : Except Agent.Absence Agent) : Method → List Offer
  | .password text => [.password text]
  | .publicKey key => [.publicKey key]
  | .certificate key cert => [.certificate key cert]
  | .providerKeys keys => keys.map .identity
  | .agent => (heldKeys agent).map .identity

/-- Whether a credential can be offered.  The keys of an agent need the agent. -/
def Offer.isPossible (agent : Except Agent.Absence Agent) : Offer → Bool
  | .identity _ => agent.isOk
  | _ => true

/-- The credentials among these that can be offered. -/
def possible (agent : Except Agent.Absence Agent) (l : List Offer) : List Offer :=
  l.filter (·.isPossible agent)

variable {agent : Except Agent.Absence Agent} {d : Doorway}

theorem possible_cons (o : Offer) (l : List Offer) : possible agent (o :: l) =
    if o.isPossible agent then o :: possible agent l else possible agent l :=
  List.filter_cons

theorem possible_concat (l : List Offer) (o : Offer) : possible agent (l ++ [o]) =
    if o.isPossible agent then possible agent l ++ [o] else possible agent l := by
  rw [possible, List.filter_append, List.filter_singleton]
  cases o.isPossible agent
  · exact List.append_nil _
  · rfl

theorem possible_identities (keys : List PublicKey) : possible agent (keys.map .identity) =
    if agent.isOk then keys.map .identity else [] := by
  have same : ∀ o ∈ keys.map Offer.identity, o.isPossible agent = agent.isOk := by
    intro o member
    obtain ⟨key, -, rfl⟩ := List.mem_map.mp member
    rfl
  rw [possible, List.filter_congr same]
  cases agent.isOk
  · exact List.filter_false _
  · exact List.filter_true _

/-- An agent that says which keys it holds leaves a method all its offers that are possible. -/
theorem Method.offers_eq (answers : ∀ a, agent = .ok a → a.identities.isOk) (m : Method) :
    m.offers agent = .ok (possible agent (m.tries agent)) := by
  cases m with
  | password | publicKey | certificate => rfl
  | providerKeys keys =>
    rw [tries, possible_identities]
    cases agent <;> rfl
  | agent =>
    rw [tries, possible_identities]
    cases agent with
    | ok a =>
      have listed := answers a rfl
      cases held : a.identities with
      | error f =>
        rw [held] at listed
        cases listed
      | ok keys =>
        show a.identities.map _ = .ok ((a.identities.toOption.getD []).map Offer.identity)
        rw [held]
        rfl
    | error e => rfl

namespace Doorway

/-- Whether one of these credentials is accepted when its turn comes. -/
def AdmitsSome (d : Doorway) (agent : Except Agent.Absence Agent) (l : List Offer) : Prop :=
  ∃ before o later, l = before ++ o :: later ∧ d.admits agent (possible agent before) o

/-- How going through credentials ends: with which offers made, and whether one was accepted. -/
inductive Ends (d : Doorway) (agent : Except Agent.Absence Agent) (l : List Offer) :
    List Offer → Bool → Prop
  | accepted (before : List Offer) (o : Offer) (later : List Offer)
      (whole : l = before ++ o :: later) (refused : ¬ d.AdmitsSome agent before)
      (admitted : d.admits agent (possible agent before) o) :
      Ends d agent l (possible agent (before ++ [o])) true
  | refused (none : ¬ d.AdmitsSome agent l) : Ends d agent l (possible agent l) false

theorem admitsSome_concat {l : List Offer} {o : Offer} :
    d.AdmitsSome agent (l ++ [o]) ↔ d.AdmitsSome agent l ∨ d.admits agent (possible agent l) o := by
  constructor
  · rintro ⟨before, x, later, whole, admitted⟩
    rcases List.eq_nil_or_concat later with rfl | ⟨later, last, rfl⟩
    · obtain ⟨rfl, rfl⟩ := List.append_singleton_inj.mp whole
      exact .inr admitted
    · rw [List.concat_eq_append, ← List.cons_append, ← List.append_assoc] at whole
      obtain ⟨rfl, rfl⟩ := List.append_singleton_inj.mp whole
      exact .inl ⟨before, x, later, rfl, admitted⟩
  · rintro (⟨before, x, later, rfl, admitted⟩ | admitted)
    · exact ⟨before, x, later ++ [o], by simp, admitted⟩
    · exact ⟨l, o, [], rfl, admitted⟩

theorem not_admits_of_not_isPossible {o : Offer} (impossible : o.isPossible agent = false)
    (made : List Offer) : d.admits agent made o = false := by
  cases o with
  | identity key =>
    cases agent with
    | ok a => cases impossible
    | error e => rfl
  | _ => cases impossible

/-- Credentials are offered in their order behind others that were refused. -/
theorem receive_ends (l : List Offer) {before : List Offer}
    (refused : ¬ d.AdmitsSome agent before) :
    d.Ends agent (before ++ l) (d.receive agent (possible agent before) (possible agent l)).1
      (d.receive agent (possible agent before) (possible agent l)).2 := by
  induction l generalizing before with
  | nil =>
    rw [List.append_nil]
    exact .refused refused
  | cons o l ih =>
    have split : before ++ o :: l = before ++ [o] ++ l := by simp
    have made : possible agent (before ++ [o]) = _ := possible_concat before o
    rw [possible_cons]
    cases able : o.isPossible agent with
    | true =>
      rw [able, if_pos rfl] at made
      rw [if_pos rfl, receive, ← made]
      split
      next admitted => exact .accepted before o l rfl refused admitted
      next rejected =>
        rw [split]
        apply ih
        rw [admitsSome_concat]
        exact not_or.mpr ⟨refused, rejected⟩
    | false =>
      rw [able, if_neg Bool.false_ne_true] at made
      rw [if_neg Bool.false_ne_true, ← made, split]
      apply ih
      rw [admitsSome_concat, not_admits_of_not_isPossible able]
      exact not_or.mpr ⟨refused, Bool.false_ne_true⟩

/-- The credentials that methods stand for are offered in their order. -/
theorem receiveMethods_ends (answers : ∀ a, agent = .ok a → a.identities.isOk)
    (methods : List Method) {before : List Offer} (refused : ¬ d.AdmitsSome agent before) :
    ∃ made accepted,
      d.receiveMethods agent (possible agent before) methods = (made, .ok accepted) ∧
        d.Ends agent (before ++ methods.flatMap (·.tries agent)) made accepted := by
  induction methods generalizing before with
  | nil =>
    refine ⟨_, _, rfl, ?_⟩
    rw [List.flatMap_nil, List.append_nil]
    exact .refused refused
  | cons m later ih =>
    rw [receiveMethods, Method.offers_eq answers, List.flatMap_cons, ← List.append_assoc]
    dsimp only
    have ends := receive_ends (m.tries agent) refused
    generalize d.receive agent (possible agent before) (possible agent (m.tries agent)) = outcome
      at ends
    obtain ⟨made, accepted⟩ := outcome
    cases ends with
    | accepted first o rest whole refused admitted =>
      refine ⟨_, _, rfl, ?_⟩
      rw [whole, List.append_assoc, List.cons_append]
      exact .accepted first o _ rfl refused admitted
    | refused none => exact ih none

end Doorway

/-- A login offers the credentials that its methods stand for one after the other.  It ends with the
first one that is accepted, or in a rejection if none is. -/
theorem Login.authenticate_ends (answers : ∀ a, agent = .ok a → a.identities.isOk) (l : Login)
    (d : Doorway) :
    ∃ made accepted, d.Ends agent (l.methods.flatMap (·.tries agent)) made accepted ∧
      l.authenticate agent d =
        (made, if accepted then .ok () else .error (.authenticationRejected l.server)) := by
  have start : ¬ d.AdmitsSome agent [] := by
    rintro ⟨before, o, later, whole, -⟩
    cases before <;> cases whole
  obtain ⟨made, accepted, received, ends⟩ := d.receiveMethods_ends answers l.methods start
  refine ⟨made, accepted, ends, ?_⟩
  have none : possible agent [] = [] := rfl
  rw [authenticate, ← none, received]
  cases accepted <;> rfl

/-- Whatever calls were made before, and whichever credentials can be derived during each of them, a
server that a call resolves has the methods that the call made ready for it, in the order of the
kinds of credentials.  Every login with them offers what they stand for in that order and ends with
the first one that is accepted; it succeeds if and only if one is, and is rejected otherwise. -/
theorem Login.authenticate_in_order {c : Cache} {reports : List ResolutionReport}
    {call : Cache.Call} {name : String} (past : Cache.Past c reports) (ended : call.IsOver c)
    (resolved : name ∈ (call.answer c).2.resolved)
    (answers : ∀ a, agent = .ok a → a.identities.isOk) :
    ∃ found, call.Readies c name found ∧
      (call.answer c).1.methodsFor name = some (Credential.Kind.all.filterMap found) ∧
      ∀ (l : Login) (d : Doorway), l.server = name →
        (call.answer c).1.methodsFor name = some l.methods →
        let full := l.methods.flatMap (·.tries agent)
        ((l.authenticate agent d).2 = .ok () ↔ d.AdmitsSome agent full) ∧
        ∃ made accepted, d.Ends agent full made accepted ∧ l.authenticate agent d =
          (made, if accepted then .ok () else .error (.authenticationRejected name)) := by
  obtain ⟨found, readies, listed⟩ := Cache.Call.exists_readies past ended resolved
  refine ⟨found, readies, listed, ?_⟩
  rintro l d rfl - full
  obtain ⟨made, accepted, ends, authenticated⟩ := l.authenticate_ends answers d
  refine ⟨?_, made, accepted, ends, authenticated⟩
  rw [authenticated]
  cases ends with
  | accepted before o later whole refused admitted =>
    exact iff_of_true rfl ⟨before, o, later, whole, admitted⟩
  | refused none => exact iff_of_false nofun none

/-- The answer of an agent that holds one key. -/
def singleListing : Bytes :=
  [12, 0, 0, 0, 1, 0, 0, 0, 51, 0, 0, 0, 11] ++ utf8 "ssh-ed25519" ++ [0, 0, 0, 32] ++
    List.replicate 32 7 ++ [0, 0, 0, 0]

/-- A machine whose agent holds one key, and breaks off when it is to load a provider with a wrong
PIN. -/
def Machine.keyed : Machine where
  env := { agentSocket := some "/agent" }
  files := {}
  run _ := .error .missing
  agent := .ok {
    answer := singleListing
    answerBehind := fun _ pin => if pin = "1234" then .ok singleListing else .error .cutShort }

/-- A server with a password, a key that is not there, a provider with a wrong PIN, and the
agent. -/
def guarded : Server where
  password := some "pw"
  key := some "/k"
  pkcs11Provider := some "/p.so"
  pkcs11Pin := some "0000"

/-- A call for that server. -/
def arrival : Cache.Call where
  machine := .keyed
  inventory := { servers := .ofList [("a", guarded)] }
  servers := ["a"]
  turns := List.replicate 9 0

/-- A server that accepts a key of the agent after it rejected a password. -/
def Doorway.patient (hostKey : PublicKey) : Doorway where
  hostKey
  accepts
    | [.password _], .identity _ => true
    | _, _ => false

/-- Nothing comes of the key file, nor of the provider, which has keys under another PIN.  The
password is rejected, and the key of the agent is accepted. -/
theorem Login.authenticate_in_order_arrival :
    arrival.IsOver {} ∧ (arrival.answer {}).2.resolved = ["a"] ∧
      (Credential.derive .keyed (.pkcs11 "/p.so" ⟨"1234", "1234"⟩)).isOk ∧
      ∃ found key, arrival.Readies {} "a" found ∧ found .keyFile = none ∧ found .pkcs11 = none ∧
        heldKeys Machine.keyed.agent = [key] ∧
        let l : Login := ⟨"a", "a", 22, "root", [.password "pw", .agent]⟩
        l.authenticate Machine.keyed.agent (.patient key) =
          ([.password "pw", .identity key], .ok ()) := by
  have ended : arrival.IsOver {} := by decide +kernel
  have resolved : (arrival.answer {}).2.resolved = ["a"] := by decide +kernel
  have listed : (arrival.answer {}).1.methodsFor "a" = some [.password "pw", .agent] := by
    decide +kernel
  have single : (heldKeys Machine.keyed.agent).length = 1 := by decide +kernel
  have answers : ∀ a, Machine.keyed.agent = .ok a → a.identities.isOk := by
    intro a same
    cases same
    decide +kernel
  obtain ⟨key, held⟩ := List.length_eq_one_iff.mp single
  obtain ⟨found, readies, -, each⟩ :=
    authenticate_in_order .new ended (by rw [resolved]; exact List.mem_singleton_self _) answers
  have unready {e : Credential} (offered : e ∈ arrival.offer "a")
      (underived : (Credential.derive .keyed e).toOption = none) : found e.kind = none := by
    have made := readies.eq_derive offered rfl (by
      intro other asked e' there same
      obtain rfl := List.mem_singleton.mp asked
      rw [Cache.Call.eq_of_kind there offered (congrArg Credential.Key.kind same)])
    exact made.trans underived
  have missing : found .keyFile = none :=
    unready (e := .keyFile "/k" none) (by decide +kernel) (by decide +kernel)
  have unloaded : found .pkcs11 = none :=
    unready (e := .pkcs11 "/p.so" ⟨"0000", "0000"⟩) (by decide +kernel) (by decide +kernel)
  refine ⟨ended, resolved, by decide +kernel, found, key, readies, missing, unloaded, held, ?_⟩
  intro l
  obtain ⟨-, made, accepted, ends, authenticated⟩ := each l (.patient key) rfl listed
  have full : l.methods.flatMap (·.tries Machine.keyed.agent) =
      [.password "pw", .identity key] := by
    simp [l, Method.tries, held]
  rw [full] at ends
  rw [authenticated]
  cases ends with
  | accepted before o later whole refused admitted =>
    cases before with
    | nil =>
      cases whole
      cases admitted
    | cons x before =>
      obtain ⟨rfl, rest⟩ := List.cons.inj whole
      cases before with
      | nil =>
        cases rest
        rfl
      | cons => simp at rest
  | refused none =>
    exact absurd ⟨[.password "pw"], .identity key, [], rfl, rfl⟩ none

end Flotilla
