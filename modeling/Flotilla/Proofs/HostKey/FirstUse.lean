import Flotilla.HostKey.Policy
import Flotilla.Proofs.Files
import Flotilla.Proofs.HostKey.KnownHosts

/-!
# Trust on first use

A policy that accepts new hosts writes the first key of a host down.  From then on the host is let
in with that key and refused with another one of its algorithm, whatever other hosts come in
between, and the list of known hosts only grows at its end.
-/

namespace Flotilla

namespace HostKeyPolicy

variable {files : Files} {path host : String} {port : UInt16} {key : PublicKey}

theorem check_eq {list : Bytes} (read : listed files path = .ok list) :
    check files path host port key = KnownHosts.check list host port key := by
  rw [check, read, ok_bind]

/-- A key that is learned is a line behind what the list holds. -/
theorem learn_eq_ok {after : Files} (learned : learn files path host port key = .ok after) :
    ∃ list, listed files path = .ok list ∧
      after.read path = .ok (KnownHosts.learn list host port key) := by
  obtain ⟨between, created, appended⟩ := bind_eq_ok.mp learned
  obtain ⟨list, before, written⟩ := Files.read_of_append appended
  have same : (between.read path).toOption.getD [] = list := by
    rcases before with read | ⟨read, rfl⟩ <;> rw [read] <;> rfl
  refine ⟨list, ?_, ?_⟩
  · unfold listed
    rcases before with read | ⟨read, rfl⟩
    · rw [Files.read_of_createDirectory created read (by simp)]
    · rw [Files.read_of_createDirectory created read (by simp)]
  · rw [written, same, KnownHosts.learn, List.append_assoc, List.drop_left]

end HostKeyPolicy

/-- A host that comes with a key. -/
structure Visit where
  host : String
  port : UInt16
  key : PublicKey

namespace Visit

/-- Whether the name of the host is made of letters, digits, dots, hyphens, underscores and
colons. -/
def IsPlain (v : Visit) : Prop :=
  ∀ c ∈ v.host.toList, c.isAlphanum ∨ c = '.' ∨ c = '-' ∨ c = '_' ∨ c = ':'

instance (v : Visit) : Decidable v.IsPlain :=
  List.decidableBAll
    (fun c : Char => c.isAlphanum ∨ c = '.' ∨ c = '-' ∨ c = '_' ∨ c = ':') v.host.toList

/-- Lets the host in or refuses it, and the files after that. -/
def verify (v : Visit) (env : Environment) (files : Files) : Except ConnectError Bool × Files :=
  HostKeyPolicy.acceptNew.verify env files v.host v.port v.key

/-- The files after a row of visits. -/
def after (env : Environment) (files : Files) (visits : List Visit) : Files :=
  visits.foldl (fun files v => (v.verify env files).2) files

/-- Whether the host is pinned to the key: it is let in with it and refused with another one of its
algorithm, and nothing is written. -/
def IsPinned (v : Visit) (env : Environment) (files : Files) : Prop :=
  v.verify env files = (.ok true, files) ∧
    ∀ key, key.algorithm = v.key.algorithm → key ≠ v.key →
      { v with key }.verify env files = (.ok false, files)

theorem IsPlain.isListable {v : Visit} (plain : v.IsPlain) : KnownHosts.IsListable v.host := by
  intro c member
  rcases plain c member with letter | rfl | rfl | rfl | rfl
  · simp only [Char.isAlphanum, Char.isAlpha, Char.isUpper, Char.isLower, Char.isDigit,
      Bool.or_eq_true, Bool.and_eq_true, decide_eq_true_eq, ge_iff_le, UInt32.le_iff_toNat_le]
      at letter
    simp at letter
    have value : c.toNat = c.val.toNat := rfl
    omega
  all_goals decide

/-- Whether the host is listed with its key. -/
def IsListed (v : Visit) (env : Environment) (files : Files) : Prop :=
  HostKeyPolicy.check files env.knownHosts v.host v.port v.key = .ok true

variable {env : Environment} {files : Files} {v w : Visit}

/-- What comes of a visit: a host that is listed with its key is let in, an unknown key is written
down if that can be done, and all else is refused. -/
theorem verify_cases (v : Visit) (env : Environment) (files : Files) :
    v.IsListed env files ∧ v.verify env files = (.ok true, files) ∨
    (v.verify env files).1 ≠ .ok true ∧ (v.verify env files).2 = files ∨
    ∃ list after, HostKeyPolicy.listed files env.knownHosts = .ok list ∧
      KnownHosts.check list v.host v.port v.key = .ok false ∧
      v.verify env files = (.ok true, after) ∧
      after.read env.knownHosts = .ok (KnownHosts.learn list v.host v.port v.key) := by
  unfold IsListed verify HostKeyPolicy.verify
  cases checked : HostKeyPolicy.check files env.knownHosts v.host v.port v.key with
  | error fault => simp
  | ok known =>
    cases known with
    | true => simp
    | false =>
      cases learned : HostKeyPolicy.learn files env.knownHosts v.host v.port v.key with
      | error fault => simp
      | ok after =>
        obtain ⟨list, read, written⟩ := HostKeyPolicy.learn_eq_ok learned
        rw [HostKeyPolicy.check_eq read] at checked
        exact .inr (.inr ⟨list, after, read, checked, rfl, written⟩)

/-- A host that is listed with its key is pinned to it. -/
theorem IsListed.isPinned (listed : v.IsListed env files) : v.IsPinned env files := by
  unfold IsListed at listed
  constructor
  · simp only [verify, HostKeyPolicy.verify, listed]
  · intro key same other
    obtain ⟨list, read, known⟩ := bind_eq_ok.mp listed
    obtain ⟨n, changed⟩ := KnownHosts.check_other known same other
    rw [← HostKeyPolicy.check_eq read] at changed
    simp only [verify, HostKeyPolicy.verify, changed]

theorem isListed_iff {list : Bytes} (read : files.read env.knownHosts = .ok list) :
    v.IsListed env files ↔ KnownHosts.check list v.host v.port v.key = .ok true := by
  rw [IsListed, HostKeyPolicy.check_eq (by rw [HostKeyPolicy.listed, read])]

/-- A host that is let in is listed with its key from then on. -/
theorem isListed_of_verify (plain : v.IsPlain) (accepted : (v.verify env files).1 = .ok true) :
    v.IsListed env (v.verify env files).2 := by
  rcases verify_cases v env files with
    ⟨listed, same⟩ | ⟨refused, -⟩ | ⟨list, after, -, unknown, same, written⟩
  · rwa [same]
  · exact absurd accepted refused
  · rw [same, isListed_iff written]
    exact KnownHosts.check_learn unknown plain.isListable

/-- A host stays listed with its key when another one comes. -/
theorem IsListed.verify (listed : v.IsListed env files) (plain : w.IsPlain) :
    v.IsListed env (w.verify env files).2 := by
  rcases verify_cases w env files with
    ⟨-, same⟩ | ⟨-, same⟩ | ⟨list, after, read, unknown, same, written⟩
  · rwa [same]
  · rwa [same]
  · rw [IsListed, HostKeyPolicy.check_eq read] at listed
    rw [same, isListed_iff written]
    exact KnownHosts.check_learn_other listed unknown plain.isListable

/-- A host stays listed with its key whatever hosts come. -/
theorem IsListed.after {visits : List Visit} (listed : v.IsListed env files)
    (plain : ∀ w ∈ visits, w.IsPlain) : v.IsListed env (after env files visits) := by
  induction visits generalizing files with
  | nil => exact listed
  | cons w visits ih =>
    exact ih (listed.verify (plain w List.mem_cons_self)) fun u later =>
      plain u (List.mem_cons_of_mem w later)

/-- What the list of known hosts holds, which is nothing if there is none. -/
def known (env : Environment) (files : Files) : Bytes :=
  (files.read env.knownHosts).toOption.getD []

/-- The list of known hosts only grows, and at its end. -/
theorem known_prefix_verify (v : Visit) (env : Environment) (files : Files) :
    known env files <+: known env (v.verify env files).2 := by
  rcases verify_cases v env files with
    ⟨-, same⟩ | ⟨-, same⟩ | ⟨list, after, read, -, same, written⟩
  · exact same.symm ▸ List.prefix_refl _
  · exact same.symm ▸ List.prefix_refl _
  · have old : known env files = list := by
      unfold HostKeyPolicy.listed at read
      unfold known
      generalize files.read env.knownHosts = found at read
      split at read <;> cases read <;> rfl
    have new : known env after = KnownHosts.learn list v.host v.port v.key := by
      rw [known, written]
      rfl
    rw [old, same, new, KnownHosts.learn, List.append_assoc]
    exact List.prefix_append list _

theorem after_append (env : Environment) (files : Files) (earlier later : List Visit) :
    after env files (earlier ++ later) = after env (after env files earlier) later :=
  List.foldl_append

/-- Trust on first use.  When hosts come one after the other, one that is let in is pinned to its
key from then on, and each of them leaves what the list of known hosts held at its front. -/
theorem isPinned_after (env : Environment) (files : Files) (earlier : List Visit) (v : Visit)
    (later : List Visit) (plain : ∀ w ∈ v :: later, w.IsPlain) :
    ((v.verify env (after env files earlier)).1 = .ok true →
      v.IsPinned env (after env files (earlier ++ v :: later))) ∧
    known env (after env files earlier) <+: known env (after env files (earlier ++ [v])) := by
  rw [after_append, after_append]
  obtain ⟨here, there⟩ := List.forall_mem_cons.mp plain
  constructor
  · intro accepted
    have listed := isListed_of_verify here accepted
    exact (listed.after there).isPinned
  · exact known_prefix_verify v env _

/-- The bytes of an Ed25519 key that is one byte all over. -/
def plainKey (b : UInt8) : Bytes :=
  Key.field (utf8 "ssh-ed25519") ++ Key.field (List.replicate 32 b)

/-- A host that comes first is let in, and stays pinned when another one comes at another port. -/
theorem isPinned_after_web1 :
    let web1 : Visit := ⟨"web1", 22, ⟨plainKey 1, "ssh-ed25519", by decide +kernel⟩⟩
    let db1 : Visit := ⟨"db-1.example.org", 2222, ⟨plainKey 2, "ssh-ed25519", by decide +kernel⟩⟩
    (∀ w ∈ [web1, db1], w.IsPlain) ∧ (web1.verify {} {}).1 = .ok true ∧
      web1.IsPinned {} (after {} {} [web1, db1]) ∧
      known {} {} <+: known {} (after {} {} [web1]) := by
  intro web1 db1
  have plain : ∀ w ∈ [web1, db1], w.IsPlain := by decide +kernel
  have accepted : (web1.verify {} {}).1.toOption = some true := by decide +kernel
  have verdict : (web1.verify {} {}).1 = .ok true := by
    cases same : (web1.verify {} {}).1 <;> simp_all [Except.toOption]
  have pinned := isPinned_after {} {} [] web1 [db1] plain
  exact ⟨plain, verdict, pinned.1 verdict, pinned.2⟩

end Visit

end Flotilla
