import Flotilla.Credential.Fingerprint
import Flotilla.Credential.Method
import Flotilla.Inventory.Basic

/-!
# The cache of methods

A `Cache` holds the methods of the servers of a session.  `Cache.resolve` fills it: there is a task
for each server, which goes through the server's credentials in order, and all tasks share what was
derived so far.  A credential that was derived once is not derived again, and while one task derives
it the others that need it wait for what comes of it; one that could not be derived is tried again
by whoever asks next.  In which order the tasks move on is up to a list of turns.
-/

namespace Flotilla

/-- How credentials become methods. -/
abbrev Derivation := Credential → Except String Method

/-- A method that servers have in common.  It is told from an equal one by its derivation. -/
structure SharedMethod where
  method : Method
  /-- The number of the derivation that made it. -/
  derivation : Nat
  deriving DecidableEq

/-- The methods that were derived so far.  There is room for 4096 of them; there are taken to be
fewer, so that none is dropped. -/
structure MethodStore where
  known : List (Credential.Key × SharedMethod) := []
  /-- How often a credential was derived, with or without success. -/
  derivations : Nat := 0

/-- How far a task is with its next credential. -/
inductive Stage where
  /-- It has not asked for it. -/
  | ready
  /-- It derives it, and this is the number of the derivation. -/
  | working (derivation : Nat)
  /-- Another task derives one with the same key. -/
  | waiting
  /-- That task has told what came of it. -/
  | told (outcome : Except String SharedMethod)

/-- The credentials of a server on their way to methods. -/
structure ResolvingTask where
  server : String
  pending : List Credential
  stage : Stage := .ready
  methods : List SharedMethod := []
  failures : List ConnectError := []

namespace ResolvingTask

/-- Goes on behind the next credential with what came of it. -/
def take (t : ResolvingTask) (outcome : Except String SharedMethod) : ResolvingTask :=
  match t.pending with
  | [] => t
  | c :: pending =>
    match outcome with
    | .ok m => { t with pending, stage := .ready, methods := t.methods ++ [m] }
    | .error reason =>
      let e := ConnectError.credential t.server c.kind reason
      { t with pending, stage := .ready, failures := t.failures ++ [e] }

/-- The key of the next credential. -/
def next? (env : Environment) (t : ResolvingTask) : Option Credential.Key :=
  t.pending.head?.map (·.key env)

/-- Whether the task derives its next credential. -/
def isWorking (t : ResolvingTask) : Bool :=
  match t.stage with
  | .working _ => true
  | _ => false

/-- Whether the task derives a credential with this key. -/
def worksOn (env : Environment) (key : Credential.Key) (t : ResolvingTask) : Bool :=
  t.isWorking && t.next? env = some key

/-- Tells a task that waits for a credential with this key what came of it. -/
def tell (env : Environment) (key : Credential.Key) (outcome : Except String SharedMethod)
    (t : ResolvingTask) : ResolvingTask :=
  match t.stage with
  | .waiting => if t.next? env = some key then { t with stage := .told outcome } else t
  | _ => t

end ResolvingTask

/-- A turn of the task in a place: it moves on with its next credential, or ends if there is none
left. -/
abbrev Turn := Nat

/-- Servers on their way to methods. -/
structure Resolving where
  store : MethodStore
  tasks : List ResolvingTask
  /-- The places of the tasks that have ended, in the order in which they did. -/
  ended : List Nat := []

namespace Resolving

/-- The task in place `i` asks for a credential with this key: it takes the method if that is known,
waits if another task derives it, and derives it otherwise. -/
def ask (env : Environment) (r : Resolving) (i : Nat) (t : ResolvingTask) (key : Credential.Key) :
    Resolving :=
  match r.store.known.lookup key with
  | some m => { r with tasks := r.tasks.set i (t.take (.ok m)) }
  | none =>
    if r.tasks.any (·.worksOn env key) then
      { r with tasks := r.tasks.set i { t with stage := .waiting } }
    else
      let derivations := r.store.derivations + 1
      { r with
        store := { r.store with derivations }
        tasks := r.tasks.set i { t with stage := .working derivations } }

/-- The task in place `i` has derived a credential: it keeps what came of it if that is a method,
and tells the tasks that wait for it. -/
def finish (derive : Derivation) (env : Environment) (r : Resolving) (i : Nat) (t : ResolvingTask)
    (c : Credential) (derivation : Nat) : Resolving :=
  let key := c.key env
  let outcome := (derive c).map fun method => { method, derivation : SharedMethod }
  let known := outcome.toOption.toList.map (key, ·) ++ r.store.known
  { r with
    store := { r.store with known }
    tasks := (r.tasks.set i (t.take outcome)).map (·.tell env key outcome) }

/-- What a turn does. -/
def step (derive : Derivation) (env : Environment) (r : Resolving) (i : Turn) : Resolving :=
  match r.tasks[i]? with
  | none => r
  | some t =>
    match t.pending, t.stage with
    | [], _ => if i ∈ r.ended then r else { r with ended := r.ended ++ [i] }
    | c :: _, .ready => r.ask env i t (c.key env)
    | c :: _, .working derivation => r.finish derive env i t c derivation
    | _ :: _, .waiting => r
    | _ :: _, .told outcome => { r with tasks := r.tasks.set i (t.take outcome) }

/-- What a row of turns does. -/
def run (derive : Derivation) (env : Environment) (r : Resolving) (turns : List Turn) : Resolving :=
  turns.foldl (step derive env) r

/-- Whether every task has ended. -/
def isFinished (r : Resolving) : Bool := (List.range r.tasks.length).all (· ∈ r.ended)

/-- The tasks that have ended, in the order in which they did. -/
def results (r : Resolving) : List ResolvingTask := r.ended.filterMap (r.tasks[·]?)

/-- Turns that let one task after the other go through all its credentials.  No more than two go
into one credential. -/
def inOrder (r : Resolving) : List Turn :=
  (r.tasks.zipIdx.map fun (t, i) => List.replicate (2 * t.pending.length + 1) i).flatten

end Resolving

/-- What came of resolving the credentials of servers. -/
structure ResolutionReport where
  /-- The servers with a method, at least one. -/
  resolved : List String := []
  /-- The servers without. -/
  excluded : List String := []
  failures : List (String × ConnectError) := []
  deriving DecidableEq

/-- The methods of the servers of a session. -/
structure Cache where
  store : MethodStore := {}
  servers : Table String (List SharedMethod) := .empty

namespace Cache

/-- The methods of a server in the order in which they are tried. -/
def methodsFor (c : Cache) (server : String) : Option (List Method) :=
  (c.servers.find? server).map (·.map (·.method))

/-- What is found out about the servers of a list before any credential is derived: the tasks, and
the report so far. -/
def plan (env : Environment) (inv : Inventory) (servers : List String) :
    List ResolvingTask × ResolutionReport :=
  servers.foldl
    (fun (tasks, report) name =>
      match inv.server name with
      | .error e =>
        (tasks, { report with
          failures := report.failures ++ [(name, e)], excluded := report.excluded ++ [name] })
      | .ok s =>
        let found := s.credentials env name
        (tasks ++ [{ server := name, pending := found.usable }],
          { report with failures := report.failures ++ found.failures.map (name, ·) }))
    ([], {})

/-- Takes up what came of the tasks in the order of the servers.  What came of a server is taken up
once. -/
def settle (found : Table String (List SharedMethod)) (c : Cache) (report : ResolutionReport) :
    List String → Cache × ResolutionReport
  | [] => (c, report)
  | name :: later =>
    match found.find? name with
    | none => settle found c report later
    | some [] =>
      settle (found.erase name) c { report with excluded := report.excluded ++ [name] } later
    | some methods =>
      settle (found.erase name) { c with servers := c.servers.insert name methods }
        { report with resolved := report.resolved ++ [name] } later

/-- The tasks for the servers of a list, which share what the cache has derived. -/
def start (env : Environment) (c : Cache) (inv : Inventory) (servers : List String) : Resolving :=
  { store := c.store, tasks := (plan env inv servers).1 }

/-- Takes up what came of the tasks for the servers of a list. -/
def collect (env : Environment) (c : Cache) (inv : Inventory) (servers : List String)
    (r : Resolving) : Cache × ResolutionReport :=
  let report := (plan env inv servers).2
  let failures := report.failures ++
    r.results.flatMap fun t => t.failures.map (t.server, ·)
  let found := r.results.foldl (fun found t => found.insert t.server t.methods) .empty
  settle found { c with store := r.store } { report with failures } servers

/-- Resolves the credentials of servers, the tasks taking turns as `turns` says. -/
def resolveBy (turns : Resolving → List Turn) (derive : Derivation) (env : Environment)
    (c : Cache) (inv : Inventory) (servers : List String) : Cache × ResolutionReport :=
  let start := c.start env inv servers
  c.collect env inv servers (start.run derive env (turns start))

/-- Resolves the credentials of servers, one server after the other. -/
def resolve (derive : Derivation) (env : Environment) (c : Cache) (inv : Inventory)
    (servers : List String) : Cache × ResolutionReport :=
  c.resolveBy Resolving.inOrder derive env inv servers

end Cache

end Flotilla
