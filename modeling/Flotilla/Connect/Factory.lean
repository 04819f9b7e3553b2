import Flotilla.Connect.Adhoc
import Flotilla.Connect.Dial
import Flotilla.Connect.Report
import Flotilla.Settings

/-!
# Making connections

A `Factory` makes connections to the servers of an inventory.  Credentials are resolved once by
`prepare` and shared by all connections.
-/

namespace Flotilla

/-- What makes connections. -/
structure Factory where
  inventory : Inventory
  cache : Cache := {}
  settings : ConnectSettings := {}

/-- What came of preparing for targets. -/
structure Preparation where
  resolution : ResolutionReport
  /-- The targets without a route. -/
  routeFailures : List (String × ConnectError)

namespace Factory

/-- Resolves the credentials of targets and of all servers on their routes. -/
def prepare (f : Factory) (m : Machine) (targets : List String) : Factory × Preparation :=
  let scope := f.inventory.authScope targets
  let (cache, resolution) :=
    f.cache.resolve (Credential.derive m) m.env f.inventory scope.servers
  ({ f with cache }, { resolution, routeFailures := scope.failures })

/-- Dials a server whose credentials were resolved. -/
def connect (f : Factory) (net : Network) (env : Environment) (name : String) :
    Attempt Connection :=
  f.inventory.connect net env f.cache name

/-- What came of dialling, if there is an end to it. -/
def outcomes (f : Factory) (net : Network) (env : Environment) :
    List String → Option (List (String × Except ConnectError Connection))
  | [] => some []
  | target :: later => do
    let r ← (f.connect net env target).result
    let rs ← outcomes f net env later
    return (target, r) :: rs

/-- Connects targets, unless there is no end to it. -/
def connectAll (f : Factory) (net : Network) (m : Machine) (targets : List String) :
    Factory × Option (Except ConnectError ConnectReport) :=
  let (f, p) := f.prepare m targets
  let dialled := ConnectReport.dialled targets p.routeFailures
  (f, (f.outcomes net m.env dialled).map
    (ConnectReport.collect targets p.routeFailures p.resolution.failures))

/-- Lets a call do the next thing on the inventory. -/
def advance (f : Factory) (c : AdhocCall) : AdhocCall × Factory :=
  let (c, inventory) := c.next f.inventory
  (c, { f with inventory })

/-- Dials a described host that is in the inventory. -/
def dialAdhoc (f : Factory) (net : Network) (m : Machine) (name : String) :
    Factory × Option (Except ConnectError Connection) :=
  let f := if (f.cache.methodsFor name).isSome then f else (f.prepare m [name]).1
  (f, (f.connect net m.env name).result)

/-- Connects a host that is described in a line, unless there is no end to it. -/
def connectAdhoc (f : Factory) (net : Network) (m : Machine) (spec : String) (persist : Bool) :
    Factory × Option (Except ConnectError Connection) :=
  let (c, f) := f.advance (.ofSpec spec persist)
  let (c, f) := f.advance c
  match c.stage with
  | .entered _ =>
    match f.dialAdhoc net m c.name with
    | (f, none) => (f, none)
    | (f, some outcome) =>
      let (c, f) := f.advance (c.dial outcome)
      (f, c.result?)
  | _ => (f, c.result?)

end Factory

end Flotilla
