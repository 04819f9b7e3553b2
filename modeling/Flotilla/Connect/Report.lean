import Flotilla.Connect.Network
import Flotilla.Credential.Cache

/-!
# Connecting many targets

All targets are dialled at once, and the report takes up what came of each as it comes in.
-/

namespace Flotilla

/-- What came of connecting targets. -/
structure ConnectReport where
  /-- The connections, in the order of the targets. -/
  connected : List Connection := []
  failures : List (String × ConnectError) := []
  /-- The credentials that could not be used. -/
  credentialFailures : List (String × ConnectError) := []
  deriving DecidableEq

namespace ConnectReport

/-- Takes up what came of dialling a target. -/
def add (r : ConnectReport) (outcome : String × Except ConnectError Connection) : ConnectReport :=
  match outcome with
  | (_, .ok c) => { r with connected := r.connected ++ [c] }
  | (target, .error e) => { r with failures := r.failures ++ [(target, e)] }

/-- The place of a name in a list, or its end. -/
def place (targets : List String) (name : String) : Nat := targets.idxOf name

/-- Puts the connections in the order of the targets. -/
def sorted (targets : List String) (r : ConnectReport) : ConnectReport :=
  { r with
    connected := r.connected.mergeSort fun a b => place targets a.name ≤ place targets b.name }

/-- The report on targets, of which those without a route were not dialled.  `outcomes` holds what
came of the others, in the order in which it came in.  It is a failure if no target could be
connected. -/
def collect (targets : List String)
    (routeFailures credentialFailures : List (String × ConnectError))
    (outcomes : List (String × Except ConnectError Connection)) :
    Except ConnectError ConnectReport :=
  let report := outcomes.foldl add { failures := routeFailures, credentialFailures }
  let report := report.sorted targets
  if report.connected = [] ∧ targets ≠ [] then .error (.allTargetsFailed targets.length)
  else .ok report

/-- The targets that are dialled: all but those without a route. -/
def dialled (targets : List String) (routeFailures : List (String × ConnectError)) : List String :=
  targets.filter fun t => t ∉ routeFailures.map (·.1)

end ConnectReport

end Flotilla
