import Flotilla.Connect.Network
import Flotilla.Inventory.Adhoc

/-!
# Connecting hosts that are not configured

A host that is described in a line is put into the inventory while it is being connected, and stays
there if that is wanted and the connection came about.  A call goes through stages, between which
other calls may do something.
-/

namespace Flotilla

/-- How far a call has come. -/
inductive AdhocStage where
  /-- Nothing has been done. -/
  | fresh
  /-- The inventory was asked whether it knows the host. -/
  | looked (known : Bool)
  /-- The host is in the inventory. -/
  | entered (known : Bool)
  /-- The host was dialled. -/
  | dialled (known : Bool) (result : Except ConnectError Connection)
  | ended (result : Except ConnectError Connection)

/-- A call to connect a host. -/
structure AdhocCall where
  name : String
  /-- Whether the host is to stay in the inventory. -/
  persist : Bool
  stage : AdhocStage := .fresh

namespace AdhocCall

/-- A call for a described host.  Blanks around the description do not count. -/
def ofSpec (spec : String) (persist : Bool) : AdhocCall :=
  { name := String.ofList (Text.trim spec.toList), persist }

/-- The entry of a described host: the defaults apply, and its secrets are obfuscated. -/
def entry (inv : Inventory) (name : String) : Except ConnectError Server := do
  let s ← parseAdhoc name
  match (s.inheritFrom inv.common).sealSecrets name with
  | (_, some e) => throw e
  | (s, none) => return s

/-- Whether the entry of a host that was not known is taken back. -/
def isForgotten (c : AdhocCall) (known : Bool) (result : Except ConnectError Connection) : Bool :=
  ! known && (! c.persist || result.toOption.isNone)

/-- Does the next thing, unless that is to dial the host. -/
def next (c : AdhocCall) (inv : Inventory) : AdhocCall × Inventory :=
  match c.stage with
  | .fresh => ({ c with stage := .looked (inv.knows c.name) }, inv)
  | .looked true => ({ c with stage := .entered true }, inv)
  | .looked false =>
    match entry inv c.name with
    | .error e => ({ c with stage := .ended (.error e) }, inv)
    | .ok s => ({ c with stage := .entered false }, inv.remember c.name s)
  | .dialled known result =>
    ({ c with stage := .ended result },
      if c.isForgotten known result then inv.forget c.name else inv)
  | .entered _ | .ended _ => (c, inv)

/-- Takes up what dialling the host came to, if that is next. -/
def dial (c : AdhocCall) (outcome : Except ConnectError Connection) : AdhocCall :=
  match c.stage with
  | .entered known => { c with stage := .dialled known outcome }
  | _ => c

/-- What a call that has ended came to. -/
def result? (c : AdhocCall) : Option (Except ConnectError Connection) :=
  match c.stage with
  | .ended r => some r
  | _ => none

end AdhocCall

/-- Calls that run side by side on one inventory. -/
structure AdhocCalls where
  inventory : Inventory
  calls : List AdhocCall

/-- A turn of the call in a place. -/
inductive AdhocTurn where
  /-- It does the next thing other than dialling. -/
  | next (call : Nat)
  /-- It dials its host, which comes to this. -/
  | dial (call : Nat) (outcome : Except ConnectError Connection)

namespace AdhocCalls

/-- What a turn does. -/
def step (s : AdhocCalls) : AdhocTurn → AdhocCalls
  | .next i =>
    match s.calls[i]? with
    | none => s
    | some c =>
      let (c, inventory) := c.next s.inventory
      { inventory, calls := s.calls.set i c }
  | .dial i outcome => { s with calls := s.calls.modify i (·.dial outcome) }

/-- Lets calls take turns. -/
def steps (s : AdhocCalls) (turns : List AdhocTurn) : AdhocCalls := turns.foldl step s

/-- Whether every call has ended. -/
def isFinished (s : AdhocCalls) : Bool := s.calls.all (·.result?.isSome)

end AdhocCalls

end Flotilla
