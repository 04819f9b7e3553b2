import Flotilla.Rehearsal.Move
import Flotilla.Rehearsal.Machine

/-!
# Rehearsed commands on this machine

`localScript` says what the shell of this machine does with a command text.
-/

namespace Flotilla.Rehearsal

/-- How many bytes are carried at once from a command on this machine. -/
def copySize : Nat := 8192

/-- Cuts bytes into chunks. -/
def chunks (fuel : Nat) (data : Bytes) : List Bytes :=
  match fuel, data with
  | 0, _ | _, [] => []
  | fuel + 1, data => data.take copySize :: chunks fuel (data.drop copySize)

/-- Joins output that follows each other without a rest. -/
def joinEffects : List Posix.Effect → List Posix.Effect
  | .out a :: r =>
    match joinEffects r with
    | .out b :: r => .out (a ++ b) :: r
    | r => .out a :: r
  | e :: r => e :: joinEffects r
  | [] => []

/-- The moves of an effect.  What is carried over is flushed before more of it is awaited. -/
def movesOf : Posix.Effect → List Move
  | .out data => (chunks (data.length + 1) data).map Move.write ++ [.flush .out]
  | .err data => [.complain data, .flush .err]
  | .rest time => [.rest time]
  | .touch files => [.touch files]

/-- What this machine's shell does with a command.  An interrupt kills it. -/
def localScript (env : Environment) (command : String) : Script := fun scene =>
  let process : Posix.Process := {
    bindings := bindings env
    input := scene.input.flatten
    inputComplete := scene.isComplete
    files := scene.files }
  let (effects, exit) := process.run command
  let moves := (joinEffects effects).flatMap movesOf
  match exit with
  | .status n => ⟨moves ++ [.shutdown .out, .shutdown .err], .ends (.ok (some n))⟩
  | .killed _ => ⟨moves ++ [.shutdown .out, .shutdown .err], .ends (.ok none)⟩
  | .hungry => ⟨moves, .hungry⟩

end Flotilla.Rehearsal
