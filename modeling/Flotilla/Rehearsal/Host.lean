import Flotilla.Rehearsal.Move
import Flotilla.Text.Decimal
import Flotilla.Text.Hex

/-!
# Rehearsed hosts

A rehearsed host understands commands of the form `VERB REST`.  `hostScript` says what a host does
with each.
-/

namespace Flotilla.Rehearsal

/-- The two parts of a text around its first space. -/
def splitVerb (s : String) : String × String :=
  let l := s.toList
  (String.ofList (l.takeWhile (· ≠ ' ')), String.ofList ((l.dropWhile (· ≠ ' ')).drop 1))

/-- Ends both streams. -/
def close : List Move := [.shutdown .out, .shutdown .err]

/-- Does something, ends both streams and succeeds. -/
def succeed (moves : List Move) : Performance := ⟨moves ++ close, .ends (.ok (some 0))⟩

/-- Reads all input and then does something. -/
def afterInput (scene : Scene) (f : Bytes → List Move) : Performance :=
  let reads := scene.input.map fun _ => Move.read
  if scene.isComplete then succeed (reads ++ f scene.input.flatten) else ⟨reads, .hungry⟩

/-- Copies chunks of the input, at most `limit` of them if there is a limit. -/
def copy (scene : Scene) (limit : Option Nat) : Performance :=
  let chunks := match limit with
    | some n => scene.input.take n
    | none => scene.input
  let moves := chunks.flatMap fun c => [Move.read, .write c]
  if scene.isComplete || limit == some chunks.length then succeed moves else ⟨moves, .hungry⟩

/-- A byte with an ASCII letter in upper case. -/
def upperByte (b : UInt8) : UInt8 := if 97 ≤ b ∧ b ≤ 122 then b - 32 else b

/-- Reads an exit status. -/
def readStatus? (s : String) : Option Nat := Text.readBelow? (Nat.pow 2 32) s.toList

/-- Prints a line. -/
def sayLine (s : String) : Move := .write (utf8 (s ++ "\n"))

/-- What host `name` does with a command that names no other host. -/
def verbScript (name command : String) : Script := fun scene =>
  let (verb, rest) := splitVerb command
  match verb with
  | "cat" => copy scene none
  | "take" => copy scene (some ((Text.readNat? rest.toList).getD 0))
  | "count" => afterInput scene fun data => [sayLine s!"{name}: {data.length} bytes"]
  | "upper" => afterInput scene fun data => [.write (data.map upperByte)]
  | "hostname" => succeed [sayLine name]
  | "say" => succeed [sayLine rest]
  | "raw" => succeed [.write ((Hex.decode? rest).getD [])]
  | "partial" => succeed [.write (utf8 rest), .flush .out, .write (utf8 "+")]
  | "noshut" => ⟨[.write (utf8 rest)], .ends (.ok (some 0))⟩
  | "err" => succeed [.complain (utf8 (rest ++ "\n"))]
  | "fail" =>
    ⟨.complain (utf8 "boom\n") :: close, .ends (.ok (some ((readStatus? rest).getD 1)))⟩
  | "code" => ⟨close, .ends (.ok (readStatus? rest))⟩
  | "none" => ⟨sayLine rest :: close, .ends (.ok none)⟩
  | "reject" => ⟨[], .ends (.error (.internal rest))⟩
  | "timeout" => ⟨[], .ends (.error (.timeout name))⟩
  | "block" =>
    if scene.interrupted then ⟨.complain (utf8 "stopped\n") :: close, .ends (.ok none)⟩
    else ⟨[], .blocked⟩
  | _ => succeed [sayLine (name ++ " " ++ command)]

/-- What host `name` does with a command.  `on HOST COMMAND` is meant for one host only. -/
def hostScript (fuel : Nat) (name command : String) : Script :=
  match fuel, splitVerb command with
  | fuel + 1, ("on", rest) =>
    match splitVerb rest with
    | (host, inner) =>
      if inner = "" then verbScript name command
      else if host = name then hostScript fuel name inner
      else fun _ => succeed []
  | _, _ => verbScript name command

end Flotilla.Rehearsal
