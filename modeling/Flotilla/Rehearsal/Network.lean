import Flotilla.Connect.Network
import Flotilla.Rehearsal.Posix.Interpreter

/-!
# A rehearsed network

A machine that is cut off from every network, its own addresses included.  Relay commands can be
started, but nobody answers at their far end.
-/

namespace Flotilla.Rehearsal

/-- Reads a part of a numeric address: decimal, octal behind a zero, or hexadecimal behind `0x`. -/
def readAddressPart? (s : List Char) : Option Nat :=
  let value (base : Nat) (digits : List Char) : Option Nat :=
    let digit? (c : Char) : Option Nat :=
      (Hex.value? c).filter (· < base)
    if digits = [] then none
    else digits.foldl (fun n c => do return (← n) * base + (← digit? c)) (some 0)
  match s with
  | '0' :: 'x' :: r | '0' :: 'X' :: r => value 16 r
  | '0' :: d :: r => value 8 (d :: r)
  | s => value 10 s

/-- Whether a host is a numeric address of four bytes. -/
def isNumeric (host : String) : Bool :=
  let parts := (host.splitOn ".").map (readAddressPart? ·.toList)
  parts.length ≤ 4 && parts.all (·.isSome) &&
    (parts.dropLast.all fun n => n.getD 0 < 256) &&
    (parts.getLastD none).getD 0 < Nat.pow 256 (5 - parts.length)

/-- Reads groups of hexadecimal digits.  Each has four digits at most, and the last of them may be
an address of four bytes, which counts for two. -/
def readGroups? (s : String) : Option (List Nat) :=
  if s = "" then some []
  else
    let groups := s.splitOn ":"
    let group? (g : String) : Option Nat :=
      if g.length = 0 ∨ 4 < g.length then none
      else g.toList.foldl (fun n c => do return (← n) * 16 + (← Hex.value? c)) (some 0)
    match groups.getLast?.map (·.splitOn ".") with
    | some (a :: b :: c :: d :: []) => do
      let bytes ← [a, b, c, d].mapM fun p => (Text.readNat? p.toList).filter (· < 256)
      let front ← groups.dropLast.mapM group?
      match bytes with
      | [a, b, c, d] => return front ++ [a * 256 + b, c * 256 + d]
      | _ => none
    | _ => groups.mapM group?

/-- The eight groups of an address of sixteen bytes. -/
def readLongAddress? (host : String) : Option (List Nat) :=
  match host.splitOn "::" with
  | [whole] => (readGroups? whole).filter (·.length = 8)
  | [front, back] => do
    let front ← readGroups? front
    let back ← readGroups? back
    if 8 ≤ front.length + back.length then none
    else return front ++ List.replicate (8 - front.length - back.length) 0 ++ back
  | _ => none

/-- Why a host cannot be reached. -/
def isolation (host : String) : IoFault :=
  if host.contains '\x00' then .zeroByte
  else if isNumeric host ∨ host = "localhost" then .unreachable
  else if host.contains ':' then
    match readLongAddress? host with
    | none => .noHostName
    | some groups =>
      if groups.take 7 = List.replicate 7 0 ∧ groups.getLastD 0 ≤ 1 then .notAvailable
      else if 0xfe80 ≤ groups.headD 0 ∧ groups.headD 0 < 0xfec0 then .invalidArgument
      else .unreachable
  else if host = "" ∨ host.toList.any (Text.isBlank ·) then .noHostName
  else .unresolved

/-- A network that is not there. -/
def isolated (files : Files) : Network where
  dial host _ := .error (.io (isolation host))
  encrypt _ _ := .error (.io .unreachable)
  socks _ _ _ := .error (.io .unreachable)
  start words := do
    if words.any (·.contains '\x00') then throw .zeroByte
    discard (Posix.findProgram files (words.headD ""))
    return { answer := fun _ => some [] }
  tunnel _ _ _ := .error (.ssh "Disconnected")
  login _ _ := .error (.ssh "Disconnected")

end Flotilla.Rehearsal
