import Flotilla.Inventory.Server
import Flotilla.Text.Decimal

/-!
# Hosts described in a line

`parseAdhoc` reads `user@host:port`, where the user and the port may be missing and an address with
colons stands in brackets.
-/

namespace Flotilla

/-- What a host description names. -/
structure HostSpec where
  user : Option (List Char)
  host : List Char
  port : Option Nat
  deriving Repr, DecidableEq

namespace HostSpec

/-- The characters of a user name. -/
def isUserChar (c : Char) : Bool := c ≠ '@' && ! Text.isBlank c

/-- The characters of a host name. -/
def isHostChar (c : Char) : Bool := c ∉ [':', '@', '[', ']'] && ! Text.isBlank c

/-- The characters of an address in brackets. -/
def isAddressChar (c : Char) : Bool :=
  c.isDigit || ('a' ≤ c && c ≤ 'f') || ('A' ≤ c && c ≤ 'F') || c = ':' || c = '.'

/-- Ports are 16 bits wide. -/
def portBound : Nat := Nat.pow 2 16

/-- Reads what follows the host: nothing, or a colon and a port. -/
def readPort? : List Char → Option (Option Nat)
  | [] => some none
  | ':' :: digits => ((Text.readNat? digits).filter (· < portBound)).map some
  | _ => none

/-- Reads a host and the port after it. -/
def readHost? (s : List Char) : Option (List Char × Option Nat) :=
  match s with
  | '[' :: r =>
    match r.span isAddressChar with
    | ([], _) => none
    | (addr, ']' :: rest) => (readPort? rest).map (addr, ·)
    | _ => none
  | s =>
    match s.span isHostChar with
    | ([], _) => none
    | (host, rest) => (readPort? rest).map (host, ·)

/-- Reads a host description. -/
def read? (s : List Char) : Option HostSpec :=
  match s.span isUserChar with
  | (user, '@' :: rest) =>
    if user = [] then none
    else (readHost? rest).map fun (host, port) => ⟨some user, host, port⟩
  | _ => (readHost? s).map fun (host, port) => ⟨none, host, port⟩

end HostSpec

/-- The server that a line describes.  Blanks around the description do not count. -/
def parseAdhoc (spec : String) : Except ConnectError Server :=
  match HostSpec.read? (Text.trim spec.toList) with
  | none => .error (.invalidHost spec)
  | some d =>
    .ok {
      addr := some (String.ofList d.host)
      port := d.port.map UInt16.ofNat
      user := d.user.map String.ofList }

end Flotilla
