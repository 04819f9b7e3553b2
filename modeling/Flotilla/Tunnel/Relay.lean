import Flotilla.ConnectError
import Flotilla.Text.ShellWords

/-!
# Relay commands

A relay command runs on this machine and carries the connection over its input and output.
`Relay.expand` puts the target into its template, and `Relay.words` cuts the result into words.
-/

namespace Flotilla.Relay

/-- A template with the host in the place of `%h`, the port in that of `%p`, and a percent sign in
that of `%%`.  Other percent signs stay. -/
def expand (host : List Char) (port : UInt16) : List Char → List Char
  | [] => []
  | '%' :: 'h' :: r => host ++ expand host port r
  | '%' :: 'p' :: r => (toString port.toNat).toList ++ expand host port r
  | '%' :: '%' :: r => '%' :: expand host port r
  | c :: r => c :: expand host port r

/-- The fault of a template that is no command. -/
def invalid (template : String) : ConnectError :=
  .proxyRefused template "invalid relay command"

/-- The words of an expanded template, of which there may be none. -/
def cut (template host : String) (port : UInt16) : Except ConnectError (List String) :=
  match ShellWords.split (expand host.toList port template.toList) with
  | none => .error (invalid template)
  | some words => .ok (words.map String.ofList)

/-- The words of a relay command, at least one.  A template that yields none is refused under its
own text. -/
def words (template host : String) (port : UInt16) : Except ConnectError (List String) := do
  let words ← cut template host port
  if words = [] then throw (invalid template)
  return words

end Flotilla.Relay
