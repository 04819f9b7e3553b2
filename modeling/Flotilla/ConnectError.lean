import Flotilla.Credential.Kind
import Flotilla.IoFault
import Flotilla.Text.Quoted

/-!
# Failures to connect

`ConnectError` names the cause of a failure on the way to a live connection or on the connection
itself, and `ConnectError.message` words it for the user.
-/

namespace Flotilla

/-- Why a connection, or something on the way to it, failed. -/
inductive ConnectError where
  /-- A server that is not configured. -/
  | unknownServer (name : String)
  /-- A proxy service that is not configured. -/
  | unknownProxy (name : String)
  /-- The proxies of `target` lead back to `name`. -/
  | proxyLoop (target name : String)
  /-- A text that describes no host. -/
  | invalidHost (spec : String)
  /-- A configured credential that cannot be read or used. -/
  | credential (server : String) (kind : Credential.Kind) (reason : String)
  /-- A server without a usable way to authenticate. -/
  | noMethods (server : String)
  /-- No answer in time. -/
  | timeout (what : String)
  /-- A server that rejected every method offered. -/
  | authenticationRejected (server : String)
  /-- A server whose host key did not pass the check. -/
  | hostKeyRejected (server : String)
  /-- A proxy that did not open a tunnel. -/
  | proxyRefused (proxy reason : String)
  /-- Not one of this many targets could be connected. -/
  | allTargetsFailed (count : Nat)
  /-- A fault of the SSH protocol. -/
  | ssh (reason : String)
  /-- A key that cannot be used. -/
  | key (reason : String)
  /-- A fault of the SOCKS protocol. -/
  | socks (reason : String)
  /-- A fault of the operating system. -/
  | io (fault : IoFault)
  /-- A fault of the program itself. -/
  | internal (reason : String)
  deriving Repr, DecidableEq

namespace ConnectError

/-- The text shown for a failure. -/
def message : ConnectError → String
  | .unknownServer name => s!"server {name} is not defined in the configuration"
  | .unknownProxy name => s!"proxy {name} is not defined in the configuration"
  | .proxyLoop target name => s!"proxy chain of {target} revisits {name}"
  | .invalidHost spec => "invalid host specification " ++ Text.quoted spec
  | .credential server kind reason => s!"credential {kind.label} for {server}: {reason}"
  | .noMethods server => s!"no usable authentication method for {server}"
  | .timeout what => s!"connection to {what} timed out"
  | .authenticationRejected server => s!"authentication rejected by {server}"
  | .hostKeyRejected server => s!"host key of {server} rejected"
  | .proxyRefused proxy reason => s!"proxy {proxy} refused tunnel: {reason}"
  | .allTargetsFailed count => s!"all {count} target(s) failed to connect"
  | .ssh reason => "russh error: " ++ reason
  | .key reason => "key error: " ++ reason
  | .socks reason => "socks error: " ++ reason
  | .io fault => "io error: " ++ fault.message
  | .internal reason => "internal error: " ++ reason

end ConnectError

end Flotilla
