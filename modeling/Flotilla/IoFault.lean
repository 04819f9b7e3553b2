/-!
# Faults of input and output

The ways in which the operating system, or a pipe inside the program, refuses to read or write.
-/

namespace Flotilla

/-- Why reading, writing or starting something failed. -/
inductive IoFault where
  | missing
  | denied
  | taken
  | notDirectory
  | isDirectory
  | invalidArgument
  | unreachable
  | notAvailable
  | refused
  /-- A host name that nobody could be asked about. -/
  | unresolved
  /-- A text that is no host name. -/
  | noHostName
  /-- A file that should hold text and does not. -/
  | notText
  /-- A stream that ends within what should be read. -/
  | cutShort
  /-- A pipe that nobody reads any more. -/
  | brokenPipe
  /-- A zero byte in the name of a program or in what it is given. -/
  | zeroByte
  deriving Repr, DecidableEq

/-- The text of a fault. -/
def IoFault.message : IoFault → String
  | .missing => "No such file or directory (os error 2)"
  | .denied => "Permission denied (os error 13)"
  | .taken => "File exists (os error 17)"
  | .notDirectory => "Not a directory (os error 20)"
  | .isDirectory => "Is a directory (os error 21)"
  | .invalidArgument => "Invalid argument (os error 22)"
  | .unreachable => "Network is unreachable (os error 101)"
  | .notAvailable => "Cannot assign requested address (os error 99)"
  | .unresolved =>
    "failed to lookup address information: Temporary failure in name resolution"
  | .noHostName => "failed to lookup address information: Name or service not known"
  | .refused => "Connection refused (os error 111)"
  | .notText => "stream did not contain valid UTF-8"
  | .cutShort => "early eof"
  | .brokenPipe => "broken pipe"
  | .zeroByte => "nul byte found in provided data"

end Flotilla
