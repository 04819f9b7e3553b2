import Flotilla.ConnectError
import Flotilla.Files
import Flotilla.Shell.Display

/-!
# Performances

A rehearsed task does not run anywhere: a script says what it does once its input is known.  More
input only adds to what it does.
-/

namespace Flotilla.Rehearsal

/-- One thing that a task does. -/
inductive Move where
  | write (data : Bytes)
  | complain (data : Bytes)
  | flush (stream : Shell.Stream)
  | shutdown (stream : Shell.Stream)
  /-- It reads the next chunk of its input. -/
  | read
  /-- It changes files. -/
  | touch (files : Files)
  /-- It rests for some milliseconds. -/
  | rest (time : Nat)

/-- How far a task comes. -/
inductive Ending where
  | ends (result : Except ConnectError (Option Nat))
  /-- It needs more input, or the end of it. -/
  | hungry
  /-- It waits to be interrupted. -/
  | blocked

/-- What a task does. -/
structure Performance where
  moves : List Move
  ending : Ending

/-- What a task finds. -/
structure Scene where
  /-- The chunks of its input so far. -/
  input : List Bytes
  /-- Whether they are all. -/
  isComplete : Bool
  interrupted : Bool
  files : Files

/-- What a task does in each scene. -/
abbrev Script := Scene → Performance

end Flotilla.Rehearsal
