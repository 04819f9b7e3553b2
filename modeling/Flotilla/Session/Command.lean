import Flotilla.Shell.Display

/-!
# Commands on servers

A command runs on a channel of its own.  What the server sends back goes to two streams, input is
sent on as it comes, and an interrupt ends the channel at once.  `Command.step` says what each turn
does, and `Command.acts` what happens to the streams in the end.
-/

namespace Flotilla

open Shell (Stream Shown Writer)

/-- What a server sends about a command. -/
inductive Reply where
  | output (data : Bytes)
  /-- Data of another kind.  Errors are of kind 1. -/
  | extended (kind : Nat) (data : Bytes)
  | exitStatus (status : Nat)
  | exitSignal (signal : String)
  /-- Anything else. -/
  | other
  deriving Repr, DecidableEq

/-- What a server is told about a command. -/
inductive Notice where
  | input (data : Bytes)
  | endOfInput
  | interrupt
  | close
  deriving Repr, DecidableEq

/-- A command on a server. -/
structure Command where
  notices : List Notice := []
  /-- What happened to the streams. -/
  shown : List (Stream × Shown.Act) := []
  status : Option Nat := none
  /-- Whether its input may go on. -/
  reads : Bool := true
  running : Bool := true
  deriving Repr, DecidableEq

/-- The kind of extended data that holds errors. -/
def Reply.errorKind : Nat := 1

namespace Command

/-- Something that a command meets next. -/
inductive Turn where
  | reply (reply : Reply)
  /-- Output that the stream refuses, as nobody reads it any more. -/
  | refused (data : Bytes)
  /-- The end of the channel. -/
  | closed
  /-- A chunk of input, or its end. -/
  | input (chunk : Option Bytes)
  | interrupt
  deriving Repr, DecidableEq

/-- Tells the server something. -/
def tell (c : Command) (n : Notice) : Command := { c with notices := c.notices ++ [n] }

/-- Writes on a stream. -/
def write (c : Command) (stream : Stream) (data : Bytes) : Command :=
  if data = [] then c else { c with shown := c.shown ++ [(stream, .write data)] }

/-- Takes up what the server sends. -/
def take (c : Command) : Reply → Command
  | .output data => c.write .out data
  | .extended kind data => if kind = Reply.errorKind then c.write .err data else c
  | .exitStatus status => { c with status := some status }
  | .exitSignal _ | .other => c

/-- What a turn does to a command. -/
def step (c : Command) (t : Turn) : Command :=
  if ! c.running then c
  else match t with
    | .reply r => c.take r
    | .refused _ => { c.tell .close with running := false }
    | .closed => { c with running := false }
    | .input (some data) => if c.reads then c.tell (.input data) else c
    | .input none => if c.reads then { c.tell .endOfInput with reads := false } else c
    | .interrupt => { (c.tell .interrupt).tell .close with running := false }

/-- What a list of turns does to a command. -/
def steps (c : Command) (l : List Turn) : Command := l.foldl step c

/-- All that happens to the streams of a command that has ended: its output is completed, and its
errors are flushed. -/
def acts (c : Command) : List (Stream × Shown.Act) :=
  c.shown ++ [(.out, .shutdown), (.err, .flush)]

/-- What a command that has ended shows through its two writers. -/
def shownBy (out err : Writer) (c : Command) : List Shown :=
  c.acts.map fun (stream, act) =>
    match stream with
    | .out => ⟨out, act⟩
    | .err => ⟨err, act⟩

/-- A command whose server sends replies until the channel ends. -/
def answered (replies : List Reply) : Command :=
  ({} : Command).steps (replies.map .reply ++ [.closed])

end Command

end Flotilla
