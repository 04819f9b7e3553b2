import Flotilla.Shell.LineWriter
import Flotilla.Table

/-!
# What is shown

Whatever a statement shows goes through writers, each on one stream for one host.  `Shown` is one
thing that happens to a writer.  From a list of them, `captured` collects each host's text, and
`terminal` the text of a terminal that shows them line by line.
-/

namespace Flotilla.Shell

/-- The two streams of a terminal. -/
inductive Stream where
  | out
  | err
  deriving Repr, DecidableEq

/-- A writer that shows text. -/
structure Writer where
  /-- Tells writers apart. -/
  id : Nat
  stream : Stream
  host : String
  /-- Whether lines carry the host's name. -/
  tagged : Bool
  deriving Repr, DecidableEq

/-- What happens to a writer. -/
inductive Shown.Act where
  | write (data : Bytes)
  | flush
  | shutdown
  deriving Repr, DecidableEq

/-- Something that happens to a writer. -/
structure Shown where
  writer : Writer
  act : Shown.Act
  deriving Repr, DecidableEq

namespace Shown

/-- Adds what is written to the text of its host. -/
def collect (stream : Stream) (t : Table String Bytes) (s : Shown) : Table String Bytes :=
  match s.act with
  | .write data =>
    if s.writer.stream = stream then
      t.insert s.writer.host (((t.find? s.writer.host).getD []) ++ data)
    else t
  | _ => t

/-- The text that each host wrote on a stream. -/
def captured (stream : Stream) (l : List Shown) : Table String Bytes :=
  l.foldl (collect stream) .empty

/-- What a terminal holds: the text on both streams, and the writers by their numbers. -/
structure Terminal where
  out : Bytes := []
  err : Bytes := []
  writers : Table Nat LineWriter := .empty

/-- Applies something that happens to a line writer. -/
def Act.apply (a : Act) (w : LineWriter) : LineWriter × List Bytes :=
  match a with
  | .write data => w.write data
  | .flush => w.flush
  | .shutdown => w.shutdown

/-- Shows something on a terminal. -/
def Terminal.show (t : Terminal) (s : Shown) : Terminal :=
  let tag := if s.writer.tagged then some (LineWriter.hostTag s.writer.host) else none
  let (w, emissions) := s.act.apply ((t.writers.find? s.writer.id).getD { tag })
  let t := { t with writers := t.writers.insert s.writer.id w }
  match s.writer.stream with
  | .out => { t with out := t.out ++ emissions.flatten }
  | .err => { t with err := t.err ++ emissions.flatten }

/-- The text on a terminal. -/
def terminal (l : List Shown) : Terminal := l.foldl .show {}

end Shown

end Flotilla.Shell
