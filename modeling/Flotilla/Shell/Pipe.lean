import Flotilla.Text.Utf8

/-!
# Pipes

A pipe joins the writers of one segment to the readers of the next.  What the writers put in is
carried to every reader, chunk by chunk and in order.  A reader that has hung up is noticed when the
next chunk is carried to it; once nobody is left the pipe carries nothing more, and only then are
writes refused.
-/

namespace Flotilla.Shell

/-- The reading end of a pipe, or of the live input. -/
structure Reader where
  /-- The chunks that were brought to the reader and wait to be read. -/
  waiting : List Bytes := []
  /-- Whether the reader still listens. -/
  listening : Bool := true
  /-- Whether more may be brought to it. -/
  fed : Bool := true
  deriving Repr, DecidableEq

namespace Reader

/-- Brings a chunk.  A reader that does not listen is fed no more. -/
def bring (r : Reader) (chunk : Bytes) : Reader :=
  if ! r.fed then r
  else if r.listening then { r with waiting := r.waiting ++ [chunk] }
  else { r with fed := false }

/-- Ends what is brought to the reader. -/
def starve (r : Reader) : Reader := { r with fed := false }

/-- Reads the next chunk if one waits. -/
def read (r : Reader) : Reader := { r with waiting := r.waiting.drop 1 }

/-- Stops listening. -/
def hangUp (r : Reader) : Reader := { r with listening := false, waiting := [] }

/-- Whether the reader sees the end of its input. -/
def isAtEnd (r : Reader) : Bool := r.waiting.isEmpty && ! r.fed

end Reader

/-- A pipe between two segments. -/
structure Pipe where
  /-- How many writers have not finished. -/
  writers : Nat
  readers : List Reader
  /-- Chunks that were put in and not yet carried on. -/
  chunks : List Bytes := []
  /-- Whether the pipe still carries chunks. -/
  carries : Bool := true
  deriving Repr, DecidableEq

namespace Pipe

/-- A pipe with this many writers that nobody has been joined to. -/
def loose (writers : Nat) : Pipe := { writers, readers := [], carries := false }

/-- Joins readers to a pipe.  Without any, it carries nothing. -/
def join (p : Pipe) (readers : Nat) : Pipe :=
  { p with readers := List.replicate readers {}, carries := readers ≠ 0 }

/-- Puts a chunk in, if the pipe carries it. -/
def write (p : Pipe) (chunk : Bytes) : Pipe :=
  if p.carries then { p with chunks := p.chunks ++ [chunk] } else p

/-- Stops carrying. -/
def stop (p : Pipe) : Pipe :=
  { p with readers := p.readers.map .starve, chunks := [], carries := false }

/-- Carries one chunk to every reader, or the end if all writers have finished. -/
def carry (p : Pipe) : Pipe :=
  if ! p.carries then p
  else match p.chunks with
    | chunk :: later =>
      let p := { p with readers := p.readers.map (·.bring chunk), chunks := later }
      if p.readers.any (·.fed) then p else p.stop
    | [] => if p.writers = 0 then p.stop else p

/-- One writer finishes. -/
def finishWriter (p : Pipe) : Pipe := { p with writers := p.writers - 1 }

/-- Changes one reader. -/
def changeReader (p : Pipe) (i : Nat) (f : Reader → Reader) : Pipe :=
  { p with readers := p.readers.modify i f }

end Pipe

end Flotilla.Shell
