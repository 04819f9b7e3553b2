import Flotilla.Text.Utf8

/-!
# Writing to the terminal line by line

A `LineWriter` puts what a host writes on a stream of the terminal.  Each line goes out in one
piece, behind the host's tag if there is one, so that hosts never mix within a line.
-/

namespace Flotilla.Shell

/-- The line feed. -/
def lineFeed : UInt8 := 10

/-- The complete lines of a byte sequence, and what follows the last of them. -/
def completeLines : Bytes → List Bytes × Bytes
  | [] => ([], [])
  | b :: r =>
    let (lines, rest) := completeLines r
    if b = lineFeed then ([b] :: lines, rest)
    else match lines with
      | [] => ([], b :: rest)
      | l :: lines => ((b :: l) :: lines, rest)

/-- A writer to the terminal. -/
structure LineWriter where
  /-- The text in front of each line. -/
  tag : Option String
  /-- What was written after the last complete line. -/
  pending : Bytes := []
  deriving Repr, DecidableEq

namespace LineWriter

/-- The tag of a host. -/
def hostTag (host : String) : String := "[" ++ host ++ "] "

/-- What puts a line on the terminal. -/
def emission (w : LineWriter) (line : Bytes) : Bytes := utf8 (w.tag.getD "") ++ line

/-- Sends out the complete lines that are pending. -/
def drain (w : LineWriter) : LineWriter × List Bytes :=
  let (lines, rest) := completeLines w.pending
  ({ w with pending := rest }, lines.map w.emission)

/-- Takes up bytes and sends out the complete lines. -/
def write (w : LineWriter) (data : Bytes) : LineWriter × List Bytes :=
  { w with pending := w.pending ++ data }.drain

/-- Sends out the pending part of a line, unless lines are tagged: those stay whole. -/
def flush (w : LineWriter) : LineWriter × List Bytes :=
  if w.tag.isSome || w.pending.isEmpty then (w, [])
  else ({ w with pending := [] }, [w.emission w.pending])

/-- Completes the pending line and sends it out. -/
def shutdown (w : LineWriter) : LineWriter × List Bytes :=
  if w.pending.isEmpty then (w, [])
  else { w with pending := w.pending ++ [lineFeed] }.drain

end LineWriter

end Flotilla.Shell
