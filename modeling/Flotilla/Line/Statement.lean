import Flotilla.Line.Builtin
import Flotilla.Line.Piece

/-!
# Statements

A line is a list of statements, a statement a list of segments that are joined by pipes.
`parse` reads a line: it assembles the pieces of `lex` into segments, decides where each segment
runs, and joins segments that run next to each other on the hosts.
-/

namespace Flotilla.Line

/-- Where a segment runs. -/
inductive Venue where
  /-- On every connected host. -/
  | hosts
  /-- On this machine. -/
  | here
  /-- Inside the shell. -/
  | shell (builtin : Builtin)
  deriving Repr, DecidableEq

/-- One command of a statement. -/
structure Segment where
  venue : Venue
  words : List String
  /-- What is handed to the shell that runs the segment. -/
  text : String
  /-- Whether its output goes on to a next segment. -/
  piped : Bool
  deriving Repr, DecidableEq

/-- Commands that run together, each one's output piped into the next. -/
structure Statement where
  segments : List Segment
  deriving Repr, DecidableEq

/-- Whether every segment is a built-in. -/
def Statement.isBuiltinOnly (s : Statement) : Bool :=
  s.segments.all fun
    | { venue := .shell _, .. } => true
    | _ => false

/-- A segment under construction. -/
structure Draft where
  text : List Char := []
  words : List String := []
  /-- The word that is open, if one is. -/
  word : Option (List Char) := none
  deriving Repr, DecidableEq

namespace Draft

/-- Closes the open word. -/
def endWord (d : Draft) : Draft :=
  match d.word with
  | none => d
  | some w => { d with words := d.words ++ [String.ofList w], word := none }

/-- Takes up a piece that neither pipes nor ends the statement. -/
def add (d : Draft) (p : Piece) : Draft :=
  match p.kind with
  | .word value => { d with text := d.text ++ p.source, word := some (d.word.getD [] ++ value) }
  | .continuation => { d with text := d.text ++ p.source }
  | .blank => { d.endWord with text := d.text ++ p.source }
  | .operator =>
    { d.endWord with
      text := d.text ++ p.source
      words := d.endWord.words ++ [String.ofList p.source] }
  | .comment | .pipe | .finish => d

/-- The segment to run on this machine.  The local mark is taken off the text and, where it starts
the first word, off that word. -/
def toLocal (d : Draft) (mark : Char) (text : List Char) (piped : Bool) :
    Except ParseError Segment :=
  let words := match d.words with
    | [] => []
    | first :: others =>
      match first.toList with
      | c :: r =>
        if c ≠ mark then d.words
        else if r = [] then others else String.ofList r :: others
      | [] => others
  let text := Text.trimStart text
  if words = [] ∨ text = [] then .error .emptyLocalCommand
  else .ok ⟨.here, words, String.ofList text, piped⟩

/-- Decides where the segment runs: on this machine if its text starts with the local mark, inside
the shell if its first word names a built-in, and otherwise on the hosts. -/
def toSegment (d : Draft) (mark : Char) (piped : Bool) : Except ParseError Segment :=
  let text := Text.trim d.text
  if text.head? = some mark then d.toLocal mark text.tail piped
  else do
    let venue := match ← Builtin.ofWords? d.words with
      | some b => .shell b
      | none => .hosts
    return ⟨venue, d.words, String.ofList text, piped⟩

end Draft

/-- Two segments that run on the hosts as one. -/
def Segment.join (a b : Segment) : Segment :=
  ⟨a.venue, a.words ++ "|" :: b.words, a.text ++ " | " ++ b.text, b.piped⟩

/-- Joins `a` with the segments after it that run on the hosts as well. -/
def joinFrom (a : Segment) : List Segment → List Segment
  | [] => [a]
  | b :: r =>
    if a.venue = .hosts ∧ b.venue = .hosts ∧ a.piped then joinFrom (a.join b) r
    else a :: joinFrom b r

/-- Joins each run of segments that run on the hosts. -/
def joinHosts : List Segment → List Segment
  | [] => []
  | a :: r => joinFrom a r

/-- The statement of the drafts `before`, each piped into the next, and of `last`, which ends at
`offset`.  No statement comes of nothing at all. -/
def close (mark : Char) (offset : Nat) (before : List Draft) (last : Draft) :
    Except ParseError (List Statement) := do
  let last := last.endWord
  if last.words = [] then
    if before = [] then return [] else throw (.emptySegment offset)
  let piped ← before.mapM (·.toSegment mark true)
  let final ← last.toSegment mark false
  return [⟨joinHosts (piped ++ [final])⟩]

/-- Assembles pieces into statements.  `before` and `d` are the drafts of the statement so far, and
`stop` is what the pieces end with: a fault, or the length of the line. -/
def assemble (mark : Char) (stop : Except ParseError Nat) (before : List Draft) (d : Draft) :
    List Piece → Except ParseError (List Statement)
  | [] => do close mark (← stop) before d
  | p :: ps =>
    match p.kind with
    | .pipe =>
      let d := d.endWord
      if d.words = [] then .error (.emptySegment p.offset)
      else assemble mark stop (before ++ [d]) {} ps
    | .finish => do
      let here ← close mark p.offset before d
      let later ← assemble mark stop [] {} ps
      return here ++ later
    | _ => assemble mark stop before (d.add p) ps

/-- Reads a line.  `mark` is the character in front of a segment that runs on this machine. -/
def parse (mark : Char) (line : String) : Except ParseError (List Statement) :=
  let lexed := lex false 0 line.toList
  let stop := match lexed.fault with
    | some e => .error e
    | none => .ok (byteLength line.toList)
  assemble mark stop [] {} lexed.pieces

end Flotilla.Line
