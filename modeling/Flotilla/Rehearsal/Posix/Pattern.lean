import Flotilla.Text.Utf8

/-!
# Basic regular expressions

Enough of the basic regular expressions of POSIX to search lines: characters, dots, sets, stars and
the two anchors.
-/

namespace Flotilla.Rehearsal.Posix

/-- What matches one character. -/
inductive Atom where
  | any
  | char (c : Char)
  | set (negated : Bool) (ranges : List (Char × Char))
  deriving Repr, DecidableEq

/-- Whether an atom matches a character. -/
def Atom.accepts (ignoreCase : Bool) (a : Atom) (c : Char) : Bool :=
  let fold (c : Char) : Char := if ignoreCase then c.toLower else c
  match a with
  | .any => true
  | .char d => fold c == fold d
  | .set negated ranges =>
    let inside := ranges.any fun (lo, hi) =>
      (lo ≤ c && c ≤ hi) || (ignoreCase && ((lo ≤ c.toLower && c.toLower ≤ hi) ||
        (lo ≤ c.toUpper && c.toUpper ≤ hi)))
    inside != negated

/-- A regular expression: atoms, each with whether it may repeat, between two anchors. -/
structure Pattern where
  fromStart : Bool := false
  toEnd : Bool := false
  atoms : List (Atom × Bool) := []
  ignoreCase : Bool := false
  deriving Repr, DecidableEq

namespace Pattern

/-- The pattern that is a plain text. -/
def ofPlain (s : List Char) : Pattern := { atoms := s.map fun c => (.char c, false) }

/-- Reads the ranges of a set. -/
def readRanges : List Char → List (Char × Char)
  | a :: '-' :: b :: r => (a, b) :: readRanges r
  | a :: r => (a, a) :: readRanges r
  | [] => []

/-- Reads atoms. -/
def readAtoms (fuel : Nat) (s : List Char) : List (Atom × Bool) × Bool :=
  match fuel, s with
  | 0, _ | _, [] => ([], false)
  | _, ['$'] => ([], true)
  | fuel + 1, c :: r =>
    let (atom, r) := match c, r with
      | '.', r => (Atom.any, r)
      | '\\', d :: r => (Atom.char d, r)
      | '[', r =>
        let (negated, r) := match r with
          | '^' :: r => (true, r)
          | r => (false, r)
        let (first, r') := match r with
          | ']' :: r => ([']'], r)
          | r => ([], r)
        if ']' ∈ r' then
          (Atom.set negated (readRanges (first ++ r'.takeWhile (· ≠ ']'))),
            (r'.dropWhile (· ≠ ']')).drop 1)
        else (Atom.char '[', r)
      | c, r => (Atom.char c, r)
    let (starred, r) := match r with
      | '*' :: r => (true, r)
      | r => (false, r)
    let (atoms, toEnd) := readAtoms fuel r
    ((atom, starred) :: atoms, toEnd)

/-- Reads a pattern. -/
def read (s : List Char) : Pattern :=
  let (fromStart, s) := match s with
    | '^' :: r => (true, r)
    | s => (false, s)
  let (atoms, toEnd) := readAtoms (s.length + 1) s
  { fromStart, toEnd, atoms }

/-- What is left of a line after the longest match of atoms at its start. -/
def matchHere (fuel : Nat) (p : Pattern) (atoms : List (Atom × Bool)) (s : List Char) :
    Option (List Char) :=
  match fuel, atoms with
  | 0, _ => none
  | _, [] => if p.toEnd && ! s.isEmpty then none else some s
  | fuel + 1, (a, false) :: atoms =>
    match s with
    | c :: r => if a.accepts p.ignoreCase c then matchHere fuel p atoms r else none
    | [] => none
  | fuel + 1, (a, true) :: rest =>
    let more := match s with
      | c :: r => if a.accepts p.ignoreCase c then matchHere fuel p ((a, true) :: rest) r else none
      | [] => none
    more <|> matchHere fuel p rest s

/-- The first match in a line: what is before it, the match, and what is after it. -/
def find? (p : Pattern) (s : List Char) : Option (List Char × List Char × List Char) :=
  let starts := if p.fromStart then [0] else List.range (s.length + 1)
  starts.findSome? fun n =>
    let here := s.drop n
    (matchHere (2 * s.length + p.atoms.length + 2) p p.atoms here).map fun rest =>
      (s.take n, here.take (here.length - rest.length), rest)

end Pattern

end Flotilla.Rehearsal.Posix
