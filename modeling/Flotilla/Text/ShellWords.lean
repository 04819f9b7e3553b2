/-!
# Words of a command

`ShellWords.split` cuts a command into words the way a shell does, without running anything: blanks
separate words, quotes and backslashes take characters literally, and `#` starts a comment where a
word may start.  It reads one character after the other; `State.step` is what a character does.
-/

namespace Flotilla.ShellWords

/-- Where in a command its next character stands. -/
inductive Place where
  /-- In front of a word. -/
  | between
  /-- In a comment, which goes to the end of the line. -/
  | comment
  | word
  /-- In a word, behind a backslash. -/
  | escaped
  /-- Between single quotes. -/
  | single
  /-- Between double quotes. -/
  | double
  /-- Between double quotes, behind a backslash. -/
  | doubleEscaped
  deriving Repr, DecidableEq

/-- What has been read of a command. -/
structure State where
  place : Place := .between
  /-- The words that are complete. -/
  words : List (List Char) := []
  /-- The characters of the word that is not. -/
  current : List Char := []
  deriving Repr, DecidableEq

/-- Whether a character separates words. -/
def isSeparator (c : Char) : Bool := c = ' ' || c = '\t' || c = '\n'

/-- Whether a backslash between double quotes takes a character literally. -/
def isQuotable (c : Char) : Bool := c = '$' || c = '\x60' || c = '"' || c = '\\'

namespace State

/-- Moves on to another place. -/
def goto (s : State) (place : Place) : State := { s with place }

/-- Adds a character to the word and moves on. -/
def take (s : State) (c : Char) (place : Place) : State :=
  { s with place, current := s.current ++ [c] }

/-- Completes the word. -/
def complete (s : State) : State :=
  { place := .between, words := s.words ++ [s.current], current := [] }

/-- What a character of a word does. -/
def stepWord (s : State) (c : Char) : State :=
  if c = '"' then s.goto .double
  else if c = '\'' then s.goto .single
  else if c = '\\' then s.goto .escaped
  else if isSeparator c then s.complete
  else s.take c .word

/-- What the next character does. -/
def step (s : State) (c : Char) : State :=
  match s.place with
  | .between =>
    if isSeparator c then s else if c = '#' then s.goto .comment else s.stepWord c
  | .comment => if c = '\n' then s.goto .between else s
  | .word => s.stepWord c
  | .escaped => if c = '\n' then s.goto .word else s.take c .word
  | .single => if c = '\'' then s.goto .word else s.take c .single
  | .double =>
    if c = '\\' then s.goto .doubleEscaped
    else if c = '"' then s.goto .word
    else s.take c .double
  | .doubleEscaped =>
    if c = '\n' then s.goto .double
    else if isQuotable c then s.take c .double
    else (s.take '\\' .double).take c .double

/-- The words of a command that has been read, unless a quote or an escape is open. -/
def finish? (s : State) : Option (List (List Char)) :=
  match s.place with
  | .between | .comment => some s.words
  | .word => some s.complete.words
  | _ => none

end State

/-- The words of a command.  There are none if it ends inside quotes or with a backslash. -/
def split (command : List Char) : Option (List (List Char)) :=
  (command.foldl State.step {}).finish?

end Flotilla.ShellWords
