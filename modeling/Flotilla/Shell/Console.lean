import Flotilla.Shell.Executor

/-!
# The shell at a terminal

A `Console` is a shell whose user sits at a terminal.  `Console.submit` runs one line, and
`Console.converse` asks for lines until one of them leaves or no more are typed.  The lines that a
statement reads while it runs and the lines that are typed at the prompt come from the same input.
The user types whenever the text of the prompt shows, and does not know who has put it there.
-/

namespace Flotilla.Shell

/-- The text on the two streams of a terminal. -/
structure Screen where
  out : Bytes := []
  err : Bytes := []
  deriving Repr, DecidableEq

/-- Puts what a statement showed on a screen.  Its writers end with it. -/
def Screen.show (s : Screen) (shown : List Shown) : Screen :=
  let t := Shown.terminal shown
  { out := s.out ++ t.out, err := s.err ++ t.err }

/-- How often a mark occurs behind the first `skip` bytes, each occurrence behind the last. -/
def occurrences (mark : Bytes) (skip : Nat) : Bytes → Nat
  | [] => 0
  | b :: r =>
    if skip ≠ 0 ∨ mark = [] then occurrences mark (skip - 1) r
    else if mark.isPrefixOf (b :: r) then 1 + occurrences mark (mark.length - 1) r
    else occurrences mark 0 r

/-- A shell at a terminal. -/
structure Console where
  executor : Executor
  prompt : String
  input : LiveInput := {}
  screen : Screen := {}
  /-- How many of the prompts on the screen the user has answered. -/
  answered : Nat := 0

namespace Console

/-- Submits a line.  The answer tells whether the shell leaves; a line that cannot be read is
reported, and the shell stays. -/
def submit (c : Console) (drive : Drive) (now : Moment) (line : String) : Console × Bool :=
  let e := c.executor.execute drive now line (some c.input)
  let shown := e.executor.shown.drop c.executor.shown.length
  let screen := shown.foldl .show c.screen
  let c := { c with executor := e.executor, input := e.input.getD {}, screen }
  match e.result with
  | .ok outcome => (c, outcome.leaving)
  | .error err =>
    let report := utf8 s!"parse error: {err.message}\n"
    ({ c with screen := { c.screen with err := c.screen.err ++ report } }, false)

/-- Shows the prompt. -/
def ask (c : Console) : Console :=
  { c with screen := { c.screen with out := c.screen.out ++ utf8 c.prompt } }

/-- The user types some lines, and none after them if these are the last. -/
def type (c : Console) (lines : List String) (last : Bool) : Console :=
  { c with input := { lines := c.input.lines ++ lines, isOpen := ! last } }

/-- How many prompts are on the screen once this is shown. -/
def prompts (c : Console) (shown : List Shown) : Nat :=
  occurrences (utf8 c.prompt) 0 (c.screen.show shown).out

/-- The user types the turns that are due, one at least.  The answer holds those that are left. -/
def typeTurns (c : Console) (turns : List (List String)) : Console × List (List String) :=
  let due := max 1 (c.prompts [] - c.answered)
  let later := turns.drop due
  ({ c.type (turns.take due).flatten later.isEmpty with answered := c.answered + due }, later)

/-- What it takes that the user types these turns, behind which `later` are left. -/
def typing (turns later : List (List String)) : List Event :=
  if turns = [] then []
  else turns.flatten.map .type ++ (if later = [] then [.endInput] else []) ++
    List.replicate (turns.flatten.length + 1) .takeLine

/-- Events while a user looks on, who types a turn as soon as a prompt shows. -/
def watched (c : Console) (turns : List (List String)) (r : Run) : List Event → List Event
  | [] => []
  | e :: es =>
    let s := r.step e
    let due := c.prompts s.shown - c.prompts r.shown
    let typed := typing (turns.take due) (turns.drop due)
    e :: typed ++ watched c (turns.drop due) (s.steps typed) es

/-- How statements go while a user looks on.  Of a line's statements the user watches the first. -/
def watching (c : Console) (turns : List (List String)) (drive : Drive) : Drive := fun n r =>
  let events := drive n r
  if turns ≠ [] ∧ n = c.executor.shown.length then c.watched turns r events else events

/-- How many prompts the user has seen while a line ran. -/
def seen (before after : Console) : Nat :=
  match after.executor.shown.drop before.executor.shown.length with
  | [] => 0
  | shown :: _ => before.prompts shown - before.prompts []

/-- Asks for lines until one of them leaves or there are no more.  The answer holds the turns that
are left. -/
def converseFor (drive : Drive) (now : Moment) (fuel : Nat) (c : Console)
    (turns : List (List String)) : Console × List (List String) :=
  match fuel with
  | 0 => (c, turns)
  | fuel + 1 =>
    let (c, turns) := c.ask.typeTurns turns
    match c.input.lines with
    | [] => (c, turns)
    | line :: later =>
      let before := { c with input := { c.input with lines := later } }
      let (after, leaving) := before.submit (before.watching turns drive) now line
      let seen := seen before after
      let (c, turns) := ({ after with answered := after.answered + seen }, turns.drop seen)
      if leaving then (c, turns) else converseFor drive now fuel c turns

/-- Talks with a user who types these turns, one at each prompt, and then no more.  Every prompt
but the last takes a line. -/
def converse (c : Console) (drive : Drive) (now : Moment) (turns : List (List String)) :
    Console × List (List String) :=
  converseFor drive now (c.input.lines.length + turns.flatten.length + 1) c turns

end Console

end Flotilla.Shell
