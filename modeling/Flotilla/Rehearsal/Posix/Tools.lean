import Flotilla.Rehearsal.Posix.Pattern
import Flotilla.Text.Decimal
import Flotilla.Text.Lines

/-!
# Text tools

The standard tools that take their whole input before they print.  Each is a function from its
arguments and its input to what it prints.
-/

namespace Flotilla.Rehearsal.Posix

/-- What a tool prints and how it ends. -/
structure ToolResult where
  out : Bytes := []
  err : Bytes := []
  status : Nat := 0

/-- Prints a text. -/
def ToolResult.printing (s : String) : ToolResult := { out := utf8 s }

/-- Fails with a message. -/
def ToolResult.failing (message : String) (status : Nat) : ToolResult :=
  { err := utf8 (message ++ "\n"), status }

/-- The lines of an input with their ends. -/
def inputLines (s : Bytes) : List Bytes := Text.linesWithEnds 10 s

/-- A line without its end. -/
def chomp (l : Bytes) : Bytes := if l.getLast? = some 10 then l.dropLast else l

/-- The lines of an input without their ends. -/
def inputRows (s : Bytes) : List Bytes := (inputLines s).map chomp

/-- The input made of rows. -/
def ofRows (rows : List Bytes) : Bytes := rows.flatMap (· ++ [10])

/-- Splits arguments into single-letter options and the rest. -/
def options (valued : List Char) : List String → List (Char × String) × List String
  | [] => ([], [])
  | "--" :: r => ([], r)
  | a :: r =>
    match a.toList with
    | '-' :: c :: cs =>
      if c ∈ valued then
        if cs ≠ [] then
          let (o, rest) := options valued r
          ((c, String.ofList cs) :: o, rest)
        else match r with
          | v :: r =>
            let (o, rest) := options valued r
            ((c, v) :: o, rest)
          | [] => ([(c, "")], [])
      else
        let (o, rest) := options valued r
        ((c :: cs).map (·, "") ++ o, rest)
    | _ =>
      let (o, rest) := options valued r
      (o, a :: rest)

/-- Whether an option is given. -/
def hasOption (o : List (Char × String)) (c : Char) : Bool := o.any (·.1 = c)

/-- The value of an option. -/
def optionValue? (o : List (Char × String)) (c : Char) : Option String :=
  (o.reverse.find? (·.1 = c)).map (·.2)

/-- A number with blanks in front. -/
def padLeft (width n : Nat) : String :=
  let s := toString n
  String.ofList (List.replicate (width - s.length) ' ') ++ s

/-- Counts lines, words, characters and bytes. -/
def wc (args : List String) (s : Bytes) : ToolResult :=
  let (o, _) := options [] args
  let text := Utf8.lossyChars s
  let words := (text.splitBy fun a b => a.isWhitespace == b.isWhitespace).countP
    (·.all (! ·.isWhitespace))
  let chosen := o.map (·.1)
  let chosen := if chosen = [] then ['l', 'w', 'c'] else chosen
  let counts := [('l', s.count 10), ('w', words), ('m', text.length), ('c', s.length)].filter
    (·.1 ∈ chosen)
  let width := if counts.length > 1 then 7 else 1
  .printing (" ".intercalate (counts.map fun (_, n) => padLeft width n) ++ "\n")

/-- Whether one byte sequence comes before another. -/
def bytesLe : Bytes → Bytes → Bool
  | [], _ => true
  | _ :: _, [] => false
  | a :: r, b :: s => a < b || (a == b && bytesLe r s)

/-- The number that a row starts with. -/
def leadingNumber (row : Bytes) : Int :=
  let s := (Utf8.lossyChars row).dropWhile (· = ' ')
  match s with
  | '-' :: r => - (Text.digitsValue (r.takeWhile Char.isDigit) : Int)
  | s => Text.digitsValue (s.takeWhile Char.isDigit)

/-- A list without repetitions of neighbours. -/
def dropRepeats {α : Type} [BEq α] : List α → List α
  | a :: b :: r => if a == b then dropRepeats (b :: r) else a :: dropRepeats (b :: r)
  | l => l

/-- Sorts rows. -/
def sort (args : List String) (s : Bytes) : ToolResult :=
  let (o, _) := options ['k', 't'] args
  let before (a b : Bytes) : Bool :=
    if hasOption o 'n' then
      let x := leadingNumber a
      let y := leadingNumber b
      x < y || (x == y && bytesLe a b)
    else bytesLe a b
  let rows := (inputRows s).mergeSort before
  let rows := if hasOption o 'u' then dropRepeats rows else rows
  { out := ofRows (if hasOption o 'r' then rows.reverse else rows) }

/-- Merges repeated rows. -/
def uniq (args : List String) (s : Bytes) : ToolResult :=
  let (o, _) := options [] args
  let groups := (inputRows s).splitBy (· == ·)
  let groups := if hasOption o 'd' then groups.filter (·.length > 1)
    else if hasOption o 'u' then groups.filter (·.length = 1) else groups
  { out := ofRows (groups.map fun g =>
      (if hasOption o 'c' then utf8 (padLeft 7 g.length ++ " ") else []) ++ g.headD []) }

/-- The characters that the text of a set stands for. -/
def charSet (fuel : Nat) (s : List Char) : List Char :=
  match fuel, s with
  | 0, _ | _, [] => []
  | fuel + 1, s =>
    let range (a b : Char) : List Char :=
      (List.range (b.toNat + 1 - a.toNat)).map fun i => Char.ofNat (a.toNat + i)
    if "[:upper:]".toList.isPrefixOf s then range 'A' 'Z' ++ charSet fuel (s.drop 9)
    else if "[:lower:]".toList.isPrefixOf s then range 'a' 'z' ++ charSet fuel (s.drop 9)
    else if "[:digit:]".toList.isPrefixOf s then range '0' '9' ++ charSet fuel (s.drop 9)
    else if "[:space:]".toList.isPrefixOf s then
      ['\t', '\n', '\x0b', '\x0c', '\r', ' '] ++ charSet fuel (s.drop 9)
    else match s with
      | '\\' :: c :: r =>
        let c := match c with
          | 'n' => '\n'
          | 't' => '\t'
          | 'r' => '\r'
          | '0' => '\x00'
          | c => c
        c :: charSet fuel r
      | a :: '-' :: b :: r => range a b ++ charSet fuel r
      | a :: r => a :: charSet fuel r
      | [] => []

/-- The bytes that the text of a set stands for. -/
def byteSet (s : String) : Bytes := (charSet (s.length + 1) s.toList).flatMap String.utf8EncodeChar

/-- Maps, deletes or squeezes bytes. -/
def tr (args : List String) (s : Bytes) : ToolResult :=
  let (o, sets) := options [] args
  let first := byteSet (sets.getD 0 "")
  let inFirst (b : UInt8) : Bool := first.contains b != (hasOption o 'c' || hasOption o 'C')
  if sets = [] then
    .failing "tr: missing operand\nTry 'tr --help' for more information." 1
  else if hasOption o 'd' then { out := s.filter (! inFirst ·) }
  else
    let second := byteSet (sets.getD 1 "")
    let replacement (b : UInt8) : UInt8 :=
      if second = [] ∨ ! inFirst b then b
      else
        let i := if hasOption o 'c' then second.length else first.idxOf b
        second.getD i (second.getLastD b)
    let out := s.map replacement
    let squeezed := if sets.length > 1 then second.contains else inFirst
    let squeeze (l : Bytes) : Bytes :=
      (l.splitBy fun a b => a == b && squeezed a).map (·.headD 0)
    { out := if hasOption o 's' then squeeze out else out }

/-- Arguments with `-3` written as `-n3`. -/
def countOption : List String → List String
  | "-n" :: v :: r => "-n" :: v :: countOption r
  | "-c" :: v :: r => "-c" :: v :: countOption r
  | a :: r =>
    let first := match a.toList with
      | '-' :: c :: cs => if c.isDigit then "-n" ++ String.ofList (c :: cs) else a
      | _ => a
    first :: countOption r
  | [] => []

/-- A number that may have a sign. -/
def signed (s : String) : Option Char × Nat :=
  match s.toList with
  | '-' :: r => (some '-', Text.digitsValue r)
  | '+' :: r => (some '+', Text.digitsValue r)
  | r => (none, Text.digitsValue r)

/-- The first lines or bytes. -/
def head (args : List String) (s : Bytes) : ToolResult :=
  let (o, _) := options ['n', 'c'] (countOption args)
  let keep {α : Type} (l : List α) (v : String) : List α :=
    match signed v with
    | (some '-', n) => l.take (l.length - n)
    | (_, n) => l.take n
  match optionValue? o 'c' with
  | some v => { out := keep s v }
  | none => { out := (keep (inputLines s) ((optionValue? o 'n').getD "10")).flatten }

/-- The last lines or bytes. -/
def tail (args : List String) (s : Bytes) : ToolResult :=
  let (o, _) := options ['n', 'c'] (countOption args)
  let keep {α : Type} (l : List α) (v : String) : List α :=
    match signed v with
    | (some '+', n) => l.drop (n - 1)
    | (_, n) => l.drop (l.length - n)
  match optionValue? o 'c' with
  | some v => { out := keep s v }
  | none => { out := (keep (inputLines s) ((optionValue? o 'n').getD "10")).flatten }

/-- The lines in reverse order. -/
def tac (_ : List String) (s : Bytes) : ToolResult := { out := (inputLines s).reverse.flatten }

/-- Each line reversed. -/
def rev (_ : List String) (s : Bytes) : ToolResult :=
  { out := (inputLines s).flatMap fun l =>
      let row := utf8 (String.ofList (Utf8.lossyChars (chomp l)).reverse)
      if l.getLast? = some 10 then row ++ [10] else row }

/-- Reads a list of ranges of positions, from one on. -/
def readPositions (s : String) : List (Nat × Option Nat) :=
  (s.splitOn ",").map fun part =>
    match part.splitOn "-" with
    | [a] => (Text.digitsValue a.toList, some (Text.digitsValue a.toList))
    | [a, ""] => (Text.digitsValue a.toList, none)
    | [a, b] => (if a = "" then 1 else Text.digitsValue a.toList, some (Text.digitsValue b.toList))
    | _ => (1, none)

/-- The items at some positions. -/
def atPositions {α : Type} (ranges : List (Nat × Option Nat)) (l : List α) : List α :=
  (l.zipIdx.filter fun (_, i) => ranges.any fun (a, b) =>
    a ≤ i + 1 && (b.map fun b => decide (i + 1 ≤ b)).getD true).map (·.1)

/-- Parts of each row. -/
def cut (args : List String) (s : Bytes) : ToolResult :=
  let (o, _) := options ['c', 'b', 'f', 'd'] args
  match optionValue? o 'c' <|> optionValue? o 'b', optionValue? o 'f' with
  | some v, _ => { out := ofRows ((inputRows s).map (atPositions (readPositions v))) }
  | none, some v =>
    let delimiter := ((utf8 ((optionValue? o 'd').getD "\t")).head?).getD 9
    let pick (row : Bytes) : Bytes :=
      if row.contains delimiter then
        [delimiter].intercalate (atPositions (readPositions v) (row.splitOn delimiter))
      else row
    { out := ofRows ((inputRows s).map pick) }
  | none, none =>
    .failing ("cut: you must specify a list of bytes, characters, or fields\n" ++
      "Try 'cut --help' for more information.") 1

/-- The rows that match a pattern. -/
def grep (args : List String) (s : Bytes) : ToolResult :=
  let (o, rest) := options ['e', 'm'] args
  match optionValue? o 'e' <|> rest.head? with
  | none =>
    .failing ("Usage: grep [OPTION]... PATTERNS [FILE]...\n" ++
      "Try 'grep --help' for more information.") 2
  | some p =>
    let pattern := if hasOption o 'F' then Pattern.ofPlain p.toList else Pattern.read p.toList
    let pattern := { pattern with ignoreCase := hasOption o 'i' }
    let hits := (inputRows s).zipIdx.filter fun (row, _) =>
      (pattern.find? (Utf8.lossyChars row)).isSome != hasOption o 'v'
    let out :=
      if hasOption o 'q' then []
      else if hasOption o 'c' then utf8 s!"{hits.length}\n"
      else if hasOption o 'o' then
        ofRows (hits.filterMap fun (row, _) =>
          (pattern.find? (Utf8.lossyChars row)).map fun (_, m, _) => utf8 (String.ofList m))
      else ofRows (hits.map fun (row, i) =>
        (if hasOption o 'n' then utf8 s!"{i + 1}:" else []) ++ row)
    { out, status := if hits.isEmpty then 1 else 0 }

/-- A row with the first match of a pattern replaced, or all of them. -/
def substitute (p : Pattern) (replacement : List Char) (all : Bool) (fuel : Nat)
    (row : List Char) : List Char :=
  match fuel, p.find? row with
  | 0, _ | _, none => row
  | fuel + 1, some (before, found, after) =>
    let inserted := replacement.flatMap fun c => if c = '&' then found else [c]
    let rest := if ! all then after
      else if found = [] then match after with
        | [] => []
        | c :: r => c :: substitute { p with atoms := p.atoms } replacement all fuel r
      else if p.fromStart then after
      else substitute p replacement all fuel after
    before ++ inserted ++ rest

/-- Edits each row by a substitution command. -/
def sed (args : List String) (s : Bytes) : ToolResult :=
  let (o, rest) := options ['e'] args
  match ((optionValue? o 'e' <|> rest.head?).getD "").toList with
  | 's' :: delimiter :: script =>
    let pattern := script.takeWhile (· ≠ delimiter)
    let script := (script.dropWhile (· ≠ delimiter)).drop 1
    let replacement := script.takeWhile (· ≠ delimiter)
    let flags := (script.dropWhile (· ≠ delimiter)).drop 1
    let edit (l : Bytes) : Bytes :=
      let row := Utf8.lossyChars (chomp l)
      let row := substitute (Pattern.read pattern) replacement ('g' ∈ flags) (row.length + 1) row
      utf8 (String.ofList row) ++ (if l.getLast? = some 10 then [10] else [])
    { out := (inputLines s).flatMap edit }
  | script =>
    let n := Text.digitsValue (script.takeWhile Char.isDigit)
    let at? (i : Nat) : Bool := i + 1 = n
    match script.dropWhile Char.isDigit with
    | ['d'] => { out := ((inputLines s).zipIdx.filter fun (_, i) => ! at? i).flatMap (·.1) }
    | ['p'] =>
      if hasOption o 'n' then
        { out := ((inputLines s).zipIdx.filter fun (_, i) => at? i).flatMap (·.1) }
      else { out := (inputLines s).zipIdx.flatMap fun (l, i) => if at? i then l ++ l else l }
    | _ => { out := s }

/-- The lines with their numbers. -/
def numberLines (s : Bytes) : Bytes :=
  (inputLines s).zipIdx.flatMap fun (l, i) => utf8 (padLeft 6 (i + 1) ++ "\t") ++ l

/-- Reads a whole number that may be negative. -/
def readInt? (s : String) : Option Int :=
  match s.toList with
  | '-' :: r => (Text.readNat? r).map fun n => - (n : Int)
  | r => (Text.readNat? r).map Int.ofNat

/-- The numbers from `a` to `b` by steps. -/
def numbers (fuel : Nat) (a step b : Int) : List Int :=
  match fuel with
  | 0 => []
  | fuel + 1 =>
    if (0 < step ∧ b < a) ∨ (step < 0 ∧ a < b) then []
    else a :: numbers fuel (a + step) step b

/-- A sequence of numbers, one a line. -/
def seq (args : List String) : ToolResult :=
  let (separator, args) := match args with
    | "-s" :: s :: r => (s, r)
    | a :: r => match a.toList with
      | '-' :: 's' :: c :: cs => (String.ofList (c :: cs), r)
      | _ => ("\n", a :: r)
    | [] => ("\n", [])
  match args.find? (readInt? · |>.isNone) with
  | some bad => .failing (s!"seq: invalid floating point argument: ‘{bad}’\n" ++
      "Try 'seq --help' for more information.") 1
  | none =>
    let span := match args.filterMap readInt? with
      | [b] => some (1, 1, b)
      | [a, b] => some (a, 1, b)
      | [a, step, b] => some (a, step, b)
      | _ => none
    match span with
    | none => .failing "seq: missing operand\nTry 'seq --help' for more information." 1
    | some (a, step, b) =>
      let l := if step = 0 then [] else numbers ((b - a).natAbs + 1) a step b
      if l = [] then {} else .printing (separator.intercalate (l.map toString) ++ "\n")

/-- A path without its directories, and perhaps without an ending. -/
def basename (args : List String) : ToolResult :=
  let name := ((args.headD "").splitOn "/").filter (· ≠ "") |>.getLastD ""
  let ending := args.getD 1 ""
  let name := if ending ≠ "" ∧ name.endsWith ending ∧ name ≠ ending then
    String.ofList (name.toList.take (name.length - ending.length)) else name
  .printing (name ++ "\n")

/-- A test of texts and numbers. -/
def test (args : List String) : Bool :=
  let number (s : String) : Int := (readInt? s).getD 0
  match args with
  | [] => false
  | ["!", a] => a = ""
  | [a] => a ≠ ""
  | ["-n", a] => a ≠ ""
  | ["-z", a] => a = ""
  | [a, "=", b] => a = b
  | [a, "!=", b] => a ≠ b
  | [a, "-eq", b] => number a = number b
  | [a, "-ne", b] => number a ≠ number b
  | [a, "-lt", b] => number a < number b
  | [a, "-le", b] => number a ≤ number b
  | [a, "-gt", b] => number b < number a
  | [a, "-ge", b] => number b ≤ number a
  | _ => false

/-- The tools that take all their input, by name. -/
def filters : List (String × (List String → Bytes → ToolResult)) :=
  [("wc", wc), ("sort", sort), ("uniq", uniq), ("tr", tr), ("tail", tail), ("tac", tac),
    ("rev", rev), ("cut", cut), ("grep", grep), ("sed", sed)]

end Flotilla.Rehearsal.Posix
