import Flotilla.Digest.Sha256
import Flotilla.Environment
import Flotilla.Files
import Flotilla.Machine
import Flotilla.Rehearsal.Posix.Syntax
import Flotilla.Rehearsal.Posix.Tools
import Flotilla.Text.Blank
import Flotilla.Text.Hex

/-!
# Running shell commands

`Process.run` runs a command text as the shell would, on given input and files.  It answers with
the effects in order and with how the shell ended, if it did.
-/

namespace Flotilla.Rehearsal.Posix

/-- What a running command does to the outside. -/
inductive Effect where
  | out (data : Bytes)
  | err (data : Bytes)
  /-- Rests for some milliseconds. -/
  | rest (time : Nat)
  | touch (files : Files)

/-- Why a command does not go on. -/
inductive Stop where
  /-- The input it needs has not come yet. -/
  | hungry
  | exit (status : Nat)
  /-- A signal ended the shell. -/
  | killed (signal : Nat)

/-- The state of a shell. -/
structure Process where
  bindings : List (String × String) := []
  status : Nat := 0
  /-- The status of the last command whose output became part of a word. -/
  substituted : Nat := 0
  input : Bytes := []
  inputComplete : Bool := true
  files : Files
  /-- The effects so far, the last one first. -/
  effects : List Effect := []

/-- Commands change the state of a shell and may stop it. -/
abbrev M := ExceptT Stop (StateM Process)

/-- Where a file descriptor leads. -/
inductive Target where
  | out
  | err
  | file (path : String)
  | null
  deriving Repr, DecidableEq

/-- The file descriptors of a command.  Without an input of its own it reads that of the shell. -/
structure Descriptors where
  input : Option Bytes := none
  out : Target := .out
  err : Target := .err

/-- Writes bytes to a descriptor. -/
def emit (t : Target) (data : Bytes) : M Unit :=
  if data = [] then pure ()
  else match t with
    | .out => modify fun p => { p with effects := .out data :: p.effects }
    | .err => modify fun p => { p with effects := .err data :: p.effects }
    | .null => pure ()
    | .file path => modify fun p =>
      match p.files.append path data with
      | .ok files => { p with files, effects := .touch files :: p.effects }
      | .error _ => p

/-- Complains the way a shell does. -/
def complain (d : Descriptors) (message : String) : M Unit :=
  emit d.err (utf8 ("sh: 1: " ++ message ++ "\n"))

/-- Takes all input. -/
def takeInput (d : Descriptors) : M Bytes := do
  match d.input with
  | some s => return s
  | none =>
    let p ← get
    if ! p.inputComplete then throw .hungry
    set { p with input := [] }
    return p.input

/-- Takes one line of the input, or what there is of it at its end. -/
def takeLine (d : Descriptors) : M Bytes := do
  match d.input with
  | some s => return (inputLines s).headD []
  | none =>
    let p ← get
    let line := (inputLines p.input).headD []
    if line.getLast? ≠ some 10 ∧ ! p.inputComplete then throw .hungry
    set { p with input := p.input.drop line.length }
    return line

/-- The number under which the shell runs. -/
def ownNumber : String := "4242"

/-- The value of a variable. -/
def valueOf (name : String) : M (Option String) := do
  let p ← get
  match name with
  | "?" => return some (toString p.status)
  | "$" => return some ownNumber
  | "#" => return some "0"
  | "0" => return some "sh"
  | _ => return p.bindings.lookup name

/-- A field under construction: its characters, and whether any part was quoted. -/
structure Field where
  chars : List Char := []
  quoted : Bool := false

/-- Adds an expanded part to the fields so far.  What was not quoted splits at blanks. -/
def addPart (fields : List Field) (s : List Char) (quoted : Bool) : List Field :=
  let extend (f : Field) (cs : List Char) : Field :=
    { chars := f.chars ++ cs, quoted := f.quoted || quoted }
  let (before, last) := match fields.reverse with
    | f :: r => (r.reverse, f)
    | [] => ([], {})
  if quoted then before ++ [extend last s]
  else
    let isIfs (c : Char) : Bool := c ∈ [' ', '\t', '\n']
    let pieces := (s.splitBy fun a b => isIfs a == isIfs b)
    pieces.foldl
      (fun fs piece =>
        if piece.all isIfs then fs ++ [{}]
        else match fs.reverse with
          | f :: r => r.reverse ++ [extend f piece]
          | [] => [extend {} piece])
      (before ++ [last])

/-- What an escape in a text stands for: a byte, and the rest of the text. -/
def readOctal (digits : Nat) (s : List Char) : UInt8 × List Char :=
  let ds := (s.take digits).takeWhile fun c => '0' ≤ c && c ≤ '7'
  (UInt8.ofNat (ds.foldl (fun n c => n * 8 + (c.toNat - 48)) 0), s.drop ds.length)

/-- The byte of a one-letter escape. -/
def letterEscape? (c : Char) : Option UInt8 :=
  match c with
  | 'a' => some 7
  | 'b' => some 8
  | 'f' => some 12
  | 'n' => some 10
  | 'r' => some 13
  | 't' => some 9
  | 'v' => some 11
  | '\\' => some 92
  | 'e' => some 27
  | _ => none

/-- The text of `echo` with its escapes expanded, and whether it goes on after it. -/
def echoText (fuel : Nat) (s : List Char) : Bytes × Bool :=
  match fuel, s with
  | 0, _ | _, [] => ([], true)
  | fuel + 1, '\\' :: c :: r =>
    if c = 'c' then ([], false)
    else if c = '0' then
      let (b, r) := readOctal 3 r
      let (rest, more) := echoText fuel r
      (b :: rest, more)
    else match (if c = 'e' then none else letterEscape? c) with
      | some b =>
        let (rest, more) := echoText fuel r
        (b :: rest, more)
      | none =>
        let (rest, more) := echoText fuel (c :: r)
        (92 :: rest, more)
  | fuel + 1, c :: r =>
    let (rest, more) := echoText fuel r
    (String.utf8EncodeChar c ++ rest, more)

/-- What `echo` prints. -/
def echo (args : List String) : Bytes :=
  let (newline, args) := match args with
    | "-n" :: r => (false, r)
    | r => (true, r)
  let s := (" ".intercalate args).toList
  let (text, more) := echoText (s.length + 1) s
  if newline && more then text ++ [10] else text

/-- Fills a text to a width. -/
def fill (left zero : Bool) (width : Nat) (s : Bytes) : Bytes :=
  let n := width - s.length
  if left then s ++ List.replicate n 32
  else if zero then match s with
    | 45 :: r => 45 :: List.replicate n 48 ++ r
    | s => List.replicate n 48 ++ s
  else List.replicate n 32 ++ s

/-- One use of a format: the text, the arguments that are left, and the messages. -/
def formatOnce (fuel : Nat) (f : List Char) (args : List String) :
    Bytes × List String × List String :=
  match fuel, f with
  | 0, _ | _, [] => ([], args, [])
  | fuel + 1, '\\' :: c :: r =>
    if '0' ≤ c ∧ c ≤ '7' then
      let (b, r) := readOctal 3 (c :: r)
      let (rest, args, errs) := formatOnce fuel r args
      (b :: rest, args, errs)
    else match letterEscape? c with
      | some b =>
        let (rest, args, errs) := formatOnce fuel r args
        (b :: rest, args, errs)
      | none =>
        let (rest, args, errs) := formatOnce fuel (c :: r) args
        (92 :: rest, args, errs)
  | fuel + 1, '%' :: '%' :: r =>
    let (rest, args, errs) := formatOnce fuel r args
    (37 :: rest, args, errs)
  | fuel + 1, '%' :: r =>
    let flags := r.takeWhile (· ∈ ['-', '0', '+', ' ', '#'])
    let r := r.dropWhile (· ∈ ['-', '0', '+', ' ', '#'])
    let width := Text.digitsValue (r.takeWhile Char.isDigit)
    let r := r.dropWhile Char.isDigit
    let (precision, r) := match r with
      | '.' :: r => (some (Text.digitsValue (r.takeWhile Char.isDigit)), r.dropWhile Char.isDigit)
      | r => (none, r)
    let arg := args.headD ""
    let number := (readInt? arg).getD 0
    let bad := args ≠ [] ∧ (readInt? arg).isNone
    let unsigned (base : Nat) : Bytes :=
      utf8 (String.ofList (Nat.toDigits base (number.toNat)))
    let signedText := (if '+' ∈ flags ∧ 0 ≤ number then "+" else "") ++ toString number
    let clip (s : Bytes) : Bytes := match precision with
      | some n => s.take n
      | none => s
    let shown : Option (Bytes × Bool) := match r.head? with
      | some 's' => some (clip (utf8 arg), false)
      | some 'b' => some (clip (echoText (arg.length + 1) arg.toList).1, false)
      | some 'c' => some ((utf8 arg).take 1, false)
      | some 'd' | some 'i' => some (utf8 signedText, true)
      | some 'u' => some (unsigned 10, true)
      | some 'x' => some (unsigned 16, true)
      | some 'X' => some ((unsigned 16).map fun b => if 97 ≤ b then b - 32 else b, true)
      | some 'o' => some (unsigned 8, true)
      | _ => none
    match shown with
    | some (text, numeric) =>
      let (rest, args, errs) := formatOnce fuel (r.drop 1) (args.drop 1)
      (fill ('-' ∈ flags) ('0' ∈ flags) width text ++ rest, args,
        if numeric && bad then s!"printf: {arg}: expected numeric value" :: errs else errs)
    | none => ([], [], [s!"printf: %{String.ofList (r.take 1)}: invalid directive"])
  | fuel + 1, c :: r =>
    let (rest, args, errs) := formatOnce fuel r args
    (String.utf8EncodeChar c ++ rest, args, errs)

/-- A format used until the arguments are used up. -/
def format (fuel : Nat) (f : List Char) (args : List String) : Bytes × List String :=
  match fuel with
  | 0 => ([], [])
  | fuel + 1 =>
    let (text, rest, errs) := formatOnce (f.length + 1) f args
    if rest = [] ∨ rest.length = args.length then (text, errs)
    else
      let (more, later) := format fuel f rest
      (text ++ more, errs ++ later)

/-- The milliseconds of a time such as `2` or `0.5`. -/
def readTime? (s : String) : Option Nat :=
  let (digits, factor) := match s.toList.reverse with
    | 's' :: r => (r.reverse, 1000)
    | 'm' :: r => (r.reverse, 60000)
    | 'h' :: r => (r.reverse, 3600000)
    | _ => (s.toList, 1000)
  let whole := digits.takeWhile Char.isDigit
  match digits.dropWhile Char.isDigit with
  | [] => (Text.readNat? whole).map (· * factor)
  | '.' :: fraction =>
    if fraction.all Char.isDigit ∧ whole ++ fraction ≠ [] then
      some ((Text.digitsValue (whole ++ fraction)) * factor / Nat.pow 10 fraction.length)
    else none
  | _ => none

/-- Reads operands of a tool as files, or the input for want of operands. -/
def readOperands (tool : String) (d : Descriptors) (operands : List String) : M (Bytes × Nat) := do
  if operands = [] then return (← takeInput d, 0)
  let mut data := []
  let mut status := 0
  for path in operands do
    if path = "-" then data := data ++ (← takeInput d)
    else if path = "/dev/null" then pure ()
    else match (← get).files.read path with
      | .ok bytes => data := data ++ bytes
      | .error e =>
        let text := match e with
          | .isDirectory => "Is a directory"
          | .notDirectory => "Not a directory"
          | _ => "No such file or directory"
        let message := match tool with
          | "sort" => s!"sort: cannot read: {path}: {text}"
          | "head" | "tail" => s!"{tool}: cannot open '{path}' for reading: {text}"
          | "tac" => s!"tac: failed to open '{path}' for reading: {text}"
          | "rev" => s!"rev: cannot open {path}: {text}"
          | "sed" => s!"sed: can't read {path}: {text}"
          | _ => s!"{tool}: {path}: {text}"
        emit d.err (utf8 (message ++ "\n"))
        status := if tool = "sort" ∨ tool = "grep" ∨ tool = "sed" then 2 else 1
  return (data, status)

/-- The names of files among the arguments of a tool. -/
def operands (tool : String) (args : List String) : List String :=
  match tool with
  | "tr" => []
  | "grep" | "sed" => 
    let (o, rest) := options ['e', 'm'] args
    if hasOption o 'e' then rest else rest.drop 1
  | "cut" => (options ['c', 'b', 'f', 'd'] args).2
  | "sort" => (options ['k', 't'] args).2
  | "tail" => (options ['n', 'c'] (countOption args)).2
  | _ => (options [] args).2

/-- Runs a tool that takes all its input. -/
def runFilter (name : String) (tool : List String → Bytes → ToolResult) (d : Descriptors)
    (args : List String) : M Nat := do
  let names := operands name args
  let (data, failed) ← readOperands name d names
  let r := tool args data
  if failed ≠ 0 ∧ names.length = 1 then return failed
  let out := if name = "wc" ∧ names.length = 1 then
    r.out.dropLast ++ utf8 (" " ++ names.headD "" ++ "\n") else r.out
  emit d.out out
  emit d.err r.err
  return if failed ≠ 0 then failed else r.status

/-- The effects of a computation apart from the effects before it. -/
def collecting (act : M Nat) : M (List Effect × Nat) := do
  let before := (← get).effects
  modify fun p => { p with effects := [] }
  let status ← tryCatch act fun
    | .exit n => return n
    | .hungry => do
      modify fun p => { p with effects := p.effects ++ before }
      throw .hungry
    | .killed n => throw (.killed n)
  let done := (← get).effects
  modify fun p => { p with effects := before }
  return (done.reverse, status)

/-- The signal that the arguments of `kill` ask for, and the arguments behind it. -/
def readSignal : List String → Nat × List String
  | "-s" :: name :: r => (numbered name, r)
  | a :: r =>
    match a.toList with
    | '-' :: name => (numbered (String.ofList name), r)
    | _ => (15, a :: r)
  | [] => (15, [])
where
  /-- The number of a signal that is given by its number or its name. -/
  numbered (name : String) : Nat :=
    match Text.readNat? name.toList with
    | some n => n
    | none =>
      let full := if name.startsWith "SIG" then name else "SIG" ++ name
      ((signalNames.find? fun (_, other) => other = full).map (·.1)).getD 0

/-- The signals that end nothing. -/
def ignoredSignals : List Nat := [17, 18, 23, 28]

/-- What a shell says about a command that a signal ended. -/
def deathNotice : Nat → String
  | 1 => "Hangup"
  | 2 | 13 => ""
  | 9 => "Killed"
  | 15 => "Terminated"
  | n => s!"Signal {n}"

/-- What effects put on the output. -/
def outputOf (l : List Effect) : Bytes :=
  l.flatMap fun
    | .out data => data
    | _ => []

/-- Lets effects pass, apart from the output. -/
def passOthers (l : List Effect) : M Unit :=
  modify fun p => { p with effects := (l.filter fun
    | .out _ => false
    | _ => true).reverse ++ p.effects }

mutual

/-- Runs a command text in a shell of its own. -/
def runText (fuel : Nat) (d : Descriptors) (script : List Char) : M Nat :=
  match fuel with
  | 0 => return 1
  | fuel + 1 =>
    match Command.read script with
    | .ok c => run fuel d c
    | .error e => do
      complain d ("Syntax error: " ++ e)
      throw (.exit 2)

/-- The output of a command text, without the line ends it ends with. -/
def outputText (fuel : Nat) (d : Descriptors) (script : List Char) : M (List Char) :=
  match fuel with
  | 0 => return []
  | fuel + 1 => do
    let bindings := (← get).bindings
    let outer := (← get).status
    let (effects, status) ← collecting (runText fuel { d with out := .out } script)
    modify fun p => { p with bindings, status := outer, substituted := status }
    passOthers effects
    let s := Utf8.lossyChars (outputOf effects)
    return (s.reverse.dropWhile (· = '\n')).reverse

/-- Expands a word into fields. -/
def expand (fuel : Nat) (d : Descriptors) (w : Word) : M (List String) :=
  match fuel with
  | 0 => return []
  | fuel + 1 => do
    let home := (← valueOf "HOME").getD "~"
    let w : Word := match w with
      | [.text ['~'] false] => [.text home.toList true]
      | .text ['~'] false :: .text ['/'] q :: r => .text home.toList true :: .text ['/'] q :: r
      | w => w
    let mut fields : List Field := []
    for part in w do
      match part with
      | .text s _ => fields := addPart fields s true
      | .variable name default quoted =>
        let value := (← valueOf (String.ofList name)).getD ""
        let value := if value = "" then default.getD [] else value.toList
        if quoted || value ≠ [] then fields := addPart fields value quoted
      | .output script quoted =>
        let value ← outputText fuel d script
        if quoted || value ≠ [] then fields := addPart fields value quoted
    return (fields.filter fun f => f.quoted || f.chars ≠ []).map fun f => String.ofList f.chars

/-- Applies redirections to descriptors.  `none` means that one failed. -/
def redirect (fuel : Nat) (d : Descriptors) (reds : List Redirection) : M (Option Descriptors) :=
  match fuel, reds with
  | 0, _ => return none
  | _, [] => return some d
  | fuel + 1, r :: rest => do
    let target := " ".intercalate (← expand fuel d r.target)
    let setTarget (d : Descriptors) (t : Target) : Descriptors :=
      if r.descriptor = 2 then { d with err := t }
      else if r.descriptor = 1 then { d with out := t } else d
    match r.kind with
    | .duplicate =>
      let t := match target with
        | "1" => d.out
        | "2" => d.err
        | _ => .null
      redirect fuel (setTarget d t) rest
    | .input =>
      if target = "/dev/null" then redirect fuel { d with input := some [] } rest
      else match (← get).files.read target with
        | .ok bytes => redirect fuel { d with input := some bytes } rest
        | .error .isDirectory => redirect fuel { d with input := some [] } rest
        | .error _ => do
          complain d s!"cannot open {target}: No such file"
          return none
    | .output | .append =>
      if target = "/dev/null" then redirect fuel (setTarget d .null) rest
      else
        let files := (← get).files
        match files.append target [] with
        | .ok appended =>
          let files := if r.kind = .output then appended.write target [] else appended
          modify fun p => { p with files, effects := .touch files :: p.effects }
          redirect fuel (setTarget d (.file target)) rest
        | .error e => do
          let text := if e = .isDirectory then "Is a directory" else "Directory nonexistent"
          complain d s!"cannot create {target}: {text}"
          return none

/-- Runs a simple command whose words are expanded. -/
def runWords (fuel : Nat) (d : Descriptors) (words : List String) : M Nat :=
  match fuel, words with
  | 0, _ => return 1
  | _, [] => return (← get).substituted
  | fuel + 1, path :: args => do
    let name := if path.startsWith "/bin/" ∨ path.startsWith "/usr/bin/" then
      (path.splitOn "/").getLastD "" else path
    match name with
    | "true" | ":" => return 0
    | "false" => return 1
    | "echo" => emit d.out (echo args); return 0
    | "printf" =>
      match args with
      | [] => complain d "printf: usage: printf format [arg ...]"; return 2
      | f :: args =>
        let (text, errs) := format (args.length + 1) f.toList args
        for e in errs do complain d e
        emit d.out text
        return if errs = [] then 0 else if errs.any (·.endsWith "directive") then 2 else 1
    | "exit" =>
      match args with
      | [] => throw (.exit (← get).status)
      | a :: _ =>
        match Text.readNat? a.toList with
        | some n => throw (.exit (n % 256))
        | none => do
          complain d s!"exit: Illegal number: {a}"
          throw (.exit 2)
    | "kill" =>
      let (signal, targets) := readSignal args
      if signal = 0 ∨ ignoredSignals.contains signal then return 0
      if targets = [ownNumber] then throw (.killed signal)
      complain d "kill: No such process"
      return 1
    | "cat" =>
      let (o, names) := options [] args
      let (data, status) ← readOperands "cat" d names
      emit d.out (if hasOption o 'n' then numberLines data else data)
      return status
    | "head" =>
      let (_, names) := options ['n', 'c'] (countOption args)
      if names = [] ∧ d.input.isNone then
        let p ← get
        let r := head args p.input
        let whole := r.out.length < p.input.length
        if ! p.inputComplete ∧ ! whole then throw .hungry
        set { p with input := [] }
        emit d.out r.out
        return 0
      let (data, status) ← readOperands "head" d names
      emit d.out (head args data).out
      return status
    | "seq" =>
      let r := seq args
      emit d.out r.out
      emit d.err r.err
      return r.status
    | "basename" => emit d.out (basename args).out; return 0
    | "sleep" =>
      match args.head? with
      | some a =>
        match readTime? a with
        | some time =>
          modify fun p => { p with effects := .rest time :: p.effects }
          return 0
        | none =>
          emit d.err (utf8 (s!"sleep: invalid time interval ‘{a}’\n" ++
            "Try 'sleep --help' for more information.\n"))
          return 1
      | none => return 1
    | "test" => return if test args then 0 else 1
    | "[" =>
      if args.getLast? ≠ some "]" then
        complain d "[: missing ]"
        return 2
      return if test args.dropLast then 0 else 1
    | "read" =>
      let line ← takeLine d
      let words := (Text.words (Utf8.lossyChars (chomp line))).map String.ofList
      let n := args.length
      for (v, i) in args.zipIdx do
        let value := if i + 1 = n then " ".intercalate (words.drop i) else words.getD i ""
        modify fun p => { p with bindings := (v, value) :: p.bindings }
      return if line.getLast? = some 10 then 0 else 1
    | "tee" =>
      let data ← takeInput d
      emit d.out data
      for path in args do
        unless path = "/dev/null" do emit (.file path) data
      return 0
    | "sha256sum" =>
      emit d.out (utf8 (Hex.encode (Sha256.digest (← takeInput d)) ++ "  -\n"))
      return 0
    | "exec" | "command" =>
      let status ← runWords fuel d args
      if name = "exec" ∧ args ≠ [] then throw (.exit status)
      return status
    | "sh" | "dash" | "bash" =>
      match args with
      | "-c" :: script :: _ =>
        let before := (← get).bindings
        let status ← tryCatch (runText fuel d script.toList) fun
          | .exit n => return n
          | .killed n => do
            emit d.err (utf8 (deathNotice n ++ "\n"))
            return 128 + n
          | .hungry => throw .hungry
        modify fun p => { p with bindings := before }
        return status
      | _ => runText fuel d (Utf8.lossyChars (← takeInput d))
    | _ =>
      match filters.lookup name with
      | some tool => runFilter name tool d args
      | none =>
        let files := (← get).files
        let exists? := path.contains '/' &&
          (files.isDirectory path || files.contents.contains (Files.plain path))
        if path = "" then
          complain d ": Permission denied"
          return 127
        else if exists? then
          complain d s!"{path}: Permission denied"
          return 126
        else
          complain d s!"{path}: not found"
          return 127

/-- Runs a command. -/
def run (fuel : Nat) (d : Descriptors) (c : Command) : M Nat :=
  match fuel with
  | 0 => return 1
  | fuel + 1 => do
    let status ← match c with
      | .simple words reds => do
        let isAssignment (w : Word) : Option (String × Word) :=
          let name := (w.takeWhile fun
            | .text [c] false => isNameChar c
            | _ => false).flatMap fun
            | .text s _ => s
            | _ => []
          match w.drop name.length with
          | .text ['='] false :: value =>
            if name ≠ [] ∧ ! ((name.headD 'a').isDigit) then some (String.ofList name, value)
            else none
          | _ => none
        let assignments := (words.takeWhile fun w => (isAssignment w).isSome).filterMap isAssignment
        let words := words.drop assignments.length
        match ← redirect fuel d reds with
        | none =>
          -- A failed redirection ends the shell only with one of its own commands.
          pure 2
        | some d =>
          let before := (← get).bindings
          modify fun p => { p with substituted := 0 }
          for (name, value) in assignments do
            let value := " ".intercalate (← expand fuel d value)
            modify fun p => { p with bindings := (name, value) :: p.bindings }
          let mut fields := []
          for w in words do
            fields := fields ++ (← expand fuel d w)
          let status ← runWords fuel d fields
          if fields ≠ [] ∧ assignments ≠ [] then
            modify fun p => { p with bindings := before }
          pure status
      | .group subshell body reds =>
        match ← redirect fuel d reds with
        | none => pure 2
        | some d =>
          if ! subshell then run fuel d body
          else
            let bindings := (← get).bindings
            let status ← tryCatch (run fuel d body) fun
              | .exit n => return n
              | e => throw e
            modify fun p => { p with bindings }
            pure status
      | .pipeline parts => runPipe fuel d parts
      | .negated c => do
        let status ← run fuel d c
        pure (if status = 0 then 1 else 0)
      | .and a b => do
        let status ← run fuel d a
        if status = 0 then run fuel d b else pure status
      | .or a b => do
        let status ← run fuel d a
        if status = 0 then pure 0 else run fuel d b
      | .seq parts => do
        let mut status := (← get).status
        for c in parts do
          status ← run fuel d c
        pure status
    modify fun p => { p with status }
    return status

/-- Runs the commands of a pipeline, each on the output of the one before it. -/
def runPipe (fuel : Nat) (d : Descriptors) (parts : List Command) : M Nat :=
  match fuel, parts with
  | 0, _ => return 1
  | _, [] => return 0
  | fuel + 1, [c] =>
    tryCatch (run fuel d c) fun
      | .exit n => return n
      | e => throw e
  | fuel + 1, c :: rest => do
    let (effects, _) ← collecting (run fuel { d with out := .out } c)
    passOthers effects
    runPipe fuel { d with input := some (outputOf effects) } rest

end

/-- How a shell ended. -/
inductive Exit where
  | status (n : Nat)
  | killed (signal : Nat)
  /-- It has not ended: it waits for input. -/
  | hungry

/-- Runs something: its effects in order, and how it ended. -/
def Process.perform (p : Process) (act : M Nat) : List Effect × Exit :=
  let (result, p) := act.run.run p
  let exit := match result with
    | .ok n => Exit.status n
    | .error (.exit n) => .status n
    | .error (.killed n) => .killed n
    | .error .hungry => .hungry
  (p.effects.reverse, exit)

/-- A bound on the steps that a text of some length takes. -/
def fuelFor (length : Nat) : Nat := 4 * length + 100

/-- Runs a command text: its effects in order, and how the shell ended. -/
def Process.run (p : Process) (script : String) : List Effect × Exit :=
  p.perform (runText (fuelFor script.length) {} script.toList)

/-- The names of the shell. -/
def shellNames : List String := ["sh", "dash", "bash"]

/-- The names of the programs that there are besides the shell. -/
def programNames : List String :=
  ["true", "false", "echo", "printf", "cat", "head", "seq", "basename", "sleep", "test", "[",
    "tee", "sha256sum", "kill"] ++ filters.map (·.1)

/-- Where programs are. -/
def programDirectories : List String := ["/bin", "/usr/bin"]

/-- Finds a program: its name, or why it cannot be started. -/
def findProgram (files : Files) (path : String) : Except IoFault String :=
  let known (name : String) : Bool := name ∈ shellNames || name ∈ programNames
  if ! path.contains '/' then
    if known path then .ok path else .error .missing
  else if programDirectories.contains (Files.parent path) ∧
      known ((Files.names path).getLastD "") then
    .ok ((Files.names path).getLastD "")
  else match files.read path with
    | .ok _ | .error .isDirectory => .error .denied
    | .error f => .error f

/-- Runs a program with arguments: its effects in order, and how it ended. -/
def Process.exec (p : Process) : List String → Except IoFault (List Effect × Exit)
  | [] => .error .missing
  | path :: args =>
    if (path :: args).any (·.contains '\x00') then .error .zeroByte
    else do
      let name ← findProgram p.files path
      let fuel := fuelFor (String.join args).length
      return p.perform <|
        match shellNames.contains name, args with
        | true, "-c" :: script :: _ => runText fuel {} script.toList
        | _, _ => runWords (fuel + 1) {} (name :: args)

end Flotilla.Rehearsal.Posix
