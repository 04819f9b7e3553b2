import Flotilla.Line.Piece

/-!
# Shell commands

The part of the POSIX shell language that rehearsed commands on this machine may use: simple
commands with assignments and redirections, pipelines, lists, subshells and groups.
`Command.read` reads a command text.
-/

namespace Flotilla.Rehearsal.Posix

/-- A part of a word. -/
inductive Part where
  | text (s : List Char) (quoted : Bool)
  /-- The value of a variable, or a default for want of one. -/
  | variable (name : List Char) (default : Option (List Char)) (quoted : Bool)
  /-- The output of a command. -/
  | output (script : List Char) (quoted : Bool)
  deriving Repr, DecidableEq

/-- A word before its parts are expanded. -/
abbrev Word := List Part

/-- What a redirection does with a file descriptor. -/
inductive Redirection.Kind where
  | input
  | output
  | append
  | duplicate
  deriving Repr, DecidableEq

/-- A redirection of a file descriptor. -/
structure Redirection where
  descriptor : Nat
  kind : Redirection.Kind
  target : Word
  deriving Repr, DecidableEq

/-- A command. -/
inductive Command where
  | simple (words : List Word) (redirections : List Redirection)
  /-- A list in parentheses or braces. -/
  | group (subshell : Bool) (body : Command) (redirections : List Redirection)
  | pipeline (parts : List Command)
  | negated (c : Command)
  | and (a b : Command)
  | or (a b : Command)
  | seq (parts : List Command)
  deriving Repr, Inhabited

/-- A token of a command text. -/
inductive Token where
  | word (w : Word)
  | operator (text : String)
  /-- An operator for redirection, behind its descriptor. -/
  | redirect (descriptor : Nat) (kind : Redirection.Kind)
  deriving Repr, DecidableEq

/-- The characters of a variable's name. -/
def isNameChar (c : Char) : Bool := c.isAlphanum || c = '_'

/-- The characters that end a word. -/
def isDelimiter (c : Char) : Bool := c ∈ [' ', '\t', '\n', ';', '&', '|', '(', ')', '<', '>']

/-- The text with the backslashes of backquotes taken off. -/
def unescapeBackquote : List Char → List Char
  | '\\' :: c :: r =>
    if c ∈ ['\\', '`', '$'] then c :: unescapeBackquote r else '\\' :: c :: unescapeBackquote r
  | c :: r => c :: unescapeBackquote r
  | [] => []

/-- Reads what follows a dollar sign. -/
def readDollar (quoted : Bool) (s : List Char) : Except String (Part × List Char) :=
  match s with
  | '(' :: r =>
    match Line.afterSubstitution 1 r with
    | some t => .ok (.output t.front.dropLast quoted, t.back)
    | none => .error "end of file unexpected (expecting \")\")"
  | '\x7b' :: r =>
    let name := r.takeWhile isNameChar
    match r.dropWhile isNameChar with
    | '\x7d' :: rest => .ok (.variable name none quoted, rest)
    | ':' :: '-' :: r | '-' :: r =>
      .ok (.variable name (some (r.takeWhile (· ≠ '\x7d'))) quoted,
        (r.dropWhile (· ≠ '\x7d')).drop 1)
    | _ => .error "Bad substitution"
  | c :: r =>
    if c.isAlpha ∨ c = '_' then
      .ok (.variable ((c :: r).takeWhile isNameChar) none quoted, (c :: r).dropWhile isNameChar)
    else if c.isDigit ∨ c ∈ ['?', '$', '#', '@', '*', '!', '-'] then
      .ok (.variable [c] none quoted, r)
    else .ok (.text ['$'] quoted, c :: r)
  | [] => .ok (.text ['$'] quoted, [])

/-- Reads a double quotation up to its end. -/
def readQuoted (fuel : Nat) (s : List Char) : Except String (Word × List Char) :=
  match fuel, s with
  | 0, _ | _, [] => .error "Unterminated quoted string"
  | fuel + 1, c :: r =>
    if c = '"' then .ok ([.text [] true], r)
    else if c = '$' then do
      let (part, r) ← readDollar true r
      let (w, r) ← readQuoted fuel r
      return (part :: w, r)
    else if c = '`' then
      match Line.afterBackquote r with
      | some t => do
        let (w, r') ← readQuoted fuel t.back
        return (.output (unescapeBackquote t.front.dropLast) true :: w, r')
      | none => .error "EOF in backquote substitution"
    else match c, r with
      | '\\', d :: r => do
        let (w, r) ← readQuoted fuel r
        if d = '\n' then return (w, r)
        let kept := if Line.isHiddenInQuotation d then [d] else ['\\', d]
        return (.text kept true :: w, r)
      | _, _ => do
        let (w, r) ← readQuoted fuel r
        return (.text [c] true :: w, r)

/-- Reads a word. -/
def readWord (fuel : Nat) (s : List Char) : Except String (Word × List Char) :=
  match fuel, s with
  | 0, _ | _, [] => .ok ([], s)
  | fuel + 1, c :: r =>
    if isDelimiter c then .ok ([], s)
    else match c, r with
      | '\\', '\n' :: r => readWord fuel r
      | '\\', d :: r => do
        let (w, r) ← readWord fuel r
        return (.text [d] true :: w, r)
      | '\'', r =>
        match Line.afterMark '\'' r with
        | some t => do
          let (w, r') ← readWord fuel t.back
          return (.text t.front.dropLast true :: w, r')
        | none => .error "Unterminated quoted string"
      | '"', r => do
        let (a, r) ← readQuoted r.length r
        let (w, r) ← readWord fuel r
        return (a ++ w, r)
      | '`', r =>
        match Line.afterBackquote r with
        | some t => do
          let (w, r') ← readWord fuel t.back
          return (.output (unescapeBackquote t.front.dropLast) false :: w, r')
        | none => .error "EOF in backquote substitution"
      | '$', r => do
        let (part, r) ← readDollar false r
        let (w, r) ← readWord fuel r
        return (part :: w, r)
      | c, r => do
        let (w, r) ← readWord fuel r
        return (.text [c] false :: w, r)

/-- The tokens of a command text, or its syntax error behind the tokens before it. -/
def tokens (fuel : Nat) (s : List Char) : Except String (List Token) :=
  match fuel, s with
  | 0, _ | _, [] => .ok []
  | fuel + 1, c :: r =>
    let operator (text : String) (r : List Char) : Except String (List Token) := do
      return .operator text :: (← tokens fuel r)
    let redirect (descriptor : Nat) (r : List Char) : Except String (List Token) := do
      match r with
      | '>' :: '>' :: r => return .redirect descriptor .append :: (← tokens fuel r)
      | '>' :: '&' :: r => return .redirect descriptor .duplicate :: (← tokens fuel r)
      | '>' :: '|' :: r | '>' :: r => return .redirect descriptor .output :: (← tokens fuel r)
      | '<' :: '&' :: r => return .redirect descriptor .duplicate :: (← tokens fuel r)
      | _ => return .redirect descriptor .input :: (← tokens fuel (r.drop 1))
    match c, r with
    | ' ', r | '\t', r => tokens fuel r
    | '\\', '\n' :: r => tokens fuel r
    | '#', r => tokens fuel (r.dropWhile (· ≠ '\n'))
    | '\n', r => operator "\n" r
    | '|', '|' :: r => operator "||" r
    | '&', '&' :: r => operator "&&" r
    | ';', ';' :: r => operator ";;" r
    | '|', r => operator "|" r
    | '&', r => operator "&" r
    | ';', r => operator ";" r
    | '(', r => operator "(" r
    | ')', r => operator ")" r
    | '>', _ => redirect 1 s
    | '<', _ => redirect 0 s
    | c, r =>
      if c.isDigit ∧ (r.head? = some '>' ∨ r.head? = some '<') then redirect (c.toNat - 48) r
      else do
        let (w, rest) ← readWord (c :: r).length (c :: r)
        return .word w :: (← tokens fuel rest)

/-- The text of a word without quotation or expansion. -/
def plainText? (w : Word) : Option (List Char) :=
  (w.mapM fun
    | Part.text s false => some s
    | _ => none).map List.flatten

/-- The error of a token in the wrong place. -/
def unexpected (l : List Token) (expected : String) : String :=
  let found := match l with
    | [] => "end of file"
    | .operator "\n" :: _ => "newline"
    | .operator text :: _ => "\"" ++ text ++ "\""
    | .redirect .. :: _ => "redirection"
    | .word w :: _ => match plainText? w with
      | some s => "\"" ++ String.ofList s ++ "\""
      | none => "word"
  found ++ " unexpected" ++ (if expected = "" then "" else s!" (expecting \"{expected}\")")

/-- Drops line ends. -/
def skipNewlines (l : List Token) : List Token := l.dropWhile (· = .operator "\n")

/-- Reads the words and redirections of a simple command. -/
def readSimple (words : List Word) (reds : List Redirection) :
    List Token → Except String (List Word × List Redirection × List Token)
  | .word w :: r => readSimple (words ++ [w]) reds r
  | .redirect d k :: .word w :: r => readSimple words (reds ++ [⟨d, k, w⟩]) r
  | .redirect _ _ :: r => .error (unexpected r "")
  | r => .ok (words, reds, r)

/-- Whether a list of tokens starts with an operator. -/
def startsWith (text : String) (l : List Token) : Bool := l.head? == some (.operator text)

/-- Whether a list of tokens starts with a reserved word. -/
def startsWithWord (text : String) (l : List Token) : Bool :=
  match l with
  | .word w :: _ => plainText? w == some text.toList
  | _ => false

mutual

/-- Reads a simple command, a subshell or a group. -/
def readCommand (fuel : Nat) (l : List Token) : Except String (Command × List Token) :=
  match fuel with
  | 0 => .error "too deep"
  | fuel + 1 =>
    if startsWith "(" l then do
      let (body, r) ← readList fuel (l.drop 1)
      if ! startsWith ")" r then throw (unexpected r ")")
      let (_, reds, r) ← readSimple [] [] (r.drop 1)
      return (.group true body reds, r)
    else if startsWithWord "\x7b" l then do
      let (body, r) ← readList fuel (l.drop 1)
      if ! startsWithWord "\x7d" r then throw (unexpected r "\x7d")
      let (_, reds, r) ← readSimple [] [] (r.drop 1)
      return (.group false body reds, r)
    else do
      let (words, reds, r) ← readSimple [] [] l
      if words.isEmpty && reds.isEmpty then throw (unexpected l "")
      if startsWith "(" r then throw (unexpected r "")
      return (.simple words reds, r)

/-- Reads a pipeline. -/
def readPipeline (fuel : Nat) (l : List Token) : Except String (Command × List Token) :=
  match fuel with
  | 0 => .error "too deep"
  | fuel + 1 =>
    if startsWithWord "!" l then do
      let (c, r) ← readPipeline fuel (l.drop 1)
      return (.negated c, r)
    else do
      let (first, r) ← readCommand fuel l
      let (others, r) ← readPipeRest fuel r
      return (if others.isEmpty then first else .pipeline (first :: others), r)

/-- Reads the commands after the first one of a pipeline. -/
def readPipeRest (fuel : Nat) (l : List Token) : Except String (List Command × List Token) :=
  match fuel with
  | 0 => .error "too deep"
  | fuel + 1 =>
    if startsWith "|" l then do
      let (c, r) ← readCommand fuel (skipNewlines (l.drop 1))
      let (cs, r) ← readPipeRest fuel r
      return (c :: cs, r)
    else .ok ([], l)

/-- Reads pipelines that are joined by `&&` and `||`, of which `before` is read. -/
def readAndOr (fuel : Nat) (before : Option Command) (l : List Token) :
    Except String (Command × List Token) :=
  match fuel with
  | 0 => .error "too deep"
  | fuel + 1 =>
    match before with
    | none => do
      let (c, r) ← readPipeline fuel l
      readAndOr fuel (some c) r
    | some a =>
      if startsWith "&&" l then do
        let (b, r) ← readPipeline fuel (skipNewlines (l.drop 1))
        readAndOr fuel (some (.and a b)) r
      else if startsWith "||" l then do
        let (b, r) ← readPipeline fuel (skipNewlines (l.drop 1))
        readAndOr fuel (some (.or a b)) r
      else .ok (a, l)

/-- Reads a list of commands up to what closes it. -/
def readList (fuel : Nat) (l : List Token) : Except String (Command × List Token) :=
  match fuel with
  | 0 => .error "too deep"
  | fuel + 1 =>
    let l := skipNewlines l
    if l.isEmpty || startsWith ")" l || startsWithWord "\x7d" l then .ok (.seq [], l)
    else do
      let (c, r) ← readAndOr fuel none l
      let isEnd := startsWith ";" r || startsWith "\n" r || startsWith "&" r
      if ! isEnd then return (.seq [c], r)
      let (rest, r) ← readList fuel (r.drop 1)
      match rest with
      | .seq cs => return (.seq (c :: cs), r)
      | d => return (.seq [c, d], r)

end

/-- Reads a command text. -/
def Command.read (script : List Char) : Except String Command := do
  let l ← tokens (script.length + 1) script
  let (c, rest) ← readList (8 * l.length + 8) l
  if rest.isEmpty then return c
  throw (unexpected rest "")

end Flotilla.Rehearsal.Posix
