import Flotilla.Line.Error
import Flotilla.Text.Blank
import Flotilla.Text.Cut

/-!
# Lexical pieces

`lex` cuts a line into pieces: parts of words, blanks, comments, operators, pipes and ends of
statements.  Quotation follows the POSIX shell as far as finding the operators needs it, and each
piece keeps what was typed for it.
-/

namespace Flotilla.Line

/-- The cut after the first `mark`. -/
def afterMark (mark : Char) : (s : List Char) → Option (Cut s)
  | [] => none
  | c :: r => if c = mark then some (.one _ r) else (afterMark mark r).map (.cons c)

/-- The cut after the first backquote that no backslash hides. -/
def afterBackquote : (s : List Char) → Option (Cut s)
  | [] => none
  | '\\' :: c :: r => (afterBackquote r).map fun t => .cons '\\' (.cons c t)
  | c :: r => if c = '`' then some (.one _ r) else (afterBackquote r).map (.cons c)

mutual

/-- The cut after the parenthesis that closes the last of `depth` open ones.  Quotations, backquotes
and inner substitutions are skipped as wholes. -/
def afterSubstitution (depth : Nat) (s : List Char) : Option (Cut s) :=
  match s with
  | [] => none
  | '\\' :: c :: r => do
    let t ← afterSubstitution depth r
    return .cons '\\' (.cons c t)
  | '\'' :: r => do
    let t ← afterMark '\'' r
    let u ← afterSubstitution depth t.back
    return .cons '\'' (t.trans u)
  | '`' :: r => do
    let t ← afterBackquote r
    let u ← afterSubstitution depth t.back
    return .cons '`' (t.trans u)
  | '"' :: r => do
    let t ← afterQuotation r
    let u ← afterSubstitution depth t.back
    return .cons '"' (t.trans u)
  | '$' :: '(' :: r => do
    let t ← afterSubstitution 1 r
    let u ← afterSubstitution depth t.back
    return .cons '$' (.cons '(' (t.trans u))
  | '(' :: r => do
    let t ← afterSubstitution (depth + 1) r
    return .cons '(' t
  | ')' :: r =>
    if depth ≤ 1 then some (.one _ r)
    else do
      let t ← afterSubstitution (depth - 1) r
      return .cons ')' t
  | c :: r => do
    let t ← afterSubstitution depth r
    return .cons c t
termination_by s.length
decreasing_by
  all_goals simp only [List.length_cons]
  all_goals try have shorter := t.length_back_lt
  all_goals omega

/-- The cut after the quotation mark that closes a double quotation inside a substitution. -/
def afterQuotation (s : List Char) : Option (Cut s) :=
  match s with
  | [] => none
  | '"' :: r => some (.one _ r)
  | '\\' :: c :: r => do
    let t ← afterQuotation r
    return .cons '\\' (.cons c t)
  | '`' :: r => do
    let t ← afterBackquote r
    let u ← afterQuotation t.back
    return .cons '`' (t.trans u)
  | '$' :: '(' :: r => do
    let t ← afterSubstitution 1 r
    let u ← afterQuotation t.back
    return .cons '$' (.cons '(' (t.trans u))
  | c :: r => do
    let t ← afterQuotation r
    return .cons c t
termination_by s.length
decreasing_by
  all_goals simp only [List.length_cons]
  all_goals try have shorter := t.length_back_lt
  all_goals omega

end

/-- The backslash of a double quotation hides only these. -/
def isHiddenInQuotation (c : Char) : Bool := c ∈ ['"', '\\', '$', '`', '\n']

/-- Reads a double quotation up to its end: what it stands for, and what follows. -/
def readQuotation (s : List Char) : Except ParseError (List Char × Cut s) :=
  match s with
  | [] => .error (.unterminatedQuote '"')
  | '"' :: r => .ok ([], .one _ r)
  | '\\' :: c :: r => do
    let (value, t) ← readQuotation r
    let hidden := if isHiddenInQuotation c then [c] else ['\\', c]
    return (hidden ++ value, .cons '\\' (.cons c t))
  | '$' :: '(' :: r =>
    match afterSubstitution 1 r with
    | none => .error .unterminatedSubstitution
    | some t => do
      let (value, u) ← readQuotation t.back
      return ('$' :: '(' :: t.front ++ value, .cons '$' (.cons '(' (t.trans u)))
  | c :: r => do
    let (value, t) ← readQuotation r
    return (c :: value, .cons c t)
termination_by s.length
decreasing_by
  all_goals simp only [List.length_cons]
  all_goals try have shorter := t.length_back_lt
  all_goals omega

/-- What a piece is. -/
inductive Piece.Kind where
  /-- A part of a word that stands for `value`. -/
  | word (value : List Char)
  /-- A line continuation, which is no part of a word. -/
  | continuation
  | blank
  /-- A comment, up to the end of its line. -/
  | comment
  /-- An operator that is left to the shell which runs the segment. -/
  | operator
  | pipe
  /-- The end of a statement. -/
  | finish
  deriving Repr, DecidableEq

/-- A piece of a line, with what was typed for it and its byte offset. -/
structure Piece where
  kind : Piece.Kind
  source : List Char
  offset : Nat
  deriving Repr, DecidableEq

/-- Whether a word is open after a piece of this kind. -/
def Piece.Kind.opensWord (inWord : Bool) : Piece.Kind → Bool
  | .word _ => true
  | .continuation => inWord
  | _ => false

/-- The kind of the piece that starts with `c`, and what follows the piece. -/
def Piece.Kind.scan (inWord : Bool) (c : Char) (r : List Char) :
    Except ParseError (Piece.Kind × Cut (c :: r)) :=
  match c, r with
  | '\'', r =>
    match afterMark '\'' r with
    | none => .error (.unterminatedQuote '\'')
    | some t => .ok (.word t.front.dropLast, .cons _ t)
  | '"', r => (readQuotation r).map fun (value, t) => (.word value, .cons _ t)
  | '\\', [] => .error .trailingEscape
  | '\\', d :: r =>
    .ok (if d = '\n' then .continuation else .word [d], .cons _ (.one _ r))
  | '`', r =>
    match afterBackquote r with
    | none => .error .unterminatedSubstitution
    | some t => .ok (.word ('`' :: t.front), .cons _ t)
  | '|', '|' :: r => .ok (.operator, .cons _ (.one _ r))
  | '&', '&' :: r => .ok (.operator, .cons _ (.one _ r))
  | '$', '(' :: r =>
    match afterSubstitution 1 r with
    | none => .error .unterminatedSubstitution
    | some t => .ok (.word ('$' :: '(' :: t.front), .cons _ (.cons _ t))
  | c, r =>
    if c = '#' ∧ ¬ inWord then
      .ok (.comment, .oneAndWhile (· ≠ '\n') c r)
    else
      let kind : Piece.Kind :=
        if c = '&' then .operator
        else if c = '|' then .pipe
        else if c = ';' ∨ c = '\n' then .finish
        else if Text.isBlank c then .blank
        else .word [c]
      .ok (kind, .one _ r)

/-- The number of bytes that a text takes in UTF-8. -/
def byteLength : List Char → Nat
  | [] => 0
  | c :: r => c.utf8Size + byteLength r

/-- The pieces of a line, up to the first fault if there is one. -/
structure Lexed where
  pieces : List Piece
  fault : Option ParseError
  deriving Repr, DecidableEq

/-- Cuts a text into pieces.  `offset` is where it starts in its line, and `inWord` tells whether a
word is open there. -/
def lex (inWord : Bool) (offset : Nat) (s : List Char) : Lexed :=
  match s with
  | [] => ⟨[], none⟩
  | c :: r =>
    match Piece.Kind.scan inWord c r with
    | .error e => ⟨[], some e⟩
    | .ok (kind, t) =>
      let later := lex (kind.opensWord inWord) (offset + byteLength t.front) t.back
      { later with pieces := ⟨kind, t.front, offset⟩ :: later.pieces }
termination_by s.length
decreasing_by exact t.length_back_lt

/-- Nothing of a text is lost between its pieces. -/
theorem flatMap_source_lex {inWord : Bool} {offset : Nat} {s : List Char}
    (sound : (lex inWord offset s).fault = none) :
    (lex inWord offset s).pieces.flatMap (·.source) = s := by
  fun_induction lex inWord offset s with
  | case1 => rfl
  | case2 => cases sound
  | case3 _ _ _ _ _ t _ _ ih =>
    rw [List.flatMap_cons, ih sound, t.front_append_back]

end Flotilla.Line
