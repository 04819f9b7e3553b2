import Flotilla.Json.Basic
import Flotilla.Text.Hex

/-!
# Reading JSON

`Json.parse` reads a text as one JSON value.  It always answers: a fault ends the value where it
stands.  `readString` reads what follows an opening quotation mark and undoes `escapeChar`.
-/

namespace Flotilla.Json

/-- JSON's blanks. -/
def isSpace (c : Char) : Bool := c = ' ' || c = '\n' || c = '\t' || c = '\r'

/-- The text without the blanks it starts with. -/
def skipSpace (s : List Char) : List Char := s.dropWhile isSpace

/-- Reads four hexadecimal digits. -/
def readHex (s : List Char) : Except Fault Nat :=
  if s.length < 4 then .error .ending
  else match Hex.number? (s.take 4) with
    | some n => .ok n
    | none => .error .grammar

/-- The character that a one-letter escape stands for. -/
def unescape? (c : Char) : Option Char :=
  match c with
  | '"' | '\\' | '/' => some c
  | 'b' => some '\x08'
  | 't' => some '\t'
  | 'n' => some '\n'
  | 'f' => some '\x0c'
  | 'r' => some '\r'
  | _ => none

/-- The contents of a string. -/
structure Contents where
  chars : List Char
  /-- Whether a surrogate without a partner occurs. -/
  lone : Bool := false

/-- Puts a character in front. -/
def Contents.cons (c : Char) (t : Contents) : Contents := { t with chars := c :: t.chars }

/-- Reads a string up to its closing quotation mark.  A surrogate that has no partner is noted. -/
def readString (fuel : Nat) (s : List Char) : Except Fault (Contents × List Char) :=
  match fuel, s with
  | _, [] => .error .ending
  | 0, _ => .error .ending
  | fuel + 1, c :: r =>
    if c = '"' then .ok (⟨[], false⟩, r)
    else if c ≠ '\\' then
      if c.toNat < 0x20 then .error .grammar
      else (readString fuel r).map fun (t, rest) => (t.cons c, rest)
    else match r with
      | [] => .error .ending
      | 'u' :: r => do
        let n ← readHex r
        let r := r.drop 4
        if n < 0xD800 ∨ 0xDFFF < n then
          (readString fuel r).map fun (t, rest) => (t.cons (Char.ofNat n), rest)
        else
          let partner := match r with
            | '\\' :: 'u' :: q => (readHex q).toOption.filter fun m => 0xDC00 ≤ m ∧ m ≤ 0xDFFF
            | _ => none
          match partner with
          | some m =>
            if n < 0xDC00 then
              let code := 0x10000 + (n - 0xD800) * 0x400 + (m - 0xDC00)
              (readString fuel (r.drop 6)).map fun (t, rest) => (t.cons (Char.ofNat code), rest)
            else (readString fuel r).map fun (t, rest) => ({ t with lone := true }, rest)
          | none => (readString fuel r).map fun (t, rest) => ({ t with lone := true }, rest)
      | e :: r =>
        match unescape? e with
        | some c => (readString fuel r).map fun (t, rest) => (t.cons c, rest)
        | none => .error .grammar

/-- Reads digits, at least one. -/
def readDigits (s : List Char) : Except Fault (List Char × List Char) :=
  match s with
  | [] => .error .ending
  | c :: _ =>
    if c.isDigit then .ok (s.takeWhile Char.isDigit, s.dropWhile Char.isDigit)
    else .error .grammar

/-- Reads the whole part of a number, which starts with a zero only if it is zero. -/
def readWhole (s : List Char) : Except Fault (List Char × List Char) := do
  let (digits, rest) ← readDigits s
  if digits.length > 1 ∧ digits.head? = some '0' then throw .grammar
  return (digits, rest)

/-- Reads a number: its literal, and what follows. -/
def readNumber (s : List Char) : Except Fault (List Char × List Char) := do
  let (sign, s) := match s with
    | '-' :: r => (['-'], r)
    | s => ([], s)
  let (whole, s) ← readWhole s
  let (fraction, s) ← match s with
    | '.' :: r => (readDigits r).map fun (d, rest) => ('.' :: d, rest)
    | s => pure ([], s)
  let (exponent, s) ← match s with
    | 'e' :: r | 'E' :: r =>
      let (sign, r) := match r with
        | '+' :: r => (['+'], r)
        | '-' :: r => (['-'], r)
        | r => ([], r)
      (readDigits r).map fun (d, rest) => ('e' :: sign ++ d, rest)
    | s => pure ([], s)
  return (sign ++ whole ++ fraction ++ exponent, s)

/-- Checks that `s` starts with `word`, and returns what follows. -/
def readWord : (word s : List Char) → Except Fault (List Char)
  | [], s => .ok s
  | _ :: _, [] => .error .ending
  | c :: word, d :: s => if c = d then readWord word s else .error .grammar

/-- A value and what follows it, or a value that breaks off. -/
abbrev Partial := Json × Option (List Char)

/-- The partial value of a scalar. -/
def scalar (r : Except Fault (Json × List Char)) : Partial :=
  match r with
  | .ok (j, rest) => (j, some rest)
  | .error f => (.broken f, none)

/-- The value of a string's contents. -/
def ofContents (t : Contents) : Json :=
  if t.lone then .loneSurrogate else .string (String.ofList t.chars)

mutual

/-- Reads one value. -/
def readValue (fuel : Nat) (s : List Char) : Partial :=
  match fuel with
  | 0 => (.broken .ending, none)
  | fuel + 1 =>
    match skipSpace s with
    | [] => (.broken .ending, none)
    | 'n' :: r => scalar ((readWord "ull".toList r).map (.null, ·))
    | 't' :: r => scalar ((readWord "rue".toList r).map (.bool true, ·))
    | 'f' :: r => scalar ((readWord "alse".toList r).map (.bool false, ·))
    | '"' :: r => scalar ((readString r.length r).map fun (t, rest) => (ofContents t, rest))
    | '[' :: r =>
      match skipSpace r with
      | ']' :: rest => (.array [], some rest)
      | [] => (.brokenArray [] .ending, none)
      | r => readItems fuel [] r
    | '{' :: r =>
      match skipSpace r with
      | '}' :: rest => (.object [], some rest)
      | r => readEntries fuel [] r
    | c :: r =>
      if c = '-' ∨ c.isDigit then
        scalar ((readNumber (c :: r)).map fun (l, rest) => (.number (String.ofList l), rest))
      else (.broken .grammar, none)

/-- Reads the items of an array, of which `before` are read. -/
def readItems (fuel : Nat) (before : List Json) (s : List Char) : Partial :=
  match fuel with
  | 0 => (.broken .ending, none)
  | fuel + 1 =>
    match readValue fuel s with
    | (j, none) => (.array (before ++ [j]), none)
    | (j, some rest) =>
      match skipSpace rest with
      | ']' :: rest => (.array (before ++ [j]), some rest)
      | ',' :: rest =>
        match skipSpace rest with
        | [] => (.brokenArray (before ++ [j]) .ending, none)
        | ']' :: _ => (.brokenArray (before ++ [j]) .grammar, none)
        | rest => readItems fuel (before ++ [j]) rest
      | [] => (.brokenArray (before ++ [j]) .ending, none)
      | _ => (.brokenArray (before ++ [j]) .grammar, none)

/-- Reads the entries of an object, of which `before` are read. -/
def readEntries (fuel : Nat) (before : List (String × Json)) (s : List Char) : Partial :=
  match fuel with
  | 0 => (.broken .ending, none)
  | fuel + 1 =>
    match s with
    | '"' :: r =>
      match readString r.length r with
      | .error f => (.brokenObject before f, none)
      | .ok (⟨_, true⟩, _) => (.brokenObject before .grammar, none)
      | .ok (⟨key, false⟩, rest) =>
        let key := String.ofList key
        match skipSpace rest with
        | ':' :: rest =>
          match readValue fuel rest with
          | (j, none) => (.object (before ++ [(key, j)]), none)
          | (j, some rest) =>
            let before := before ++ [(key, j)]
            match skipSpace rest with
            | '}' :: rest => (.object before, some rest)
            | ',' :: rest =>
              match skipSpace rest with
              | [] => (.brokenObject before .ending, none)
              | rest => readEntries fuel before rest
            | [] => (.brokenObject before .ending, none)
            | _ => (.brokenObject before .grammar, none)
        | [] => (.object (before ++ [(key, .broken .ending)]), none)
        | _ => (.object (before ++ [(key, .broken .grammar)]), none)
    | [] => (.brokenObject before .ending, none)
    | _ => (.brokenObject before .grammar, none)

end

/-- What a JSON text holds: its value, and the fault of a text that goes on after it. -/
structure Document where
  value : Json
  trailing : Option Fault := none

/-- Reads a text as one JSON value. -/
def parse (s : String) : Document :=
  match readValue (2 * s.length + 2) s.toList with
  | (j, none) => { value := j }
  | (j, some rest) => ⟨j, if skipSpace rest = [] then none else some .grammar⟩

end Flotilla.Json
