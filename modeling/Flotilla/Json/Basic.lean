/-!
# JSON values

`Json` is the value of a JSON text.  A text that breaks off or breaks the grammar still has a value
up to there: the place of the fault is marked by `broken`, so that a reader that walks the value in
order meets the first problem of the text first.
-/

namespace Flotilla

namespace Json

/-- What is wrong with a JSON text. -/
inductive Fault where
  /-- It breaks the grammar. -/
  | grammar
  /-- It is JSON, but not of the type that is asked for. -/
  | type
  /-- It ends too early. -/
  | ending
  deriving Repr, DecidableEq

end Json

/-- A JSON value.  A number keeps its literal, and an object the order of its entries. -/
inductive Json where
  | null
  | bool (b : Bool)
  | number (literal : String)
  | string (s : String)
  /-- A string with a surrogate that has no partner, which stands for no text. -/
  | loneSurrogate
  | array (items : List Json)
  | object (entries : List (String × Json))
  /-- The place where the text stops being JSON. -/
  | broken (fault : Json.Fault)
  /-- An array that is well formed up to a fault between its items. -/
  | brokenArray (items : List Json) (fault : Json.Fault)
  /-- An object that is well formed up to a fault between its entries. -/
  | brokenObject (entries : List (String × Json)) (fault : Json.Fault)
  deriving Repr, Inhabited

namespace Json

/-- The number `n`. -/
def nat (n : Nat) : Json := .number (toString n)

/-- The string if there is one, and null otherwise. -/
def ofOption (s : Option String) : Json :=
  match s with
  | some s => .string s
  | none => .null

/-- The array of strings. -/
def strings (l : List String) : Json := .array (l.map .string)

mutual

/-- The first fault in a value. -/
def fault? : Json → Option Fault
  | .broken f => some f
  | .array items => itemsFault? items
  | .object entries => entriesFault? entries
  | .brokenArray items f => some ((itemsFault? items).getD f)
  | .brokenObject entries f => some ((entriesFault? entries).getD f)
  | _ => none

/-- The first fault in a list of values. -/
def itemsFault? : List Json → Option Fault
  | [] => none
  | j :: r => fault? j <|> itemsFault? r

/-- The first fault in the values of entries. -/
def entriesFault? : List (String × Json) → Option Fault
  | [] => none
  | (_, j) :: r => fault? j <|> entriesFault? r

end

/-- The value of the last entry with a key. -/
def get? (key : String) : Json → Option Json
  | .object entries => (entries.reverse.find? (·.1 = key)).map (·.2)
  | _ => none

end Json

end Flotilla
