/-
  Pushdown/Text/Json.lean
  =======================
  **JSON values and their one-line text.**  The debugger's machine-readable
  output is one JSON object per line: no spaces, the fields of an object in
  ascending order of their names, and only the quote, the backslash and the
  controls below the space escaped, so a line break never stands inside a line.
-/

namespace Pushdown.Text

/-- A JSON value whose numbers are whole. -/
inductive Json where
  | null
  | bool (b : Bool)
  | number (n : Int)
  | text (s : String)
  | array (items : List Json)
  | object (fields : List (String × Json))
deriving Repr

namespace Json

/-! ### Objects -/

/-- Put a field in front of the first one whose name is not smaller. -/
def insertField (name : String) (value : Json) :
    List (String × Json) → List (String × Json)
  | [] => [(name, value)]
  | (n, v) :: rest =>
    if name ≤ n then (name, value) :: (n, v) :: rest
    else (n, v) :: insertField name value rest

/-- An object of the given fields, in ascending order of their names. -/
def record (fields : List (String × Json)) : Json :=
  .object (fields.foldr (fun f acc => insertField f.1 f.2 acc) [])

def ofNat (n : Nat) : Json := .number n

/-- A list of texts. -/
def texts (items : List String) : Json := .array (items.map .text)

/-- The value, or `null` for nothing. -/
def ofOption {α : Type} (f : α → Json) : Option α → Json
  | some a => f a
  | none => .null

/-! ### Printing -/

/-- The written form of one character inside a JSON string. -/
def escape (c : Char) : List Char :=
  match c with
  | '"' => ['\\', '"']
  | '\\' => ['\\', '\\']
  | '\x08' => ['\\', 'b']
  | '\t' => ['\\', 't']
  | '\n' => ['\\', 'n']
  | '\x0c' => ['\\', 'f']
  | '\r' => ['\\', 'r']
  | _ =>
    if c.toNat < 0x20 then
      ['\\', 'u', '0', '0', Nat.digitChar (c.toNat / 16), Nat.digitChar (c.toNat % 16)]
    else [c]

def printText (s : String) : List Char :=
  '"' :: s.toList.flatMap escape ++ ['"']

mutual

/-- The compact text of a value. -/
def print : Json → List Char
  | .null => "null".toList
  | .bool true => "true".toList
  | .bool false => "false".toList
  | .number n => (toString n).toList
  | .text s => printText s
  | .array items => '[' :: printItems items ++ [']']
  | .object fields => '\x7b' :: printFields fields ++ ['\x7d']

def printItems : List Json → List Char
  | [] => []
  | [v] => print v
  | v :: w :: rest => print v ++ ',' :: printItems (w :: rest)

def printFields : List (String × Json) → List Char
  | [] => []
  | [(name, v)] => printText name ++ ':' :: print v
  | (name, v) :: f :: rest => printText name ++ ':' :: print v ++ ',' :: printFields (f :: rest)

end

/-- The compact text of a value, as a string. -/
def render (v : Json) : String := String.ofList v.print

end Json

end Pushdown.Text
