import Arbiter.Text.Hex

/-!
# JSON values

Values of the JSON format and their compact text.  Integers are kept as integers; any other number
is kept as the text it was written with.
-/

namespace Arbiter

/-- A JSON value. -/
inductive Json where
  | null
  | bool (b : Bool)
  /-- An integer of sixty-four bits, with or without a sign. -/
  | integer (n : Int)
  /-- Any other number, as it is written. -/
  | decimal (text : String)
  | string (s : String)
  | array (items : List Json)
  | object (fields : List (String × Json))
  deriving Inhabited

namespace Json

/-- A natural number. -/
def nat (n : Nat) : Json :=
  .integer n

/-- A value that may be missing. -/
def optional (f : α → Json) : Option α → Json
  | none => .null
  | some a => f a

/-- A list of values of one kind. -/
def list (f : α → Json) (items : List α) : Json :=
  .array (items.map f)

/-- The value under a name; of equal names the last one counts. -/
def field? (name : String) : Json → Option Json
  | .object fields => (fields.reverse.find? (·.1 == name)).map (·.2)
  | _ => none

/-- How a character is written inside a text. -/
def escapeChar (c : Char) : List Char :=
  if c = '"' then ['\\', '"']
  else if c = '\\' then ['\\', '\\']
  else if c = '\n' then ['\\', 'n']
  else if c = '\r' then ['\\', 'r']
  else if c = '\t' then ['\\', 't']
  else if c.toNat = 8 then ['\\', 'b']
  else if c.toNat = 12 then ['\\', 'f']
  else if c.toNat < 32 then
    ['\\', 'u', '0', '0', Text.Hex.digit (c.toNat / 16), Text.Hex.digit (c.toNat % 16)]
  else [c]

/-- A text in quotes. -/
def quote (s : String) : String :=
  if s.toList.all fun c => 32 ≤ c.toNat && c != '"' && c != '\\' then "\"" ++ s ++ "\""
  else "\"" ++ String.ofList (s.toList.flatMap escapeChar) ++ "\""

mutual

/-- Writes a value behind a text, without blanks. -/
def renderOnto (acc : String) : Json → String
  | .null => acc ++ "null"
  | .bool true => acc ++ "true"
  | .bool false => acc ++ "false"
  | .integer n => acc ++ toString n
  | .decimal text => acc ++ text
  | .string s => acc ++ quote s
  | .array items => renderItems (acc ++ "[") items ++ "]"
  | .object fields => renderFields (acc ++ "\x7b") fields ++ "\x7d"

/-- Writes the items of an array. -/
def renderItems (acc : String) : List Json → String
  | [] => acc
  | [item] => renderOnto acc item
  | item :: rest => renderItems (renderOnto acc item ++ ",") rest

/-- Writes the fields of an object. -/
def renderFields (acc : String) : List (String × Json) → String
  | [] => acc
  | [(name, value)] => renderOnto (acc ++ quote name ++ ":") value
  | (name, value) :: rest => renderFields (renderOnto (acc ++ quote name ++ ":") value ++ ",") rest

end

/-- The text of a value, without blanks. -/
def render (value : Json) : String :=
  renderOnto "" value

/-- The text of a value whose fields stand on lines of their own; the values of the fields are
written without blanks. -/
def renderLines (fields : List (String × Json)) : String :=
  "\x7b\n" ++ ",\n".intercalate (fields.map fun (name, value) =>
    "  " ++ quote name ++ ": " ++ value.render) ++ "\n\x7d"

end Json

end Arbiter
