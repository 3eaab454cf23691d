/-!
JSON values without numbers, and their text. Members of an object keep their order. The text is
laid out over lines with two spaces for each level; empty arrays and objects stay on one line.
-/

namespace FlatSchema

inductive Json where
  | null
  | bool (value : Bool)
  | string (text : String)
  | array (items : List Json)
  | object (members : List (String × Json))
  deriving Repr, Inhabited

namespace Json

/-- How one character is written in a string: quotes, backslashes and controls are escaped. -/
def escapeChar (character : Char) : List Char :=
  match character with
  | '"' => ['\\', '"']
  | '\\' => ['\\', '\\']
  | '\x08' => ['\\', 'b']
  | '\x0c' => ['\\', 'f']
  | '\n' => ['\\', 'n']
  | '\r' => ['\\', 'r']
  | '\t' => ['\\', 't']
  | _ =>
    if character.toNat < 32 then
      "\\u00".toList ++
        [Nat.digitChar (character.toNat / 16), Nat.digitChar (character.toNat % 16)]
    else
      [character]

def renderString (text : String) : String :=
  "\"" ++ String.ofList (text.toList.flatMap escapeChar) ++ "\""

/-- A line end and the indentation of the next line. -/
def newline (depth : Nat) : String :=
  "\n" ++ String.ofList (List.replicate (2 * depth) ' ')

mutual

/-- The text of a value that starts at a level of nesting. -/
def renderAt (depth : Nat) : Json → String
  | null => "null"
  | bool value => if value then "true" else "false"
  | string text => renderString text
  | array [] => "[]"
  | array (item :: items) =>
    "[" ++ newline (depth + 1) ++ renderAt (depth + 1) item ++ renderItems (depth + 1) items ++
      newline depth ++ "]"
  | object [] => "\x7b\x7d"
  | object ((key, value) :: members) =>
    "\x7b" ++ newline (depth + 1) ++ renderString key ++ ": " ++ renderAt (depth + 1) value ++
      renderMembers (depth + 1) members ++ newline depth ++ "\x7d"

/-- The items after the first one, each on a line of its own. -/
def renderItems (depth : Nat) : List Json → String
  | [] => ""
  | item :: items => "," ++ newline depth ++ renderAt depth item ++ renderItems depth items

/-- The members after the first one, each on a line of its own. -/
def renderMembers (depth : Nat) : List (String × Json) → String
  | [] => ""
  | (key, value) :: members =>
    "," ++ newline depth ++ renderString key ++ ": " ++ renderAt depth value ++
      renderMembers depth members

end

def render (value : Json) : String :=
  renderAt 0 value

/-- The value inside an option, or null. -/
def ofOption {α : Type} (encode : α → Json) : Option α → Json
  | none => null
  | some value => encode value

/-- The encoded elements of a list. -/
def ofList {α : Type} (encode : α → Json) (values : List α) : Json :=
  array (values.map encode)

end Json

end FlatSchema
