import FlatSchema.Schema.Assembly
import FlatSchema.Text.Position
import FlatSchema.Text.Quoted

/-!
Strict reading of a schema text: items, then comments and blanks, then the end. Anything else is
reported where it starts.
-/

namespace FlatSchema

/-- Why a text is not a schema. -/
inductive ParseError where
  /-- Something that is no item, where the last item and the comments after it end. -/
  | unexpected (snippet : String) (position : Position)
  /-- A directive that may stand once only is repeated. -/
  | repeatedDirective
  deriving DecidableEq, Repr

namespace ParseError

/-- What is wrong, in words. -/
def reason : ParseError → String
  | unexpected snippet _ => "Unexpected input " ++ Text.quoted snippet
  | repeatedDirective =>
    "Input is not a valid schema or repeats a namespace, root_type, file_identifier or " ++
      "file_extension"

/-- Where it is wrong. A repeated directive is reported for the file as a whole. -/
def position : ParseError → Position
  | unexpected _ position => position
  | repeatedDirective => { line := 1, column := 1 }

/-- The whole message, with line and column. -/
def message (error : ParseError) : String :=
  "Parse error at line " ++ toString error.position.line ++ ", column " ++
    toString error.position.column ++ ": " ++ error.reason

end ParseError

namespace Schema

/-- The offset of the first byte after the comments and blanks that follow an offset. -/
def triviaEnd (buffer : List UInt8) (offset : Nat) : Nat :=
  match Token.skipTrivia.readAt buffer offset with
  | some ((), stop) => stop
  | none => offset

/-- Accepts what was read if only comments and blanks follow it. -/
def finish (text : String) : Option (Schema × Nat) → Except ParseError Schema
  | none => .error .repeatedDirective
  | some (schema, stop) =>
    let buffer := utf8Bytes text
    let offset := triviaEnd buffer stop
    if offset < buffer.length then
      .error (.unexpected (Text.snippet text offset) (Position.ofOffset buffer offset))
    else
      .ok schema

variable {m : Type → Type} [Monad m]

/-- Reads a whole text, resolving its inclusions. -/
def compileWith (resolve : String → m (Option Schema)) (text : String) :
    m (Except ParseError Schema) := do
  return finish text (← parseWith? resolve (utf8Bytes text))

/-- Reads a whole text and leaves its inclusions unresolved. -/
def compile (text : String) : Except ParseError Schema :=
  finish text (parse? (utf8Bytes text))

end Schema

end FlatSchema
