import FlatSchema.Schema.Basic
import FlatSchema.Syntax.Token

/-!
Rules for the declarations of a schema and their parts. Comments may stand in front of a
declaration, a field, a case and a closing brace, and nowhere else.
-/

namespace FlatSchema

open Rule Token

namespace Ident

def rule : Rule Ident :=
  ofSource <$> name

end Ident

namespace MetadataEntry

/-- A key, alone or with a colon and a string literal or bare value. -/
def rule : Rule MetadataEntry := do
  let key ← name
  match ← optional (symbol ":") with
  | none => return { key, value := none }
  | some () => return { key, value := some (← stringLiteral <|> Token.value) }

end MetadataEntry

namespace Metadata

/-- Entries in parentheses, at least one. -/
def rule : Rule Metadata := do
  symbol "("
  let entries ← listOf1 MetadataEntry.rule (symbol ",")
  symbol ")"
  return { entries }

/-- Metadata where it may be missing. -/
def optionalRule : Rule Metadata := do
  return (← optional rule).getD {}

end Metadata

namespace BaseType

/-- The type that a name stands for: a built-in one, or else a reference. -/
def ofName (name : String) : BaseType :=
  if name = "string" then
    .string
  else
    match Scalar.ofName? name with
    | some known => .scalar known
    | none => .reference (Ident.ofSource name)

def rule : Rule BaseType :=
  ofName <$> name

end BaseType

namespace FieldType

/-- A vector type in brackets. -/
def vectorRule : Rule FieldType := do
  symbol "["
  let base ← BaseType.rule
  symbol "]"
  return { base, isVector := true }

def rule : Rule FieldType :=
  vectorRule <|> do return { base := ← BaseType.rule, isVector := false }

end FieldType

/-- An equals sign and a bare value, or nothing. -/
def assignedValue : Rule (Option String) := do
  match ← optional (symbol "=") with
  | none => return none
  | some () => return some (← value)

namespace Field

def rule : Rule Field := do
  skipComments
  let name ← Ident.rule
  symbol ":"
  let type ← FieldType.rule
  let default ← assignedValue
  let metadata ← Metadata.optionalRule
  symbol ";"
  return { name, type, default, metadata }

end Field

namespace Record

/-- A table or a struct, by its keyword. -/
def rule (word : String) : Rule Record := do
  skipComments
  keyword word
  let name ← Ident.rule
  let metadata ← Metadata.optionalRule
  symbol "\x7b"
  let fields ← many Field.rule
  skipComments
  symbol "\x7d"
  return { name, fields, metadata }

end Record

/-- Cases in braces with commas between them, and perhaps one after the last. -/
def caseList {α : Type} (item : Rule α) : Rule (List α) := do
  symbol "\x7b"
  let cases ← listOf (skipComments *> item) (symbol ",")
  skipComments
  symbol "\x7d"
  return cases

namespace EnumCase

def rule : Rule EnumCase := do
  let name ← Ident.rule
  let value ← assignedValue
  return { name, value }

end EnumCase

namespace Enumeration

/-- An enumeration names the scalar type that holds its values. -/
def rule : Rule Enumeration := do
  skipComments
  keyword "enum"
  let name ← Ident.rule
  symbol ":"
  let base ← Token.name
  match Scalar.ofName? base with
  | none => failure
  | some base =>
    let metadata ← Metadata.optionalRule
    let cases ← caseList EnumCase.rule
    return { name, base, cases, metadata }

end Enumeration

namespace TaggedUnion

def rule : Rule TaggedUnion := do
  skipComments
  keyword "union"
  let name ← Ident.rule
  let metadata ← Metadata.optionalRule
  let cases ← caseList Ident.rule
  return { name, cases, metadata }

end TaggedUnion

end FlatSchema
