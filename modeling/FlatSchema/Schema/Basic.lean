import FlatSchema.Schema.Ident
import FlatSchema.Schema.Scalar
import FlatSchema.Text.Title

/-!
What a schema file says. Literals keep the text that stands in the file: numbers are not
evaluated and the escapes of string literals are not decoded.

A `Document` is the content of one file. A `Schema` is a document together with the schemas that
its includes led to, so it is a tree.
-/

namespace FlatSchema

inductive BaseType where
  | scalar (scalar : Scalar)
  | string
  /-- The name of a declaration, which may or may not exist. -/
  | reference (name : Ident)
  deriving DecidableEq, Repr

structure FieldType where
  base : BaseType
  isVector : Bool
  deriving DecidableEq, Repr

/-- The name that a type refers to, if it is not built in. -/
def FieldType.reference? (type : FieldType) : Option Ident :=
  match type.base with
  | .reference name => some name
  | _ => none

structure MetadataEntry where
  key : String
  value : Option String
  deriving DecidableEq, Repr

/-- The parenthesised annotations of a declaration or a field, empty where there are none. -/
structure Metadata where
  entries : List MetadataEntry := []
  deriving DecidableEq, Repr

def Metadata.contains (metadata : Metadata) (key : String) : Bool :=
  metadata.entries.any (·.key == key)

structure Field where
  name : Ident
  type : FieldType
  default : Option String
  metadata : Metadata
  deriving DecidableEq, Repr

def Field.isDeprecated (field : Field) : Bool :=
  field.metadata.contains "deprecated"

/-- A table or a struct: the two are written alike and differ in how they are used. -/
structure Record where
  name : Ident
  fields : List Field
  metadata : Metadata
  deriving DecidableEq, Repr

/-- The names that the fields refer to, in field order. -/
def Record.references (record : Record) : List Ident :=
  record.fields.filterMap (·.type.reference?)

structure EnumCase where
  name : Ident
  value : Option String
  deriving DecidableEq, Repr

structure Enumeration where
  name : Ident
  base : Scalar
  cases : List EnumCase
  metadata : Metadata
  deriving DecidableEq, Repr

/-- A choice between declarations, named by its cases. -/
structure TaggedUnion where
  name : Ident
  cases : List Ident
  metadata : Metadata
  deriving DecidableEq, Repr

structure Namespace where
  parts : List Ident
  deriving DecidableEq, Repr

/-- The name of the container type: every part in title case, without separators. -/
def Namespace.container (nameSpace : Namespace) : String :=
  String.join (nameSpace.parts.map fun part => Text.titleCase part.text)

/-- The content of one schema file. -/
structure Document where
  includes : List String := []
  nameSpace : Option Namespace := none
  rootType : Option Ident := none
  fileIdentifier : Option String := none
  fileExtension : Option String := none
  attributes : List String := []
  tables : List Record := []
  structs : List Record := []
  enums : List Enumeration := []
  unions : List TaggedUnion := []
  deriving DecidableEq, Repr

/-- A document with the schemas that its includes were resolved to, in the order of inclusion. -/
structure Schema where
  document : Document
  children : List Schema
  deriving Repr

namespace Schema

mutual

/-- Schemas are equal when their documents are and their children are, one by one. -/
def decideEq : (first second : Schema) → Decidable (first = second)
  | ⟨document, children⟩, ⟨document', children'⟩ =>
    if equal : document = document' then
      match decideEqAll children children' with
      | isTrue equal' => isTrue (by rw [equal, equal'])
      | isFalse different => isFalse fun equal' => different (congrArg Schema.children equal')
    else
      isFalse fun equal' => equal (congrArg Schema.document equal')

def decideEqAll : (first second : List Schema) → Decidable (first = second)
  | [], [] => isTrue rfl
  | [], _ :: _ => isFalse nofun
  | _ :: _, [] => isFalse nofun
  | schema :: rest, schema' :: rest' =>
    match decideEq schema schema' with
    | isFalse different => isFalse fun equal => different (List.cons.inj equal).1
    | isTrue equal =>
      match decideEqAll rest rest' with
      | isFalse different => isFalse fun equal' => different (List.cons.inj equal').2
      | isTrue equal' => isTrue (by rw [equal, equal'])

end

instance : DecidableEq Schema := decideEq

/-- The container of the schema's own namespace, empty where it declares none. -/
def container (schema : Schema) : String :=
  (schema.document.nameSpace.map (·.container)).getD ""

end Schema

end FlatSchema
