import FlatSchema.Json.Basic
import FlatSchema.Schema.Basic

/-!
The JSON form of a schema. All members are always there; what a schema lacks is null. A base type
is tagged by its kind.
-/

namespace FlatSchema

open Json

def Ident.toJson (ident : Ident) : Json :=
  string ident.text

/-- The name of a scalar type in the JSON form. -/
def Scalar.tag : Scalar → String
  | bool => "Bool"
  | int8 => "Int8"
  | uint8 => "UInt8"
  | int16 => "Int16"
  | uint16 => "UInt16"
  | int32 => "Int32"
  | uint32 => "UInt32"
  | int64 => "Int64"
  | uint64 => "UInt64"
  | float32 => "Float32"
  | float64 => "Float64"

def Scalar.toJson (scalar : Scalar) : Json :=
  string scalar.tag

def BaseType.toJson : BaseType → Json
  | .scalar kind => object [("Scalar", kind.toJson)]
  | .string => Json.string "String"
  | .reference name => object [("Ref", name.toJson)]

def FieldType.toJson (type : FieldType) : Json :=
  object [("base", type.base.toJson), ("is_vector", bool type.isVector)]

def MetadataEntry.toJson (entry : MetadataEntry) : Json :=
  object [("key", string entry.key), ("value", ofOption string entry.value)]

def Metadata.toJson (metadata : Metadata) : Json :=
  object [("entries", ofList MetadataEntry.toJson metadata.entries)]

def Field.toJson (field : Field) : Json :=
  object [("name", field.name.toJson), ("type_", field.type.toJson),
    ("default", ofOption string field.default), ("metadata", field.metadata.toJson)]

def Record.toJson (record : Record) : Json :=
  object [("name", record.name.toJson), ("fields", ofList Field.toJson record.fields),
    ("metadata", record.metadata.toJson)]

def EnumCase.toJson (enumCase : EnumCase) : Json :=
  object [("name", enumCase.name.toJson), ("value", ofOption string enumCase.value)]

def Enumeration.toJson (enumeration : Enumeration) : Json :=
  object [("name", enumeration.name.toJson), ("base", enumeration.base.toJson),
    ("cases", ofList EnumCase.toJson enumeration.cases),
    ("metadata", enumeration.metadata.toJson)]

/-- A case of a union is an object with the name of the declaration it holds. -/
def unionCaseToJson (name : Ident) : Json :=
  object [("value", name.toJson)]

def TaggedUnion.toJson (union : TaggedUnion) : Json :=
  object [("name", union.name.toJson), ("cases", ofList unionCaseToJson union.cases),
    ("metadata", union.metadata.toJson)]

/-- The path of an include as a member of its own object. -/
def includeToJson (path : String) : Json :=
  object [("path", string path)]

/-- The literal of an attribute, a file identifier or a file extension. -/
def literalToJson (text : String) : Json :=
  object [("value", string text)]

def Namespace.toJson (nameSpace : Namespace) : Json :=
  object [("parts", ofList Ident.toJson nameSpace.parts)]

def rootTypeToJson (name : Ident) : Json :=
  object [("ident", name.toJson)]

/-- The members that describe the file itself, in their fixed order. -/
def Document.members (document : Document) : List (String × Json) :=
  [("includes", ofList includeToJson document.includes),
   ("namespace", ofOption Namespace.toJson document.nameSpace),
   ("root_type", ofOption rootTypeToJson document.rootType),
   ("file_ident", ofOption literalToJson document.fileIdentifier),
   ("file_extension", ofOption literalToJson document.fileExtension),
   ("attributes", ofList literalToJson document.attributes),
   ("tables", ofList Record.toJson document.tables),
   ("structs", ofList Record.toJson document.structs),
   ("enums", ofList Enumeration.toJson document.enums),
   ("unions", ofList TaggedUnion.toJson document.unions)]

namespace Schema

mutual

/-- The members of the file, and after them the included schemas. -/
def toJson : Schema → Json
  | ⟨document, children⟩ =>
    object (document.members ++ [("children", array (childrenToJson children))])

def childrenToJson : List Schema → List Json
  | [] => []
  | child :: children => child.toJson :: childrenToJson children

end

/-- The text of the JSON form. -/
def dump (schema : Schema) : String :=
  schema.toJson.render

end Schema

end FlatSchema
