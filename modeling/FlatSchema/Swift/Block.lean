import FlatSchema.Scope.Basic
import FlatSchema.Text.Byte
import FlatSchema.Text.Lines

/-!
Swift text of single declarations. Each declaration gives one block that ends in a line end. With
a namespace the block is nested in an extension of the namespace's container type, and every type
that the schema declares is written with the container in front. A block says nothing about which
other declarations are emitted.
-/

namespace FlatSchema.Swift

/-- What the text of a declaration depends on besides the declaration itself. -/
structure Context where
  scope : Scope
  /-- The container type of the namespace, empty without a namespace. -/
  container : String
  /-- Whether the root table binds late references before it finishes. -/
  lateBinding : Bool

def scalarType : Scalar → String
  | .bool => "Bool"
  | .int8 => "Int8"
  | .uint8 => "UInt8"
  | .int16 => "Int16"
  | .uint16 => "UInt16"
  | .int32 => "Int32"
  | .uint32 => "UInt32"
  | .int64 => "Int64"
  | .uint64 => "UInt64"
  | .float32 => "Float32"
  | .float64 => "Double"

/-- The value of a scalar property without a default of its own. -/
def zeroValue (scalar : Scalar) : String :=
  if scalar = .bool then "false" else if scalar.isFloat then "0.0" else "0"

/-- A default of a scalar field; for a boolean, zero and one are read as truth values. -/
def scalarValue (scalar : Scalar) : Option String → String
  | none => zeroValue scalar
  | some value =>
    if scalar = .bool ∧ value = "0" then "false"
    else if scalar = .bool ∧ value = "1" then "true"
    else value

/-- Whether a default reads as the name of a case rather than as a number. -/
def isCaseName (value : String) : Bool :=
  (utf8Bytes value).head?.any Byte.isNameStart

/-- A file identifier as a Swift literal. -/
def fileIdentifierText : Option String → String
  | some text => "\"" ++ text ++ "\""
  | none => "nil"

/-- Lines as text, each with a line end. -/
def block (lines : List String) : String :=
  "\n".intercalate lines ++ "\n"

namespace Context

/-- A declared type as it is named from outside its container. -/
def typeName (context : Context) (name : String) : String :=
  if context.container.isEmpty then name else context.container ++ "." ++ name

def baseText (context : Context) : BaseType → String
  | .scalar scalar => scalarType scalar
  | .string => "String"
  | .reference name => context.typeName name.text

def typeText (context : Context) (type : FieldType) : String :=
  if type.isVector then "[" ++ context.baseText type.base ++ "]" else context.baseText type.base

/-- Nests a block in the container of the namespace. -/
def nest (context : Context) (text : String) : String :=
  if context.container.isEmpty then
    text
  else
    "extension " ++ context.container ++ " \x7b\n" ++ Text.indent text ++ "\n\x7d\n"

/-- The type and initial value of a property of a table, from the colon on. -/
def propertyText (context : Context) (field : Field) : String :=
  let type := context.typeText field.type
  if field.type.isVector then
    type ++ " = []"
  else
    match field.type.base with
    | .scalar scalar => type ++ " = " ++ scalarValue scalar field.default
    | .string => type ++ "?"
    | .reference name =>
      match context.scope.resolve? name.text, field.default with
      | some (.enumeration _), some value =>
        if isCaseName value then
          type ++ " = ." ++ (Ident.ofSource value).text
        else
          type ++ "? = " ++ type ++ "(rawValue: " ++ value ++ ")"
      | _, _ => type ++ "?"

def property (context : Context) (field : Field) : String :=
  "public var " ++ field.name.text ++ ": " ++ context.propertyText field

/-- The lines of the class of a table. Deprecated fields have no property. -/
def tableLines (context : Context) (table : Record) : List String :=
  ["public final class " ++ table.name.text ++ " \x7b"] ++
    (table.fields.filter (!·.isDeprecated)).map (fun field => "    " ++ context.property field) ++
    ["    public init() \x7b\x7d", "\x7d"]

/-- The lines of the function that finishes a buffer. -/
def finishLines (lateBinding : Bool) : List String :=
  ["    public static func finish(_ builder: FlatBuffersBuilder, offset: Offset) throws " ++
     "-> Data \x7b"] ++
  (if lateBinding then ["        try performLateBindings(builder)"] else []) ++
  ["        return try builder.finish(offset: offset, fileIdentifier: fileIdentifier)",
   "    \x7d"]

/-- The lines of the members that only the root table has: its file identifier and how a buffer is
finished. They stand outside the container. -/
def rootLines (context : Context) (table : Record) (fileIdentifier : Option String) :
    List String :=
  ["extension " ++ context.typeName table.name.text ++ " \x7b",
   "    public static let fileIdentifier: String? = " ++ fileIdentifierText fileIdentifier] ++
  finishLines context.lateBinding ++ ["\x7d"]

def table (context : Context) (table : Record) (isRoot : Bool) (fileIdentifier : Option String) :
    String :=
  context.nest (block (context.tableLines table)) ++
    (if isRoot then block (context.rootLines table fileIdentifier) else "")

/-- The lines of a struct with one initializer that takes every field that is not deprecated. -/
def structLines (context : Context) (struct : Record) : List String :=
  let fields := (struct.fields.filter (!·.isDeprecated)).map fun field =>
    (field.name.text, context.typeText field.type)
  ["public struct " ++ struct.name.text ++ " \x7b"] ++
    fields.map (fun (name, type) => "    public var " ++ name ++ ": " ++ type) ++
    ["",
     "    public init(" ++
       ", ".intercalate (fields.map fun (name, type) => name ++ ": " ++ type) ++ ") \x7b"] ++
    fields.map (fun (name, _) => "        self." ++ name ++ " = " ++ name) ++
    ["    \x7d", "\x7d"]

def struct (context : Context) (struct : Record) : String :=
  context.nest (block (context.structLines struct))

def caseLine (enumCase : EnumCase) : String :=
  "    case " ++ enumCase.name.text ++
    (match enumCase.value with
     | some value => " = " ++ value
     | none => "")

def enumerationLines (enumeration : Enumeration) : List String :=
  ["public enum " ++ enumeration.name.text ++ ": " ++ scalarType enumeration.base ++
      ", CaseIterable \x7b"] ++
    enumeration.cases.map caseLine ++
    ["\x7d"]

def enumeration (context : Context) (enumeration : Enumeration) : String :=
  context.nest (block (enumerationLines enumeration))

/-- The lines of a union, which is an enumeration whose cases carry the declarations that they
name. -/
def unionLines (context : Context) (union : TaggedUnion) : List String :=
  ["public enum " ++ union.name.text ++ " \x7b"] ++
    union.cases.map (fun name =>
      "    case with" ++ name.text ++ "(" ++ context.typeName name.text ++ ")") ++
    ["\x7d"]

def union (context : Context) (union : TaggedUnion) : String :=
  context.nest (block (context.unionLines union))

end Context

end FlatSchema.Swift
