import FlatSchema.Json.Dump
import FlatSchema.Proofs.Json.Reader

/-!
Schemas from their JSON form. Every part of a schema has a decoder that takes back what its encoder
gave: members are found by their keys, null stands for what is absent, and a base type is known by its
tag. With the reader of texts, a schema is taken back from its dump, so the dump loses nothing.
-/

namespace FlatSchema

namespace Json

/-- The member of an object that has a key. -/
def member? (value : Json) (key : String) : Option Json :=
  match value with
  | object members => members.lookup key
  | _ => none

def string? : Json → Option String
  | string text => some text
  | _ => none

def bool? : Json → Option Bool
  | bool value => some value
  | _ => none

section Containers

variable {α : Type} (decode : Json → Option α)

def list? : Json → Option (List α)
  | array items => items.mapM decode
  | _ => none

/-- Null stands for nothing. -/
def option? : Json → Option (Option α)
  | null => some none
  | value => (decode value).map some

variable {decode} {encode : α → Json}

theorem list?_ofList (decodes : ∀ value, decode (encode value) = some value) (values : List α) :
    list? decode (ofList encode values) = some values := by
  unfold list? ofList
  induction values with
  | nil => rfl
  | cons value values inductionHypothesis => simp [decodes, inductionHypothesis]

/-- No value is encoded as null if null is not decoded. -/
theorem option?_ofOption (decodes : ∀ value, decode (encode value) = some value)
    (notNull : decode null = none) (value? : Option α) :
    option? decode (ofOption encode value?) = some value? := by
  cases value? with
  | none => rfl
  | some value =>
    have present : encode value ≠ null := by
      intro isNull
      have decoded := decodes value
      rw [isNull, notNull] at decoded
      cases decoded
    rw [ofOption, option?]
    · rw [decodes, Option.map_some]
    · exact present

end Containers

end Json

open Json

def Ident.ofJson? (value : Json) : Option Ident :=
  value.string?.map Ident.mk

/-- The scalar with a name in the JSON form. -/
def Scalar.ofTag? (tag : String) : Option Scalar :=
  [bool, int8, uint8, int16, uint16, int32, uint32, int64, uint64, float32, float64].find?
    (·.tag = tag)

def Scalar.ofJson? (value : Json) : Option Scalar :=
  value.string?.bind ofTag?

/-- A tagged value is the only member of its object. -/
def BaseType.ofJson? : Json → Option BaseType
  | .string "String" => some .string
  | .object [("Scalar", kind)] => (Scalar.ofJson? kind).map .scalar
  | .object [("Ref", name)] => (Ident.ofJson? name).map .reference
  | _ => none

def FieldType.ofJson? (value : Json) : Option FieldType := do
  let base ← BaseType.ofJson? (← value.member? "base")
  let isVector ← (← value.member? "is_vector").bool?
  return { base, isVector }

def MetadataEntry.ofJson? (value : Json) : Option MetadataEntry := do
  let key ← (← value.member? "key").string?
  let value ← option? string? (← value.member? "value")
  return { key, value }

def Metadata.ofJson? (value : Json) : Option Metadata := do
  let entries ← list? MetadataEntry.ofJson? (← value.member? "entries")
  return { entries }

def Field.ofJson? (value : Json) : Option Field := do
  let name ← Ident.ofJson? (← value.member? "name")
  let type ← FieldType.ofJson? (← value.member? "type_")
  let default ← option? string? (← value.member? "default")
  let metadata ← Metadata.ofJson? (← value.member? "metadata")
  return { name, type, default, metadata }

def Record.ofJson? (value : Json) : Option Record := do
  let name ← Ident.ofJson? (← value.member? "name")
  let fields ← list? Field.ofJson? (← value.member? "fields")
  let metadata ← Metadata.ofJson? (← value.member? "metadata")
  return { name, fields, metadata }

def EnumCase.ofJson? (value : Json) : Option EnumCase := do
  let name ← Ident.ofJson? (← value.member? "name")
  let value ← option? string? (← value.member? "value")
  return { name, value }

def Enumeration.ofJson? (value : Json) : Option Enumeration := do
  let name ← Ident.ofJson? (← value.member? "name")
  let base ← Scalar.ofJson? (← value.member? "base")
  let cases ← list? EnumCase.ofJson? (← value.member? "cases")
  let metadata ← Metadata.ofJson? (← value.member? "metadata")
  return { name, base, cases, metadata }

/-- What stands in an object with one member. -/
def soleMember? {α : Type} (key : String) (decode : Json → Option α) (value : Json) : Option α := do
  decode (← value.member? key)

def TaggedUnion.ofJson? (value : Json) : Option TaggedUnion := do
  let name ← Ident.ofJson? (← value.member? "name")
  let cases ← list? (soleMember? "value" Ident.ofJson?) (← value.member? "cases")
  let metadata ← Metadata.ofJson? (← value.member? "metadata")
  return { name, cases, metadata }

def Namespace.ofJson? (value : Json) : Option Namespace := do
  let parts ← list? Ident.ofJson? (← value.member? "parts")
  return { parts }

def Document.ofJson? (value : Json) : Option Document := do
  let includes ← list? (soleMember? "path" string?) (← value.member? "includes")
  let nameSpace ← option? Namespace.ofJson? (← value.member? "namespace")
  let rootType ← option? (soleMember? "ident" Ident.ofJson?) (← value.member? "root_type")
  let fileIdentifier ← option? (soleMember? "value" string?) (← value.member? "file_ident")
  let fileExtension ← option? (soleMember? "value" string?) (← value.member? "file_extension")
  let attributes ← list? (soleMember? "value" string?) (← value.member? "attributes")
  let tables ← list? Record.ofJson? (← value.member? "tables")
  let structs ← list? Record.ofJson? (← value.member? "structs")
  let enums ← list? Enumeration.ofJson? (← value.member? "enums")
  let unions ← list? TaggedUnion.ofJson? (← value.member? "unions")
  return { includes, nameSpace, rootType, fileIdentifier, fileExtension, attributes, tables, structs,
           enums, unions }

namespace Schema

mutual

def ofJson? : Json → Option Schema
  | .object members => do
    let document ← Document.ofJson? (.object members)
    let children ← childrenAmong? members
    return { document, children }
  | _ => none

/-- The children are found as any other member is; they are looked up by hand because schemas are
decoded inside them. -/
def childrenAmong? : List (String × Json) → Option (List Schema)
  | [] => none
  | (key, value) :: members =>
    if key = "children" then childrenOf? value else childrenAmong? members

def childrenOf? : Json → Option (List Schema)
  | .array items => allOfJson? items
  | _ => none

def allOfJson? : List Json → Option (List Schema)
  | [] => some []
  | item :: items => do
    let schema ← ofJson? item
    let schemas ← allOfJson? items
    return schema :: schemas

end

/-- The schema that a dump shows. -/
def ofDump? (text : String) : Option Schema := do
  ofJson? (← Json.read? text)

end Schema

section Decoded

@[simp]
theorem Ident.ofJson?_toJson (name : Ident) : Ident.ofJson? name.toJson = some name := rfl

@[simp]
theorem Scalar.ofJson?_toJson (scalar : Scalar) : Scalar.ofJson? scalar.toJson = some scalar := by
  cases scalar <;> decide

@[simp]
theorem BaseType.ofJson?_toJson (base : BaseType) : BaseType.ofJson? base.toJson = some base := by
  cases base <;> simp [BaseType.toJson, BaseType.ofJson?]

@[simp]
theorem string?_string (text : String) : string? (string text) = some text := rfl

@[simp]
theorem option?_ofOption_string (text? : Option String) :
    option? string? (ofOption string text?) = some text? :=
  option?_ofOption string?_string rfl text?

@[simp]
theorem FieldType.ofJson?_toJson (type : FieldType) : FieldType.ofJson? type.toJson = some type := by
  simp [FieldType.toJson, FieldType.ofJson?, member?, List.lookup_cons, bool?]

@[simp]
theorem MetadataEntry.ofJson?_toJson (entry : MetadataEntry) :
    MetadataEntry.ofJson? entry.toJson = some entry := by
  simp [MetadataEntry.toJson, MetadataEntry.ofJson?, member?, List.lookup_cons]

@[simp]
theorem Metadata.ofJson?_toJson (metadata : Metadata) :
    Metadata.ofJson? metadata.toJson = some metadata := by
  simp [Metadata.toJson, Metadata.ofJson?, member?, list?_ofList]

@[simp]
theorem Field.ofJson?_toJson (field : Field) : Field.ofJson? field.toJson = some field := by
  simp [Field.toJson, Field.ofJson?, member?, List.lookup_cons]

@[simp]
theorem Record.ofJson?_toJson (record : Record) : Record.ofJson? record.toJson = some record := by
  simp [Record.toJson, Record.ofJson?, member?, List.lookup_cons, list?_ofList]

@[simp]
theorem EnumCase.ofJson?_toJson (enumCase : EnumCase) :
    EnumCase.ofJson? enumCase.toJson = some enumCase := by
  simp [EnumCase.toJson, EnumCase.ofJson?, member?, List.lookup_cons]

@[simp]
theorem Enumeration.ofJson?_toJson (enumeration : Enumeration) :
    Enumeration.ofJson? enumeration.toJson = some enumeration := by
  simp [Enumeration.toJson, Enumeration.ofJson?, member?, List.lookup_cons, list?_ofList]

@[simp]
theorem soleMember?_object {α : Type} (key : String) (decode : Json → Option α) (value : Json) :
    soleMember? key decode (object [(key, value)]) = decode value := by
  simp [soleMember?, member?]

@[simp]
theorem TaggedUnion.ofJson?_toJson (union : TaggedUnion) :
    TaggedUnion.ofJson? union.toJson = some union := by
  simp [TaggedUnion.toJson, TaggedUnion.ofJson?, member?, List.lookup_cons, list?_ofList,
    unionCaseToJson]

@[simp]
theorem Namespace.ofJson?_toJson (nameSpace : Namespace) :
    Namespace.ofJson? nameSpace.toJson = some nameSpace := by
  simp [Namespace.toJson, Namespace.ofJson?, member?, list?_ofList Ident.ofJson?_toJson]

/-- The members of a document are found whatever stands after them. -/
theorem Document.ofJson?_members (document : Document) (others : List (String × Json)) :
    Document.ofJson? (object (document.members ++ others)) = some document := by
  have wrapped (name : Ident) :
      soleMember? "ident" Ident.ofJson? (rootTypeToJson name) = some name := rfl
  have quoted (text : String) : soleMember? "value" string? (literalToJson text) = some text := rfl
  have nameSpace := option?_ofOption Namespace.ofJson?_toJson rfl document.nameSpace
  have rootType := option?_ofOption wrapped rfl document.rootType
  have literal := option?_ofOption quoted rfl
  simp [Document.members, Document.ofJson?, member?, List.lookup_cons, list?_ofList, includeToJson,
    quoted, nameSpace, rootType, literal]

namespace Schema

theorem childrenAmong?_members (document : Document) (children : Json) :
    childrenAmong? (document.members ++ [("children", children)]) = childrenOf? children := by
  simp [Document.members, childrenAmong?]

mutual

theorem ofJson?_toJson : ∀ schema : Schema, ofJson? schema.toJson = some schema
  | ⟨document, children⟩ => by
    rw [toJson, ofJson?, Document.ofJson?_members, childrenAmong?_members, childrenOf?,
      allOfJson?_childrenToJson children]
    rfl

theorem allOfJson?_childrenToJson :
    ∀ children : List Schema, allOfJson? (childrenToJson children) = some children
  | [] => by rw [childrenToJson, allOfJson?]
  | child :: children => by
    rw [childrenToJson, allOfJson?, ofJson?_toJson child, allOfJson?_childrenToJson children]
    rfl

end

/-- The dump loses nothing: the schema is read back from it, and so no two schemas have one dump. -/
theorem dump_loses_nothing :
    (∀ schema : Schema, ofDump? schema.dump = some schema) ∧
      ∀ first second : Schema, first.dump = second.dump ↔ first = second := by
  have readBack (schema : Schema) : ofDump? schema.dump = some schema := by
    rw [ofDump?, dump, Json.read?_render, Option.bind_eq_bind, Option.bind_some, ofJson?_toJson]
  refine ⟨readBack, ?_⟩
  intro first second
  constructor
  · intro same
    apply Option.some.inj
    rw [← readBack first, same, readBack second]
  · intro same
    rw [same]

end Schema

end Decoded

end FlatSchema
