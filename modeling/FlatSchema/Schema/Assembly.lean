import FlatSchema.Syntax.Item

/-!
From items to schemas. Items are added to a document one by one, in the order of the file; a
directive that may stand once only makes the whole file invalid when it is repeated. Each
inclusion is handed to a resolver at the moment it is reached, and the schemas that the resolver
finds become the children, in that order. The resolver may be stateful: it lives in any monad.
-/

namespace FlatSchema

/-- Fills an empty slot; there is no second filling. -/
def setOnce? {α : Type} (slot : Option α) (value : α) : Option (Option α) :=
  match slot with
  | none => some (some value)
  | some _ => none

/-- The document with one more item, unless the item repeats a directive that stands once. -/
def Document.add? (document : Document) : Item → Option Document
  | .inclusion path => some { document with includes := document.includes ++ [path] }
  | .nameSpace nameSpace => do
    return { document with nameSpace := ← setOnce? document.nameSpace nameSpace }
  | .rootType name => do
    return { document with rootType := ← setOnce? document.rootType name }
  | .fileIdentifier text => do
    return { document with fileIdentifier := ← setOnce? document.fileIdentifier text }
  | .fileExtension text => do
    return { document with fileExtension := ← setOnce? document.fileExtension text }
  | .userAttribute text => some { document with attributes := document.attributes ++ [text] }
  | .table record => some { document with tables := document.tables ++ [record] }
  | .struct record => some { document with structs := document.structs ++ [record] }
  | .enumeration enumeration => some { document with enums := document.enums ++ [enumeration] }
  | .union union => some { document with unions := document.unions ++ [union] }

namespace Schema

variable {m : Type → Type} [Monad m]

/-- The schema that an item brings in: whatever the resolver finds for an inclusion. -/
def childOf (resolve : String → m (Option Schema)) : Item → m (Option Schema)
  | .inclusion path => resolve path
  | _ => return none

/-- Adds items to a schema, resolving inclusions on the way, up to the first item that cannot be
added. Such an item leaves no schema, and nothing after it is resolved. -/
def addAll? (resolve : String → m (Option Schema)) (schema : Schema) :
    List Item → m (Option Schema)
  | [] => return some schema
  | item :: items => do
    let child ← childOf resolve item
    match schema.document.add? item with
    | none => return none
    | some document =>
      addAll? resolve { document, children := schema.children ++ child.toList } items

/-- Reads items from the front of a buffer for as long as there are any. The result is the schema
they form and the offset of the first byte after them; there is none where a directive that
stands once is repeated. -/
def parseWith? (resolve : String → m (Option Schema)) (buffer : List UInt8) :
    m (Option (Schema × Nat)) := do
  let (items, rest) := Item.readAll buffer
  let schema? ← addAll? resolve { document := {}, children := [] } items
  return schema?.map fun schema => (schema, buffer.length - rest.length)

end Schema

/-- The resolver that finds nothing. -/
def noIncludes (_ : String) : Id (Option Schema) :=
  none

/-- Reads a buffer and leaves its inclusions unresolved. -/
def Schema.parse? (buffer : List UInt8) : Option (Schema × Nat) :=
  Id.run (Schema.parseWith? noIncludes buffer)

end FlatSchema
