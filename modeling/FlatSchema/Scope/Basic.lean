import FlatSchema.Schema.Basic
import Std.Data.TreeMap

/-!
Declarations by name. A scope holds one map for each kind of declaration, so a name may stand for
a table and for an enumeration at once. Within one kind the last declaration of a name counts.

The scope of a schema has the scopes of the included schemas as children. Flattening merges the
children in order over the own declarations: a later include beats an earlier one, and an include
beats the schema that includes it.
-/

namespace FlatSchema

/-- Declarations of one kind by stored name, in the order of names. -/
abbrev NameMap (α : Type) := Std.TreeMap String α compare

inductive Declaration where
  | table (record : Record)
  | struct (record : Record)
  | enumeration (enumeration : Enumeration)
  | union (union : TaggedUnion)
  deriving DecidableEq, Repr

namespace Declaration

def name : Declaration → String
  | .table declared => declared.name.text
  | .struct declared => declared.name.text
  | .enumeration declared => declared.name.text
  | .union declared => declared.name.text

end Declaration

structure Scope where
  tables : NameMap Record := {}
  structs : NameMap Record := {}
  enums : NameMap Enumeration := {}
  unions : NameMap TaggedUnion := {}
  children : List Scope := []

namespace NameMap

variable {α : Type}

/-- The declarations of a list by name; of two with one name the later is kept. -/
def ofDeclarations (name : α → Ident) (declarations : List α) : NameMap α :=
  Std.TreeMap.ofList (declarations.map fun declaration => ((name declaration).text, declaration))
    compare

/-- All entries of both maps; where both have a name, the entry of the second. -/
def override (first second : NameMap α) : NameMap α :=
  first.insertMany second.toList

end NameMap

namespace Scope

/-- The declarations of one file. -/
def ofDocument (document : Document) : Scope :=
  { tables := NameMap.ofDeclarations Record.name document.tables
    structs := NameMap.ofDeclarations Record.name document.structs
    enums := NameMap.ofDeclarations Enumeration.name document.enums
    unions := NameMap.ofDeclarations TaggedUnion.name document.unions }

mutual

def ofSchema : Schema → Scope
  | ⟨document, children⟩ => { ofDocument document with children := ofSchemas children }

def ofSchemas : List Schema → List Scope
  | [] => []
  | schema :: schemas => ofSchema schema :: ofSchemas schemas

end

/-- The own declarations of both scopes, those of the second first in rank. The result has no
children. -/
def merge (first second : Scope) : Scope :=
  { tables := first.tables.override second.tables
    structs := first.structs.override second.structs
    enums := first.enums.override second.enums
    unions := first.unions.override second.unions }

mutual

/-- One scope for a schema and all that it includes, directly or not. -/
def flatten : Scope → Scope
  | ⟨tables, structs, enums, unions, children⟩ =>
    mergeAll { tables, structs, enums, unions } children

/-- Merges flattened scopes one after the other into a first one. -/
def mergeAll (merged : Scope) : List Scope → Scope
  | [] => merged
  | child :: children => mergeAll (merged.merge (flatten child)) children

end

/-- The own declarations: tables, enumerations, structs and unions, each in the order of names. -/
def declarations (scope : Scope) : List Declaration :=
  scope.tables.values.map .table ++ scope.enums.values.map .enumeration ++
    scope.structs.values.map .struct ++ scope.unions.values.map .union

def table? (scope : Scope) (name : String) : Option Declaration :=
  scope.tables[name]?.map .table

def struct? (scope : Scope) (name : String) : Option Declaration :=
  scope.structs[name]?.map .struct

def enum? (scope : Scope) (name : String) : Option Declaration :=
  scope.enums[name]?.map .enumeration

def union? (scope : Scope) (name : String) : Option Declaration :=
  scope.unions[name]?.map .union

/-- What a name stands for: a table if there is one, then a struct, an enumeration, a union. -/
def resolve? (scope : Scope) (name : String) : Option Declaration :=
  scope.table? name <|> scope.struct? name <|> scope.enum? name <|> scope.union? name

end Scope

/-- The declarations that have to be emitted along with this one, in field or case order. Tables
take all that their fields name, structs take structs, unions take tables. -/
def Declaration.references (scope : Scope) : Declaration → List Declaration
  | .table declared => declared.references.filterMap fun name => scope.resolve? name.text
  | .struct declared => declared.references.filterMap fun name => scope.struct? name.text
  | .enumeration _ => []
  | .union declared => declared.cases.filterMap fun name => scope.table? name.text

/-- The scope of a schema with everything it includes. -/
def Schema.scope (schema : Schema) : Scope :=
  (Scope.ofSchema schema).flatten

end FlatSchema
