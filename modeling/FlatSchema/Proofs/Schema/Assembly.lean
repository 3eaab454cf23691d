import FlatSchema.Schema.Assembly
import Mathlib.Data.List.ReduceOption
import Mathlib.Tactic.MkIffOfInductiveProp

/-!
Documents and the items that they are made of. A document holds what the items say, each kind in
the order of the items, and there is one exactly if no directive that stands once is repeated.
Assembling a schema asks the resolver once for each inclusion, in order, up to the first item that
cannot be added, and is otherwise a matter of the document alone.
-/

namespace FlatSchema

namespace Item

@[simp]
def path? : Item → Option String
  | inclusion path => some path
  | _ => none

@[simp]
def nameSpace? : Item → Option Namespace
  | .nameSpace declared => some declared
  | _ => none

@[simp]
def rootType? : Item → Option Ident
  | rootType name => some name
  | _ => none

@[simp]
def fileIdentifier? : Item → Option String
  | fileIdentifier text => some text
  | _ => none

@[simp]
def fileExtension? : Item → Option String
  | fileExtension text => some text
  | _ => none

@[simp]
def userAttribute? : Item → Option String
  | userAttribute text => some text
  | _ => none

@[simp]
def table? : Item → Option Record
  | table record => some record
  | _ => none

@[simp]
def struct? : Item → Option Record
  | struct record => some record
  | _ => none

@[simp]
def enumeration? : Item → Option Enumeration
  | .enumeration declared => some declared
  | _ => none

@[simp]
def union? : Item → Option TaggedUnion
  | .union declared => some declared
  | _ => none

/-- Each directive that may stand once stands at most once. -/
structure Once (items : List Item) : Prop where
  nameSpace : (items.filterMap nameSpace?).length ≤ 1
  rootType : (items.filterMap rootType?).length ≤ 1
  fileIdentifier : (items.filterMap fileIdentifier?).length ≤ 1
  fileExtension : (items.filterMap fileExtension?).length ≤ 1

end Item

namespace Document

open Item

def ofItems (items : List Item) : Document :=
  { includes := items.filterMap path?
    nameSpace := (items.filterMap nameSpace?).head?
    rootType := (items.filterMap rootType?).head?
    fileIdentifier := (items.filterMap fileIdentifier?).head?
    fileExtension := (items.filterMap fileExtension?).head?
    attributes := items.filterMap userAttribute?
    tables := items.filterMap table?
    structs := items.filterMap struct?
    enums := items.filterMap enumeration?
    unions := items.filterMap union? }

/-- A document with some items after those that another document already has. -/
@[mk_iff]
structure Extends (document : Document) (items : List Item) (result : Document) : Prop where
  includes : result.includes = document.includes ++ items.filterMap path?
  nameSpace : result.nameSpace.toList = document.nameSpace.toList ++ items.filterMap nameSpace?
  rootType : result.rootType.toList = document.rootType.toList ++ items.filterMap rootType?
  fileIdentifier : result.fileIdentifier.toList =
    document.fileIdentifier.toList ++ items.filterMap fileIdentifier?
  fileExtension : result.fileExtension.toList =
    document.fileExtension.toList ++ items.filterMap fileExtension?
  attributes : result.attributes = document.attributes ++ items.filterMap userAttribute?
  tables : result.tables = document.tables ++ items.filterMap table?
  structs : result.structs = document.structs ++ items.filterMap struct?
  enums : result.enums = document.enums ++ items.filterMap enumeration?
  unions : result.unions = document.unions ++ items.filterMap union?

def addAll? (document : Document) (items : List Item) : Option Document :=
  items.foldlM add? document

theorem addAll?_cons (document : Document) (item : Item) (items : List Item) :
    document.addAll? (item :: items) = (document.add? item).bind (·.addAll? items) := rfl

theorem addAll?_append (document : Document) (items others : List Item) :
    document.addAll? (items ++ others) = (document.addAll? items).bind (·.addAll? others) :=
  List.foldlM_append

theorem toList_injective {α : Type} {first second : Option α}
    (equal : first.toList = second.toList) : first = second := by
  cases first <;> cases second <;> simp_all

theorem extends_nil_iff {document result : Document} :
    document.Extends [] result ↔ document = result := by
  constructor
  · intro extension
    cases document
    cases result
    simp only [extends_iff, List.filterMap_nil, List.append_nil] at extension
    obtain ⟨rfl, nameSpace, rootType, fileIdentifier, fileExtension, rfl, rfl, rfl, rfl, rfl⟩ :=
      extension
    rw [toList_injective nameSpace, toList_injective rootType, toList_injective fileIdentifier,
      toList_injective fileExtension]
  · rintro rfl
    simp [extends_iff]

theorem toList_eq_cons_cons {α : Type} {value? : Option α} {first second : α} {rest : List α} :
    value?.toList ≠ first :: second :: rest := by
  cases value? <;> simp

theorem extends_cons_iff {document result : Document} {item : Item} {items : List Item} :
    document.Extends (item :: items) result ↔
      ∃ middle, document.add? item = some middle ∧ middle.Extends items result := by
  cases item with
  | nameSpace nameSpace =>
    cases slot : document.nameSpace <;>
      simp [add?, setOnce?, slot, extends_iff, List.filterMap_cons, toList_eq_cons_cons]
  | rootType name =>
    cases slot : document.rootType <;>
      simp [add?, setOnce?, slot, extends_iff, List.filterMap_cons, toList_eq_cons_cons]
  | fileIdentifier text =>
    cases slot : document.fileIdentifier <;>
      simp [add?, setOnce?, slot, extends_iff, List.filterMap_cons, toList_eq_cons_cons]
  | fileExtension text =>
    cases slot : document.fileExtension <;>
      simp [add?, setOnce?, slot, extends_iff, List.filterMap_cons, toList_eq_cons_cons]
  -- Items of the other kinds are appended, whatever the document already has.
  | _ => simp [add?, extends_iff, List.filterMap_cons]

/-- Items can be added exactly if there is a document that extends the given one by them. -/
theorem addAll?_eq_some_iff {document result : Document} {items : List Item} :
    document.addAll? items = some result ↔ document.Extends items result := by
  induction items generalizing document with
  | nil =>
    rw [extends_nil_iff]
    exact Option.some_inj
  | cons item items inductionHypothesis =>
    rw [addAll?_cons, Option.bind_eq_some_iff, extends_cons_iff]
    simp only [inductionHypothesis]

theorem toList_eq_iff {α : Type} {value? : Option α} {values : List α} :
    value?.toList = values ↔ values.length ≤ 1 ∧ value? = values.head? := by
  cases value? with
  | none => cases values <;> simp
  | some value =>
    cases values with
    | nil => simp
    | cons first rest => cases rest <;> simp

/-- From nothing, items form the document that they say if they repeat no directive. -/
theorem addAll?_empty_eq_some_iff {items : List Item} {result : Document} :
    addAll? {} items = some result ↔ Once items ∧ result = ofItems items := by
  rw [addAll?_eq_some_iff, extends_iff]
  constructor
  · intro extension
    simp only [Option.toList_none, List.nil_append, toList_eq_iff] at extension
    obtain ⟨includes, ⟨nameSpaceOnce, nameSpace⟩, ⟨rootTypeOnce, rootType⟩,
      ⟨fileIdentifierOnce, fileIdentifier⟩, ⟨fileExtensionOnce, fileExtension⟩, attributes, tables,
      structs, enums, unions⟩ := extension
    refine ⟨⟨nameSpaceOnce, rootTypeOnce, fileIdentifierOnce, fileExtensionOnce⟩, ?_⟩
    rw [ofItems, ← includes, ← nameSpace, ← rootType, ← fileIdentifier, ← fileExtension,
      ← attributes, ← tables, ← structs, ← enums, ← unions]
  · rintro ⟨once, rfl⟩
    simp only [ofItems, Option.toList_none, List.nil_append, toList_eq_iff, once.nameSpace,
      once.rootType, once.fileIdentifier, once.fileExtension, and_self]

/-- Items form no document exactly if they repeat a directive. -/
theorem addAll?_empty_eq_none_iff {items : List Item} :
    addAll? {} items = none ↔ ¬ Once items := by
  rw [← not_iff_not, not_not, ← ne_eq, Option.ne_none_iff_exists']
  simp only [addAll?_empty_eq_some_iff, exists_and_left, exists_eq, and_true]

/-- The include paths that are reached: those before the first item that cannot be added. -/
def reached (document : Document) : List Item → List String
  | [] => []
  | item :: items => item.path?.toList ++ ((document.add? item).elim [] (·.reached items))

theorem reached_of_addAll? {document result : Document} {items : List Item}
    (added : document.addAll? items = some result) :
    document.reached items = items.filterMap path? := by
  induction items generalizing document with
  | nil => rfl
  | cons item items inductionHypothesis =>
    rw [addAll?_cons, Option.bind_eq_some_iff] at added
    obtain ⟨middle, addedFirst, addedRest⟩ := added
    rw [reached, addedFirst, Option.elim_some, inductionHypothesis addedRest]
    cases item <;> rfl

theorem reached_eq_includes {document : Document} {items : List Item}
    (added : addAll? {} items = some document) : reached {} items = document.includes := by
  obtain ⟨-, said⟩ := addAll?_empty_eq_some_iff.mp added
  rw [reached_of_addAll? added, said, ofItems]

end Document

namespace Schema

variable {m : Type → Type} [Monad m] [LawfulMonad m]

theorem addAll?_cons (resolve : String → m (Option Schema)) (schema : Schema) (item : Item)
    (items : List Item) :
    addAll? resolve schema (item :: items) =
      (item.path?.toList.mapM resolve >>= fun answers =>
        (schema.document.add? item).elim (pure none) fun document =>
          addAll? resolve { document, children := schema.children ++ answers.reduceOption }
            items) := by
  cases item with
  | inclusion path =>
    simp only [addAll?, childOf, Document.add?, Item.path?, Option.toList_some, Option.elim_some,
      List.mapM_cons, List.mapM_nil, bind_assoc, pure_bind]
    refine bind_congr fun child => ?_
    cases child <;> rfl
  | _ =>
    simp only [addAll?, childOf, Item.path?, Option.toList_none, List.mapM_nil, pure_bind]
    cases schema.document.add? _ <;> rfl

/-- Assembling asks the resolver for the paths that are reached, in their order. The rest is the
document's part, and the answers only decide which children there are. -/
theorem addAll?_eq_mapM (resolve : String → m (Option Schema)) (schema : Schema)
    (items : List Item) :
    addAll? resolve schema items = do
      let answers ← (schema.document.reached items).mapM resolve
      return (schema.document.addAll? items).map fun document =>
        { document, children := schema.children ++ answers.reduceOption } := by
  induction items generalizing schema with
  | nil =>
    obtain ⟨document, children⟩ := schema
    simp [addAll?, Document.addAll?, Document.reached]
  | cons item items inductionHypothesis =>
    rw [addAll?_cons, Document.reached, Document.addAll?_cons]
    cases schema.document.add? item with
    | none => simp
    | some document => simp [inductionHypothesis, List.mapM_append, List.reduceOption_append]

/-- What reading a buffer gives, if the items in it form the given schema. -/
def withStop (buffer : List UInt8) (schema : Schema) : Schema × Nat :=
  (schema, buffer.length - (Item.readAll buffer).2.length)

theorem parseWith?_eq_mapM (resolve : String → m (Option Schema)) (buffer : List UInt8) :
    parseWith? resolve buffer = do
      let answers ← (Document.reached {} (Item.readAll buffer).1).mapM resolve
      return (Document.addAll? {} (Item.readAll buffer).1).map fun document =>
        withStop buffer { document, children := answers.reduceOption } := by
  simp [parseWith?, addAll?_eq_mapM, withStop, Function.comp_def]

theorem parse?_eq_map (buffer : List UInt8) :
    parse? buffer =
      (Document.addAll? {} (Item.readAll buffer).1).map fun document =>
        withStop buffer { document, children := [] } := by
  have noAnswer (paths : List String) :
      (paths.map fun path => (noIncludes path).run).reduceOption = [] := by
    rw [List.reduceOption, List.filterMap_map, List.filterMap_eq_nil_iff]
    intro path _
    rfl
  simp [parse?, parseWith?_eq_mapM, noAnswer]

/-- A schema whose children are what its includes are answered with. -/
def withAnswers (answer : String → Option Schema) (schema : Schema) : Schema :=
  { schema with children := schema.document.includes.filterMap answer }

/-- Where each path has one answer, reading gives the schema with these answers. -/
theorem map_answers_eq_map_parse? (answer : String → Option Schema) (buffer : List UInt8) :
    ((Document.addAll? {} (Item.readAll buffer).1).map fun document =>
        withStop buffer
          { document
            children := ((Document.reached {} (Item.readAll buffer).1).map answer).reduceOption }) =
      (parse? buffer).map fun result => (result.1.withAnswers answer, result.2) := by
  rw [parse?_eq_map, Option.map_map]
  cases added : Document.addAll? {} (Item.readAll buffer).1 with
  | none => rfl
  | some document =>
    simp [withStop, withAnswers, Document.reached_eq_includes added, List.reduceOption]

end Schema

end FlatSchema
