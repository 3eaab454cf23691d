import FlatSchema.Proofs.Scope.Agreement
import FlatSchema.Proofs.Text.Order
import Mathlib.Data.List.Nodup

/-!
Scopes as they are built. A scope comes from schemas by taking the scope of a schema, merging two
scopes and flattening one, in any order and any number of times. Every such scope keeps, for each
kind and name, the last declaration in the documents that went into it, in the order of merging. So
its entries stand under their own names and come from these documents, and its declarations are
listed by kind and in the order of names.
-/

namespace FlatSchema

open Declaration

/-- The entries of a map are listed in the order of the bytes of their names. -/
theorem NameMap.Keyed.values_ascending {α : Type} {name : α → Ident} {map : NameMap α}
    (keyed : map.Keyed name) :
    map.values.Pairwise fun value later =>
      utf8Bytes (name value).text < utf8Bytes (name later).text := by
  have named (entry : String × α) (member : entry ∈ map.toList) :
      (name entry.2).text = entry.1 :=
    keyed entry.1 entry.2 (Std.TreeMap.mem_toList_iff_getElem?_eq_some.mp member)
  rw [values_eq_map_toList, List.pairwise_map]
  apply Std.TreeMap.ordered_keys_toList.imp_of_mem
  intro entry later member memberLater less
  rw [named entry member, named later memberLater]
  exact compare_eq_lt_iff_utf8Bytes_lt.mp less

namespace Declaration.Kind

theorem declaration_injective (kind : Kind) : Function.Injective kind.declaration := by
  intro content content' same
  cases kind <;> exact Declaration.noConfusion same id

theorem eq_of_declaration_eq {kind kind' : Kind} {content : kind.Content}
    {content' : kind'.Content} (same : kind.declaration content = kind'.declaration content') :
    kind = kind' := by
  cases kind <;> cases kind' <;> first | rfl | exact Declaration.noConfusion same

end Declaration.Kind

namespace Scope

theorem children_flatten (scope : Scope) : scope.flatten.children = [] := by
  obtain ⟨tables, structs, enums, unions, children⟩ := scope
  rw [flatten]
  exact children_mergeAll rfl children

theorem flatten_of_childless {scope : Scope} (childless : scope.children = []) :
    scope.flatten = scope := by
  obtain ⟨tables, structs, enums, unions, children⟩ := scope
  cases childless
  rw [flatten, mergeAll]

theorem flatten_flatten (scope : Scope) : scope.flatten.flatten = scope.flatten :=
  flatten_of_childless (children_flatten scope)

theorem entries_ofSchema (kind : Kind) (schema : Schema) :
    kind.entries (ofSchema schema) = kind.entries (ofDocument schema.document) := by
  obtain ⟨document, children⟩ := schema
  rw [ofSchema]
  cases kind <;> rfl

theorem getElem?_merge (kind : Kind) (first second : Scope) (name : String) :
    (kind.entries (first.merge second))[name]? =
      (kind.entries second)[name]?.or (kind.entries first)[name]? := by
  rw [kind.entries_merge, NameMap.getElem?_override]

/-- It does not matter in which order merges are carried out. -/
theorem toList_merge_assoc (kind : Kind) (first second third : Scope) :
    (kind.entries ((first.merge second).merge third)).toList =
      (kind.entries (first.merge (second.merge third))).toList := by
  apply Std.TreeMap.Equiv.toList_eq
  apply Std.TreeMap.Equiv.of_forall_constGet?_eq
  intro name
  change (kind.entries ((first.merge second).merge third))[name]? =
    (kind.entries (first.merge (second.merge third)))[name]?
  simp only [getElem?_merge, Option.or_assoc]

/-- Merging one scope after the other keeps what the last scope that has a name has under it. -/
theorem getElem?_foldl_merge (kind : Kind) (first : Scope) (scopes : List Scope) (name : String) :
    (kind.entries (scopes.foldl merge first))[name]? =
      (first :: scopes).findSomeRev? fun scope => (kind.entries scope)[name]? := by
  induction scopes generalizing first with
  | nil => cases found : (kind.entries first)[name]? <;> simp [List.findSomeRev?, found]
  | cons scope scopes inductionHypothesis =>
    rw [List.foldl_cons, inductionHypothesis]
    simp only [List.findSomeRev?_eq_findSome?_reverse, List.reverse_cons, List.append_assoc,
      List.findSome?_append, List.findSome?_singleton, getElem?_merge]

/-- A way to build a scope. -/
inductive Building where
  | ofSchema (schema : Schema)
  | merge (first second : Building)
  | flatten (building : Building)

namespace Building

def scope : Building → Scope
  | ofSchema schema => Scope.ofSchema schema
  | merge first second => first.scope.merge second.scope
  | flatten building => building.scope.flatten

/-- The schemas that a scope is built from. -/
def schemas : Building → List Schema
  | ofSchema schema => [schema]
  | merge first second => first.schemas ++ second.schemas
  | flatten building => building.schemas

mutual

/-- The documents whose declarations the maps of a scope are made of, in the order of merging. -/
def documents : Building → List Document
  | ofSchema schema => [schema.document]
  | merge first second => first.documents ++ second.documents
  | flatten building => building.documentsBelow

/-- The documents of a scope and of what is included in it. Merging leaves includes behind. -/
def documentsBelow : Building → List Document
  | ofSchema schema => schema.documents
  | merge first second => first.documents ++ second.documents
  | flatten building => building.documentsBelow

end

/-- However a scope was built, it keeps the last declaration of each kind and name, and so does the
scope that it is flattened to. -/
theorem entries_scope (building : Building) (kind : Kind) (name : String) :
    (kind.entries building.scope)[name]? = kind.last? name building.documents ∧
      (kind.entries building.scope.flatten)[name]? = kind.last? name building.documentsBelow := by
  induction building with
  | ofSchema schema =>
    simp only [scope, documents, documentsBelow, entries_ofSchema, kind.entries_ofDocument,
      entries_flatten_ofSchema, and_self]
  | merge first second firstKeeps secondKeeps =>
    have childless : (first.scope.merge second.scope).children = [] := rfl
    simp only [scope, documents, documentsBelow, flatten_of_childless childless, getElem?_merge,
      firstKeeps.1, secondKeeps.1, kind.last?_append, and_self]
  | flatten building keeps =>
    simp only [scope, documents, documentsBelow, flatten_flatten, keeps.2, and_self]

theorem mem_documents (building : Building) (document : Document) :
    (document ∈ building.documents → ∃ schema ∈ building.schemas, document ∈ schema.documents) ∧
      (document ∈ building.documentsBelow →
        ∃ schema ∈ building.schemas, document ∈ schema.documents) := by
  induction building with
  | ofSchema schema =>
    simp only [documents, documentsBelow, schemas, List.mem_singleton, exists_eq_left]
    exact ⟨fun same => same ▸ schema.document_mem_documents, id⟩
  | merge first second firstFrom secondFrom =>
    simp only [documents, documentsBelow, schemas, List.mem_append]
    grind
  | flatten building comes => exact ⟨comes.2, comes.2⟩

/-- Every entry of a built scope stands under its name and in a document that went into it. -/
theorem named_and_declared (building : Building) {kind : Kind} {name : String}
    {content : kind.Content} (found : (kind.entries building.scope)[name]? = some content) :
    (kind.name content).text = name ∧
      ∃ schema ∈ building.schemas, ∃ document ∈ schema.documents,
        content ∈ kind.listed document := by
  have last : kind.last? name building.documents = some content :=
    (building.entries_scope kind name).1.symm.trans found
  refine ⟨Kind.name_of_last? last, ?_⟩
  obtain ⟨document, member, listed⟩ : ∃ document ∈ building.documents,
      content ∈ kind.listed document := by
    rw [Kind.last?, List.findRev?_eq_find?_reverse] at last
    exact List.mem_flatMap.mp (List.mem_reverse.mp (List.mem_of_find?_eq_some last))
  obtain ⟨schema, among, within⟩ := (building.mem_documents document).1 member
  exact ⟨schema, among, document, within, listed⟩

end Building

/-- The kinds in the order in which the declarations of a scope are listed. -/
def listedKinds : List Kind :=
  [.table, .enumeration, .struct, .union]

theorem declarations_eq_flatMap (scope : Scope) :
    scope.declarations =
      listedKinds.flatMap fun kind => (kind.entries scope).values.map kind.declaration := by
  simp only [declarations, listedKinds, List.flatMap_cons, List.flatMap_nil, List.append_nil,
    List.append_assoc]
  rfl

theorem declarations_nodup {scope : Scope}
    (keyed : ∀ kind : Kind, (kind.entries scope).Keyed kind.name) :
    scope.declarations.Nodup := by
  rw [declarations_eq_flatMap, List.nodup_flatMap]
  constructor
  · intro kind _
    apply List.Nodup.map kind.declaration_injective
    apply (keyed kind).values_ascending.imp
    rintro content _ less rfl
    exact absurd less (List.lt_irrefl _)
  · have different : listedKinds.Nodup := by decide
    apply different.imp
    intro kind kind' differ declaration member member'
    obtain ⟨content, -, rfl⟩ := List.mem_map.mp member
    obtain ⟨content', -, same⟩ := List.mem_map.mp member'
    exact differ (Kind.eq_of_declaration_eq same.symm)

/-- The own declarations of a scope stand in four groups, one for each kind, that each have the
entries of the kind in the order of the bytes of their names. -/
def ListsGroups (scope : Scope) : Prop :=
  ∃ group : (kind : Kind) → List kind.Content,
    scope.declarations = listedKinds.flatMap (fun kind => (group kind).map kind.declaration) ∧
    ∀ kind : Kind,
      (∀ content, content ∈ group kind ↔
        ∃ name : String, (kind.entries scope)[name]? = some content) ∧
      (group kind).Pairwise fun content later =>
        utf8Bytes (kind.name content).text < utf8Bytes (kind.name later).text

theorem listsGroups {scope : Scope}
    (keyed : ∀ kind : Kind, (kind.entries scope).Keyed kind.name) : scope.ListsGroups := by
  refine ⟨fun kind => (kind.entries scope).values, declarations_eq_flatMap scope, ?_⟩
  intro kind
  exact ⟨fun content => NameMap.mem_values_iff, (keyed kind).values_ascending⟩

theorem count_declarations {scope : Scope}
    (keyed : ∀ kind : Kind, (kind.entries scope).Keyed kind.name) {kind : Kind} {name : String}
    {content : kind.Content} (found : (kind.entries scope)[name]? = some content) :
    scope.declarations.count (kind.declaration content) = 1 := by
  apply List.count_eq_one_of_mem (declarations_nodup keyed)
  rw [declarations_eq_flatMap, List.mem_flatMap]
  have listed : kind ∈ listedKinds := by cases kind <;> decide
  exact ⟨kind, listed, List.mem_map_of_mem (NameMap.mem_values_iff.mpr ⟨name, found⟩)⟩

/-- What holds of every scope that is built from schemas, and the laws of merging and flattening:
entries stand under their names and come from the schemas, each is listed once, by kind and then by
name, merging is associative and lets the last entry of a name stand, and flattening a flattened
scope changes nothing. -/
theorem building_keeps_entries :
    (∀ building : Building,
      (∀ (kind : Kind) (name : String) (content : kind.Content),
        (kind.entries building.scope)[name]? = some content →
          (kind.name content).text = name ∧
          (∃ schema ∈ building.schemas, ∃ document ∈ schema.documents,
            content ∈ kind.listed document) ∧
          building.scope.declarations.count (kind.declaration content) = 1) ∧
      building.scope.ListsGroups) ∧
    (∀ (first second third : Scope),
      (∀ kind : Kind, (kind.entries ((first.merge second).merge third)).toList =
        (kind.entries (first.merge (second.merge third))).toList) ∧
      ((first.merge second).merge third).children = [] ∧
      (first.merge (second.merge third)).children = []) ∧
    (∀ (first : Scope) (scopes : List Scope) (kind : Kind) (name : String),
      (kind.entries (scopes.foldl merge first))[name]? =
        (first :: scopes).findSomeRev? fun scope => (kind.entries scope)[name]?) ∧
    ∀ scope : Scope, scope.flatten.flatten = scope.flatten := by
  refine ⟨?_, ?_, fun first scopes kind name => getElem?_foldl_merge kind first scopes name,
    flatten_flatten⟩
  · intro building
    have keyed (kind : Kind) : (kind.entries building.scope).Keyed kind.name :=
      fun name content found => (building.named_and_declared found).1
    refine ⟨?_, listsGroups keyed⟩
    intro kind name content found
    obtain ⟨named, declared⟩ := building.named_and_declared found
    exact ⟨named, declared, count_declarations keyed found⟩
  · intro first second third
    exact ⟨fun kind => toList_merge_assoc kind first second third, rfl, rfl⟩

end Scope

end FlatSchema
