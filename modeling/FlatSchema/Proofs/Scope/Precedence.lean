import FlatSchema.Scope.Basic

/-!
Which declaration a flattened scope keeps. A tree of schemas is listed with each document in front
of the documents that it includes, and a flattened scope has, for every kind and every name, the
last declaration of that kind and name in this list.
-/

namespace FlatSchema

namespace NameMap

variable {α : Type}

theorem getElem?_ofDeclarations (name : α → Ident) (declarations : List α) (key : String) :
    (ofDeclarations name declarations)[key]? =
      declarations.findRev? fun declaration => (name declaration).text = key := by
  rw [ofDeclarations, Std.TreeMap.ofList_eq_insertMany_empty, Std.TreeMap.getElem?_insertMany_list,
    List.findSomeRev?_eq_findSome?_reverse, List.findRev?_eq_find?_reverse, ← List.map_reverse]
  induction declarations.reverse with
  | nil => rfl
  | cons declaration declarations inductionHypothesis =>
    by_cases same : (name declaration).text = key
    · simp [same]
    · have different : compare (name declaration).text key ≠ .eq := fun equal =>
        same (Std.LawfulEqCmp.eq_of_compare equal)
      simpa [same, different] using inductionHypothesis

theorem getElem?_override (first second : NameMap α) (key : String) :
    (first.override second)[key]? = second[key]?.or first[key]? := by
  cases found : second[key]? with
  | some value =>
    have member := Std.TreeMap.mem_toList_iff_getElem?_eq_some.mpr found
    rw [override, Std.TreeMap.getElem?_insertMany_list_of_mem Std.ReflCmp.compare_self
      Std.TreeMap.distinct_keys_toList member]
    rfl
  | none =>
    have missing : (second.toList.map Prod.fst).contains key = false := by
      rw [Std.TreeMap.map_fst_toList_eq_keys]
      simpa using found
    rw [override, Std.TreeMap.getElem?_insertMany_list_of_contains_eq_false missing]
    rfl

end NameMap

namespace Declaration

inductive Kind where
  | table
  | struct
  | enumeration
  | union
  deriving DecidableEq, Repr

namespace Kind

/-- What a declaration of a kind says. -/
abbrev Content : Kind → Type
  | table => Record
  | struct => Record
  | enumeration => Enumeration
  | union => TaggedUnion

def name : (kind : Kind) → kind.Content → Ident
  | table => Record.name
  | struct => Record.name
  | enumeration => Enumeration.name
  | union => TaggedUnion.name

/-- The declarations of a kind in a document, in source order. -/
def listed : (kind : Kind) → Document → List kind.Content
  | table => Document.tables
  | struct => Document.structs
  | enumeration => Document.enums
  | union => Document.unions

/-- The map in which a scope keeps a kind. -/
def entries : (kind : Kind) → Scope → NameMap kind.Content
  | table => Scope.tables
  | struct => Scope.structs
  | enumeration => Scope.enums
  | union => Scope.unions

/-- The last declaration of a kind with a name in documents that follow each other. -/
def last? (kind : Kind) (name : String) (documents : List Document) : Option kind.Content :=
  (documents.flatMap kind.listed).findRev? fun declaration => (kind.name declaration).text = name

theorem last?_append (kind : Kind) (name : String) (earlier later : List Document) :
    kind.last? name (earlier ++ later) = (kind.last? name later).or (kind.last? name earlier) := by
  simp only [last?, List.flatMap_append, List.findRev?_eq_find?_reverse, List.reverse_append,
    List.find?_append]

theorem last?_eq_none_iff {kind : Kind} {name : String} {documents : List Document} :
    kind.last? name documents = none ↔ ∀ document ∈ documents,
      ∀ declaration ∈ kind.listed document, (kind.name declaration).text ≠ name := by
  simp only [last?, List.findRev?_eq_find?_reverse, List.find?_eq_none, List.mem_reverse,
    List.mem_flatMap, decide_eq_true_eq, ne_eq]
  constructor
  · intro missing document member declaration listed
    exact missing declaration ⟨document, member, listed⟩
  · rintro missing declaration ⟨document, member, listed⟩
    exact missing document member declaration listed

theorem entries_ofDocument (kind : Kind) (document : Document) (name : String) :
    (kind.entries (Scope.ofDocument document))[name]? = kind.last? name [document] := by
  have own : kind.entries (Scope.ofDocument document) =
      NameMap.ofDeclarations kind.name (kind.listed document) := by
    cases kind <;> rfl
  rw [own, NameMap.getElem?_ofDeclarations, last?, List.flatMap_singleton]

theorem entries_merge (kind : Kind) (first second : Scope) :
    kind.entries (first.merge second) = (kind.entries first).override (kind.entries second) := by
  cases kind <;> rfl

end Kind

end Declaration

/-- The documents of a tree of schemas, each in front of those that it includes. -/
def Schema.documents : Schema → List Document
  | ⟨document, children⟩ => document :: children.flatMap documents

theorem Schema.document_mem_documents (schema : Schema) : schema.document ∈ schema.documents := by
  obtain ⟨document, children⟩ := schema
  rw [documents]
  exact List.mem_cons_self

namespace Scope

open Declaration

mutual

theorem entries_flatten_ofSchema (kind : Kind) (name : String) : (schema : Schema) →
    (kind.entries (ofSchema schema).flatten)[name]? = kind.last? name schema.documents
  | ⟨document, children⟩ => by
    have own : kind.entries { ofDocument document with children := [] } =
        kind.entries (ofDocument document) := by
      cases kind <;> rfl
    rw [ofSchema, flatten, entries_mergeAll_ofSchemas kind name _ children, own,
      kind.entries_ofDocument, Schema.documents]
    exact (kind.last?_append name [document] _).symm

/-- Every child goes over what has been merged before it. -/
theorem entries_mergeAll_ofSchemas (kind : Kind) (name : String) (merged : Scope) :
    (schemas : List Schema) →
    (kind.entries (mergeAll merged (ofSchemas schemas)))[name]? =
      (kind.last? name (schemas.flatMap Schema.documents)).or (kind.entries merged)[name]?
  | [] => by
    rw [ofSchemas, mergeAll]
    rfl
  | schema :: schemas => by
    rw [ofSchemas, mergeAll, entries_mergeAll_ofSchemas kind name _ schemas, kind.entries_merge,
      NameMap.getElem?_override, entries_flatten_ofSchema kind name schema, List.flatMap_cons,
      kind.last?_append, Option.or_assoc]

end

theorem children_mergeAll {merged : Scope} (childless : merged.children = [])
    (scopes : List Scope) : (mergeAll merged scopes).children = [] := by
  induction scopes generalizing merged with
  | nil => exact childless
  | cons scope scopes inductionHypothesis =>
    rw [mergeAll]
    exact inductionHypothesis rfl

/-- Flattening keeps of each kind and name the last declaration in the tree. -/
theorem flatten_keeps_last_declaration (schema : Schema) :
    (∀ (kind : Kind) (name : String),
      (kind.entries (ofSchema schema).flatten)[name]? = kind.last? name schema.documents ∧
      (name ∉ kind.entries (ofSchema schema).flatten ↔ ∀ document ∈ schema.documents,
        ∀ declaration ∈ kind.listed document, (kind.name declaration).text ≠ name)) ∧
    (ofSchema schema).flatten.children = [] := by
  refine ⟨?_, ?_⟩
  · intro kind name
    have entry := entries_flatten_ofSchema kind name schema
    refine ⟨entry, ?_⟩
    rw [← Kind.last?_eq_none_iff, ← entry]
    simp
  · obtain ⟨document, children⟩ := schema
    rw [ofSchema, flatten]
    exact children_mergeAll rfl _

end Scope

end FlatSchema
