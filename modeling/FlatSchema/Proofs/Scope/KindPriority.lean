import FlatSchema.Proofs.Scope.Precedence

/-!
What a name stands for when documents of a tree declare it with different kinds. The kind decides
first: tables come before structs, structs before enumerations and these before unions, wherever in
the tree they are declared. Among the declarations of the strongest kind the place in the tree
decides, and the last document that has one wins.
-/

namespace FlatSchema

open Declaration

namespace Declaration.Kind

/-- The kinds in the order in which a name is looked up. -/
def ranked : List Kind :=
  [table, struct, enumeration, union]

theorem mem_ranked (kind : Kind) : kind ∈ ranked := by
  cases kind <;> decide

def declaration : (kind : Kind) → kind.Content → Declaration
  | table => .table
  | struct => .struct
  | enumeration => .enumeration
  | union => .union

/-- What a name stands for within one kind. -/
def find? (kind : Kind) (scope : Scope) (name : String) : Option Declaration :=
  (kind.entries scope)[name]?.map kind.declaration

end Declaration.Kind

theorem Scope.resolve?_eq_findSome? (scope : Scope) (name : String) :
    scope.resolve? name = Kind.ranked.findSome? fun kind => kind.find? scope name := by
  have first (kind : Kind) (kinds : List Kind) :
      (kind :: kinds).findSome? (·.find? scope name) =
        (kind.find? scope name).or (kinds.findSome? (·.find? scope name)) := by
    rw [List.findSome?_cons]
    cases kind.find? scope name <;> rfl
  simp only [resolve?, Option.orElse_eq_orElse, Option.orElse_eq_or, Kind.ranked, first,
    List.findSome?_nil, Option.or_none]
  rfl

namespace Document

/-- A document declares a name with a kind. -/
def Declares (document : Document) (kind : Kind) (name : String) : Prop :=
  ∃ content ∈ kind.listed document, (kind.name content).text = name

/-- A declaration stands in a document. -/
def Holds (document : Document) (declaration : Declaration) : Prop :=
  ∃ kind : Kind, ∃ content ∈ kind.listed document, declaration = kind.declaration content

/-- A declaration stands in the last of some documents that meet a condition. -/
def LastHolds (condition : Document → Prop) (documents : List Document)
    (declaration : Declaration) : Prop :=
  ∃ earlier document later, documents = earlier ++ document :: later ∧
    condition document ∧ (∀ other ∈ later, ¬ condition other) ∧ document.Holds declaration

theorem LastHolds.cons {condition : Document → Prop} {documents : List Document}
    {declaration : Declaration} (holds : LastHolds condition documents declaration)
    (document : Document) : LastHolds condition (document :: documents) declaration := by
  obtain ⟨earlier, holder, later, rfl, rest⟩ := holds
  exact ⟨document :: earlier, holder, later, rfl, rest⟩

end Document

namespace Declaration.Kind

variable {kind : Kind} {name : String} {documents : List Document}

theorem last?_eq_none_iff_declares :
    kind.last? name documents = none ↔ ∀ document ∈ documents, ¬ document.Declares kind name := by
  simp only [last?_eq_none_iff, Document.Declares, not_exists, not_and, ne_eq]

theorem name_of_last? {content : kind.Content} (last : kind.last? name documents = some content) :
    (kind.name content).text = name := by
  rw [last?, List.findRev?_eq_find?_reverse] at last
  simpa using List.find?_some last

theorem mem_listed_of_last? {document : Document} {content : kind.Content}
    (last : kind.last? name [document] = some content) : content ∈ kind.listed document := by
  rw [last?, List.flatMap_singleton, List.findRev?_eq_find?_reverse] at last
  exact List.mem_reverse.mp (List.mem_of_find?_eq_some last)

theorem lastHolds_of_last? {content : kind.Content}
    (last : kind.last? name documents = some content) :
    Document.LastHolds (·.Declares kind name) documents (kind.declaration content) := by
  induction documents with
  | nil => cases last
  | cons document documents inductionHypothesis =>
    rw [← List.singleton_append, last?_append] at last
    cases lastBelow : kind.last? name documents with
    | some below =>
      rw [lastBelow, Option.some_or] at last
      exact (inductionHypothesis (lastBelow.trans last)).cons document
    | none =>
      rw [lastBelow, Option.none_or] at last
      have listed := mem_listed_of_last? last
      exact ⟨[], document, documents, rfl, ⟨content, listed, name_of_last? last⟩,
        last?_eq_none_iff_declares.mp lastBelow, kind, content, listed, rfl⟩

theorem find?_scope (kind : Kind) (schema : Schema) (name : String) :
    kind.find? schema.scope name = (kind.last? name schema.documents).map kind.declaration := by
  rw [find?, Schema.scope, Scope.entries_flatten_ofSchema]

theorem find?_scope_eq_none_iff {schema : Schema} :
    kind.find? schema.scope name = none ↔
      ∀ document ∈ schema.documents, ¬ document.Declares kind name := by
  rw [find?_scope, Option.map_eq_none_iff, last?_eq_none_iff_declares]

end Declaration.Kind

namespace Scope

/-- A name that is declared in a tree stands for a declaration of the strongest kind that the tree
has for it, and of that kind for the one in the last document that has one. -/
theorem resolve?_takes_strongest_kind (schema : Schema) (name : String)
    (declared : ∃ document ∈ schema.documents, ∃ kind, document.Declares kind name) :
    ∃ stronger kind weaker content,
      schema.scope.resolve? name = some (kind.declaration content) ∧
      (kind.name content).text = name ∧
      Kind.ranked = stronger ++ kind :: weaker ∧
      (∀ other ∈ stronger, ∀ document ∈ schema.documents, ¬ document.Declares other name) ∧
      Document.LastHolds (·.Declares kind name) schema.documents (kind.declaration content) := by
  cases found : schema.scope.resolve? name with
  | none =>
    rw [resolve?_eq_findSome?, List.findSome?_eq_none_iff] at found
    obtain ⟨document, member, kind, declares⟩ := declared
    exact absurd declares
      (Kind.find?_scope_eq_none_iff.mp (found kind kind.mem_ranked) document member)
  | some declaration =>
    rw [resolve?_eq_findSome?, List.findSome?_eq_some_iff] at found
    obtain ⟨stronger, kind, weaker, ranked, foundKind, missing⟩ := found
    rw [Kind.find?_scope, Option.map_eq_some_iff] at foundKind
    obtain ⟨content, last, rfl⟩ := foundKind
    exact ⟨stronger, kind, weaker, content, rfl, Kind.name_of_last? last, ranked,
      fun other member => Kind.find?_scope_eq_none_iff.mp (missing other member),
      Kind.lastHolds_of_last? last⟩

/-- An enumeration whose name two includes declare as a struct. -/
def structsOverEnumeration : Schema :=
  { document := { includes := ["a", "b"], enums := [⟨⟨"X"⟩, .int8, [], {}⟩] }
    children :=
      [⟨{ structs := [⟨⟨"X"⟩, [], {}⟩] }, []⟩,
       ⟨{ structs := [⟨⟨"X"⟩, [⟨⟨"a"⟩, ⟨.string, false⟩, none, {}⟩], {}⟩] }, []⟩] }

/-- Of the enumeration and the two structs the later struct is taken. -/
theorem resolve?_takes_strongest_kind_later_struct :
    structsOverEnumeration.scope.resolve? "X" =
        some (.struct ⟨⟨"X"⟩, [⟨⟨"a"⟩, ⟨.string, false⟩, none, {}⟩], {}⟩) ∧
      ∃ stronger kind weaker content,
        structsOverEnumeration.scope.resolve? "X" = some (kind.declaration content) ∧
        (kind.name content).text = "X" ∧
        Kind.ranked = stronger ++ kind :: weaker ∧
        (∀ other ∈ stronger, ∀ document ∈ structsOverEnumeration.documents,
          ¬ document.Declares other "X") ∧
        Document.LastHolds (·.Declares kind "X") structsOverEnumeration.documents
          (kind.declaration content) :=
  ⟨by decide, resolve?_takes_strongest_kind structsOverEnumeration "X"
    ⟨structsOverEnumeration.document, by simp [structsOverEnumeration, Schema.documents],
      .enumeration, ⟨⟨"X"⟩, .int8, [], {}⟩, List.mem_singleton_self _, rfl⟩⟩

/-- A table whose name an include declares as a struct. -/
def tableOverStruct : Schema :=
  { document := { includes := ["b"], tables := [⟨⟨"X"⟩, [], {}⟩] }
    children := [⟨{ structs := [⟨⟨"X"⟩, [], {}⟩] }, []⟩] }

/-- The last document that declares a name need not have what the name stands for: a table stays
in front of a struct of the same name that an include declares. -/
theorem resolve?_passes_over_last_document :
    ¬ ∀ (schema : Schema) (name : String),
      (∃ document ∈ schema.documents, ∃ kind, document.Declares kind name) →
      ∃ declaration, schema.scope.resolve? name = some declaration ∧
        Document.LastHolds (fun document => ∃ kind, document.Declares kind name)
          schema.documents declaration := by
  intro lastWins
  have documents : tableOverStruct.documents =
      [{ includes := ["b"], tables := [⟨⟨"X"⟩, [], {}⟩] }, { structs := [⟨⟨"X"⟩, [], {}⟩] }] := by
    simp [tableOverStruct, Schema.documents]
  have declares : Document.Declares { structs := [⟨⟨"X"⟩, [], {}⟩] } .struct "X" :=
    ⟨_, List.mem_singleton_self _, rfl⟩
  have resolves : tableOverStruct.scope.resolve? "X" = some (.table ⟨⟨"X"⟩, [], {}⟩) := by decide
  obtain ⟨declaration, resolved, earlier, document, later, split, -, last, kind, content, listed,
    rfl⟩ := lastWins tableOverStruct "X" ⟨_, by simp [documents], .struct, declares⟩
  have table : kind.declaration content = .table ⟨⟨"X"⟩, [], {}⟩ :=
    Option.some.inj (resolved.symm.trans resolves)
  rw [documents] at split
  -- Only the first document has the table, and the second one declares the name as well.
  match earlier, split with
  | [], split =>
    obtain ⟨-, rfl⟩ := List.cons.inj split
    exact last _ (List.mem_singleton_self _) ⟨.struct, declares⟩
  | [_], split =>
    obtain ⟨-, rest⟩ := List.cons.inj split
    obtain ⟨rfl, -⟩ := List.cons.inj rest
    cases kind with
    | table => cases listed
    | struct => cases table
    | enumeration => cases table
    | union => cases table
  | _ :: _ :: _, split => simp at split

end Scope

end FlatSchema
