import FlatSchema.Proofs.Grammar.AsWritten
import FlatSchema.Proofs.Scope.Building
import FlatSchema.Proofs.Swift.DeclaredNames

/-!
What escaping does to different names. Two names are stored alike exactly if they are one name, or
if one is a reserved word and the other is this word with an underscore in front. So apart from
such pairs declarations of a kind, and members of a declaration, that are written with different
names have different names in the schema, in its scope and in the Swift source, where the names
can be read off the lines.
-/

namespace FlatSchema

open Text Declaration

namespace Ident

/-- One of the two names is a reserved word, and the other is the form in which it is stored. -/
def Merged (first second : String) : Prop :=
  isReserved first = true ∧ second = "_" ++ first ∨
    isReserved second = true ∧ first = "_" ++ second

/-- The two names are stored alike. -/
def Alike (first second : String) : Prop :=
  first = second ∨ Merged first second

instance (first second : String) : Decidable (Merged first second) :=
  inferInstanceAs (Decidable (_ ∨ _))

instance (first second : String) : Decidable (Alike first second) :=
  inferInstanceAs (Decidable (_ ∨ _))

theorem ofSource_of_reserved {word : String} (reserved : isReserved word = true) :
    ofSource word = ⟨"_" ++ word⟩ := by
  rw [ofSource, if_pos reserved]

theorem ofSource_of_not_reserved {word : String} (plain : ¬ isReserved word = true) :
    ofSource word = ⟨word⟩ := by
  rw [ofSource, if_neg plain]

/-- No reserved word begins with an underscore. -/
theorem not_isReserved_underscore_append (word : String) : ¬ isReserved ("_" ++ word) = true := by
  rw [isReserved, List.contains_iff_mem]
  exact underscore_append_not_mem (by decide) word

theorem ofSource_eq_iff {first second : String} :
    ofSource first = ofSource second ↔ Alike first second := by
  have merged {word other : String} (reserved : isReserved word = true)
      (escaped : other = "_" ++ word) : ofSource word = ofSource other := by
    rw [ofSource_of_reserved reserved, escaped,
      ofSource_of_not_reserved (not_isReserved_underscore_append word)]
  constructor
  · intro same
    by_cases reserved : isReserved first = true
    · by_cases reserved' : isReserved second = true
      · rw [ofSource_of_reserved reserved, ofSource_of_reserved reserved', mk.injEq,
          String.append_right_inj] at same
        exact .inl same
      · rw [ofSource_of_reserved reserved, ofSource_of_not_reserved reserved', mk.injEq] at same
        exact .inr (.inl ⟨reserved, same.symm⟩)
    · by_cases reserved' : isReserved second = true
      · rw [ofSource_of_not_reserved reserved, ofSource_of_reserved reserved', mk.injEq] at same
        exact .inr (.inr ⟨reserved', same⟩)
      · rw [ofSource_of_not_reserved reserved, ofSource_of_not_reserved reserved', mk.injEq] at same
        exact .inl same
  · rintro (rfl | ⟨reserved, escaped⟩ | ⟨reserved, escaped⟩)
    · rfl
    · exact merged reserved escaped
    · exact (merged reserved escaped).symm

theorem stored_eq_iff {first second : Ident} :
    first.stored = second.stored ↔ Alike first.text second.text :=
  ofSource_eq_iff

end Ident

namespace Declaration.Kind

/-- What an item declares, if it is of the kind. -/
def ofItem? : (kind : Kind) → Item → Option kind.Content
  | table => Item.table?
  | struct => Item.struct?
  | enumeration => Item.enumeration?
  | union => Item.union?

/-- The declaration with all the names that it declares changed. -/
def rename (change : Ident → Ident) : (kind : Kind) → kind.Content → kind.Content
  | table => Record.rename change
  | struct => Record.rename change
  | enumeration => Enumeration.rename change
  | union => TaggedUnion.rename change

/-- The names that a declaration declares for its fields or cases, in order. -/
def members : (kind : Kind) → kind.Content → List Ident
  | table => fun record => record.fields.map (·.name)
  | struct => fun record => record.fields.map (·.name)
  | enumeration => fun declared => declared.cases.map (·.name)
  | union => TaggedUnion.cases

/-- The declarations of a kind in a text, in order and with their names as they are written. -/
def written (kind : Kind) (text : String) : List kind.Content :=
  (Item.writtenIn (utf8Bytes text)).filterMap kind.ofItem?

/-- The form in which a written declaration is stored. -/
def store (kind : Kind) (content : kind.Content) : kind.Content :=
  kind.rename Ident.stored content

theorem name_rename (change : Ident → Ident) (kind : Kind) (content : kind.Content) :
    kind.name (kind.rename change content) = change (kind.name content) := by
  cases kind <;> rfl

theorem members_rename (change : Ident → Ident) (kind : Kind) (content : kind.Content) :
    kind.members (kind.rename change content) = (kind.members content).map change := by
  cases kind with
  | table | struct | enumeration => simp [members, rename, Record.rename, Enumeration.rename,
      Field.rename, EnumCase.rename, Function.comp_def]
  | union => rfl

theorem shown_rename (change : Ident → Ident) (kind : Kind) (content : kind.Content) :
    kind.shown (kind.rename change content) = (kind.shown content).map change := by
  cases kind with
  | table | struct =>
    -- whether a field is deprecated is told by its metadata alone
    simp only [shown, rename, Record.rename, List.filter_map, List.map_map]
    rfl
  | enumeration => simp [shown, rename, Enumeration.rename, EnumCase.rename, Function.comp_def]
  | union => rfl

theorem ofItem?_rename (change : Ident → Ident) (kind : Kind) (item : Item) :
    kind.ofItem? (item.rename change) = (kind.ofItem? item).map (kind.rename change) := by
  cases kind <;> cases item <;> rfl

theorem listed_ofItems (kind : Kind) (items : List Item) :
    kind.listed (Document.ofItems items) = items.filterMap kind.ofItem? := by
  cases kind <;> rfl

theorem listed_of_compile (kind : Kind) {text : String} {schema : Schema}
    (accepted : Schema.compile text = .ok schema) :
    kind.listed schema.document = (kind.written text).map kind.store := by
  obtain ⟨stop, parsed⟩ := Schema.exists_of_finish accepted
  rw [Schema.parse?_eq_map, Option.map_eq_some_iff] at parsed
  obtain ⟨document, added, withStop⟩ := parsed
  cases withStop
  obtain ⟨-, rfl⟩ := Document.addAll?_empty_eq_some_iff.mp added
  change kind.listed (Document.ofItems (Item.readAll (utf8Bytes text)).1) = _
  rw [listed_ofItems, Item.readAll_eq_map, List.filterMap_map, written, List.map_filterMap]
  exact List.filterMap_congr fun item _ => kind.ofItem?_rename Ident.stored item

/-- A look-up finds the last declaration whose name is stored like the one that is looked up. -/
theorem lookup_of_compile (kind : Kind) {text : String} {schema : Schema}
    (accepted : Schema.compile text = .ok schema) (name : Ident) :
    (kind.entries (Scope.ofSchema schema))[name.stored.text]? =
      ((kind.written text).findRev? fun content =>
        Ident.Alike (kind.name content).text name.text).map kind.store := by
  have same (content : kind.Content) :
      decide ((kind.name (kind.store content)).text = name.stored.text) =
        decide (Ident.Alike (kind.name content).text name.text) := by
    rw [decide_eq_decide, ← Ident.stored_eq_iff, store, name_rename]
    exact ⟨Ident.eq_of_text, congrArg Ident.text⟩
  rw [Scope.entries_ofSchema, kind.entries_ofDocument, last?, List.flatMap_singleton,
    kind.listed_of_compile accepted, List.findRev?_eq_find?_reverse, List.findRev?_eq_find?_reverse,
    ← List.map_reverse, List.find?_map]
  simp only [Function.comp_def, same]

end Declaration.Kind

namespace Swift

/-- The block of a declaration without the extension that follows that of the root table. -/
def ownBlock (schema : Schema) (declaration : Declaration) : String :=
  (contextOf schema).nest (block (ownLines (contextOf schema) declaration))

/-- The names of types that the own block of a declaration declares. -/
def typeNames (schema : Schema) (kind : Kind) (content : kind.Content) : List String :=
  namesAfter kind.lead (ownBlock schema (kind.declaration content))

/-- The names of properties or cases that the own block of a declaration declares. -/
def memberNames (schema : Schema) (kind : Kind) (content : kind.Content) : List String :=
  namesAfter kind.memberLead (ownBlock schema (kind.declaration content))

theorem exists_source_eq_append {schema : Schema} {declaration : Declaration}
    (emitted : declaration ∈ emittedBy schema) (withImport : Bool) :
    ∃ before after, source schema withImport = before ++ ownBlock schema declaration ++ after := by
  obtain ⟨earlier, later, split⟩ := List.append_of_mem emitted
  let written (declaration : Declaration) :=
    render (contextOf schema) schema.document declaration ++ "\n"
  refine ⟨header withImport ++ String.join (earlier.map written),
    String.join ((extensionLines (contextOf schema) schema.document declaration).map (· ++ "\n")) ++
      "\n" ++ String.join (later.map written) ++
      (if (contextOf schema).lateBinding then lateBindingHelper ++ "\n" else ""), ?_⟩
  simp only [source, split, List.map_append, List.map_cons, String.join_append, String.join_cons,
    render_eq_blockText _ _ declaration, blockText, ownBlock, written, String.append_assoc]

/-- The block of a declaration as it is stored tells the stored forms of the names. -/
theorem names_ownBlock {text : String} {schema : Schema}
    (accepted : Schema.compile text = .ok schema) {kind : Kind} {content : kind.Content}
    (member : content ∈ kind.written text) :
    typeNames schema kind (kind.store content) = [(kind.name content).stored.text] ∧
      memberNames schema kind (kind.store content) =
        (kind.shown content).map (·.stored.text) := by
  have wellFormed : schema.WellFormed := (Schema.Parsed.of_compile accepted).wellFormed
  have listed : kind.store content ∈ kind.listed schema.document := by
    rw [kind.listed_of_compile accepted]
    exact List.mem_map_of_mem member
  have declared : (kind.declaration (kind.store content)).WellFormed :=
    (Schema.wellFormed_iff.mp wellFormed).1.declaration ⟨kind, _, listed, rfl⟩
  have container : OneLine (contextOf schema).container := oneLine_container wellFormed
  obtain ⟨types, members⟩ := names_nest_ownLines container declared
  rw [Kind.store, Kind.name_rename] at types
  rw [Kind.store, Kind.shown_rename, List.map_map] at members
  exact ⟨types, members⟩

end Swift

open Swift Ident

/-- Only a reserved word and this word with an underscore in front are merged by escaping. Apart
from them declarations of a kind and members of a declaration that are written with different names
are stored under different names, are told apart by the scope and have different names in the
source. -/
theorem escaping_merges_only_reserved {text : String} {schema : Schema}
    (accepted : Schema.compile text = .ok schema) (kind : Kind) :
    kind.listed schema.document = (kind.written text).map kind.store ∧
    (∀ first ∈ kind.written text, ∀ second ∈ kind.written text,
      (kind.name (kind.store first) = kind.name (kind.store second) ↔
        Alike (kind.name first).text (kind.name second).text) ∧
      (typeNames schema kind (kind.store first) = typeNames schema kind (kind.store second) ↔
        Alike (kind.name first).text (kind.name second).text)) ∧
    ∀ content ∈ kind.written text,
      (kind.entries (Scope.ofSchema schema))[(kind.name (kind.store content)).text]? =
        ((kind.written text).findRev? fun other =>
          Alike (kind.name other).text (kind.name content).text).map kind.store ∧
      kind.members (kind.store content) = (kind.members content).map stored ∧
      (∀ first ∈ kind.members content, ∀ second ∈ kind.members content,
        first.stored = second.stored ↔ Alike first.text second.text) ∧
      typeNames schema kind (kind.store content) = [(kind.name (kind.store content)).text] ∧
      memberNames schema kind (kind.store content) = (kind.shown content).map (·.stored.text) ∧
      (kind.declaration (kind.store content) ∈ emittedBy schema → ∀ withImport, ∃ before after,
        source schema withImport =
          before ++ ownBlock schema (kind.declaration (kind.store content)) ++ after) := by
  have name (content : kind.Content) :
      kind.name (kind.store content) = (kind.name content).stored :=
    kind.name_rename stored content
  refine ⟨kind.listed_of_compile accepted, ?_, ?_⟩
  · intro first member second member'
    rw [name, name, (names_ownBlock accepted member).1, (names_ownBlock accepted member').1,
      List.singleton_inj, stored_eq_iff]
    exact ⟨Iff.rfl, fun same => stored_eq_iff.mp (eq_of_text same),
      fun alike => congrArg Ident.text (stored_eq_iff.mpr alike)⟩
  · intro content member
    obtain ⟨types, members⟩ := names_ownBlock accepted member
    rw [name]
    exact ⟨kind.lookup_of_compile accepted _, kind.members_rename stored content,
      fun _ _ _ _ => stored_eq_iff, types, members, exists_source_eq_append⟩

section Words

def twoFields (name first second : String) : Record :=
  ⟨⟨name⟩, [⟨⟨first⟩, ⟨.scalar .int32, false⟩, none, {}⟩,
    ⟨⟨second⟩, ⟨.scalar .int32, false⟩, none, {}⟩], {}⟩

def noFields (name : String) : Record :=
  ⟨⟨name⟩, [], {}⟩

/-- Tables and fields under reserved words and under names that are close to them. -/
def closeText : String :=
  "table self \x7b Type: int; _type: int; \x7d table Self \x7b\x7d"

def closeWords : Schema :=
  { document := { tables := [twoFields "_self" "_Type" "_type", noFields "_Self"] }
    children := [] }

theorem escaping_merges_only_reserved_close :
    Schema.compile closeText = .ok closeWords ∧
      Kind.table.written closeText = [twoFields "self" "Type" "_type", noFields "Self"] ∧
      (Scope.ofSchema closeWords).tables["_self"]? = some (twoFields "_self" "_Type" "_type") ∧
      typeNames closeWords .table (twoFields "_self" "_Type" "_type") ≠
        typeNames closeWords .table (noFields "_Self") ∧
      memberNames closeWords .table (twoFields "_self" "_Type" "_type") = ["_Type", "_type"] := by
  have accepted : Schema.compile closeText = .ok closeWords := by rfl
  have written :
      Kind.table.written closeText = [twoFields "self" "Type" "_type", noFields "Self"] := by
    rfl
  obtain ⟨-, pairs, each⟩ := escaping_merges_only_reserved accepted .table
  rw [written] at pairs each
  obtain ⟨found, -, -, -, members, -⟩ := each _ List.mem_cons_self
  refine ⟨accepted, written, found, ?_, members⟩
  refine mt (pairs _ List.mem_cons_self (noFields "Self") (by simp)).2.mp ?_
  decide

/-- Tables and fields under reserved words and under the stored forms of these words. -/
def mergedText : String :=
  "table self \x7b Type: int; _Type: int; \x7d table _self \x7b\x7d"

def mergedWords : Schema :=
  { document := { tables := [twoFields "_self" "_Type" "_Type", noFields "_self"] }
    children := [] }

/-- The names of the tables differ as they are written, and still the second table shadows the first
and would have the same name in the source, as the two properties of the first have. -/
theorem escaping_merges_reserved :
    Schema.compile mergedText = .ok mergedWords ∧
      Kind.table.written mergedText = [twoFields "self" "Type" "_Type", noFields "_self"] ∧
      mergedWords.document.tables =
        [Kind.table.store (twoFields "self" "Type" "_Type"), Kind.table.store (noFields "_self")] ∧
      Kind.table.name (twoFields "self" "Type" "_Type") ≠ Kind.table.name (noFields "_self") ∧
      Kind.table.name (Kind.table.store (twoFields "self" "Type" "_Type")) =
        Kind.table.name (Kind.table.store (noFields "_self")) ∧
      (Scope.ofSchema mergedWords).tables.toList = [("_self", noFields "_self")] ∧
      typeNames mergedWords .table (Kind.table.store (twoFields "self" "Type" "_Type")) =
        typeNames mergedWords .table (Kind.table.store (noFields "_self")) ∧
      memberNames mergedWords .table (Kind.table.store (twoFields "self" "Type" "_Type")) =
        ["_Type", "_Type"] := by
  have accepted : Schema.compile mergedText = .ok mergedWords := by rfl
  have written :
      Kind.table.written mergedText = [twoFields "self" "Type" "_Type", noFields "_self"] := by
    rfl
  have first : twoFields "self" "Type" "_Type" ∈ Kind.table.written mergedText := by simp [written]
  have second : noFields "_self" ∈ Kind.table.written mergedText := by simp [written]
  obtain ⟨firstTypes, firstMembers⟩ := names_ownBlock accepted first
  obtain ⟨secondTypes, -⟩ := names_ownBlock accepted second
  exact ⟨accepted, written, by rfl, by decide, by rfl, by decide, firstTypes.trans secondTypes.symm,
    firstMembers⟩

end Words

end FlatSchema
