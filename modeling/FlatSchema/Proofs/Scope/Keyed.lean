import FlatSchema.Scope.Traversal

/-!
Keys and names. In the scope of a schema, and in whatever merging and flattening make of such
scopes, every declaration stands under its own name. So the names that occur in the maps of a scope
are the names of its declarations, and looking a name up finds a declaration of that name.
-/

namespace FlatSchema

namespace NameMap

variable {α : Type}

theorem values_eq_map_toList (map : NameMap α) : map.values = map.toList.map (·.2) := by
  change map.inner.inner.values = (Std.DTreeMap.Internal.Impl.Const.toList map.inner.inner).map _
  rw [Std.DTreeMap.Internal.Impl.values_eq_map_snd,
    Std.DTreeMap.Internal.Impl.Const.toList_eq_toListModel_map, List.map_map]
  rfl

theorem mem_values_iff {map : NameMap α} {value : α} :
    value ∈ map.values ↔ ∃ key : String, map[key]? = some value := by
  simp [values_eq_map_toList, Std.TreeMap.mem_toList_iff_getElem?_eq_some]

/-- Every entry stands under its own name. -/
def Keyed (name : α → Ident) (map : NameMap α) : Prop :=
  ∀ (key : String) (value : α), map[key]? = some value → (name value).text = key

variable {name : α → Ident}

theorem Keyed.insertMany {map : NameMap α} (keyed : Keyed name map) {entries : List (String × α)}
    (named : ∀ entry ∈ entries, (name entry.2).text = entry.1) :
    Keyed name (map.insertMany entries) := by
  induction entries generalizing map with
  | nil => rwa [Std.TreeMap.insertMany_nil]
  | cons entry entries inductionHypothesis =>
    rw [Std.TreeMap.insertMany_cons]
    refine inductionHypothesis ?_ fun other member => named other (List.mem_cons_of_mem _ member)
    intro key value found
    rw [Std.TreeMap.getElem?_insert] at found
    split at found
    · next same =>
      rw [← Std.LawfulEqCmp.eq_of_compare same, ← Option.some.inj found]
      exact named entry List.mem_cons_self
    · exact keyed key value found

theorem keyed_ofDeclarations (declarations : List α) :
    Keyed name (ofDeclarations name declarations) := by
  have empty : Keyed name (∅ : NameMap α) := by
    intro key value found
    simp at found
  rw [ofDeclarations, Std.TreeMap.ofList_eq_insertMany_empty]
  refine empty.insertMany ?_
  intro entry member
  obtain ⟨declaration, -, rfl⟩ := List.mem_map.mp member
  rfl

theorem Keyed.override {first second : NameMap α} (firstKeyed : Keyed name first)
    (secondKeyed : Keyed name second) : Keyed name (first.override second) := by
  refine firstKeyed.insertMany ?_
  rintro ⟨key, value⟩ member
  exact secondKeyed key value (Std.TreeMap.mem_toList_iff_getElem?_eq_some.mp member)

end NameMap

namespace Scope

structure Keyed (scope : Scope) : Prop where
  tables : NameMap.Keyed Record.name scope.tables
  structs : NameMap.Keyed Record.name scope.structs
  enums : NameMap.Keyed Enumeration.name scope.enums
  unions : NameMap.Keyed TaggedUnion.name scope.unions

theorem keyed_ofDocument (document : Document) : (ofDocument document).Keyed where
  tables := NameMap.keyed_ofDeclarations _
  structs := NameMap.keyed_ofDeclarations _
  enums := NameMap.keyed_ofDeclarations _
  unions := NameMap.keyed_ofDeclarations _

theorem Keyed.merge {first second : Scope} (firstKeyed : first.Keyed)
    (secondKeyed : second.Keyed) : (first.merge second).Keyed where
  tables := firstKeyed.tables.override secondKeyed.tables
  structs := firstKeyed.structs.override secondKeyed.structs
  enums := firstKeyed.enums.override secondKeyed.enums
  unions := firstKeyed.unions.override secondKeyed.unions

mutual

theorem keyed_flatten_ofSchema : (schema : Schema) → (ofSchema schema).flatten.Keyed
  | ⟨document, children⟩ => by
    rw [ofSchema, flatten]
    exact keyed_mergeAll_ofSchemas ⟨(keyed_ofDocument document).tables,
      (keyed_ofDocument document).structs, (keyed_ofDocument document).enums,
      (keyed_ofDocument document).unions⟩ children

theorem keyed_mergeAll_ofSchemas {merged : Scope} (keyed : merged.Keyed) :
    (schemas : List Schema) → (mergeAll merged (ofSchemas schemas)).Keyed
  | [] => by rwa [ofSchemas, mergeAll]
  | schema :: schemas => by
    rw [ofSchemas, mergeAll]
    exact keyed_mergeAll_ofSchemas (keyed.merge (keyed_flatten_ofSchema schema)) schemas

end

theorem mem_declarations_iff {scope : Scope} {declaration : Declaration} :
    declaration ∈ scope.declarations ↔
      ∃ name, scope.table? name = some declaration ∨ scope.struct? name = some declaration ∨
        scope.enum? name = some declaration ∨ scope.union? name = some declaration := by
  simp only [declarations, List.mem_append, List.mem_map, NameMap.mem_values_iff, table?, struct?,
    enum?, union?, Option.map_eq_some_iff]
  grind

theorem lookup_of_resolve? {scope : Scope} {name : String} {declaration : Declaration}
    (found : scope.resolve? name = some declaration) :
    scope.table? name = some declaration ∨ scope.struct? name = some declaration ∨
      scope.enum? name = some declaration ∨ scope.union? name = some declaration := by
  simp only [resolve?, Option.orElse_eq_orElse, Option.orElse_eq_or, Option.or_eq_some_iff] at found
  rcases found with table | ⟨-, struct | ⟨-, enumeration | ⟨-, union⟩⟩⟩
  · exact .inl table
  · exact .inr (.inl struct)
  · exact .inr (.inr (.inl enumeration))
  · exact .inr (.inr (.inr union))

theorem mem_declarations_of_resolve? {scope : Scope} {name : String} {declaration : Declaration}
    (found : scope.resolve? name = some declaration) : declaration ∈ scope.declarations :=
  mem_declarations_iff.mpr ⟨name, lookup_of_resolve? found⟩

theorem name_of_lookup {scope : Scope} (keyed : scope.Keyed) {name : String}
    {declaration : Declaration}
    (found : scope.table? name = some declaration ∨ scope.struct? name = some declaration ∨
      scope.enum? name = some declaration ∨ scope.union? name = some declaration) :
    declaration.name = name := by
  simp only [table?, struct?, enum?, union?, Option.map_eq_some_iff] at found
  rcases found with ⟨value, known, rfl⟩ | ⟨value, known, rfl⟩ | ⟨value, known, rfl⟩ |
    ⟨value, known, rfl⟩
  · exact keyed.tables name value known
  · exact keyed.structs name value known
  · exact keyed.enums name value known
  · exact keyed.unions name value known

theorem getElem?_of_mem_declarations {scope : Scope} (keyed : scope.Keyed) {table : Record}
    (member : .table table ∈ scope.declarations) :
    scope.tables[table.name.text]? = some table := by
  obtain ⟨key, found⟩ : ∃ key : String, scope.tables[key]? = some table := by
    simpa [declarations, NameMap.mem_values_iff] using member
  rw [keyed.tables key table found]
  exact found

/-- The names of the declarations are the keys of the maps. -/
theorem mem_names_iff {scope : Scope} (keyed : scope.Keyed) {name : String} :
    name ∈ scope.names ↔
      name ∈ scope.tables ∨ name ∈ scope.structs ∨ name ∈ scope.enums ∨ name ∈ scope.unions := by
  have known : name ∈ scope.names ↔ ∃ declaration, scope.table? name = some declaration ∨
      scope.struct? name = some declaration ∨ scope.enum? name = some declaration ∨
      scope.union? name = some declaration := by
    rw [names, List.mem_map]
    constructor
    · rintro ⟨declaration, member, rfl⟩
      obtain ⟨key, found⟩ := mem_declarations_iff.mp member
      rw [name_of_lookup keyed found]
      exact ⟨declaration, found⟩
    · rintro ⟨declaration, found⟩
      exact ⟨declaration, mem_declarations_iff.mpr ⟨name, found⟩, name_of_lookup keyed found⟩
  simp only [known, exists_or, table?, struct?, enum?, union?, Option.map_eq_some_iff,
    Std.TreeMap.mem_iff_isSome_getElem?, Option.isSome_iff_exists]
  grind

end Scope

theorem Schema.scope_keyed (schema : Schema) : schema.scope.Keyed :=
  Scope.keyed_flatten_ofSchema schema

end FlatSchema
