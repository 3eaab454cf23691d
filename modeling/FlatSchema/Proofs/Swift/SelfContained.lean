import FlatSchema.Proofs.Swift.Emission
import FlatSchema.Proofs.Swift.Lines
import FlatSchema.Schema.Compile

/-!
Which types of a source are declared in it. A block writes the types of its fields and the payloads
of its cases by name. What a table names, and what a struct names as a struct and a union as a
table, is emitted along with it; without a root table everything is emitted. Other names that structs
and unions write may be left without a declaration.
-/

namespace FlatSchema

/-- The names that the fields of a record refer to, less those of deprecated fields. -/
def Record.writtenTypes (record : Record) : List Ident :=
  (record.fields.filter (!·.isDeprecated)).filterMap (·.type.reference?)

theorem Record.mem_writtenTypes_iff {record : Record} {name : Ident} :
    name ∈ record.writtenTypes ↔
      ∃ field ∈ record.fields.filter (!·.isDeprecated), field.type.reference? = some name :=
  List.mem_filterMap

theorem Record.writtenTypes_subset (record : Record) : record.writtenTypes ⊆ record.references :=
  (List.filter_sublist.filterMap _).subset

namespace Declaration

/-- The names that the block of a declaration writes as types: those of its fields, or the payloads
of its cases. -/
def writtenTypes : Declaration → List Ident
  | .table declared => declared.writtenTypes
  | .struct declared => declared.writtenTypes
  | .enumeration _ => []
  | .union declared => declared.cases

/-- A declaration takes along what a name stands for: a table whatever it is, a struct only a
struct, a union only a table. -/
def TakesAlong (scope : Scope) (name : String) : Declaration → Prop
  | .table _ => (scope.resolve? name).isSome
  | .struct _ => (scope.struct? name).isSome
  | .enumeration _ => False
  | .union _ => (scope.table? name).isSome

/-- A declaration needs what it takes along for a name that it writes. -/
theorem exists_needs_of_takesAlong {scope : Scope} (keyed : scope.Keyed) {holder : Declaration}
    {name : Ident} (written : name ∈ holder.writtenTypes)
    (takes : holder.TakesAlong scope name.text) :
    ∃ other, holder.Needs scope other ∧ other.name = name.text := by
  cases holder with
  | table declared =>
    obtain ⟨other, found⟩ := Option.isSome_iff_exists.mp takes
    have referred := declared.writtenTypes_subset written
    exact ⟨other, List.mem_filterMap.mpr ⟨name, referred, found⟩,
      Scope.name_of_lookup keyed (Scope.lookup_of_resolve? found)⟩
  | struct declared =>
    obtain ⟨other, found⟩ := Option.isSome_iff_exists.mp takes
    have referred := declared.writtenTypes_subset written
    exact ⟨other, List.mem_filterMap.mpr ⟨name, referred, found⟩,
      Scope.name_of_lookup keyed (.inr (.inl found))⟩
  | enumeration declared => cases takes
  | union declared =>
    obtain ⟨other, found⟩ := Option.isSome_iff_exists.mp takes
    exact ⟨other, List.mem_filterMap.mpr ⟨name, written, found⟩,
      Scope.name_of_lookup keyed (.inl found)⟩

end Declaration

namespace Swift

/-- A text stands somewhere in another one. -/
def Within (part text : String) : Prop :=
  ∃ before after, text = before ++ part ++ after

section Within

variable {part text : String}

theorem within_refl (part : String) : Within part part :=
  ⟨"", "", by simp⟩

theorem Within.append (within : Within part text) (after : String) : Within part (text ++ after) := by
  obtain ⟨before, between, rfl⟩ := within
  exact ⟨before, between ++ after, String.append_assoc⟩

theorem Within.prepend (within : Within part text) (before : String) :
    Within part (before ++ text) := by
  obtain ⟨between, after, rfl⟩ := within
  exact ⟨before ++ between, after, by simp only [String.append_assoc]⟩

end Within

section Written

variable {context : Context} {name : Ident}

theorem within_typeText (context : Context) {type : FieldType} (reference : type.reference? = some name) :
    Within (context.typeName name.text) (context.typeText type) := by
  have base : type.base = .reference name := by
    rw [FieldType.reference?] at reference
    split at reference
    · cases reference
      assumption
    · cases reference
  rw [Context.typeText, base, Context.baseText]
  split
  · exact ((within_refl _).prepend "[").append "]"
  · exact within_refl _

theorem within_propertyText (context : Context) {field : Field} (reference : field.type.reference? = some name) :
    Within (context.typeName name.text) (context.propertyText field) := by
  have type := within_typeText context reference
  rw [Context.propertyText]
  split
  · exact type.append _
  · split
    · exact (type.append _).append _
    · exact type.append _
    · split
      · split
        · exact (type.append _).append _
        · exact ((((type.append _).append _).append _).append _).append _
      · exact type.append _

/-- What is written as a type can be read in a line of the block. -/
theorem exists_line_of_writtenTypes {declaration : Declaration}
    (written : name ∈ declaration.writtenTypes) :
    ∃ line ∈ ownLines context declaration, Within (context.typeName name.text) line := by
  cases declaration with
  | table declared =>
    obtain ⟨field, member, reference⟩ := Record.mem_writtenTypes_iff.mp written
    refine ⟨"    " ++ context.property field, ?_, ?_⟩
    · exact List.mem_append_left _ (List.mem_append_right _ (List.mem_map_of_mem member))
    · exact ((within_propertyText context reference).prepend _).prepend _
  | struct declared =>
    obtain ⟨field, member, reference⟩ := Record.mem_writtenTypes_iff.mp written
    refine ⟨"    public var " ++ field.name.text ++ ": " ++ context.typeText field.type, ?_, ?_⟩
    · simp only [ownLines, Context.structLines, List.mem_append, List.mem_map]
      exact .inl (.inl (.inl (.inr ⟨_, ⟨field, member, rfl⟩, rfl⟩)))
    · exact (within_typeText context reference).prepend _
  | enumeration declared => cases written
  | union declared =>
    refine ⟨"    case with" ++ name.text ++ "(" ++ context.typeName name.text ++ ")", ?_, ?_⟩
    · exact List.mem_append_left _ (List.mem_append_right _
        (List.mem_map.mpr ⟨name, written, rfl⟩))
    · exact ((within_refl _).prepend _).append _

end Written

/-- The types of a source. Each of them can be read in its block. It is declared in the source if the
holder takes it along, and without a root table if it is declared at all. With a root table whatever
is declared in the source is needed by the root or by what that needs, where structs need only
structs and unions only tables. -/
theorem writtenTypes_declared (schema : Schema) :
    (∀ holder ∈ emittedBy schema, ∀ name ∈ holder.writtenTypes,
      ∃ line ∈ ownLines (contextOf schema) holder,
        Within ((contextOf schema).typeName name.text) line) ∧
    (∀ holder ∈ emittedBy schema, ∀ name ∈ holder.writtenTypes,
      holder.TakesAlong schema.scope name.text →
      ∃ other ∈ emittedBy schema, other.name = name.text) ∧
    ((∀ root, schema.document.rootType = some root → root.text ∉ schema.scope.tables) →
      ∀ holder ∈ emittedBy schema, ∀ name ∈ holder.writtenTypes,
        (schema.scope.resolve? name.text).isSome →
        ∃ other ∈ emittedBy schema, other.name = name.text) ∧
    (∀ root table, schema.document.rootType = some root →
      schema.scope.tables[root.text]? = some table →
      ∀ other ∈ emittedBy schema,
        Relation.ReflTransGen (Declaration.Needs schema.scope) (.table table) other) ∧
    (∀ holder other, Declaration.Needs schema.scope (.struct holder) other →
      ∃ struct, other = .struct struct) ∧
    (∀ holder other, Declaration.Needs schema.scope (.union holder) other →
      ∃ table, other = .table table) := by
  obtain ⟨roots, start, sound⟩ := emittedBy_sound schema
  refine ⟨?_, ?_, ?_, ?_, ?_, ?_⟩
  · intro holder _ name written
    exact exists_line_of_writtenTypes written
  · intro holder member name written takes
    obtain ⟨other, needed, named⟩ :=
      Declaration.exists_needs_of_takesAlong schema.scope_keyed written takes
    have emitted := sound.closed holder member other needed
    rw [List.append_nil, List.mem_map, named] at emitted
    exact emitted
  · intro noRoot holder _ name _ resolves
    obtain ⟨other, found⟩ := Option.isSome_iff_exists.mp resolves
    have named := Scope.name_of_lookup schema.scope_keyed (Scope.lookup_of_resolve? found)
    have rooted : other ∈ roots := by
      rw [start.eq_declarations noRoot]
      exact Scope.mem_declarations_of_resolve? found
    have emitted := sound.rooted other rooted
    rw [List.append_nil, List.mem_map, named] at emitted
    exact emitted
  · intro root table rooted found other member
    exact reached_of_emittedBy rooted found member
  · intro holder other needed
    exact Scope.exists_struct_of_needs needed
  · intro holder other needed
    exact Scope.exists_table_of_needs needed

/-- A root table with a struct that has a field of an enumeration. -/
def enumerationInStruct : Schema :=
  { document :=
      { rootType := some ⟨"T"⟩
        tables := [⟨⟨"T"⟩, [⟨⟨"s"⟩, ⟨.reference ⟨"S"⟩, false⟩, none, {}⟩], {}⟩]
        structs := [⟨⟨"S"⟩, [⟨⟨"e"⟩, ⟨.reference ⟨"E"⟩, false⟩, none, {}⟩], {}⟩]
        enums := [⟨⟨"E"⟩, .int8, [⟨⟨"A"⟩, none⟩], {}⟩] }
    children := [] }

/-- A type that is written and declared in the schema need not be declared in the source: the
enumeration of a struct's field is left out. -/
theorem writtenTypes_not_always_declared :
    ¬ ∀ (resolve : String → Id (Option Schema)) (text : String) (schema : Schema),
      Schema.compileWith resolve text = .ok schema →
      ∀ holder ∈ emittedBy schema, ∀ name ∈ holder.writtenTypes,
        (schema.scope.resolve? name.text).isSome →
        ∃ other ∈ emittedBy schema, other.name = name.text := by
  intro declared
  have compiles : Schema.compileWith (m := Id) (fun _ => none)
      "table T \x7b s: S; \x7d struct S \x7b e: E; \x7d enum E: byte \x7b A \x7d root_type T;" =
        .ok enumerationInStruct := by
    rfl
  have emitted : emittedBy enumerationInStruct =
      [.table ⟨⟨"T"⟩, [⟨⟨"s"⟩, ⟨.reference ⟨"S"⟩, false⟩, none, {}⟩], {}⟩,
       .struct ⟨⟨"S"⟩, [⟨⟨"e"⟩, ⟨.reference ⟨"E"⟩, false⟩, none, {}⟩], {}⟩] := by
    cbv
  obtain ⟨other, member, named⟩ := declared _ _ _ compiles
    (.struct ⟨⟨"S"⟩, [⟨⟨"e"⟩, ⟨.reference ⟨"E"⟩, false⟩, none, {}⟩], {}⟩) (by simp [emitted])
    ⟨"E"⟩ (by decide) (by decide)
  simp only [emitted, List.mem_cons, List.not_mem_nil, or_false] at member
  rcases member with rfl | rfl
  · simp [Declaration.name] at named
  · simp [Declaration.name] at named

end Swift

end FlatSchema
