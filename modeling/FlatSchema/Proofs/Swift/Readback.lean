import FlatSchema.Proofs.Swift.Containers
import FlatSchema.Proofs.Swift.Shapes

/-!
What a block tells of its declaration. Nesting keeps lines apart, and lines tell what stands in the
places of a template. So a block can be read back: it tells the name of its declaration, and in
order the cases of an enumeration or a union, the members of a struct and the properties of a table,
each as it is written.
-/

namespace FlatSchema

open Text

/-- A declaration that stands in a schema that was read. -/
def Declaration.Parsed (declaration : Declaration) : Prop :=
  ∃ schema : Schema, schema.Parsed ∧ ∃ document ∈ schema.documents, document.Holds declaration

theorem Declaration.Parsed.wellFormed {declaration : Declaration} (parsed : declaration.Parsed) :
    declaration.WellFormed := by
  obtain ⟨schema, read, document, member, holds⟩ := parsed
  exact (read.wellFormed document member).declaration holds

theorem Namespace.WellFormed.run_container {nameSpace : Namespace}
    (wellFormed : nameSpace.WellFormed) : Run isNameChar nameSpace.container := by
  unfold Run Namespace.container
  rw [String.toList_join, List.forall_mem_flatMap, List.forall_mem_map]
  intro part member
  exact isNameChar_titleCase (wellFormed part member).spelled.2

namespace Swift

section Blocks

variable {context : Context}

theorem EnumerationShape.nest_lines_eq_iff {enumeration : Enumeration}
    (wellFormed : enumeration.WellFormed) {shape : EnumerationShape} (sound : shape.Sound) :
    context.nest (block shape.lines) = context.enumeration enumeration ↔
      shape = ofEnumeration enumeration := by
  rw [← nest_ofEnumeration]
  exact context.nest_shape_eq_iff lines_ne_nil (fun _ => Sound.oneLine) (fun _ _ => Sound.lines_inj)
    sound (sound_ofEnumeration wellFormed)

variable (container : Run isNameChar context.container)

include container

theorem UnionShape.nest_lines_eq_iff {union : TaggedUnion} (wellFormed : union.WellFormed)
    {shape : UnionShape} (sound : shape.Sound) :
    context.nest (block shape.lines) = context.union union ↔ shape = ofUnion context union := by
  rw [← nest_ofUnion]
  exact context.nest_shape_eq_iff lines_ne_nil (fun _ => Sound.oneLine) (fun _ _ => Sound.lines_inj)
    sound (sound_ofUnion container wellFormed)

theorem StructShape.nest_lines_eq_iff {struct : Record} (wellFormed : struct.WellFormed)
    {shape : StructShape} (sound : shape.Sound) :
    context.nest (block shape.lines) = context.struct struct ↔ shape = ofStruct context struct := by
  rw [← nest_ofStruct]
  exact context.nest_shape_eq_iff lines_ne_nil (fun _ => Sound.oneLine) (fun _ _ => Sound.lines_inj)
    sound (sound_ofStruct container wellFormed)

theorem TableShape.nest_lines_eq_iff {table : Record} (wellFormed : table.WellFormed)
    (fileIdentifier : Option String) {shape : TableShape} (sound : shape.Sound) :
    context.nest (block shape.lines) = context.table table false fileIdentifier ↔
      shape = ofTable context table := by
  rw [← nest_ofTable]
  exact context.nest_shape_eq_iff lines_ne_nil (fun _ => Sound.oneLine) (fun _ _ => Sound.lines_inj)
    sound (sound_ofTable container wellFormed)

end Blocks

/-- A block tells what it was made from: for an enumeration its name, base and cases, for a union
its name and cases, for a struct its name and its members, which stand in the same order in all
three places, and for a table that is not the root its name and its properties. -/
theorem block_tells_declaration (context : Context)
    (container : context.container = "" ∨
      ∃ nameSpace : Namespace, nameSpace.Parsed ∧ context.container = nameSpace.container) :
    (∀ enumeration : Enumeration, Declaration.Parsed (.enumeration enumeration) →
      (∀ shape : EnumerationShape, shape.Sound →
        (context.nest (block shape.lines) = context.enumeration enumeration ↔
          shape.name = enumeration.name.text ∧ shape.base = scalarType enumeration.base ∧
          shape.cases =
            enumeration.cases.map fun enumCase => (enumCase.name.text, enumCase.value))) ∧
      ∀ other : Enumeration, Declaration.Parsed (.enumeration other) →
        (context.enumeration enumeration = context.enumeration other ↔
          enumeration.name = other.name ∧ enumeration.base = other.base ∧
            enumeration.cases = other.cases)) ∧
    (∀ union : TaggedUnion, Declaration.Parsed (.union union) →
      (∀ shape : UnionShape, shape.Sound →
        (context.nest (block shape.lines) = context.union union ↔
          shape.name = union.name.text ∧
          shape.cases = union.cases.map fun name => (name.text, context.typeName name.text))) ∧
      ∀ other : TaggedUnion, Declaration.Parsed (.union other) →
        (context.union union = context.union other ↔
          union.name = other.name ∧ union.cases = other.cases)) ∧
    (∀ struct : Record, Declaration.Parsed (.struct struct) →
      (∀ shape : StructShape, shape.Sound →
        (context.nest (block shape.lines) = context.struct struct ↔
          shape.name = struct.name.text ∧ shape.properties = context.members struct ∧
          shape.parameters = context.members struct ∧
          shape.assignments = (context.members struct).map fun (name, _) => (name, name))) ∧
      ∀ other : Record, Declaration.Parsed (.struct other) →
        (context.struct struct = context.struct other ↔
          struct.name = other.name ∧ context.members struct = context.members other)) ∧
    (∀ (table : Record) (fileIdentifier : Option String), Declaration.Parsed (.table table) →
      (∀ shape : TableShape, shape.Sound →
        (context.nest (block shape.lines) = context.table table false fileIdentifier ↔
          shape.name = table.name.text ∧ shape.properties = context.properties table)) ∧
      ∀ (other : Record) (fileIdentifier' : Option String), Declaration.Parsed (.table other) →
        (context.table table false fileIdentifier = context.table other false fileIdentifier' ↔
          table.name = other.name ∧ context.properties table = context.properties other)) := by
  have run : Run isNameChar context.container := by
    rcases container with empty | ⟨nameSpace, parsed, named⟩
    · rw [empty]
      decide
    · rw [named]
      exact parsed.wellFormed.run_container
  refine ⟨?_, ?_, ?_, ?_⟩
  · intro enumeration parsed
    refine ⟨?_, ?_⟩
    · intro shape sound
      rw [EnumerationShape.nest_lines_eq_iff parsed.wellFormed sound, EnumerationShape.ext_iff]
      rfl
    · intro other parsed'
      have sound := EnumerationShape.sound_ofEnumeration parsed.wellFormed
      rw [← EnumerationShape.nest_ofEnumeration,
        EnumerationShape.nest_lines_eq_iff parsed'.wellFormed sound,
        EnumerationShape.ofEnumeration_eq_iff]
  · intro union parsed
    refine ⟨?_, ?_⟩
    · intro shape sound
      rw [UnionShape.nest_lines_eq_iff run parsed.wellFormed sound, UnionShape.ext_iff]
      rfl
    · intro other parsed'
      have sound := UnionShape.sound_ofUnion run parsed.wellFormed
      rw [← UnionShape.nest_ofUnion, UnionShape.nest_lines_eq_iff run parsed'.wellFormed sound,
        UnionShape.ofUnion_eq_iff]
  · intro struct parsed
    refine ⟨?_, ?_⟩
    · intro shape sound
      rw [StructShape.nest_lines_eq_iff run parsed.wellFormed sound, StructShape.ext_iff]
      rfl
    · intro other parsed'
      have sound := StructShape.sound_ofStruct run parsed.wellFormed
      rw [← StructShape.nest_ofStruct, StructShape.nest_lines_eq_iff run parsed'.wellFormed sound,
        StructShape.ofStruct_eq_iff]
  · intro table fileIdentifier parsed
    refine ⟨?_, ?_⟩
    · intro shape sound
      rw [TableShape.nest_lines_eq_iff run parsed.wellFormed fileIdentifier sound,
        TableShape.ext_iff]
      rfl
    · intro other fileIdentifier' parsed'
      have sound := TableShape.sound_ofTable run parsed.wellFormed
      rw [← TableShape.nest_ofTable context table fileIdentifier,
        TableShape.nest_lines_eq_iff run parsed'.wellFormed fileIdentifier' sound,
        TableShape.ofTable_eq_iff]

section Shades

def shadeText : String :=
  "namespace game; enum Hue: byte \x7b red = 1, blue \x7d union Any \x7b Pen \x7d " ++
    "struct Dot \x7b x: int; y: long (deprecated); \x7d table Pen \x7b hue: Hue = red; \x7d"

/-- The same declarations with a value, a case, a field and a default changed. -/
def otherShadeText : String :=
  "enum Hue: byte \x7b red, blue = 1 \x7d union Any \x7b Dot \x7d " ++
    "struct Dot \x7b x: int; \x7d table Pen \x7b hue: Hue = 1; \x7d"

def hue (first second : Option String) : Enumeration :=
  ⟨⟨"Hue"⟩, .int8, [⟨⟨"red"⟩, first⟩, ⟨⟨"blue"⟩, second⟩], {}⟩

def choice (name : String) : TaggedUnion :=
  ⟨⟨"Any"⟩, [⟨name⟩], {}⟩

def dot (fields : List Field) : Record :=
  ⟨⟨"Dot"⟩, ⟨⟨"x"⟩, ⟨.scalar .int32, false⟩, none, {}⟩ :: fields, {}⟩

def pen (default : String) : Record :=
  ⟨⟨"Pen"⟩, [⟨⟨"hue"⟩, ⟨.reference ⟨"Hue"⟩, false⟩, some default, {}⟩], {}⟩

def oldField : Field :=
  ⟨⟨"y"⟩, ⟨.scalar .int64, false⟩, none, ⟨[⟨"deprecated", none⟩]⟩⟩

def shade : Schema :=
  { document :=
      { nameSpace := some ⟨[⟨"game"⟩]⟩
        tables := [pen "red"]
        structs := [dot [oldField]]
        enums := [hue (some "1") none]
        unions := [choice "Pen"] }
    children := [] }

def otherShade : Schema :=
  { document :=
      { tables := [pen "1"]
        structs := [dot []]
        enums := [hue none (some "1")]
        unions := [choice "Dot"] }
    children := [] }

set_option maxRecDepth 1000 in
/-- Whatever is changed shows, but for the deprecated field of the struct. -/
theorem block_tells_declaration_shades :
    Schema.compile shadeText = .ok shade ∧ Schema.compile otherShadeText = .ok otherShade ∧
      let context := contextOf shade
      context.container = "Game" ∧
        context.enumeration (hue (some "1") none) ≠ context.enumeration (hue none (some "1")) ∧
        context.union (choice "Pen") ≠ context.union (choice "Dot") ∧
        context.struct (dot [oldField]) = context.struct (dot []) ∧
        context.table (pen "red") false none ≠ context.table (pen "1") false none := by
  have accepted : Schema.compile shadeText = .ok shade := by rfl
  have accepted' : Schema.compile otherShadeText = .ok otherShade := by rfl
  have declared (declaration : Declaration) (holds : shade.document.Holds declaration) :
      declaration.Parsed :=
    ⟨shade, .of_compile accepted, shade.document, shade.document_mem_documents, holds⟩
  have declared' (declaration : Declaration) (holds : otherShade.document.Holds declaration) :
      declaration.Parsed :=
    ⟨otherShade, .of_compile accepted', otherShade.document, otherShade.document_mem_documents,
      holds⟩
  have parsed : Namespace.Parsed ⟨[⟨"game"⟩]⟩ := ⟨utf8Bytes "namespace game;", 0, 15, by rfl⟩
  obtain ⟨enumerations, unions, structs, tables⟩ :=
    block_tells_declaration (contextOf shade) (.inr ⟨_, parsed, rfl⟩)
  refine ⟨accepted, accepted', by rfl, ?_, ?_, ?_, ?_⟩
  · rw [ne_eq, (enumerations _ (declared _ ⟨.enumeration, _, List.mem_cons_self, rfl⟩)).2 _
      (declared' _ ⟨.enumeration, _, List.mem_cons_self, rfl⟩)]
    decide
  · rw [ne_eq, (unions _ (declared _ ⟨.union, _, List.mem_cons_self, rfl⟩)).2 _
      (declared' _ ⟨.union, _, List.mem_cons_self, rfl⟩)]
    decide
  · rw [(structs _ (declared _ ⟨.struct, _, List.mem_cons_self, rfl⟩)).2 _
      (declared' _ ⟨.struct, _, List.mem_cons_self, rfl⟩)]
    decide
  · rw [ne_eq, (tables _ none (declared _ ⟨.table, _, List.mem_cons_self, rfl⟩)).2 _ none
      (declared' _ ⟨.table, _, List.mem_cons_self, rfl⟩)]
    decide

end Shades

end Swift

end FlatSchema
