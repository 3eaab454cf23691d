import FlatSchema.Proofs.Schema.WellFormed
import FlatSchema.Proofs.Scope.KindPriority
import FlatSchema.Proofs.Swift.Emission
import FlatSchema.Proofs.Swift.Lines
import FlatSchema.Proofs.Text.Code
import FlatSchema.Proofs.Text.Title

/-!
The brackets of a Swift source. What a schema puts into a block are names and values, which have no
quotes and no brackets, and one literal, the file identifier of the root extension, which a scan
skips because its quotes are behind backslashes. So the brackets of a block are those of its
templates, and these match.
-/

namespace FlatSchema

open Text

section Declarations

def Declaration.WellFormed : Declaration → Prop
  | .table declared => declared.WellFormed
  | .struct declared => declared.WellFormed
  | .enumeration declared => declared.WellFormed
  | .union declared => declared.WellFormed

theorem Document.WellFormed.declaration {document : Document} (wellFormed : document.WellFormed)
    {declaration : Declaration} (holds : document.Holds declaration) : declaration.WellFormed := by
  obtain ⟨kind, content, listed, rfl⟩ := holds
  cases kind with
  | table => exact wellFormed.tables content listed
  | struct => exact wellFormed.structs content listed
  | enumeration => exact wellFormed.enums content listed
  | union => exact wellFormed.unions content listed

theorem Schema.WellFormed.found {schema : Schema} (wellFormed : schema.WellFormed)
    (kind : Declaration.Kind) {name : String} {declaration : Declaration}
    (found : kind.find? schema.scope name = some declaration) : declaration.WellFormed := by
  rw [Declaration.Kind.find?_scope, Option.map_eq_some_iff] at found
  obtain ⟨content, last, rfl⟩ := found
  obtain ⟨earlier, document, later, split, -, -, holds⟩ :=
    Declaration.Kind.lastHolds_of_last? last
  have member : document ∈ schema.documents := by
    rw [split]
    exact List.mem_append_cons_self
  exact (wellFormed document member).declaration holds

/-- The declarations of a scope are those of the documents. -/
theorem Schema.WellFormed.declared {schema : Schema} (wellFormed : schema.WellFormed)
    {declaration : Declaration} (declared : declaration ∈ schema.scope.declarations) :
    declaration.WellFormed := by
  obtain ⟨name, table | struct | enumeration | union⟩ := Scope.mem_declarations_iff.mp declared
  · exact wellFormed.found .table table
  · exact wellFormed.found .struct struct
  · exact wellFormed.found .enumeration enumeration
  · exact wellFormed.found .union union

end Declarations

section Words

theorem Ident.WellFormed.level {name : Ident} (wellFormed : name.WellFormed) : Level name.text :=
  level_of_isValueChar fun character member =>
    isValueChar_of_isNameChar (wellFormed.spelled.2 character member)

theorem Text.IsValue.level {text : String} (value : IsValue text) : Level text :=
  level_of_isValueChar value.2

/-- What the stored form of a word has in front of it is no bracket. -/
theorem level_ofSource {value : String} (level : Level value) : Level (Ident.ofSource value).text := by
  unfold Ident.ofSource
  split
  · exact Level.append (by decide) level
  · exact level

theorem Namespace.WellFormed.level {nameSpace : Namespace} (wellFormed : nameSpace.WellFormed) :
    Level nameSpace.container := by
  apply level_join
  rw [List.forall_mem_map]
  intro part member
  apply level_of_isValueChar
  intro character inside
  have spelled := (wellFormed part member).spelled.2
  exact isValueChar_of_isNameChar (isNameChar_titleCase spelled character inside)

theorem Schema.WellFormed.level_container {schema : Schema} (wellFormed : schema.WellFormed) :
    Level schema.container := by
  have own := (wellFormed_iff.mp wellFormed).1
  unfold Schema.container
  cases declared : schema.document.nameSpace with
  | none => decide
  | some nameSpace => exact (own.nameSpace nameSpace declared).level

end Words

namespace Swift

theorem level_scalarType (scalar : Scalar) : Level (scalarType scalar) := by
  cases scalar <;> decide

theorem level_zeroValue (scalar : Scalar) : Level (zeroValue scalar) := by
  cases scalar <;> decide

theorem level_scalarValue (scalar : Scalar) {value? : Option String}
    (values : ∀ value ∈ value?, IsValue value) : Level (scalarValue scalar value?) := by
  cases value? with
  | none => exact level_zeroValue scalar
  | some value =>
    rw [scalarValue]
    by_cases isFalse : scalar = .bool ∧ value = "0"
    · rw [if_pos isFalse]
      decide
    · rw [if_neg isFalse]
      by_cases isTrue : scalar = .bool ∧ value = "1"
      · rw [if_pos isTrue]
        decide
      · rw [if_neg isTrue]
        exact (values value rfl).level

/-- The line in which a body begins. -/
theorem fits_opening {keyword name : String} (plain : Level keyword) (level : Level name) :
    Fits (keyword ++ name ++ " \x7b") [] [.curly] :=
  Fits.append (plain.append level) (by decide)

theorem level_caseLine {enumCase : EnumCase} (wellFormed : enumCase.WellFormed) :
    Level (Context.caseLine enumCase) := by
  have name : Level ("    case " ++ enumCase.name.text) :=
    Level.append (by decide) wellFormed.name.level
  unfold Context.caseLine
  apply name.append
  split
  · next value given => exact Level.append (by decide) (wellFormed.value value given).level
  · decide

theorem linesFit_enumerationLines {enumeration : Enumeration} (wellFormed : enumeration.WellFormed) :
    LinesFit (Context.enumerationLines enumeration) [] [] := by
  have name : Level ("public enum " ++ enumeration.name.text) :=
    Level.append (by decide) wellFormed.name.level
  have front := (name.append (by decide : Level ": ")).append (level_scalarType enumeration.base)
  have right : Fits ", CaseIterable \x7b" [] [.curly] := by decide
  have opening := LinesFit.singleton (Fits.append front right)
  have cases : ∀ enumCase ∈ enumeration.cases, Level (Context.caseLine enumCase) := by
    intro enumCase member
    exact level_caseLine (wellFormed.cases enumCase member)
  unfold Context.enumerationLines
  exact (opening.append (linesFit_map cases)).append (by decide)

theorem nested_fileIdentifierText {fileIdentifier : Option String}
    (literals : ∀ text ∈ fileIdentifier, IsLiteral text) :
    Nested (utf8Bytes (fileIdentifierText fileIdentifier)) := by
  cases fileIdentifier with
  | none => decide
  | some text =>
    rw [fileIdentifierText, utf8Bytes_append, utf8Bytes_append]
    exact .literal (literals text rfl) .nil

section Blocks

variable {context : Context} (container : Level context.container)

include container

theorem level_typeName {name : String} (level : Level name) : Level (context.typeName name) := by
  unfold Context.typeName
  split
  · exact level
  · exact (container.append (by decide)).append level

theorem level_baseText {base : BaseType} (wellFormed : base.WellFormed) :
    Level (context.baseText base) := by
  unfold Context.baseText
  cases base with
  | scalar scalar => exact level_scalarType scalar
  | string =>
    change Level "String"
    decide
  | reference name => exact level_typeName container wellFormed.1.level

theorem level_typeText {type : FieldType} (wellFormed : type.base.WellFormed) :
    Level (context.typeText type) := by
  have base := level_baseText container wellFormed
  unfold Context.typeText
  split
  · have left : Fits "[" [] [.square] := by decide
    exact base.between left (by decide)
  · exact base

theorem level_propertyText {field : Field} (wellFormed : field.WellFormed) :
    Level (context.propertyText field) := by
  have type := level_typeText container wellFormed.type
  unfold Context.propertyText
  split
  · exact type.append (by decide)
  · split
    · exact (type.append (by decide)).append (level_scalarValue _ wellFormed.default)
    · exact type.append (by decide)
    · split
      · next value _ given =>
        -- A default of an enumeration is spelled as a value even where it is taken for a case.
        have level := (wellFormed.default value given).level
        split
        · exact (type.append (by decide)).append (level_ofSource level)
        · have left : Fits "(rawValue: " [] [.round] := by decide
          have front : Level (context.typeText field.type ++ "? = " ++ context.typeText field.type) :=
            (type.append (by decide)).append type
          exact level.between (Fits.append front left) (by decide)
      · exact type.append (by decide)

theorem linesFit_tableLines {table : Record} (wellFormed : table.WellFormed) :
    LinesFit (context.tableLines table) [] [] := by
  have opening : LinesFit ["public final class " ++ table.name.text ++ " \x7b"] [] [.curly] :=
    .singleton (fits_opening (by decide) wellFormed.name.level)
  have properties : ∀ field ∈ table.fields.filter (!·.isDeprecated),
      Level ("    " ++ context.property field) := by
    intro field kept
    have own := wellFormed.fields field (List.mem_of_mem_filter kept)
    have name : Level ("public var " ++ field.name.text) := Level.append (by decide) own.name.level
    have property : Level (context.property field) :=
      (name.append (by decide)).append (level_propertyText container own)
    exact Level.append (by decide) property
  unfold Context.tableLines
  exact (opening.append (linesFit_map properties)).append (by decide)

theorem linesFit_structLines {struct : Record} (wellFormed : struct.WellFormed) :
    LinesFit (context.structLines struct) [] [] := by
  let fields := (struct.fields.filter (!·.isDeprecated)).map fun field =>
    (field.name.text, context.typeText field.type)
  have levels : ∀ field ∈ fields, Level field.1 ∧ Level field.2 := by
    rw [List.forall_mem_map]
    intro field kept
    have own := wellFormed.fields field (List.mem_of_mem_filter kept)
    exact ⟨own.name.level, level_typeText container own.type⟩
  have opening : LinesFit ["public struct " ++ struct.name.text ++ " \x7b"] [] [.curly] :=
    .singleton (fits_opening (by decide) wellFormed.name.level)
  have properties : ∀ field ∈ fields, Level ("    public var " ++ field.1 ++ ": " ++ field.2) := by
    intro field member
    obtain ⟨name, type⟩ := levels field member
    exact ((Level.append (by decide) name).append (by decide)).append type
  have parameters : Level (", ".intercalate (fields.map fun field => field.1 ++ ": " ++ field.2)) := by
    apply level_intercalate (by decide)
    rw [List.forall_mem_map]
    intro field member
    obtain ⟨name, type⟩ := levels field member
    exact (name.append (by decide)).append type
  -- The line of the initializer closes its parameters and leaves its body open.
  have left : Fits "    public init(" [.curly] [.round, .curly] := by decide
  have right : Fits ") \x7b" [.round, .curly] [.curly, .curly] := by decide
  have initializer := LinesFit.singleton (parameters.between left right)
  have blank : Fits "" [.curly] [.curly] := by decide
  have assignments : ∀ field ∈ fields, Level ("        self." ++ field.1 ++ " = " ++ field.1) := by
    intro field member
    obtain ⟨name, -⟩ := levels field member
    exact ((Level.append (by decide) name).append (by decide)).append name
  unfold Context.structLines
  exact (((opening.append (linesFit_map properties)).append (.cons blank initializer)).append
    (linesFit_map assignments)).append (by decide)

theorem linesFit_unionLines {union : TaggedUnion} (wellFormed : union.WellFormed) :
    LinesFit (context.unionLines union) [] [] := by
  have opening : LinesFit ["public enum " ++ union.name.text ++ " \x7b"] [] [.curly] :=
    .singleton (fits_opening (by decide) wellFormed.name.level)
  have left : Fits "(" [] [.round] := by decide
  have cases : ∀ name ∈ union.cases,
      Level ("    case with" ++ name.text ++ "(" ++ context.typeName name.text ++ ")") := by
    intro name member
    have level := (wellFormed.cases name member).level
    have front : Level ("    case with" ++ name.text) := Level.append (by decide) level
    exact (level_typeName container level).between (Fits.append front left) (by decide)
  unfold Context.unionLines
  exact (opening.append (linesFit_map cases)).append (by decide)

theorem linesFit_ownLines {declaration : Declaration} (wellFormed : declaration.WellFormed) :
    LinesFit (ownLines context declaration) [] [] := by
  cases declaration with
  | table declared => exact linesFit_tableLines container wellFormed
  | struct declared => exact linesFit_structLines container wellFormed
  | enumeration declared => exact linesFit_enumerationLines wellFormed
  | union declared => exact linesFit_unionLines container wellFormed

theorem level_nest {text : String} (level : Level text) : Level (context.nest text) := by
  unfold Context.nest
  split
  · exact level
  · have front : Level ("extension " ++ context.container) := Level.append (by decide) container
    have left : Fits " \x7b\n" [] [.curly] := by decide
    have body : Level (indent text) := Fits.indent level
    exact body.between (Fits.append front left) (by decide)

theorem nested_rootLines {table : Record} (wellFormed : table.WellFormed)
    {fileIdentifier : Option String} (literals : ∀ text ∈ fileIdentifier, IsLiteral text) :
    Nested (utf8Bytes (String.join
      ((context.rootLines table fileIdentifier).map (· ++ "\n")))) := by
  have name := level_typeName container wellFormed.name.level
  have opening : Fits ("extension " ++ context.typeName table.name.text ++ " \x7b") [] [.curly] :=
    fits_opening (by decide) name
  have ended : Fits "\n" [.curly] [.curly] := by decide
  have lead : Fits "    public static let fileIdentifier: String? = " [.curly] [.curly] := by decide
  have below : LinesFit (Context.finishLines context.lateBinding ++ ["\x7d"]) [.curly] [] := by
    cases context.lateBinding <;> decide +kernel
  -- The literal stands in the middle, so the lines around it are taken apart.
  have nested := (nested_fileIdentifierText literals).between
    ((opening.append ended).append lead) (ended.append below)
  rw [Context.rootLines, List.append_assoc, List.cons_append, List.map_cons, List.cons_append,
    List.nil_append, List.map_cons, String.join_cons, String.join_cons]
  simpa only [String.append_assoc] using nested

theorem level_nest_ownLines {declaration : Declaration} (wellFormed : declaration.WellFormed) :
    Level (context.nest (block (ownLines context declaration))) := by
  apply level_nest container
  rw [block_eq_join (ownLines_ne_nil context declaration)]
  exact linesFit_ownLines container wellFormed

theorem nested_render {document : Document} (wellFormed : document.WellFormed)
    {declaration : Declaration} (declared : declaration.WellFormed) :
    Nested (utf8Bytes (render context document declaration)) := by
  rw [render_eq_blockText, blockText, utf8Bytes_append]
  apply (level_nest_ownLines container declared).nested.append
  cases declaration with
  | table table =>
    by_cases root : document.rootType = some table.name
    · rw [extensionLines, if_pos root]
      exact nested_rootLines container declared wellFormed.fileIdentifier
    · rw [extensionLines, if_neg root]
      exact .nil
  | _ => exact .nil

end Blocks

/-- The blocks of a source: one for each declaration, and the helper where it is needed. -/
def blocksOf (schema : Schema) : List String :=
  (emittedBy schema).map (render (contextOf schema) schema.document) ++
    if schema.isRecursive then [lateBindingHelper] else []

/-- A source is a header and its blocks with an empty line after each. -/
theorem source_eq_blocks (schema : Schema) (withImport : Bool) :
    source schema withImport =
      header withImport ++ String.join ((blocksOf schema).map (· ++ "\n")) := by
  unfold source blocksOf
  rw [List.map_append, List.map_map, String.join_append, String.append_assoc]
  congr 2
  by_cases recursive : schema.isRecursive = true
  · simp [contextOf, recursive]
  · simp [contextOf, recursive]

theorem nested_block {schema : Schema} (wellFormed : schema.WellFormed) :
    ∀ block ∈ blocksOf schema, Nested (utf8Bytes block) := by
  have own := (Schema.wellFormed_iff.mp wellFormed).1
  have container : Level (contextOf schema).container := wellFormed.level_container
  unfold blocksOf
  rw [List.forall_mem_append, List.forall_mem_map]
  constructor
  · intro declaration emitted
    have declared := wellFormed.declared (mem_declarations_of_emittedBy emitted)
    exact nested_render container own declared
  · split
    · rw [List.forall_mem_singleton]
      decide +kernel
    · exact List.forall_mem_nil _

theorem nested_join {blocks : List String} (each : ∀ block ∈ blocks, Nested (utf8Bytes block)) :
    Nested (utf8Bytes (String.join (blocks.map (· ++ "\n")))) := by
  induction blocks with
  | nil => exact .nil
  | cons block blocks inductionHypothesis =>
    rw [List.forall_mem_cons] at each
    rw [List.map_cons, String.join_cons, utf8Bytes_append, utf8Bytes_append]
    exact (each.1.append (by decide)).append (inductionHypothesis each.2)

theorem nested_source {schema : Schema} (wellFormed : schema.WellFormed) (withImport : Bool) :
    Nested (utf8Bytes (source schema withImport)) := by
  have top : Nested (utf8Bytes (header withImport)) := by
    cases withImport <;> decide
  rw [source_eq_blocks, utf8Bytes_append]
  exact top.append (nested_join (nested_block wellFormed))

/-- The brackets of a source match, over the whole text and within each of the blocks that it is made
of. -/
structure Bracketed (schema : Schema) (withImport : Bool) : Prop where
  composed : source schema withImport =
    header withImport ++ String.join ((blocksOf schema).map (· ++ "\n"))
  whole : Nested (utf8Bytes (source schema withImport))
  blocks : ∀ block ∈ blocksOf schema, Nested (utf8Bytes block)

theorem bracketed_of_parsed {schema : Schema} (parsed : schema.Parsed) (withImport : Bool) :
    Bracketed schema withImport :=
  ⟨source_eq_blocks schema withImport, nested_source parsed.wellFormed withImport,
    nested_block parsed.wellFormed⟩

/-- Whatever text a schema was compiled from, the brackets of its source match, if its includes were
left alone or were resolved to schemas that were read. -/
theorem source_brackets_match (text : String) (withImport : Bool) :
    (∀ schema, Schema.compile text = .ok schema → Bracketed schema withImport) ∧
      ∀ (State : Type) (resolve : String → StateM State (Option Schema)) (start : State),
        Schema.FindsOnly Schema.Parsed resolve →
        ∀ schema, ((Schema.compileWith resolve text).run start).1 = .ok schema →
          Bracketed schema withImport := by
  constructor
  · intro schema accepted
    exact bracketed_of_parsed (.of_compile accepted) withImport
  · intro State resolve start finds schema accepted
    exact bracketed_of_parsed (.of_compileWith finds accepted) withImport

section Hostile

/-- A text whose file identifier is made of a quote and of brackets that do not match. -/
def hostileText : String :=
  "include \"item\"; namespace a.b; enum Hue: byte \x7b red = -1, class \x7d " ++
    "table T \x7b all: [Item]; hue: Hue = 7; own: Hue = class; \x7d " ++
    "root_type T; file_identifier \"\x7d\\\"([\";"

def hostile : Schema :=
  { document :=
      { includes := ["item"]
        nameSpace := some ⟨[⟨"a"⟩, ⟨"b"⟩]⟩
        rootType := some ⟨"T"⟩
        fileIdentifier := some "\x7d\\\"(["
        tables := [⟨⟨"T"⟩,
          [⟨⟨"all"⟩, ⟨.reference ⟨"Item"⟩, true⟩, none, {}⟩,
           ⟨⟨"hue"⟩, ⟨.reference ⟨"Hue"⟩, false⟩, some "7", {}⟩,
           ⟨⟨"own"⟩, ⟨.reference ⟨"Hue"⟩, false⟩, some "class", {}⟩], {}⟩]
        enums := [⟨⟨"Hue"⟩, .int8, [⟨⟨"red"⟩, some "-1"⟩, ⟨⟨"_class"⟩, none⟩], {}⟩] }
    children := [⟨{ structs := [⟨⟨"Item"⟩, [⟨⟨"_in"⟩, ⟨.scalar .int8, false⟩, none, {}⟩], {}⟩] }, []⟩] }

theorem source_brackets_match_hostile :
    Schema.FindsOnly Schema.Parsed Schema.itemResolver ∧
      ((Schema.compileWith Schema.itemResolver hostileText).run 0).1 = .ok hostile ∧
      Bracketed hostile true := by
  have accepted : ((Schema.compileWith Schema.itemResolver hostileText).run 0).1 = .ok hostile := by
    decide +kernel
  exact ⟨Schema.findsOnly_itemResolver, accepted, (source_brackets_match hostileText true).2 Nat
    Schema.itemResolver 0 Schema.findsOnly_itemResolver _ accepted⟩

end Hostile

end Swift

end FlatSchema
