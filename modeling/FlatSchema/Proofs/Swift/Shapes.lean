import FlatSchema.Proofs.Swift.Names
import FlatSchema.Proofs.Text.Runs

/-!
The shapes of blocks: what stands in the places of the template of each kind of declaration,
whatever declaration it is for. Nothing that is put into a template holds a character that the
template goes on with, so the lines of a block tell its shape.
-/

namespace FlatSchema

open Text

theorem Ident.eq_of_text {name name' : Ident} (same : name.text = name'.text) : name = name' := by
  obtain ⟨text⟩ := name
  obtain ⟨text'⟩ := name'
  exact congrArg Ident.mk same

namespace Swift

section Lines

theorem oneLine_ownLines {context : Context} (container : OneLine context.container)
    {declaration : Declaration} (wellFormed : declaration.WellFormed) :
    ∀ line ∈ ownLines context declaration, OneLine line := by
  rw [← map_spell_ownPieces, List.forall_mem_map]
  intro line member
  exact (sound_ownPieces container wellFormed line member).oneLine_spell

/-- Nesting neither merges nor drops lines. -/
theorem Context.nest_block_eq_iff (context : Context) {lines lines' : List String}
    (nonempty : lines ≠ []) (nonempty' : lines' ≠ []) (oneLine : ∀ line ∈ lines, OneLine line)
    (oneLine' : ∀ line ∈ lines', OneLine line) :
    context.nest (block lines) = context.nest (block lines') ↔ lines = lines' := by
  refine ⟨?_, fun same => by rw [same]⟩
  intro same
  unfold nest at same
  split at same
  · exact intercalate_newline_inj nonempty nonempty' oneLine oneLine'
      ((String.append_left_inj _).mp same)
  · rw [String.append_left_inj, String.append_right_inj, block_eq_join nonempty,
      block_eq_join nonempty', indent_join oneLine, indent_join oneLine'] at same
    have indented : lines.map indentLine = lines'.map indentLine := by
      apply intercalate_newline_inj (by simpa using nonempty) (by simpa using nonempty') _ _ same
      · rw [List.forall_mem_map]
        exact fun line member => (oneLine line member).indentLine
      · rw [List.forall_mem_map]
        exact fun line member => (oneLine' line member).indentLine
    exact indentLine_injective.list_map indented

/-- A shape that its lines tell is told by the block that nests them. -/
theorem Context.nest_shape_eq_iff (context : Context) {Shape : Type} {lines : Shape → List String}
    {Sound : Shape → Prop} (nonempty : ∀ shape, lines shape ≠ [])
    (oneLine : ∀ shape, Sound shape → ∀ line ∈ lines shape, OneLine line)
    (inj : ∀ first second, Sound first → Sound second → lines first = lines second →
      first = second)
    {first second : Shape} (sound : Sound first) (sound' : Sound second) :
    context.nest (block (lines first)) = context.nest (block (lines second)) ↔ first = second := by
  rw [context.nest_block_eq_iff (nonempty first) (nonempty second) (oneLine first sound)
    (oneLine second sound')]
  exact ⟨inj first second sound sound', fun same => by rw [same]⟩

theorem opening_inj {keyword name name' : String}
    (same : keyword ++ name ++ " \x7b" = keyword ++ name' ++ " \x7b") : name = name' := by
  rwa [String.append_left_inj, String.append_right_inj] at same

end Lines

section Assigned

/-- A value as it is written behind a name or a type, if there is one. -/
def assigned : Option String → String
  | some value => " = " ++ value
  | none => ""

theorem stops_assigned {kept : Char → Bool} (stops : Stops kept " = ") (value : Option String) :
    Stops kept (assigned value) := by
  cases value with
  | none => exact fun character member => absurd member (by simp [assigned])
  | some value => exact stops.append (by decide) value

theorem assigned_injective : Function.Injective assigned := by
  intro value value' same
  cases value with
  | none =>
    cases value' with
    | none => rfl
    | some value' => simp [assigned] at same
  | some value =>
    cases value' with
    | none => simp [assigned] at same
    | some value' => exact congrArg some ((String.append_right_inj _).mp same)

theorem oneLine_assigned {value : Option String} (oneLine : ∀ text ∈ value, OneLine text) :
    OneLine (assigned value) := by
  cases value with
  | none => decide
  | some value => exact OneLine.append (by decide) (oneLine value rfl)

theorem caseLine_eq_assigned (enumCase : EnumCase) :
    Context.caseLine enumCase = "    case " ++ enumCase.name.text ++ assigned enumCase.value := by
  obtain ⟨name, value⟩ := enumCase
  cases value <;> rfl

end Assigned

section Types

/-- The characters of Swift types, as they are written for fields. -/
def isTypeChar (character : Char) : Bool :=
  isNameChar character || character = '.' || character = '[' || character = ']'

theorem ne_comma_of_isTypeChar {character : Char} (member : isTypeChar character = true) :
    decide (character ≠ ',') = true := by
  apply decide_eq_true
  rintro rfl
  revert member
  decide

theorem isTypeChar_of_isNameChar {character : Char} (member : isNameChar character = true) :
    isTypeChar character = true := by
  simp [isTypeChar, member]

theorem run_typeName {context : Context} (container : Run isNameChar context.container)
    {name : String} (named : Run isNameChar name) : Run isTypeChar (context.typeName name) := by
  have wider {text : String} (run : Run isNameChar text) : Run isTypeChar text :=
    run.mono fun _ => isTypeChar_of_isNameChar
  unfold Context.typeName
  split
  · exact wider named
  · exact ((wider container).append (by decide)).append (wider named)

theorem run_typeText {context : Context} (container : Run isNameChar context.container)
    {type : FieldType} (wellFormed : type.base.WellFormed) :
    Run isTypeChar (context.typeText type) := by
  have base : Run isTypeChar (context.baseText type.base) := by
    cases kind : type.base with
    | scalar scalar =>
      change Run isTypeChar (scalarType scalar)
      cases scalar <;> decide
    | string =>
      change Run isTypeChar "String"
      decide
    | reference name =>
      rw [kind] at wellFormed
      exact run_typeName container wellFormed.1.spelled.2
  unfold Context.typeText
  split
  · exact (Run.append (by decide) base).append (by decide)
  · exact base

theorem oneLine_of_isTypeChar {text : String} (run : Run isTypeChar text) : OneLine text := by
  intro character member
  have typed := run character member
  constructor
  · rintro rfl
    revert typed
    decide
  · rintro rfl
    revert typed
    decide

theorem oneLine_of_isNameChar {text : String} (run : Run isNameChar text) : OneLine text :=
  oneLine_of_isTypeChar (run.mono fun _ => isTypeChar_of_isNameChar)

/-- A name, and a type that goes with it. -/
structure SoundMember (member : String × String) : Prop where
  name : Run isNameChar member.1
  type : Run isTypeChar member.2

/-- A member is told by its name, a separator that no name has, and its type. -/
theorem SoundMember.inj (lead : String) {separator : String} (stops : Stops isNameChar separator)
    (written : separator ≠ "") (member member' : String × String) (sound : SoundMember member)
    (sound' : SoundMember member')
    (same : lead ++ member.1 ++ separator ++ member.2 =
      lead ++ member'.1 ++ separator ++ member'.2) : member = member' := by
  simp only [String.append_assoc, String.append_right_inj] at same
  obtain ⟨names, rest⟩ := sound.name.append_inj sound'.name (stops.append written _)
    (stops.append written _) same
  exact Prod.ext names ((String.append_right_inj _).mp rest)

theorem SoundMember.oneLine {member : String × String} (sound : SoundMember member)
    {lead separator : String} (plain : OneLine lead) (between : OneLine separator) :
    OneLine (lead ++ member.1 ++ separator ++ member.2) :=
  ((plain.append (oneLine_of_isNameChar sound.name)).append between).append
    (oneLine_of_isTypeChar sound.type)

end Types

section Enumerations

theorem scalarType_injective : Function.Injective scalarType := by
  intro scalar scalar' same
  revert same
  cases scalar <;> cases scalar' <;> decide

/-- A name, and a value that fits into the line of the case. -/
structure SoundCase (enumCase : String × Option String) : Prop where
  name : Run isNameChar enumCase.1
  value : ∀ value ∈ enumCase.2, OneLine value

theorem SoundCase.inj (enumCase enumCase' : String × Option String) (sound : SoundCase enumCase)
    (sound' : SoundCase enumCase')
    (same : "    case " ++ enumCase.1 ++ assigned enumCase.2 =
      "    case " ++ enumCase'.1 ++ assigned enumCase'.2) : enumCase = enumCase' := by
  rw [String.append_assoc, String.append_assoc, String.append_right_inj] at same
  obtain ⟨names, values⟩ := sound.name.append_inj sound'.name
    (stops_assigned (by decide) enumCase.2) (stops_assigned (by decide) enumCase'.2) same
  exact Prod.ext names (assigned_injective values)

/-- What stands in the places of the block of an enumeration, whatever enumeration it is for. -/
@[ext]
structure EnumerationShape where
  name : String
  base : String
  /-- The name of each case, and its value if that is written. -/
  cases : List (String × Option String)

namespace EnumerationShape

def lines (shape : EnumerationShape) : List String :=
  ["public enum " ++ shape.name ++ ": " ++ shape.base ++ ", CaseIterable \x7b"] ++
    shape.cases.map (fun (name, value) => "    case " ++ name ++ assigned value) ++
    ["\x7d"]

structure Sound (shape : EnumerationShape) : Prop where
  name : Run isNameChar shape.name
  base : Run isNameChar shape.base
  cases : ∀ enumCase ∈ shape.cases, SoundCase enumCase

def ofEnumeration (enumeration : Enumeration) : EnumerationShape where
  name := enumeration.name.text
  base := scalarType enumeration.base
  cases := enumeration.cases.map fun enumCase => (enumCase.name.text, enumCase.value)

theorem lines_ne_nil (shape : EnumerationShape) : shape.lines ≠ [] := by
  simp [lines]

theorem ofEnumeration_eq_iff {enumeration other : Enumeration} :
    ofEnumeration enumeration = ofEnumeration other ↔
      enumeration.name = other.name ∧ enumeration.base = other.base ∧
        enumeration.cases = other.cases := by
  have told : Function.Injective fun enumCase : EnumCase =>
      (enumCase.name.text, enumCase.value) := by
    rintro ⟨⟨name⟩, value⟩ ⟨⟨name'⟩, value'⟩ same
    cases same
    rfl
  constructor
  · intro same
    exact ⟨Ident.eq_of_text (congrArg EnumerationShape.name same),
      scalarType_injective (congrArg EnumerationShape.base same),
      told.list_map (congrArg EnumerationShape.cases same)⟩
  · rintro ⟨names, bases, cases⟩
    unfold ofEnumeration
    rw [names, bases, cases]

theorem nest_ofEnumeration (context : Context) (enumeration : Enumeration) :
    context.nest (block (ofEnumeration enumeration).lines) = context.enumeration enumeration := by
  have cases : Context.caseLine =
      fun enumCase => "    case " ++ enumCase.name.text ++ assigned enumCase.value :=
    funext caseLine_eq_assigned
  rw [Context.enumeration, Context.enumerationLines, cases, lines, ofEnumeration, List.map_map]
  rfl

theorem sound_ofEnumeration {enumeration : Enumeration} (wellFormed : enumeration.WellFormed) :
    (ofEnumeration enumeration).Sound := by
  refine ⟨wellFormed.name.spelled.2, ?_, ?_⟩
  · change Run isNameChar (scalarType enumeration.base)
    cases enumeration.base <;> decide
  · unfold ofEnumeration
    rw [List.forall_mem_map]
    intro enumCase member
    have declared := wellFormed.cases enumCase member
    exact ⟨declared.name.spelled.2, fun value given => (declared.value value given).oneLine⟩

theorem Sound.oneLine {shape : EnumerationShape} (sound : shape.Sound) :
    ∀ line ∈ shape.lines, OneLine line := by
  have name := oneLine_of_isNameChar sound.name
  have base := oneLine_of_isNameChar sound.base
  simp only [lines, List.forall_mem_append, List.forall_mem_map, List.forall_mem_singleton]
  refine ⟨⟨?_, ?_⟩, by decide⟩
  · exact (((OneLine.append (by decide) name).append (by decide)).append base).append (by decide)
  · intro enumCase member
    have among := sound.cases enumCase member
    exact (OneLine.append (by decide) (oneLine_of_isNameChar among.name)).append
      (oneLine_assigned among.value)

theorem Sound.lines_inj {first second : EnumerationShape} (sound : first.Sound)
    (sound' : second.Sound) (same : first.lines = second.lines) : first = second := by
  obtain ⟨opening, body⟩ := List.cons.inj same
  rw [String.append_left_inj, String.append_assoc, String.append_assoc, String.append_assoc,
    String.append_assoc, String.append_right_inj] at opening
  obtain ⟨names, bases⟩ := sound.name.append_inj sound'.name
    (Stops.append (by decide) (by decide) _) (Stops.append (by decide) (by decide) _) opening
  exact EnumerationShape.ext names ((String.append_right_inj _).mp bases)
    (map_inj_of_each SoundCase.inj sound.cases sound'.cases (List.append_cancel_right body))

end EnumerationShape

end Enumerations

section Unions

/-- What stands in the places of the block of a union, whatever union it is for. -/
@[ext]
structure UnionShape where
  name : String
  /-- The name of each case, and the type that it carries. -/
  cases : List (String × String)

namespace UnionShape

def lines (shape : UnionShape) : List String :=
  ["public enum " ++ shape.name ++ " \x7b"] ++
    shape.cases.map (fun (name, type) => "    case with" ++ name ++ "(" ++ type ++ ")") ++
    ["\x7d"]

structure Sound (shape : UnionShape) : Prop where
  name : Run isNameChar shape.name
  cases : ∀ member ∈ shape.cases, SoundMember member

def ofUnion (context : Context) (union : TaggedUnion) : UnionShape where
  name := union.name.text
  cases := union.cases.map fun name => (name.text, context.typeName name.text)

theorem lines_ne_nil (shape : UnionShape) : shape.lines ≠ [] := by
  simp [lines]

theorem ofUnion_eq_iff {context : Context} {union other : TaggedUnion} :
    ofUnion context union = ofUnion context other ↔
      union.name = other.name ∧ union.cases = other.cases := by
  have told : Function.Injective fun name : Ident => (name.text, context.typeName name.text) :=
    fun name name' same => Ident.eq_of_text (Prod.mk.inj same).1
  constructor
  · intro same
    exact ⟨Ident.eq_of_text (congrArg UnionShape.name same),
      told.list_map (congrArg UnionShape.cases same)⟩
  · rintro ⟨names, cases⟩
    unfold ofUnion
    rw [names, cases]

theorem nest_ofUnion (context : Context) (union : TaggedUnion) :
    context.nest (block (ofUnion context union).lines) = context.union union := by
  rw [Context.union, Context.unionLines, lines, ofUnion, List.map_map]
  rfl

theorem sound_ofUnion {context : Context} (container : Run isNameChar context.container)
    {union : TaggedUnion} (wellFormed : union.WellFormed) : (ofUnion context union).Sound := by
  refine ⟨wellFormed.name.spelled.2, ?_⟩
  unfold ofUnion
  rw [List.forall_mem_map]
  intro name member
  have named := (wellFormed.cases name member).spelled.2
  exact ⟨named, run_typeName container named⟩

theorem Sound.oneLine {shape : UnionShape} (sound : shape.Sound) :
    ∀ line ∈ shape.lines, OneLine line := by
  have name := oneLine_of_isNameChar sound.name
  simp only [lines, List.forall_mem_append, List.forall_mem_map, List.forall_mem_singleton]
  refine ⟨⟨(OneLine.append (by decide) name).append (by decide), ?_⟩, by decide⟩
  intro member among
  exact ((sound.cases member among).oneLine (by decide) (by decide)).append (by decide)

theorem Sound.lines_inj {first second : UnionShape} (sound : first.Sound) (sound' : second.Sound)
    (same : first.lines = second.lines) : first = second := by
  obtain ⟨opening, body⟩ := List.cons.inj same
  refine UnionShape.ext (opening_inj opening)
    (map_inj_of_each ?_ sound.cases sound'.cases (List.append_cancel_right body))
  intro member member' among among' line
  exact SoundMember.inj _ (by decide) (by decide) member member' among among'
    ((String.append_left_inj _).mp line)

end UnionShape

end Unions

section Structs

/-- The names and types of the fields that are not deprecated. -/
def Context.members (context : Context) (record : Record) : List (String × String) :=
  (record.fields.filter (!·.isDeprecated)).map fun field =>
    (field.name.text, context.typeText field.type)

theorem sound_members {context : Context} (container : Run isNameChar context.container)
    {record : Record} (wellFormed : record.WellFormed) :
    ∀ member ∈ context.members record, SoundMember member := by
  unfold Context.members
  rw [List.forall_mem_map]
  intro field member
  have declared := wellFormed.fields field (List.mem_of_mem_filter member)
  exact ⟨declared.name.spelled.2, run_typeText container declared.type⟩

/-- The parameters of an initializer. -/
def parameterList (parameters : List (String × String)) : String :=
  ", ".intercalate (parameters.map fun (name, type) => name ++ ": " ++ type)

theorem oneLine_parameterList {parameters : List (String × String)}
    (sound : ∀ member ∈ parameters, SoundMember member) : OneLine (parameterList parameters) := by
  apply oneLine_intercalate (by decide)
  rw [List.forall_mem_map]
  intro member among
  have plain := (sound member among).oneLine (by decide : OneLine "") (by decide : OneLine ": ")
  rwa [String.empty_append] at plain

/-- Parameters stand in one line, so it takes that no name and no type has a comma. -/
theorem parameterList_inj {parameters parameters' : List (String × String)}
    (sound : ∀ member ∈ parameters, SoundMember member)
    (sound' : ∀ member ∈ parameters', SoundMember member)
    (same : parameterList parameters = parameterList parameters') : parameters = parameters' := by
  have comma {parameters : List (String × String)}
      (sound : ∀ member ∈ parameters, SoundMember member) :
      ∀ item ∈ parameters.map (fun (name, type) => name ++ ": " ++ type),
        Run (· ≠ ',') item := by
    rw [List.forall_mem_map]
    intro member among
    have name : Run (· ≠ ',') member.1 := (sound member among).name.mono
      fun _ inside => ne_comma_of_isTypeChar (isTypeChar_of_isNameChar inside)
    have type : Run (· ≠ ',') member.2 := (sound member among).type.mono
      fun _ => ne_comma_of_isTypeChar
    exact (name.append (by decide)).append type
  have inked (parameters : List (String × String)) :
      ∀ item ∈ parameters.map (fun (name, type) => name ++ ": " ++ type), item ≠ "" := by
    rw [List.forall_mem_map]
    intro member _
    simp
  have items := intercalate_inj_of_inked (by decide : Stops (· ≠ ',') ", ") (by decide)
    (comma sound) (comma sound') (inked _) (inked _) same
  refine map_inj_of_each ?_ sound sound' items
  intro member member' soundHere soundHere' spelled
  apply SoundMember.inj "" (by decide : Stops isNameChar ": ") (by decide) _ _ soundHere soundHere'
  simpa only [String.empty_append] using spelled

/-- What stands in the places of the block of a struct, whatever struct it is for. -/
@[ext]
structure StructShape where
  name : String
  properties : List (String × String)
  parameters : List (String × String)
  /-- The property of each assignment, and what is assigned to it. -/
  assignments : List (String × String)

namespace StructShape

def lines (shape : StructShape) : List String :=
  ["public struct " ++ shape.name ++ " \x7b"] ++
    shape.properties.map (fun (name, type) => "    public var " ++ name ++ ": " ++ type) ++
    ["",
     "    public init(" ++ parameterList shape.parameters ++ ") \x7b"] ++
    shape.assignments.map (fun (name, value) => "        self." ++ name ++ " = " ++ value) ++
    ["    \x7d", "\x7d"]

/-- Names stand where names belong, and types where types do. -/
structure Sound (shape : StructShape) : Prop where
  name : Run isNameChar shape.name
  properties : ∀ member ∈ shape.properties, SoundMember member
  parameters : ∀ member ∈ shape.parameters, SoundMember member
  assignments : ∀ member ∈ shape.assignments, SoundMember member

/-- A struct has the same members in all places. -/
def ofStruct (context : Context) (struct : Record) : StructShape where
  name := struct.name.text
  properties := context.members struct
  parameters := context.members struct
  assignments := (context.members struct).map fun (name, _) => (name, name)

theorem lines_ne_nil (shape : StructShape) : shape.lines ≠ [] := by
  simp [lines]

theorem ofStruct_eq_iff {context : Context} {struct other : Record} :
    ofStruct context struct = ofStruct context other ↔
      struct.name = other.name ∧ context.members struct = context.members other := by
  constructor
  · intro same
    exact ⟨Ident.eq_of_text (congrArg StructShape.name same), congrArg StructShape.properties same⟩
  · rintro ⟨names, members⟩
    unfold ofStruct
    rw [names, members]

theorem lines_ofStruct (context : Context) (struct : Record) :
    (ofStruct context struct).lines = context.structLines struct := by
  simp only [lines, ofStruct, parameterList, Context.members, Context.structLines, List.map_map]
  rfl

theorem nest_ofStruct (context : Context) (struct : Record) :
    context.nest (block (ofStruct context struct).lines) = context.struct struct := by
  rw [lines_ofStruct, Context.struct]

theorem sound_ofStruct {context : Context} (container : Run isNameChar context.container)
    {struct : Record} (wellFormed : struct.WellFormed) : (ofStruct context struct).Sound := by
  have members := sound_members container wellFormed
  refine ⟨wellFormed.name.spelled.2, members, members, ?_⟩
  unfold ofStruct
  rw [List.forall_mem_map]
  intro member among
  have name := (members member among).name
  exact ⟨name, name.mono fun _ => isTypeChar_of_isNameChar⟩

theorem Sound.oneLine {shape : StructShape} (sound : shape.Sound) :
    ∀ line ∈ shape.lines, OneLine line := by
  have name := oneLine_of_isNameChar sound.name
  have parameters := oneLine_parameterList sound.parameters
  simp only [lines, List.forall_mem_append, List.forall_mem_map, List.forall_mem_cons]
  refine ⟨⟨⟨⟨⟨?_, List.forall_mem_nil _⟩, ?_⟩, by decide, ?_, List.forall_mem_nil _⟩, ?_⟩,
    by decide, by decide, List.forall_mem_nil _⟩
  · exact (OneLine.append (by decide) name).append (by decide)
  · exact fun member among => (sound.properties member among).oneLine (by decide) (by decide)
  · exact (OneLine.append (by decide) parameters).append (by decide)
  · exact fun member among => (sound.assignments member among).oneLine (by decide) (by decide)

theorem Sound.lines_inj {first second : StructShape} (sound : first.Sound) (sound' : second.Sound)
    (same : first.lines = second.lines) : first = second := by
  obtain ⟨name, properties, parameters, assignments⟩ := first
  obtain ⟨name', properties', parameters', assignments'⟩ := second
  simp only [lines, List.append_assoc] at same
  obtain ⟨opening, body⟩ := List.cons.inj same
  have inked (members : List (String × String)) :
      ∀ line ∈ members.map (fun (name, type) => "    public var " ++ name ++ ": " ++ type),
        decide (line ≠ "") = true := by
    rw [List.forall_mem_map]
    intro member _
    simp
  -- The properties end at the first empty line.
  obtain ⟨propertyLines, behind⟩ := append_inj_of_runs (inked properties) (inked properties')
    (by simp) (by simp) body
  obtain ⟨initializer, assignmentLines⟩ := List.cons.inj (List.cons.inj behind).2
  cases opening_inj opening
  rw [String.append_left_inj, String.append_right_inj] at initializer
  cases map_inj_of_each (SoundMember.inj _ (by decide) (by decide)) sound.properties
    sound'.properties propertyLines
  cases parameterList_inj sound.parameters sound'.parameters initializer
  cases map_inj_of_each (SoundMember.inj _ (by decide) (by decide)) sound.assignments
    sound'.assignments (List.append_cancel_right assignmentLines)
  rfl

end StructShape

end Structs

section Tables

/-- A property of a table as it is written. -/
structure Property where
  name : String
  type : String
  isOptional : Bool
  initializer : Option String
  deriving DecidableEq, Repr

namespace Property

/-- What follows the type of a property. -/
def ending (isOptional : Bool) (initializer : Option String) : String :=
  (if isOptional then "?" else "") ++ assigned initializer

def line (property : Property) : String :=
  "    public var " ++ property.name ++ ": " ++ property.type ++
    ending property.isOptional property.initializer

/-- Whether the property of a field is optional, and its initial value. -/
def start (context : Context) (field : Field) : Bool × Option String :=
  if field.type.isVector then
    (false, some "[]")
  else
    match field.type.base with
    | .scalar scalar => (false, some (scalarValue scalar field.default))
    | .string => (true, none)
    | .reference name =>
      match context.scope.resolve? name.text, field.default with
      | some (.enumeration _), some value =>
        if isCaseName value then
          (false, some ("." ++ (Ident.ofSource value).text))
        else
          (true, some (context.typeText field.type ++ "(rawValue: " ++ value ++ ")"))
      | _, _ => (true, none)

/-- The property of a field. -/
def ofField (context : Context) (field : Field) : Property where
  name := field.name.text
  type := context.typeText field.type
  isOptional := (start context field).1
  initializer := (start context field).2

theorem propertyText_eq_ending (context : Context) (field : Field) :
    context.propertyText field = context.typeText field.type ++
      ending (start context field).1 (start context field).2 := by
  have dotted (rest : String) : " = ." ++ rest = " = " ++ ("." ++ rest) := by
    rw [← String.append_assoc]
    rfl
  have marked (rest : String) : "? = " ++ rest = "?" ++ (" = " ++ rest) := by
    rw [← String.append_assoc]
    rfl
  unfold Context.propertyText start
  by_cases vector : field.type.isVector = true
  · simp only [vector, if_true]
    rfl
  · cases base : field.type.base with
    | scalar scalar => simp [vector, ending, assigned, String.append_assoc]
    | string => simp [vector, ending, assigned]
    | reference name =>
      cases given : field.default with
      | none => simp [vector, ending, assigned]
      | some value =>
        cases found : context.scope.resolve? name.text with
        | none => simp [vector, found, ending, assigned]
        | some declaration =>
          cases declaration with
          | enumeration declared =>
            by_cases isCase : isCaseName value = true
            · simp [vector, found, isCase, ending, assigned, String.append_assoc, dotted]
            · simp [vector, found, isCase, ending, assigned, String.append_assoc, marked]
          | _ => simp [vector, found, ending, assigned]

theorem line_ofField (context : Context) (field : Field) :
    (ofField context field).line = "    " ++ context.property field := by
  have lead : "    public var " = "    " ++ "public var " := rfl
  unfold line ofField Context.property
  rw [propertyText_eq_ending, lead]
  simp only [String.append_assoc]

theorem stops_ending (isOptional : Bool) (initializer : Option String) :
    Stops isTypeChar (ending isOptional initializer) := by
  cases isOptional with
  | true => exact Stops.append (by decide) (by decide) _
  | false =>
    have written : ending false initializer = assigned initializer := String.empty_append
    rw [written]
    exact stops_assigned (by decide) initializer

theorem ending_inj {isOptional isOptional' : Bool} {initializer initializer' : Option String}
    (same : ending isOptional initializer = ending isOptional' initializer') :
    isOptional = isOptional' ∧ initializer = initializer' := by
  -- The mark is a run of question marks, and no initial value begins with one.
  have mark (isOptional : Bool) : Run (· = '?') (if isOptional then "?" else "") := by
    cases isOptional <;> decide
  obtain ⟨marks, values⟩ := (mark isOptional).append_inj (mark isOptional')
    (stops_assigned (by decide) initializer) (stops_assigned (by decide) initializer') same
  refine ⟨?_, assigned_injective values⟩
  revert marks
  cases isOptional <;> cases isOptional' <;> decide

/-- A name, a type and an initial value that fits into the line. -/
structure Sound (property : Property) : Prop where
  name : Run isNameChar property.name
  type : Run isTypeChar property.type
  initializer : ∀ initializer ∈ property.initializer, OneLine initializer

theorem sound_ofField {context : Context} (container : Run isNameChar context.container)
    {field : Field} (wellFormed : field.WellFormed) : (ofField context field).Sound := by
  have type : Run isTypeChar (context.typeText field.type) := run_typeText container wellFormed.type
  refine ⟨wellFormed.name.spelled.2, type, ?_⟩
  intro initializer given
  change initializer ∈ (start context field).2 at given
  unfold start at given
  split at given
  · cases given
    decide
  · split at given
    · cases given
      exact oneLine_scalarValue _ wellFormed.default
    · cases given
    · split at given
      · next value _ default =>
        have plain := (wellFormed.default value default).oneLine
        split at given
        · cases given
          exact OneLine.append (by decide) (oneLine_ofSource plain)
        · cases given
          have call := (oneLine_of_isTypeChar type).append (by decide : OneLine "(rawValue: ")
          exact (call.append plain).append (by decide)
      · cases given

theorem oneLine_ending (isOptional : Bool) {initializer : Option String}
    (oneLine : ∀ text ∈ initializer, OneLine text) : OneLine (ending isOptional initializer) := by
  have mark : OneLine (if isOptional then "?" else "") := by cases isOptional <;> decide
  exact mark.append (oneLine_assigned oneLine)

theorem Sound.oneLine {property : Property} (sound : property.Sound) : OneLine property.line := by
  have name := oneLine_of_isNameChar sound.name
  have type := oneLine_of_isTypeChar sound.type
  have ending := oneLine_ending property.isOptional sound.initializer
  unfold line
  exact (((OneLine.append (by decide) name).append (by decide)).append type).append ending

theorem line_inj (first second : Property) (sound : first.Sound) (sound' : second.Sound)
    (same : first.line = second.line) : first = second := by
  unfold line at same
  simp only [String.append_assoc, String.append_right_inj] at same
  have colon (rest : String) : Stops isNameChar (": " ++ rest) :=
    Stops.append (by decide) (by decide) rest
  obtain ⟨names, rest⟩ := sound.name.append_inj sound'.name (colon _) (colon _) same
  rw [String.append_right_inj] at rest
  obtain ⟨types, endings⟩ := sound.type.append_inj sound'.type (stops_ending _ _) (stops_ending _ _)
    rest
  obtain ⟨marks, initializers⟩ := ending_inj endings
  obtain ⟨name, type, isOptional, initializer⟩ := first
  obtain ⟨name', type', isOptional', initializer'⟩ := second
  cases names
  cases types
  cases marks
  cases initializers
  rfl

end Property

/-- The properties of a table, one for each field that is not deprecated. -/
def Context.properties (context : Context) (table : Record) : List Property :=
  (table.fields.filter (!·.isDeprecated)).map (Property.ofField context)

/-- What stands in the places of the block of a table, whatever table it is for. -/
@[ext]
structure TableShape where
  name : String
  properties : List Property

namespace TableShape

def lines (shape : TableShape) : List String :=
  ["public final class " ++ shape.name ++ " \x7b"] ++ shape.properties.map Property.line ++
    ["    public init() \x7b\x7d", "\x7d"]

structure Sound (shape : TableShape) : Prop where
  name : Run isNameChar shape.name
  properties : ∀ property ∈ shape.properties, property.Sound

def ofTable (context : Context) (table : Record) : TableShape where
  name := table.name.text
  properties := context.properties table

theorem lines_ne_nil (shape : TableShape) : shape.lines ≠ [] := by
  simp [lines]

theorem ofTable_eq_iff {context : Context} {table other : Record} :
    ofTable context table = ofTable context other ↔
      table.name = other.name ∧ context.properties table = context.properties other := by
  constructor
  · intro same
    exact ⟨Ident.eq_of_text (congrArg TableShape.name same), congrArg TableShape.properties same⟩
  · rintro ⟨names, properties⟩
    unfold ofTable
    rw [names, properties]

theorem lines_ofTable (context : Context) (table : Record) :
    (ofTable context table).lines = context.tableLines table := by
  simp only [lines, ofTable, Context.properties, Context.tableLines, List.map_map,
    Function.comp_def, Property.line_ofField]

theorem nest_ofTable (context : Context) (table : Record) (fileIdentifier : Option String) :
    context.nest (block (ofTable context table).lines) =
      context.table table false fileIdentifier := by
  rw [lines_ofTable]
  exact String.append_empty.symm

theorem sound_ofTable {context : Context} (container : Run isNameChar context.container)
    {table : Record} (wellFormed : table.WellFormed) : (ofTable context table).Sound := by
  refine ⟨wellFormed.name.spelled.2, ?_⟩
  unfold ofTable Context.properties
  rw [List.forall_mem_map]
  intro field member
  exact Property.sound_ofField container (wellFormed.fields field (List.mem_of_mem_filter member))

theorem Sound.oneLine {shape : TableShape} (sound : shape.Sound) :
    ∀ line ∈ shape.lines, OneLine line := by
  simp only [lines, List.forall_mem_append, List.forall_mem_map, List.forall_mem_cons]
  refine ⟨⟨⟨?_, List.forall_mem_nil _⟩, ?_⟩, by decide, by decide, List.forall_mem_nil _⟩
  · exact (OneLine.append (by decide) (oneLine_of_isNameChar sound.name)).append (by decide)
  · exact fun property member => (sound.properties property member).oneLine

theorem Sound.lines_inj {first second : TableShape} (sound : first.Sound) (sound' : second.Sound)
    (same : first.lines = second.lines) : first = second := by
  obtain ⟨name, properties⟩ := first
  obtain ⟨name', properties'⟩ := second
  obtain ⟨opening, body⟩ := List.cons.inj same
  cases opening_inj opening
  cases map_inj_of_each Property.line_inj sound.properties sound'.properties
    (List.append_cancel_right body)
  rfl

end TableShape

end Tables

end Swift

end FlatSchema
