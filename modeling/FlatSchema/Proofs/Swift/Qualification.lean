import FlatSchema.Proofs.Swift.Containers
import FlatSchema.Proofs.Swift.Names
import FlatSchema.Proofs.Swift.SelfContained
import FlatSchema.Proofs.Text.Runs
import Mathlib.Data.List.Nodup

/-!
Containers and the sources that use them. The containers of some schemas are listed apart from the
sources of these schemas. A source writes one container only, that of its schema: around each
declaration, and in front of each declared type. So every container that is written is listed, and
it is listed once.
-/

namespace FlatSchema.Swift

open Text

section FirstPlaces

variable {α : Type} [BEq α] [LawfulBEq α]

/-- What is left without repetitions stands in the order of first places. -/
theorem pairwise_idxOf_eraseDups (items : List α) (kept : α → Bool) :
    (items.filter kept).eraseDups.Pairwise fun earlier later =>
      items.idxOf earlier < items.idxOf later := by
  induction items generalizing kept with
  | nil => exact List.Pairwise.nil
  | cons item items inductionHypothesis =>
    have shifted {kept : α → Bool} (dropped : kept item = false) :
        (items.filter kept).eraseDups.Pairwise fun earlier later =>
          (item :: items).idxOf earlier < (item :: items).idxOf later := by
      have other (later : α) (member : later ∈ (items.filter kept).eraseDups) : item ≠ later := by
        rintro rfl
        have keeps := List.of_mem_filter (List.mem_eraseDups.mp member)
        rw [dropped] at keeps
        exact Bool.false_ne_true keeps
      apply (inductionHypothesis kept).imp_of_mem
      intro earlier later member member' less
      rw [List.idxOf_cons_ne _ (other earlier member), List.idxOf_cons_ne _ (other later member')]
      exact Nat.succ_lt_succ less
    cases keeps : kept item with
    | false =>
      rw [List.filter_cons_of_neg (by simp [keeps])]
      exact shifted keeps
    | true =>
      rw [List.filter_cons_of_pos keeps, List.eraseDups_cons, List.filter_filter,
        List.pairwise_cons]
      refine ⟨?_, shifted (by simp)⟩
      intro later member
      have differs : later ≠ item := by
        have keeps := List.of_mem_filter (List.mem_eraseDups.mp member)
        simp at keeps
        exact keeps.1
      rw [List.idxOf_cons_self, List.idxOf_cons_ne _ differs.symm]
      exact Nat.succ_pos _

end FirstPlaces

section Qualified

/-- The names that a name and what follows it form, if that is a name behind a point. -/
def qualified? : Piece → List Piece → Option (String × String)
  | .name outer, .code text :: .name inner :: _ => if text = "." then some (outer, inner) else none
  | _, _ => none

/-- The names with a point between them, each with the name in front of it. -/
def qualifiedIn : List Piece → List (String × String)
  | [] => []
  | piece :: pieces => (qualified? piece pieces).toList ++ qualifiedIn pieces

/-- Pieces that begin with code other than a point, if they are any. -/
def Breaks (pieces : List Piece) : Prop :=
  ∀ piece ∈ pieces.head?, ∃ text, piece = .code text ∧ text ≠ "."

@[simp]
theorem qualifiedIn_nil : qualifiedIn [] = [] := rfl

@[simp]
theorem qualifiedIn_code_cons (text : String) (pieces : List Piece) :
    qualifiedIn (.code text :: pieces) = qualifiedIn pieces := rfl

theorem breaks_nil : Breaks [] := by
  simp [Breaks]

theorem breaks_code_cons {text : String} (noPoint : text ≠ ".") (pieces : List Piece) :
    Breaks (.code text :: pieces) := by
  simp [Breaks, noPoint]

theorem Breaks.cases {pieces : List Piece} (breaks : Breaks pieces) :
    pieces = [] ∨ ∃ text rest, pieces = .code text :: rest ∧ text ≠ "." := by
  cases pieces with
  | nil => exact .inl rfl
  | cons piece rest =>
    obtain ⟨text, rfl, noPoint⟩ := breaks piece rfl
    exact .inr ⟨text, rest, rfl, noPoint⟩

theorem qualified?_of_breaks {pieces : List Piece} (breaks : Breaks pieces) (piece : Piece) :
    qualified? piece pieces = none := by
  rcases breaks.cases with rfl | ⟨text, rest, rfl, noPoint⟩
  · cases piece <;> rfl
  · cases piece with
    | code => rfl
    | name outer =>
      cases rest with
      | nil => rfl
      | cons next rest =>
        cases next with
        | code => rfl
        | name inner => exact if_neg noPoint

theorem qualifiedIn_name_cons {pieces : List Piece} (breaks : Breaks pieces) (name : String) :
    qualifiedIn (.name name :: pieces) = qualifiedIn pieces := by
  rw [qualifiedIn, qualified?_of_breaks breaks]
  rfl

@[simp]
theorem qualifiedIn_name_code_cons {text : String} (noPoint : text ≠ ".") (name : String)
    (pieces : List Piece) : qualifiedIn (.name name :: .code text :: pieces) = qualifiedIn pieces :=
  qualifiedIn_name_cons (breaks_code_cons noPoint pieces) name

@[simp]
theorem qualifiedIn_name (name : String) : qualifiedIn [.name name] = [] :=
  qualifiedIn_name_cons breaks_nil name

/-- Where pieces break, nothing is qualified across. -/
theorem qualifiedIn_append (first : List Piece) {second : List Piece} (breaks : Breaks second) :
    qualifiedIn (first ++ second) = qualifiedIn first ++ qualifiedIn second := by
  induction first with
  | nil => rfl
  | cons piece first inductionHypothesis =>
    have same : qualified? piece (first ++ second) = qualified? piece first := by
      cases first with
      | nil =>
        rw [List.nil_append, qualified?_of_breaks breaks, qualified?_of_breaks breaks_nil]
      | cons next first =>
        cases first with
        | nil =>
          rcases breaks.cases with rfl | ⟨text, rest, rfl, -⟩
          · rfl
          · cases piece <;> cases next <;> rfl
        | cons further => cases piece <;> cases next <;> cases further <;> rfl
    rw [List.cons_append, qualifiedIn, qualifiedIn, same, inductionHypothesis, List.append_assoc]

/-- Separators keep items apart. -/
theorem qualifiedIn_intercalate {separator : String} (noPoint : separator ≠ ".")
    (items : List (List Piece)) :
    qualifiedIn ([.code separator].intercalate items) = items.flatMap qualifiedIn := by
  induction items with
  | nil => rfl
  | cons item items inductionHypothesis =>
    cases items with
    | nil => simp
    | cons next items =>
      rw [List.intercalate_cons_cons, List.append_assoc, List.singleton_append,
        qualifiedIn_append _ (breaks_code_cons noPoint _), qualifiedIn_code_cons,
        inductionHypothesis]
      rfl

theorem qualifiedIn_blockPieces (lines : List (List Piece)) :
    qualifiedIn (blockPieces lines) = lines.flatMap qualifiedIn := by
  induction lines with
  | nil => rfl
  | cons line lines inductionHypothesis =>
    rw [blockPieces, List.flatMap_cons, ← blockPieces, List.append_assoc, List.singleton_append,
      qualifiedIn_append _ (breaks_code_cons (by decide) _), qualifiedIn_code_cons,
      inductionHypothesis, List.flatMap_cons]

theorem qualifiedIn_indentPieces (line : List Piece) :
    qualifiedIn (indentPieces line) = qualifiedIn line := by
  unfold indentPieces
  split
  · rfl
  · rfl

end Qualified

section Types

variable (scope : Scope)

/-- The type whose raw value a property starts with. -/
def rawType? (field : Field) : Option Ident :=
  if field.type.isVector then
    none
  else
    match field.type.base, field.default with
    | .reference name, some value =>
      match scope.resolve? name.text with
      | some (.enumeration _) => if isCaseName value then none else some name
      | _ => none
    | _, _ => none

/-- The declared types that stand in the block of a declaration, in order. A struct has its types in
its properties and again in the parameters of its initializer. -/
def typesWritten : Declaration → List Ident
  | .table declared =>
    (declared.fields.filter (!·.isDeprecated)).flatMap fun field =>
      field.type.reference?.toList ++ (rawType? scope field).toList
  | .struct declared => declared.writtenTypes ++ declared.writtenTypes
  | .enumeration _ => []
  | .union declared => declared.cases

/-- The declared types that stand in the root extension. -/
def extensionTypes (document : Document) : Declaration → List Ident
  | .table declared => if document.rootType = some declared.name then [declared.name] else []
  | _ => []

/-- Names with the container in front, if there is one. -/
def qualifications (container : String) (names : List Ident) : List (String × String) :=
  if container.isEmpty then [] else names.map fun name => (container, name.text)

@[simp]
theorem qualifications_nil (container : String) : qualifications container [] = [] := by
  unfold qualifications
  split <;> rfl

theorem qualifications_append (container : String) (first second : List Ident) :
    qualifications container (first ++ second) =
      qualifications container first ++ qualifications container second := by
  unfold qualifications
  split
  · rfl
  · rw [List.map_append]

theorem qualifications_flatMap {α : Type} (container : String) (items : List α)
    (names : α → List Ident) :
    qualifications container (items.flatMap names) =
      items.flatMap fun item => qualifications container (names item) := by
  induction items with
  | nil => exact qualifications_nil container
  | cons item items inductionHypothesis =>
    rw [List.flatMap_cons, qualifications_append, inductionHypothesis, List.flatMap_cons]

end Types

section Blocks

variable (context : Context)

theorem qualifiedIn_typeNamePieces (name : Ident) {rest : List Piece} (breaks : Breaks rest) :
    qualifiedIn (typeNamePieces context name.text ++ rest) =
      qualifications context.container [name] ++ qualifiedIn rest := by
  unfold typeNamePieces qualifications
  split
  · exact qualifiedIn_name_cons breaks name.text
  · rw [List.cons_append, List.cons_append, List.cons_append, List.nil_append, qualifiedIn,
      qualifiedIn_code_cons, qualifiedIn_name_cons breaks]
    rfl

theorem qualifiedIn_typePieces (type : FieldType) {rest : List Piece} (breaks : Breaks rest) :
    qualifiedIn (typePieces context type ++ rest) =
      qualifications context.container type.reference?.toList ++ qualifiedIn rest := by
  have base {rest : List Piece} (breaks : Breaks rest) :
      qualifiedIn (basePieces context type.base ++ rest) =
        qualifications context.container type.reference?.toList ++ qualifiedIn rest := by
    unfold FieldType.reference?
    cases type.base with
    | scalar scalar => simp [basePieces, qualifiedIn_name_cons breaks]
    | string => simp [basePieces, qualifiedIn_name_cons breaks]
    | reference name => exact qualifiedIn_typeNamePieces context name breaks
  unfold typePieces
  split
  · rw [List.append_assoc, List.append_assoc, List.singleton_append, qualifiedIn_code_cons,
      List.singleton_append, base (breaks_code_cons (by decide) rest), qualifiedIn_code_cons]
  · exact base breaks

theorem qualifiedIn_propertyPieces (field : Field) :
    qualifiedIn (propertyPieces context field) =
      qualifications context.container
        (field.type.reference?.toList ++ (rawType? context.scope field).toList) := by
  have type (text : String) (noPoint : text ≠ ".") (rest : List Piece) :
      qualifiedIn (typePieces context field.type ++ .code text :: rest) =
        qualifications context.container field.type.reference?.toList ++ qualifiedIn rest :=
    qualifiedIn_typePieces context field.type (breaks_code_cons noPoint rest)
  unfold propertyPieces rawType?
  by_cases vector : field.type.isVector = true
  · simp [vector, type]
  · cases base : field.type.base with
    | scalar scalar => simp [vector, type]
    | string => simp [vector, type]
    | reference name =>
      cases given : field.default with
      | none => simp [vector, type]
      | some value =>
        cases found : context.scope.resolve? name.text with
        | none => simp [vector, type, found]
        | some declaration =>
          cases declaration with
          | enumeration declared =>
            by_cases isCase : isCaseName value = true
            · simp [vector, found, isCase, type]
            · have named : field.type.reference? = some name := by simp [FieldType.reference?, base]
              have twice := qualifications_append context.container [name] [name]
              simpa [vector, found, isCase, type, named] using twice.symm
          | _ => simp [vector, found, type]

theorem qualifications_writtenTypes (container : String) (record : Record) :
    qualifications container record.writtenTypes =
      (record.fields.filter (!·.isDeprecated)).flatMap fun field =>
        qualifications container field.type.reference?.toList := by
  rw [Record.writtenTypes, List.filterMap_eq_flatMap_toList, qualifications_flatMap]

theorem flatMap_qualifiedIn_structPieces (struct : Record) :
    (structPieces context struct).flatMap qualifiedIn =
      qualifications context.container (struct.writtenTypes ++ struct.writtenTypes) := by
  have type (field : Field) : qualifiedIn (typePieces context field.type) =
      qualifications context.container field.type.reference?.toList := by
    simpa using qualifiedIn_typePieces context field.type breaks_nil
  have initializer (fields : List Field) :
      qualifiedIn ([Piece.code "    public init("] ++ [Piece.code ", "].intercalate (fields.map fun field =>
        [Piece.name field.name.text, .code ": "] ++ typePieces context field.type) ++ [Piece.code ") \x7b"]) =
      fields.flatMap fun field =>
        qualifications context.container field.type.reference?.toList := by
    rw [qualifiedIn_append _ (breaks_code_cons (by decide) [])]
    simp [qualifiedIn_intercalate, List.flatMap_map, type]
  rw [qualifications_append, qualifications_writtenTypes]
  simp only [structPieces, List.map_map, Function.comp_def, List.flatMap_append, List.flatMap_cons]
  rw [initializer]
  simp [List.flatMap_map, type]

theorem flatMap_qualifiedIn_ownPieces (declaration : Declaration) :
    (ownPieces context declaration).flatMap qualifiedIn =
      qualifications context.container (typesWritten context.scope declaration) := by
  cases declaration with
  | table declared =>
    simp only [ownPieces, tablePieces, typesWritten, List.flatMap_append, List.flatMap_map,
      qualifications_flatMap]
    simp [qualifiedIn_propertyPieces]
  | struct declared => exact flatMap_qualifiedIn_structPieces context declared
  | enumeration declared =>
    have cases (enumCase : EnumCase) : qualifiedIn (casePieces enumCase) = [] := by
      unfold casePieces
      cases enumCase.value <;> simp
    simp [ownPieces, enumerationPieces, typesWritten, List.flatMap_map, cases]
  | union declared =>
    have payload (name : Ident) :
        qualifiedIn (typeNamePieces context name.text ++ [Piece.code ")"]) =
          qualifications context.container [name] := by
      simpa using qualifiedIn_typeNamePieces context name (breaks_code_cons (by decide) [])
    have each := qualifications_flatMap context.container declared.cases fun name => [name]
    rw [List.flatMap_singleton'] at each
    simp [ownPieces, unionPieces, typesWritten, List.flatMap_map, payload, each]

theorem flatMap_qualifiedIn_extensionPieces (document : Document) (declaration : Declaration) :
    (extensionPieces context document declaration).flatMap qualifiedIn =
      qualifications context.container (extensionTypes document declaration) := by
  cases declaration with
  | table declared =>
    rw [extensionPieces, extensionTypes]
    split
    · have opening := qualifiedIn_typeNamePieces context declared.name
        (breaks_code_cons (by decide : " \x7b" ≠ ".") [])
      simp [rootPieces, List.flatMap_map, opening]
    · simp
  | _ => simp [extensionPieces, extensionTypes]

theorem qualifiedIn_nestPieces (lines : List (List Piece)) :
    qualifiedIn (nestPieces context lines) = lines.flatMap qualifiedIn := by
  unfold nestPieces
  split
  · exact qualifiedIn_blockPieces lines
  · have indented : (lines.map indentPieces).flatMap qualifiedIn = lines.flatMap qualifiedIn := by
      rw [List.flatMap_map]
      exact congrArg (lines.flatMap ·) (funext qualifiedIn_indentPieces)
    rw [qualifiedIn_append _ (breaks_code_cons (by decide) _)]
    simp [qualifiedIn_intercalate, indented]

theorem qualifiedIn_renderPieces (document : Document) (declaration : Declaration) :
    qualifiedIn (renderPieces context document declaration) =
      qualifications context.container (typesWritten context.scope declaration ++
        extensionTypes document declaration) := by
  have breaks : Breaks (blockPieces (extensionPieces context document declaration)) := by
    cases declaration with
    | table declared =>
      rw [extensionPieces]
      split
      · exact breaks_code_cons (by decide : "extension " ≠ ".") _
      · exact breaks_nil
    | _ => exact breaks_nil
  rw [renderPieces, qualifiedIn_append _ breaks, qualifiedIn_nestPieces, qualifiedIn_blockPieces,
    flatMap_qualifiedIn_ownPieces, flatMap_qualifiedIn_extensionPieces, qualifications_append]

end Blocks

section Sources

/-- The declared types that stand in a source, in order. -/
def typesIn (schema : Schema) : List Ident :=
  (emittedBy schema).flatMap fun declaration =>
    typesWritten schema.scope declaration ++ extensionTypes schema.document declaration

theorem append_newline_ne_point (text : String) : text ++ "\n" ≠ "." := by
  intro same
  have last := congrArg (fun text => text.toList.getLast?) same
  simp at last

theorem qualifiedIn_sourcePieces (schema : Schema) (withImport : Bool) :
    qualifiedIn (sourcePieces schema withImport) =
      qualifications schema.container (typesIn schema) := by
  have helper : Breaks
      (if schema.isRecursive then [.code (lateBindingHelper ++ "\n")] else []) := by
    split
    · exact breaks_code_cons (append_newline_ne_point _) []
    · exact breaks_nil
  have nothing : qualifiedIn
      (if schema.isRecursive then [.code (lateBindingHelper ++ "\n")] else []) = [] := by
    split <;> rfl
  have blocks : (emittedBy schema).flatMap (fun declaration =>
      renderPieces (contextOf schema) schema.document declaration ++ [Piece.code "\n"]) =
      blockPieces ((emittedBy schema).map (renderPieces (contextOf schema) schema.document)) := by
    rw [blockPieces, List.flatMap_map]
  have each : ((emittedBy schema).map (renderPieces (contextOf schema) schema.document)).flatMap
      qualifiedIn = qualifications schema.container (typesIn schema) := by
    rw [List.flatMap_map, typesIn, qualifications_flatMap]
    exact congrArg ((emittedBy schema).flatMap ·)
      (funext (qualifiedIn_renderPieces (contextOf schema) schema.document))
  rw [sourcePieces, qualifiedIn_append _ helper, nothing, List.append_nil, List.singleton_append,
    qualifiedIn_code_cons, blocks, qualifiedIn_blockPieces, each]

/-- A source with a block for each declaration, and the root extension behind the block of the
root. -/
def assembled (schema : Schema) (withImport : Bool) (blockOf : Declaration → String) : String :=
  header withImport ++
    String.join ((emittedBy schema).map fun declaration =>
      blockOf declaration ++
        String.join
          ((extensionLines (contextOf schema) schema.document declaration).map (· ++ "\n")) ++
        "\n") ++
    (if schema.isRecursive then lateBindingHelper ++ "\n" else "")

theorem source_eq_assembled (schema : Schema) (withImport : Bool) :
    source schema withImport = assembled schema withImport fun declaration =>
      (contextOf schema).nest (block (ownLines (contextOf schema) declaration)) := by
  unfold source assembled
  simp only [render_eq_blockText, blockText]
  rfl

/-- With a container, each block is that of an extension of it. -/
theorem source_eq_assembled_of_container {schema : Schema} (named : schema.container ≠ "")
    (withImport : Bool) :
    source schema withImport = assembled schema withImport fun declaration =>
      "extension " ++ schema.container ++ " \x7b\n" ++
        Text.indent (block (ownLines (contextOf schema) declaration)) ++ "\n\x7d\n" := by
  have written : ¬ schema.container.isEmpty = true := by simpa using named
  rw [source_eq_assembled]
  simp only [Context.nest]
  exact congrArg (assembled schema withImport) (funext fun declaration => if_neg written)

end Sources

section Listed

def containerLine (container : String) : String :=
  "public enum " ++ container ++ " \x7b\x7d"

theorem containerLine_injective : Function.Injective containerLine := by
  intro container container' same
  unfold containerLine at same
  rwa [String.append_left_inj, String.append_right_inj] at same

theorem mem_containers_iff {schemas : List Schema} {container : String} :
    container ∈ containers schemas ↔
      container ≠ "" ∧ ∃ schema ∈ schemas, schema.container = container := by
  simp only [containers, List.mem_eraseDups, List.mem_filter, List.mem_map, Bool.not_eq_true',
    ← Bool.not_eq_true, String.isEmpty_iff]
  exact and_comm

theorem containers_nodup (schemas : List Schema) : (containers schemas).Nodup := by
  apply (pairwise_idxOf_eraseDups (schemas.map (·.container)) (!·.isEmpty)).imp
  rintro container _ less rfl
  exact Nat.lt_irrefl _ less

theorem lines_containerSource {schemas : List Schema}
    (wellFormed : ∀ schema ∈ schemas, schema.WellFormed) :
    Text.lines (containerSource schemas) = (containers schemas).map containerLine := by
  apply lines_intercalate
  · rw [List.forall_mem_map]
    intro container member
    obtain ⟨-, schema, among, rfl⟩ := mem_containers_iff.mp member
    exact (OneLine.append (by decide) (oneLine_container (wellFormed schema among))).append
      (by decide)
  · rw [List.forall_mem_map]
    intro container _
    simp

/-- The container of each schema has one line. -/
theorem count_containerLine {schemas : List Schema}
    (wellFormed : ∀ schema ∈ schemas, schema.WellFormed) {schema : Schema}
    (among : schema ∈ schemas) (named : schema.container ≠ "") :
    (Text.lines (containerSource schemas)).count (containerLine schema.container) = 1 := by
  rw [lines_containerSource wellFormed]
  apply List.count_eq_one_of_mem ((containers_nodup schemas).map containerLine_injective)
  exact List.mem_map_of_mem (mem_containers_iff.mpr ⟨named, schema, among, rfl⟩)

end Listed

theorem container_eq_empty_iff {schema : Schema} (wellFormed : schema.WellFormed) :
    schema.container = "" ↔ ∀ nameSpace ∈ schema.document.nameSpace, nameSpace.parts = [] := by
  have own := (Schema.wellFormed_iff.mp wellFormed).1
  cases declared : schema.document.nameSpace with
  | none => simp [Schema.container_of_none declared]
  | some nameSpace =>
    rw [Schema.container_of_some declared,
      (own.nameSpace nameSpace declared).container_eq_empty_iff]
    simp

/-- Containers and sources agree. The containers of some schemas are listed one in a line, each
once, in the order in which schemas first have them. The source of a schema with a container puts
every declaration into an extension of it and writes it in front of every declared type, and that
container has one line. The source of a schema without a container writes none. -/
theorem containers_agree_with_sources (schemas : List Schema)
    (parsed : ∀ schema ∈ schemas, schema.Parsed) :
    (∃ names : List String,
      containerSource schemas = "\n".intercalate (names.map containerLine) ∧
      Text.lines (containerSource schemas) = names.map containerLine ∧
      (∀ name, name ∈ names ↔ name ≠ "" ∧ ∃ schema ∈ schemas, schema.container = name) ∧
      names.Pairwise fun earlier later => (schemas.map (·.container)).idxOf earlier <
        (schemas.map (·.container)).idxOf later) ∧
    ∀ schema ∈ schemas, ∀ withImport : Bool,
      spell (sourcePieces schema withImport) = source schema withImport ∧
      (schema.container ≠ "" →
        (Text.lines (containerSource schemas)).count (containerLine schema.container) = 1 ∧
        (source schema withImport = assembled schema withImport fun declaration =>
          "extension " ++ schema.container ++ " \x7b\n" ++
            Text.indent (block (ownLines (contextOf schema) declaration)) ++ "\n\x7d\n") ∧
        qualifiedIn (sourcePieces schema withImport) =
          (typesIn schema).map fun name => (schema.container, name.text)) ∧
      (schema.container = "" →
        (source schema withImport = assembled schema withImport fun declaration =>
          block (ownLines (contextOf schema) declaration)) ∧
        qualifiedIn (sourcePieces schema withImport) = []) ∧
      (schema.container = "" ↔ ∀ nameSpace ∈ schema.document.nameSpace, nameSpace.parts = []) := by
  have wellFormed (schema : Schema) (among : schema ∈ schemas) : schema.WellFormed :=
    (parsed schema among).wellFormed
  refine ⟨⟨containers schemas, rfl, lines_containerSource wellFormed,
    fun name => mem_containers_iff, pairwise_idxOf_eraseDups _ _⟩, ?_⟩
  intro schema among withImport
  have own := wellFormed schema among
  refine ⟨spell_sourcePieces own withImport, ?_, ?_, container_eq_empty_iff own⟩
  · intro named
    have written : ¬ schema.container.isEmpty = true := by simpa using named
    refine ⟨count_containerLine wellFormed among named,
      source_eq_assembled_of_container named withImport, ?_⟩
    rw [qualifiedIn_sourcePieces, qualifications, if_neg written]
  · intro unnamed
    have empty : schema.container.isEmpty = true := by simpa using unnamed
    refine ⟨?_, ?_⟩
    · rw [source_eq_assembled]
      exact congrArg (assembled schema withImport) (funext fun declaration => if_pos empty)
    · rw [qualifiedIn_sourcePieces, qualifications, if_pos empty]

section Palettes

def paletteText : String :=
  "namespace art; enum Hue: byte \x7b red = 2 \x7d " ++
    "table Pen \x7b hue: Hue = 2; others: [Pen]; \x7d root_type Pen;"

def paletteTable : Record :=
  ⟨⟨"Pen"⟩, [⟨⟨"hue"⟩, ⟨.reference ⟨"Hue"⟩, false⟩, some "2", {}⟩,
    ⟨⟨"others"⟩, ⟨.reference ⟨"Pen"⟩, true⟩, none, {}⟩], {}⟩

def paletteHue : Enumeration :=
  ⟨⟨"Hue"⟩, .int8, [⟨⟨"red"⟩, some "2"⟩], {}⟩

def palette : Schema :=
  { document :=
      { nameSpace := some ⟨[⟨"art"⟩]⟩
        rootType := some ⟨"Pen"⟩
        tables := [paletteTable]
        enums := [paletteHue] }
    children := [] }

def bareText : String :=
  "namespace ; table Pen \x7b others: [Pen]; \x7d"

def bare : Schema :=
  { document :=
      { nameSpace := some ⟨[]⟩
        tables := [⟨⟨"Pen"⟩, [⟨⟨"others"⟩, ⟨.reference ⟨"Pen"⟩, true⟩, none, {}⟩], {}⟩] }
    children := [] }

theorem containers_agree_with_sources_palettes :
    Schema.compile paletteText = .ok palette ∧ Schema.compile bareText = .ok bare ∧
      Text.lines (containerSource [bare, palette, palette]) = ["public enum Art \x7b\x7d"] ∧
      qualifiedIn (sourcePieces palette true) =
        [("Art", "Hue"), ("Art", "Hue"), ("Art", "Pen"), ("Art", "Pen")] ∧
      qualifiedIn (sourcePieces bare true) = [] := by
  have accepted : Schema.compile paletteText = .ok palette := by rfl
  have accepted' : Schema.compile bareText = .ok bare := by rfl
  have parsed : ∀ schema ∈ [bare, palette, palette], schema.Parsed := by
    simp only [List.forall_mem_cons, List.not_mem_nil, false_imp_iff, implies_true, and_true]
    exact ⟨.of_compile accepted', .of_compile accepted, .of_compile accepted⟩
  obtain ⟨-, sources⟩ := containers_agree_with_sources [bare, palette, palette] parsed
  obtain ⟨-, named, -⟩ := sources palette (by simp) true
  obtain ⟨-, -, unnamed, -⟩ := sources bare (by simp) true
  have written : palette.container = "Art" := by rfl
  have emitted : emittedBy palette = [.table paletteTable, .enumeration paletteHue] := by cbv
  have types : typesIn palette = [⟨"Hue"⟩, ⟨"Hue"⟩, ⟨"Pen"⟩, ⟨"Pen"⟩] := by
    rw [typesIn, emitted]
    rfl
  refine ⟨accepted, accepted', by rfl, ?_, (unnamed (by rfl)).2⟩
  rw [(named (by decide)).2.2, written, types]
  rfl

end Palettes

end FlatSchema.Swift
