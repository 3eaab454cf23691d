import FlatSchema.Proofs.Swift.Brackets

/-!
A source in pieces. Each line of a template is fixed text, values and literals around the names of
types, properties, cases and containers. The pieces of a source, written one after another, give the
source.
-/

namespace FlatSchema.Swift

open Text

/-- A part of a source. -/
inductive Piece where
  /-- Fixed text of a template, a value or a literal. -/
  | code (text : String)
  /-- A name in a place where Swift takes a name. -/
  | name (text : String)

namespace Piece

def text : Piece → String
  | code text => text
  | name text => text

def name? : Piece → Option String
  | code _ => none
  | name text => some text

end Piece

/-- The text that pieces form. -/
def spell (pieces : List Piece) : String :=
  String.join (pieces.map Piece.text)

/-- The names among some pieces. -/
def namesIn (pieces : List Piece) : List String :=
  pieces.filterMap Piece.name?

section Pieces

/-- Lines with a line end after each. -/
def blockPieces (lines : List (List Piece)) : List Piece :=
  lines.flatMap (· ++ [.code "\n"])

def indentPieces (line : List Piece) : List Piece :=
  if (spell line).isEmpty then line else .code "    " :: line

def casePieces (enumCase : EnumCase) : List Piece :=
  [.code "    case ", .name enumCase.name.text] ++
    match enumCase.value with
    | some value => [.code " = ", .code value]
    | none => []

def enumerationPieces (enumeration : Enumeration) : List (List Piece) :=
  [[.code "public enum ", .name enumeration.name.text, .code ": ",
      .name (scalarType enumeration.base), .code ", CaseIterable \x7b"]] ++
    enumeration.cases.map casePieces ++ [[.code "\x7d"]]

variable (context : Context)

def typeNamePieces (name : String) : List Piece :=
  if context.container.isEmpty then [.name name] else [.name context.container, .code ".", .name name]

def basePieces : BaseType → List Piece
  | .scalar scalar => [.name (scalarType scalar)]
  | .string => [.name "String"]
  | .reference name => typeNamePieces context name.text

def typePieces (type : FieldType) : List Piece :=
  if type.isVector then
    [.code "["] ++ basePieces context type.base ++ [.code "]"]
  else
    basePieces context type.base

def propertyPieces (field : Field) : List Piece :=
  let type := typePieces context field.type
  if field.type.isVector then
    type ++ [.code " = []"]
  else
    match field.type.base with
    | .scalar scalar => type ++ [.code " = ", .code (scalarValue scalar field.default)]
    | .string => type ++ [.code "?"]
    | .reference name =>
      match context.scope.resolve? name.text, field.default with
      | some (.enumeration _), some value =>
        if isCaseName value then
          type ++ [.code " = .", .name (Ident.ofSource value).text]
        else
          type ++ [.code "? = "] ++ type ++ [.code "(rawValue: ", .code value, .code ")"]
      | _, _ => type ++ [.code "?"]

def tablePieces (table : Record) : List (List Piece) :=
  [[.code "public final class ", .name table.name.text, .code " \x7b"]] ++
    (table.fields.filter (!·.isDeprecated)).map (fun field =>
      [.code "    ", .code "public var ", .name field.name.text, .code ": "] ++
        propertyPieces context field) ++
    [[.code "    public init() \x7b\x7d"], [.code "\x7d"]]

def structPieces (struct : Record) : List (List Piece) :=
  let fields := (struct.fields.filter (!·.isDeprecated)).map fun field =>
    (field.name.text, typePieces context field.type)
  [[.code "public struct ", .name struct.name.text, .code " \x7b"]] ++
    fields.map (fun (name, type) => [.code "    public var ", .name name, .code ": "] ++ type) ++
    [[],
     [.code "    public init("] ++
       [.code ", "].intercalate (fields.map fun (name, type) => [.name name, .code ": "] ++ type) ++
       [.code ") \x7b"]] ++
    fields.map (fun (name, _) => [.code "        self.", .name name, .code " = ", .name name]) ++
    [[.code "    \x7d"], [.code "\x7d"]]

def unionPieces (union : TaggedUnion) : List (List Piece) :=
  [[.code "public enum ", .name union.name.text, .code " \x7b"]] ++
    union.cases.map (fun name =>
      [.code "    case ", .name ("with" ++ name.text), .code "("] ++
        typeNamePieces context name.text ++ [.code ")"]) ++
    [[.code "\x7d"]]

/-- The lines of a declaration before its block is nested. -/
def ownPieces : Declaration → List (List Piece)
  | .table declared => tablePieces context declared
  | .struct declared => structPieces context declared
  | .enumeration declared => enumerationPieces declared
  | .union declared => unionPieces context declared

def rootPieces (table : Record) (fileIdentifier : Option String) : List (List Piece) :=
  [[.code "extension "] ++ typeNamePieces context table.name.text ++ [.code " \x7b"],
   [.code "    public static let ", .name "fileIdentifier", .code ": ", .name "String",
    .code "? = ", .code (fileIdentifierText fileIdentifier)]] ++
  (Context.finishLines context.lateBinding).map (fun line => [.code line]) ++ [[.code "\x7d"]]

/-- The lines of the root extension. -/
def extensionPieces (document : Document) : Declaration → List (List Piece)
  | .table declared =>
    if document.rootType = some declared.name then
      rootPieces context declared document.fileIdentifier
    else
      []
  | _ => []

def nestPieces (lines : List (List Piece)) : List Piece :=
  if context.container.isEmpty then
    blockPieces lines
  else
    [.code "extension ", .name context.container, .code " \x7b\n"] ++
      [.code "\n"].intercalate (lines.map indentPieces) ++ [.code "\n\x7d\n"]

def renderPieces (document : Document) (declaration : Declaration) : List Piece :=
  nestPieces context (ownPieces context declaration) ++
    blockPieces (extensionPieces context document declaration)

end Pieces

/-- A whole source in pieces. -/
def sourcePieces (schema : Schema) (withImport : Bool) : List Piece :=
  [.code (header withImport)] ++
    (emittedBy schema).flatMap (fun declaration =>
      renderPieces (contextOf schema) schema.document declaration ++ [.code "\n"]) ++
    if schema.isRecursive then [.code (lateBindingHelper ++ "\n")] else []

/-- The containers of some schemas in pieces. -/
def containerPieces (schemas : List Schema) : List Piece :=
  [.code "\n"].intercalate ((containers schemas).map fun container =>
    [.code "public enum ", .name container, .code " \x7b\x7d"])

section Spelling

@[simp]
theorem spell_nil : spell [] = "" := rfl

@[simp]
theorem spell_cons (piece : Piece) (pieces : List Piece) :
    spell (piece :: pieces) = piece.text ++ spell pieces :=
  String.join_cons

@[simp]
theorem spell_append (first second : List Piece) : spell (first ++ second) = spell first ++ spell second := by
  simp [spell, String.join_append]

theorem spell_intercalate (separator : List Piece) (lines : List (List Piece)) :
    spell (separator.intercalate lines) = (spell separator).intercalate (lines.map spell) := by
  induction lines with
  | nil => simp
  | cons line lines inductionHypothesis =>
    cases lines with
    | nil => simp
    | cons next lines =>
      rw [List.intercalate_cons_cons, spell_append, spell_append, inductionHypothesis, List.map_cons,
        List.map_cons, List.map_cons, String.intercalate_cons_cons]

theorem spell_blockPieces (lines : List (List Piece)) :
    spell (blockPieces lines) = String.join ((lines.map spell).map (· ++ "\n")) := by
  induction lines with
  | nil => rfl
  | cons line lines inductionHypothesis =>
    rw [blockPieces, List.flatMap_cons, spell_append, ← blockPieces, inductionHypothesis]
    simp [Piece.text, String.join_cons]

theorem spell_indentPieces (line : List Piece) : spell (indentPieces line) = indentLine (spell line) := by
  unfold indentPieces indentLine
  split
  · rfl
  · exact spell_cons (.code "    ") line

theorem spell_casePieces (enumCase : EnumCase) :
    spell (casePieces enumCase) = Context.caseLine enumCase := by
  unfold casePieces Context.caseLine
  cases enumCase.value with
  | none => simp [Piece.text]
  | some value => simp [Piece.text, String.append_assoc]

variable (context : Context)

theorem spell_typeNamePieces (name : String) :
    spell (typeNamePieces context name) = context.typeName name := by
  unfold typeNamePieces Context.typeName
  split
  · simp [Piece.text]
  · simp [Piece.text, String.append_assoc]

theorem spell_typePieces (type : FieldType) :
    spell (typePieces context type) = context.typeText type := by
  have base : spell (basePieces context type.base) = context.baseText type.base := by
    cases type.base with
    | scalar scalar => simp [basePieces, Context.baseText, Piece.text]
    | string => simp [basePieces, Context.baseText, Piece.text]
    | reference name => exact spell_typeNamePieces context name.text
  unfold typePieces Context.typeText
  split
  · simp [Piece.text, base, String.append_assoc]
  · exact base

theorem spell_propertyPieces (field : Field) :
    spell (propertyPieces context field) = context.propertyText field := by
  have type := spell_typePieces context field.type
  unfold propertyPieces Context.propertyText
  by_cases vector : field.type.isVector = true
  · simp [vector, Piece.text, type]
  · cases base : field.type.base with
    | scalar scalar => simp [vector, Piece.text, type, String.append_assoc]
    | string => simp [vector, Piece.text, type]
    | reference name =>
      cases given : field.default with
      | none => simp [vector, Piece.text, type]
      | some value =>
        cases found : context.scope.resolve? name.text with
        | none => simp [vector, found, Piece.text, type]
        | some declaration =>
          cases declaration with
          | enumeration declared =>
            by_cases isCase : isCaseName value = true
            · simp [vector, found, isCase, Piece.text, type, String.append_assoc]
            · simp [vector, found, isCase, Piece.text, type, String.append_assoc]
          | _ => simp [vector, found, Piece.text, type]

theorem map_spell_ownPieces (declaration : Declaration) :
    (ownPieces context declaration).map spell = ownLines context declaration := by
  cases declaration with
  | table declared =>
    simp [ownPieces, tablePieces, ownLines, Context.tableLines, Context.property, Piece.text,
      spell_propertyPieces, String.append_assoc, Function.comp_def]
  | struct declared =>
    simp [ownPieces, structPieces, ownLines, Context.structLines, Piece.text, spell_typePieces,
      spell_intercalate, String.append_assoc, Function.comp_def]
  | enumeration declared =>
    simp [ownPieces, enumerationPieces, ownLines, Context.enumerationLines, Piece.text,
      spell_casePieces, String.append_assoc, Function.comp_def]
  | union declared =>
    have joined (rest : String) : "    case " ++ ("with" ++ rest) = "    case with" ++ rest := by
      rw [← String.append_assoc]
      rfl
    simp [ownPieces, unionPieces, ownLines, Context.unionLines, Piece.text, spell_typeNamePieces,
      String.append_assoc, Function.comp_def, joined]

theorem map_spell_extensionPieces (document : Document) (declaration : Declaration) :
    (extensionPieces context document declaration).map spell =
      extensionLines context document declaration := by
  cases declaration with
  | table declared =>
    rw [extensionPieces, extensionLines]
    split
    · have joined (rest : String) :
          "    public static let " ++ ("fileIdentifier" ++ (": " ++ ("String" ++ ("? = " ++ rest)))) =
            "    public static let fileIdentifier: String? = " ++ rest := by
        simp only [← String.append_assoc]
        rfl
      simp [rootPieces, Context.rootLines, Piece.text, spell_typeNamePieces, String.append_assoc,
        Function.comp_def, joined]
    · rfl
  | _ => rfl

end Spelling

end FlatSchema.Swift
