import FlatSchema.Proofs.Schema.Container
import FlatSchema.Proofs.Swift.Pieces
import FlatSchema.Proofs.Text.Lines

/-!
The names that a source writes. Names of a schema are stored in a form that Swift takes, and so is
the name of a case that a default refers to. The container is put together only after that, and it
may come out as a reserved word.
-/

namespace FlatSchema

open Text

/-- Whatever it is made from, a stored name is not reserved. -/
theorem Ident.ofSource_not_reserved (word : String) :
    (Ident.ofSource word).text ∉ Ident.reservedWords := by
  unfold Ident.ofSource
  by_cases reserved : Ident.isReserved word = true
  · rw [if_pos reserved]
    apply underscore_append_not_mem
    decide
  · rw [if_neg reserved]
    simpa [Ident.isReserved] using reserved

/-- No reserved word begins as the cases of unions do. -/
theorem with_append_not_reserved (name : String) : "with" ++ name ∉ Ident.reservedWords := by
  have plain : ∀ word ∈ Ident.reservedWords, ¬ "with".toList <+: word.toList := by
    decide
  intro member
  apply plain _ member
  rw [String.toList_append]
  exact List.prefix_append _ _

theorem Text.oneLine_of_isValueChar {text : String}
    (spelled : ∀ character ∈ text.toList, isValueChar character = true) : OneLine text := by
  intro character member
  have value := spelled character member
  constructor
  · rintro rfl
    revert value
    decide
  · rintro rfl
    revert value
    decide

theorem Text.IsName.oneLine {text : String} (spelled : IsName text) : OneLine text :=
  oneLine_of_isValueChar fun character member => isValueChar_of_isNameChar (spelled.2 character member)

theorem Text.IsValue.oneLine {text : String} (spelled : IsValue text) : OneLine text :=
  oneLine_of_isValueChar spelled.2

theorem oneLine_ofSource {word : String} (oneLine : OneLine word) :
    OneLine (Ident.ofSource word).text := by
  unfold Ident.ofSource
  split
  · exact OneLine.append (by decide) oneLine
  · exact oneLine

theorem Namespace.WellFormed.oneLine_container {nameSpace : Namespace}
    (wellFormed : nameSpace.WellFormed) : OneLine nameSpace.container := by
  apply oneLine_join
  rw [List.forall_mem_map]
  intro part member
  apply oneLine_of_isValueChar
  intro character inside
  have spelled := (wellFormed part member).spelled.2
  exact isValueChar_of_isNameChar (isNameChar_titleCase spelled character inside)

namespace Swift

section Sound

/-- A name is not reserved unless it is the container. -/
def Piece.Free (container : String) : Piece → Prop
  | .code _ => True
  | .name text => text ∈ Ident.reservedWords → text = container

/-- A free piece that keeps to its line. -/
structure Piece.Sound (container : String) (piece : Piece) : Prop where
  free : piece.Free container
  oneLine : OneLine piece.text

theorem forall_mem_intercalate {condition : Piece → Prop} {separator : List Piece}
    {lines : List (List Piece)} (between : ∀ piece ∈ separator, condition piece)
    (each : ∀ line ∈ lines, ∀ piece ∈ line, condition piece) :
    ∀ piece ∈ separator.intercalate lines, condition piece := by
  induction lines with
  | nil => exact List.forall_mem_nil _
  | cons line lines inductionHypothesis =>
    rw [List.forall_mem_cons] at each
    cases lines with
    | nil => simpa using each.1
    | cons next lines =>
      rw [List.intercalate_cons_cons, List.forall_mem_append, List.forall_mem_append]
      exact ⟨⟨each.1, between⟩, inductionHypothesis each.2⟩

/-- All pieces of a line are sound. -/
def Sound (container : String) (pieces : List Piece) : Prop :=
  ∀ piece ∈ pieces, piece.Sound container

namespace Sound

variable {container : String}

theorem nil : Sound container [] :=
  List.forall_mem_nil _

theorem code {text : String} (oneLine : OneLine text) : Sound container [.code text] :=
  List.forall_mem_singleton.mpr ⟨trivial, oneLine⟩

theorem name {text : String} (oneLine : OneLine text) (unreserved : text ∉ Ident.reservedWords) :
    Sound container [.name text] :=
  List.forall_mem_singleton.mpr ⟨fun reserved => absurd reserved unreserved, oneLine⟩

theorem ident {name : Ident} (wellFormed : name.WellFormed) : Sound container [.name name.text] :=
  .name wellFormed.spelled.oneLine wellFormed.unreserved

theorem append {first second : List Piece} (sound : Sound container first)
    (sound' : Sound container second) : Sound container (first ++ second) :=
  List.forall_mem_append.mpr ⟨sound, sound'⟩

theorem intercalate {separator : List Piece} {lines : List (List Piece)}
    (between : Sound container separator) (each : ∀ line ∈ lines, Sound container line) :
    Sound container (separator.intercalate lines) :=
  forall_mem_intercalate between each

theorem oneLine_spell {pieces : List Piece} (sound : Sound container pieces) :
    OneLine (spell pieces) := by
  apply oneLine_join
  rw [List.forall_mem_map]
  intro piece member
  exact (sound piece member).oneLine

end Sound

theorem sound_scalarType (scalar : Scalar) (container : String) :
    Sound container [.name (scalarType scalar)] := by
  cases scalar <;> exact .name (by decide) (by decide)

theorem oneLine_scalarValue (scalar : Scalar) {value? : Option String}
    (values : ∀ value ∈ value?, IsValue value) : OneLine (scalarValue scalar value?) := by
  cases value? with
  | none => cases scalar <;> decide
  | some value =>
    rw [scalarValue]
    split
    · decide
    · split
      · decide
      · exact (values value rfl).oneLine

/-- The line in which a body begins. -/
theorem sound_opening (container : String) {keyword : String} {name : Ident}
    (plain : OneLine keyword) (wellFormed : name.WellFormed) :
    Sound container [.code keyword, .name name.text, .code " \x7b"] :=
  (Sound.code plain).append ((Sound.ident wellFormed).append (.code (by decide)))

theorem sound_enumerationPieces {enumeration : Enumeration} (wellFormed : enumeration.WellFormed)
    (container : String) : ∀ line ∈ enumerationPieces enumeration, Sound container line := by
  have opening : Sound container [.code "public enum ", .name enumeration.name.text, .code ": ",
      .name (scalarType enumeration.base), .code ", CaseIterable \x7b"] :=
    (Sound.code (by decide)).append ((Sound.ident wellFormed.name).append
      ((Sound.code (by decide)).append ((sound_scalarType _ _).append (.code (by decide)))))
  have cases : ∀ enumCase ∈ enumeration.cases, Sound container (casePieces enumCase) := by
    intro enumCase member
    have declared := wellFormed.cases enumCase member
    have name : Sound container [.code "    case ", .name enumCase.name.text] :=
      (Sound.code (by decide)).append (.ident declared.name)
    unfold casePieces
    apply name.append
    split
    · next value given =>
      exact (Sound.code (by decide)).append (.code (declared.value value given).oneLine)
    · exact .nil
  unfold enumerationPieces
  rw [List.forall_mem_append, List.forall_mem_append, List.forall_mem_map]
  exact ⟨⟨List.forall_mem_singleton.mpr opening, cases⟩,
    List.forall_mem_singleton.mpr (.code (by decide))⟩

theorem spell_nestPieces {context : Context} {lines : List (List Piece)} (nonempty : lines ≠ [])
    (sound : ∀ line ∈ lines, Sound context.container line) :
    spell (nestPieces context lines) = context.nest (block (lines.map spell)) := by
  have joined : block (lines.map spell) = String.join ((lines.map spell).map (· ++ "\n")) :=
    block_eq_join (by simpa using nonempty)
  unfold nestPieces Context.nest
  split
  · rw [spell_blockPieces, joined]
  · have oneLine : ∀ line ∈ lines.map spell, OneLine line := by
      rw [List.forall_mem_map]
      intro line member
      exact (sound line member).oneLine_spell
    have indented : (lines.map indentPieces).map spell = (lines.map spell).map indentLine := by
      simp [spell_indentPieces]
    rw [joined, indent_join oneLine, ← indented, spell_append, spell_append, spell_intercalate]
    simp [Piece.text, String.append_assoc]

theorem free_blockPieces {container : String} {lines : List (List Piece)}
    (each : ∀ line ∈ lines, ∀ piece ∈ line, piece.Free container) :
    ∀ piece ∈ blockPieces lines, piece.Free container := by
  unfold blockPieces
  rw [List.forall_mem_flatMap]
  intro line member
  rw [List.forall_mem_append]
  exact ⟨each line member, List.forall_mem_singleton.mpr trivial⟩

theorem free_nestPieces {context : Context} {lines : List (List Piece)}
    (sound : ∀ line ∈ lines, Sound context.container line) :
    ∀ piece ∈ nestPieces context lines, piece.Free context.container := by
  have free : ∀ line ∈ lines, ∀ piece ∈ line, piece.Free context.container :=
    fun line member piece inside => (sound line member piece inside).free
  unfold nestPieces
  split
  · exact free_blockPieces free
  · have indented : ∀ line ∈ lines.map indentPieces, ∀ piece ∈ line, piece.Free context.container := by
      rw [List.forall_mem_map]
      intro line member
      unfold indentPieces
      split
      · exact free line member
      · exact List.forall_mem_cons.mpr ⟨trivial, free line member⟩
    have lead : ∀ piece ∈ [Piece.code "extension ", .name context.container, .code " \x7b\n"],
        piece.Free context.container := by
      simp only [List.forall_mem_cons]
      exact ⟨trivial, fun _ => rfl, trivial, List.forall_mem_nil _⟩
    rw [List.forall_mem_append, List.forall_mem_append]
    exact ⟨⟨lead, forall_mem_intercalate (List.forall_mem_singleton.mpr trivial) indented⟩,
      List.forall_mem_singleton.mpr trivial⟩

section Contained

variable {context : Context} (container : OneLine context.container)

include container

theorem sound_typeNamePieces {name : Ident} (wellFormed : name.WellFormed) :
    Sound context.container (typeNamePieces context name.text) := by
  have own : Sound context.container [.name context.container] :=
    List.forall_mem_singleton.mpr ⟨fun _ => rfl, container⟩
  unfold typeNamePieces
  split
  · exact .ident wellFormed
  · exact own.append ((Sound.code (by decide)).append (.ident wellFormed))

theorem sound_typePieces {type : FieldType} (wellFormed : type.base.WellFormed) :
    Sound context.container (typePieces context type) := by
  have base : Sound context.container (basePieces context type.base) := by
    cases kind : type.base with
    | scalar scalar => exact sound_scalarType scalar _
    | string => exact .name (by decide) (by decide)
    | reference name =>
      rw [kind] at wellFormed
      exact sound_typeNamePieces container wellFormed.1
  unfold typePieces
  split
  · exact ((Sound.code (by decide)).append base).append (.code (by decide))
  · exact base

theorem sound_propertyPieces {field : Field} (wellFormed : field.WellFormed) :
    Sound context.container (propertyPieces context field) := by
  have type := sound_typePieces container wellFormed.type
  have mark {text : String} (plain : OneLine text) :
      Sound context.container (typePieces context field.type ++ [Piece.code text]) :=
    type.append (.code plain)
  unfold propertyPieces
  split
  · exact mark (by decide)
  · split
    · exact type.append ((Sound.code (by decide)).append
        (.code (oneLine_scalarValue _ wellFormed.default)))
    · exact mark (by decide)
    · split
      · next value found given =>
        have plain := (wellFormed.default value given).oneLine
        split
        · exact type.append ((Sound.code (by decide)).append
            (.name (oneLine_ofSource plain) (Ident.ofSource_not_reserved value)))
        · exact ((mark (by decide)).append type).append ((Sound.code (by decide)).append
            ((Sound.code plain).append (.code (by decide))))
      · exact mark (by decide)

theorem sound_tablePieces {table : Record} (wellFormed : table.WellFormed) :
    ∀ line ∈ tablePieces context table, Sound context.container line := by
  have opening : Sound context.container [.code "public final class ", _, _] :=
    sound_opening context.container (by decide) wellFormed.name
  have properties : ∀ field ∈ table.fields.filter (!·.isDeprecated), Sound context.container
      ([Piece.code "    ", .code "public var ", .name field.name.text, .code ": "] ++
        propertyPieces context field) := by
    intro field member
    have declared := wellFormed.fields field (List.mem_of_mem_filter member)
    have lead : Sound context.container
        [.code "    ", .code "public var ", .name field.name.text, .code ": "] :=
      (Sound.code (by decide)).append ((Sound.code (by decide)).append
        ((Sound.ident declared.name).append (.code (by decide))))
    exact lead.append (sound_propertyPieces container declared)
  unfold tablePieces
  rw [List.forall_mem_append, List.forall_mem_append, List.forall_mem_map]
  refine ⟨⟨List.forall_mem_singleton.mpr opening, properties⟩, ?_⟩
  rw [List.forall_mem_cons, List.forall_mem_singleton]
  exact ⟨.code (by decide), .code (by decide)⟩

theorem sound_structPieces {struct : Record} (wellFormed : struct.WellFormed) :
    ∀ line ∈ structPieces context struct, Sound context.container line := by
  have opening : Sound context.container [.code "public struct ", _, _] :=
    sound_opening context.container (by decide) wellFormed.name
  have declared : ∀ field ∈ struct.fields.filter (!·.isDeprecated), field.WellFormed := by
    intro field member
    exact wellFormed.fields field (List.mem_of_mem_filter member)
  have typed : ∀ field ∈ struct.fields.filter (!·.isDeprecated), Sound context.container
      ([Piece.name field.name.text, .code ": "] ++ typePieces context field.type) := by
    intro field member
    have name : Sound context.container [.name field.name.text, .code ": "] :=
      (Sound.ident (declared field member).name).append (.code (by decide))
    exact name.append (sound_typePieces container (declared field member).type)
  have assigned : ∀ field ∈ struct.fields.filter (!·.isDeprecated), Sound context.container
      [.code "        self.", .name field.name.text, .code " = ", .name field.name.text] := by
    intro field member
    have name : Sound context.container [.name field.name.text] := .ident (declared field member).name
    exact (Sound.code (by decide)).append (name.append ((Sound.code (by decide)).append name))
  have parameters : Sound context.container ([.code ", "].intercalate
      ((struct.fields.filter (!·.isDeprecated)).map fun field =>
        [Piece.name field.name.text, .code ": "] ++ typePieces context field.type)) := by
    apply Sound.intercalate (.code (by decide))
    rwa [List.forall_mem_map]
  unfold structPieces
  simp only [List.map_map, Function.comp_def, List.forall_mem_append, List.forall_mem_map,
    List.forall_mem_cons]
  refine ⟨⟨⟨⟨⟨opening, List.forall_mem_nil _⟩, ?_⟩, .nil, ?_, List.forall_mem_nil _⟩, assigned⟩,
    .code (by decide), .code (by decide), List.forall_mem_nil _⟩
  · intro field member
    exact (Sound.code (by decide)).append (typed field member)
  · exact ((Sound.code (by decide)).append parameters).append (.code (by decide))

theorem sound_unionPieces {union : TaggedUnion} (wellFormed : union.WellFormed) :
    ∀ line ∈ unionPieces context union, Sound context.container line := by
  have opening : Sound context.container [.code "public enum ", _, _] :=
    sound_opening context.container (by decide) wellFormed.name
  have cases : ∀ name ∈ union.cases, Sound context.container
      ([Piece.code "    case ", .name ("with" ++ name.text), .code "("] ++
        typeNamePieces context name.text ++ [Piece.code ")"]) := by
    intro name member
    have declared := wellFormed.cases name member
    have lead : Sound context.container
        [.code "    case ", .name ("with" ++ name.text), .code "("] :=
      (Sound.code (by decide)).append ((Sound.name
        (OneLine.append (by decide) declared.spelled.oneLine)
        (with_append_not_reserved name.text)).append (.code (by decide)))
    exact (lead.append (sound_typeNamePieces container declared)).append (.code (by decide))
  unfold unionPieces
  rw [List.forall_mem_append, List.forall_mem_append, List.forall_mem_map]
  exact ⟨⟨List.forall_mem_singleton.mpr opening, cases⟩,
    List.forall_mem_singleton.mpr (.code (by decide))⟩

theorem sound_ownPieces {declaration : Declaration} (wellFormed : declaration.WellFormed) :
    ∀ line ∈ ownPieces context declaration, Sound context.container line := by
  cases declaration with
  | table declared => exact sound_tablePieces container wellFormed
  | struct declared => exact sound_structPieces container wellFormed
  | enumeration declared => exact sound_enumerationPieces wellFormed context.container
  | union declared => exact sound_unionPieces container wellFormed

/-- The literal of a root extension may run over several lines, but it is no name. -/
theorem free_rootPieces {table : Record} (wellFormed : table.WellFormed)
    (fileIdentifier : Option String) :
    ∀ line ∈ rootPieces context table fileIdentifier,
      ∀ piece ∈ line, piece.Free context.container := by
  have opening : Sound context.container
      ([Piece.code "extension "] ++ typeNamePieces context table.name.text ++ [Piece.code " \x7b"]) :=
    ((Sound.code (by decide)).append (sound_typeNamePieces container wellFormed.name)).append
      (.code (by decide))
  have fixed : ∀ name ∈ ["fileIdentifier", "String"], name ∉ Ident.reservedWords := by
    decide
  simp only [List.forall_mem_cons] at fixed
  have identifier : ∀ piece ∈ [.code "    public static let ", .name "fileIdentifier", .code ": ",
      .name "String", .code "? = ", .code (fileIdentifierText fileIdentifier)],
      Piece.Free context.container piece := by
    simp only [List.forall_mem_cons]
    exact ⟨trivial, fun reserved => absurd reserved fixed.1, trivial,
      fun reserved => absurd reserved fixed.2.1, trivial, trivial, List.forall_mem_nil _⟩
  unfold rootPieces
  rw [List.forall_mem_append, List.forall_mem_append, List.forall_mem_cons,
    List.forall_mem_singleton, List.forall_mem_map, List.forall_mem_singleton]
  refine ⟨⟨⟨?_, identifier⟩, ?_⟩, List.forall_mem_singleton.mpr trivial⟩
  · intro piece member
    exact (opening piece member).free
  · intro line member
    exact List.forall_mem_singleton.mpr trivial

theorem spell_renderPieces (document : Document) {declaration : Declaration}
    (wellFormed : declaration.WellFormed) :
    spell (renderPieces context document declaration) = render context document declaration := by
  have nonempty : ownPieces context declaration ≠ [] := by
    intro none
    obtain ⟨rest, opening⟩ := exists_ownLines_eq_cons context declaration
    rw [← map_spell_ownPieces, none] at opening
    cases opening
  rw [renderPieces, spell_append, spell_blockPieces, map_spell_extensionPieces,
    spell_nestPieces nonempty (sound_ownPieces container wellFormed), map_spell_ownPieces,
    render_eq_blockText, blockText]

theorem free_renderPieces (document : Document) {declaration : Declaration}
    (wellFormed : declaration.WellFormed) :
    ∀ piece ∈ renderPieces context document declaration, piece.Free context.container := by
  have own := free_nestPieces (sound_ownPieces container wellFormed)
  unfold renderPieces
  rw [List.forall_mem_append]
  refine ⟨own, free_blockPieces ?_⟩
  cases declaration with
  | table declared =>
    rw [extensionPieces]
    split
    · exact free_rootPieces container wellFormed document.fileIdentifier
    · exact List.forall_mem_nil _
  | _ => exact List.forall_mem_nil _

end Contained

end Sound

section Sources

variable {schema : Schema} (wellFormed : schema.WellFormed)

include wellFormed

theorem oneLine_container : OneLine schema.container := by
  have own := (Schema.wellFormed_iff.mp wellFormed).1
  cases declared : schema.document.nameSpace with
  | none =>
    rw [Schema.container_of_none declared]
    decide
  | some nameSpace =>
    rw [Schema.container_of_some declared]
    exact (own.nameSpace nameSpace declared).oneLine_container

theorem container_reserved_iff :
    schema.container ∈ Ident.reservedWords ↔
      ∃ nameSpace ∈ schema.document.nameSpace, nameSpace.spellsReserved = true := by
  have own := (Schema.wellFormed_iff.mp wellFormed).1
  cases declared : schema.document.nameSpace with
  | none =>
    have unreserved : "" ∉ Ident.reservedWords := by decide
    rw [Schema.container_of_none declared]
    simp [unreserved]
  | some nameSpace =>
    rw [Schema.container_of_some declared,
      (own.nameSpace nameSpace declared).container_mem_reservedWords_iff]
    simp

theorem spell_sourcePieces (withImport : Bool) :
    spell (sourcePieces schema withImport) = source schema withImport := by
  have container : OneLine (contextOf schema).container := oneLine_container wellFormed
  have blocks (declarations : List Declaration)
      (declared : ∀ declaration ∈ declarations, declaration.WellFormed) :
      spell (declarations.flatMap fun declaration =>
        renderPieces (contextOf schema) schema.document declaration ++ [Piece.code "\n"]) =
      String.join (declarations.map fun declaration =>
        render (contextOf schema) schema.document declaration ++ "\n") := by
    induction declarations with
    | nil => rfl
    | cons declaration declarations inductionHypothesis =>
      rw [List.forall_mem_cons] at declared
      rw [List.flatMap_cons, spell_append, spell_append, inductionHypothesis declared.2,
        spell_renderPieces container schema.document declared.1, List.map_cons, String.join_cons]
      simp [Piece.text]
  have emitted : ∀ declaration ∈ emittedBy schema, declaration.WellFormed :=
    fun declaration member => wellFormed.declared (mem_declarations_of_emittedBy member)
  have helper : (contextOf schema).lateBinding = schema.isRecursive := rfl
  rw [sourcePieces, source, spell_append, spell_append, blocks _ emitted, helper]
  split
  · simp [Piece.text]
  · simp [Piece.text]

theorem free_sourcePieces (withImport : Bool) :
    ∀ piece ∈ sourcePieces schema withImport, piece.Free schema.container := by
  have container : OneLine (contextOf schema).container := oneLine_container wellFormed
  rw [sourcePieces, List.forall_mem_append, List.forall_mem_append, List.forall_mem_flatMap]
  refine ⟨⟨List.forall_mem_singleton.mpr trivial, ?_⟩, ?_⟩
  · intro declaration member
    have declared := wellFormed.declared (mem_declarations_of_emittedBy member)
    rw [List.forall_mem_append]
    exact ⟨free_renderPieces container schema.document declared,
      List.forall_mem_singleton.mpr trivial⟩
  · split
    · exact List.forall_mem_singleton.mpr trivial
    · exact List.forall_mem_nil _

theorem reserved_in_source_iff {withImport : Bool} {name : String}
    (written : name ∈ namesIn (sourcePieces schema withImport)) :
    name ∈ Ident.reservedWords ↔ name = schema.container ∧
      ∃ nameSpace ∈ schema.document.nameSpace, nameSpace.spellsReserved = true := by
  rw [← container_reserved_iff wellFormed]
  constructor
  · intro reserved
    obtain ⟨piece, member, isName⟩ := List.mem_filterMap.mp written
    cases piece with
    | code text => cases isName
    | name text =>
      cases isName
      have same : name = schema.container :=
        free_sourcePieces wellFormed withImport _ member reserved
      exact ⟨same, same ▸ reserved⟩
  · rintro ⟨rfl, reserved⟩
    exact reserved

end Sources

theorem spell_containerPieces (schemas : List Schema) :
    spell (containerPieces schemas) = containerSource schemas := by
  rw [containerPieces, containerSource, spell_intercalate]
  simp [Piece.text, Function.comp_def, String.append_assoc]

theorem namesIn_containerPieces (schemas : List Schema) :
    namesIn (containerPieces schemas) = containers schemas := by
  unfold containerPieces
  induction containers schemas with
  | nil => rfl
  | cons container others inductionHypothesis =>
    cases others with
    | nil => rfl
    | cons next others =>
      rw [List.map_cons] at inductionHypothesis
      rw [List.map_cons, List.map_cons, List.intercalate_cons_cons, namesIn, List.filterMap_append,
        ← namesIn, ← namesIn, inductionHypothesis]
      rfl

theorem reserved_container_iff {schemas : List Schema}
    (wellFormed : ∀ schema ∈ schemas, schema.WellFormed) {name : String}
    (listed : name ∈ containers schemas) :
    name ∈ Ident.reservedWords ↔ ∃ schema ∈ schemas, schema.container = name ∧
      ∃ nameSpace ∈ schema.document.nameSpace, nameSpace.spellsReserved = true := by
  constructor
  · intro reserved
    rw [containers, List.mem_eraseDups] at listed
    obtain ⟨schema, member, rfl⟩ := List.mem_map.mp (List.mem_of_mem_filter listed)
    exact ⟨schema, member, rfl, (container_reserved_iff (wellFormed schema member)).mp reserved⟩
  · rintro ⟨schema, member, rfl, spells⟩
    exact (container_reserved_iff (wellFormed schema member)).mpr spells

/-- The names that are reserved. In a source only the container can be, and so can any container in a
list of them, and each is exactly if its namespace spells a reserved word that begins with a
capital. -/
theorem names_reserved_iff (schemas : List Schema)
    (compiled : ∀ schema ∈ schemas, ∃ text, Schema.compile text = .ok schema) (withImport : Bool) :
    (∀ schema ∈ schemas,
      spell (sourcePieces schema withImport) = source schema withImport ∧
        ∀ name ∈ namesIn (sourcePieces schema withImport),
          (name ∈ Ident.reservedWords ↔ name = schema.container ∧
            ∃ nameSpace ∈ schema.document.nameSpace, nameSpace.spellsReserved = true)) ∧
      spell (containerPieces schemas) = containerSource schemas ∧
      namesIn (containerPieces schemas) = containers schemas ∧
      ∀ name ∈ containers schemas,
        (name ∈ Ident.reservedWords ↔ ∃ schema ∈ schemas, schema.container = name ∧
          ∃ nameSpace ∈ schema.document.nameSpace, nameSpace.spellsReserved = true) := by
  have wellFormed : ∀ schema ∈ schemas, schema.WellFormed := by
    intro schema member
    obtain ⟨text, accepted⟩ := compiled schema member
    exact (Schema.Parsed.of_compile accepted).wellFormed
  refine ⟨?_, spell_containerPieces schemas, namesIn_containerPieces schemas, ?_⟩
  · intro schema member
    exact ⟨spell_sourcePieces (wellFormed schema member) withImport,
      fun name written => reserved_in_source_iff (wellFormed schema member) written⟩
  · intro name listed
    exact reserved_container_iff wellFormed listed

section Reserved

/-- A text that uses reserved words for names of every kind. -/
def reservedText : String :=
  "namespace class.Type; enum in: byte \x7b none, left \x7d table Self \x7b var: in = none; \x7d " ++
    "union where \x7b Self \x7d"

def reservedSchema : Schema :=
  { document :=
      { nameSpace := some ⟨[⟨"_class"⟩, ⟨"_Type"⟩]⟩
        tables := [⟨⟨"_Self"⟩, [⟨⟨"_var"⟩, ⟨.reference ⟨"_in"⟩, false⟩, some "none", {}⟩], {}⟩]
        enums := [⟨⟨"_in"⟩, .int8, [⟨⟨"_none"⟩, none⟩, ⟨⟨"_left"⟩, none⟩], {}⟩]
        unions := [⟨⟨"_where"⟩, [⟨"_Self"⟩], {}⟩] }
    children := [] }

theorem names_reserved_iff_escaped :
    Schema.compile reservedText = .ok reservedSchema ∧
      emittedBy reservedSchema =
        [.table ⟨⟨"_Self"⟩, [⟨⟨"_var"⟩, ⟨.reference ⟨"_in"⟩, false⟩, some "none", {}⟩], {}⟩,
         .enumeration ⟨⟨"_in"⟩, .int8, [⟨⟨"_none"⟩, none⟩, ⟨⟨"_left"⟩, none⟩], {}⟩,
         .union ⟨⟨"_where"⟩, [⟨"_Self"⟩], {}⟩] ∧
      (∀ name ∈ namesIn (sourcePieces reservedSchema false), name ∉ Ident.reservedWords) ∧
      containers [reservedSchema] = ["_class_type"] ∧ "_class_type" ∉ Ident.reservedWords := by
  have accepted : Schema.compile reservedText = .ok reservedSchema := by decide +kernel
  have plain : ¬ ∃ nameSpace ∈ reservedSchema.document.nameSpace,
      nameSpace.spellsReserved = true := by
    decide +kernel
  have listed : containers [reservedSchema] = ["_class_type"] := by decide +kernel
  have compiled : ∀ schema ∈ [reservedSchema], ∃ text, Schema.compile text = .ok schema :=
    List.forall_mem_singleton.mpr ⟨_, accepted⟩
  obtain ⟨sources, -, -, lists⟩ := names_reserved_iff [reservedSchema] compiled false
  refine ⟨accepted, by cbv, ?_, listed, ?_⟩
  · intro name written reserved
    have only := (sources reservedSchema (List.mem_singleton_self _)).2 name written
    exact plain (only.mp reserved).2
  · intro reserved
    obtain ⟨schema, member, -, spells⟩ := (lists "_class_type" (by simp [listed])).mp reserved
    rw [List.mem_singleton.mp member] at spells
    exact plain spells

/-- A schema whose namespace is a reserved word but for its case. -/
def nearlyReserved : Schema :=
  { document := { nameSpace := some ⟨[⟨"type"⟩]⟩, tables := [⟨⟨"T"⟩, [], {}⟩] }
    children := [] }

/-- A part that is not reserved as it is written may become a reserved word in title case. -/
theorem reserved_container_written :
    Schema.compile "namespace type; table T \x7b\x7d" = .ok nearlyReserved ∧
      "Type" ∈ Ident.reservedWords ∧
      containerSource [nearlyReserved] = "public enum Type \x7b\x7d" ∧
      "Type" ∈ namesIn (sourcePieces nearlyReserved false) := by
  have emitted : emittedBy nearlyReserved = [.table ⟨⟨"T"⟩, [], {}⟩] := by cbv
  refine ⟨by decide +kernel, by decide +kernel, by decide +kernel, ?_⟩
  rw [sourcePieces, emitted]
  decide +kernel

end Reserved

end Swift

end FlatSchema
