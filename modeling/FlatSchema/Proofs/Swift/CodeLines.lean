import FlatSchema.Proofs.Swift.DeclaredNames
import FlatSchema.Proofs.Text.Literals

/-!
The lines of the code of a source. The file identifier of a schema may be any literal, also one with
line ends in it, so these are the lines of the text without the insides of its literals: those of
the imports, of the block of each emitted declaration with an empty file identifier, and of the
helper where there is one.
-/

namespace FlatSchema.Swift

open Scope Text

/-- The lines of the code of a text that begin with a lead. -/
def linesBeginning (lead text : String) : List String :=
  (Text.lines (Text.outside text)).filter (begins lead)

section Templates

/-- Lines by their characters. Templates are compared in this form, because the bytes of a text take
long to decode. -/
theorem filter_begins_eq_map (lead : String) (lines : List String) :
    lines.filter (begins lead) =
      ((lines.map String.toList).filter fun line =>
        lead.toList.isPrefixOf (line.dropWhile (· = ' '))).map String.ofList := by
  rw [List.filter_map, List.map_map]
  exact (List.map_id'' (fun _ => String.ofList_toList) _).symm

theorem bare_lateBindingLines : ∀ line ∈ lateBindingLines, Bare line := by
  apply bare_of_all
  simp only [lateBindingLines, List.map_cons, List.map_nil]
  repeat rw [String.toList_ofList]
  rfl

theorem bare_finishLines (lateBinding : Bool) :
    ∀ line ∈ Context.finishLines lateBinding ++ ["\x7d"], Bare line := by
  apply bare_of_all
  cases lateBinding
  all_goals
    simp only [Context.finishLines, List.map_append, List.map_cons, List.map_nil,
      String.toList_append]
    repeat rw [String.toList_ofList]
    rfl

end Templates

section Code

/-- The extension with an empty literal in place of the file identifier. -/
def blankExtensionLines (context : Context) (document : Document) (declaration : Declaration) :
    List String :=
  extensionLines context
    { document with fileIdentifier := document.fileIdentifier.map fun _ => "" } declaration

/-- The lines of the code of a block. -/
def codeLines (context : Context) (document : Document) (declaration : Declaration) :
    List String :=
  context.nestLines (ownLines context declaration) ++
    blankExtensionLines context document declaration

/-- Either there is no extension, or it is that of the root table. -/
theorem extensionLines_cases (context : Context) (document : Document)
    (declaration : Declaration) :
    extensionLines context document declaration = [] ∧
        blankExtensionLines context document declaration = [] ∨
      ∃ table, declaration = .table table ∧
        extensionLines context document declaration =
          context.rootLines table document.fileIdentifier ∧
        blankExtensionLines context document declaration =
          context.rootLines table (document.fileIdentifier.map fun _ => "") := by
  cases declaration with
  | table table =>
    by_cases root : document.rootType = some table.name
    · exact .inr ⟨table, rfl, if_pos root, if_pos root⟩
    · exact .inl ⟨if_neg root, if_neg root⟩
  | _ => exact .inl ⟨rfl, rfl⟩

theorem fileIdentifierText_blank (fileIdentifier : Option String) :
    fileIdentifierText (fileIdentifier.map fun _ => "") =
      if fileIdentifier.isSome then "\"\"" else "nil" := by
  cases fileIdentifier <;> rfl

theorem leaves_fileIdentifierText {fileIdentifier : Option String}
    (literals : ∀ text ∈ fileIdentifier, IsLiteral text) :
    Leaves (fileIdentifierText fileIdentifier)
      (fileIdentifierText (fileIdentifier.map fun _ => "")) := by
  cases fileIdentifier with
  | none => exact leaves_of_no_quote (by decide)
  | some text => exact leaves_literal (literals text rfl)

section Blocks

variable {context : Context} {document : Document}

theorem leaves_rootLines (container : Level context.container) {table : Record}
    (wellFormed : table.WellFormed) {fileIdentifier : Option String}
    (literals : ∀ text ∈ fileIdentifier, IsLiteral text) :
    Leaves (String.join ((context.rootLines table fileIdentifier).map (· ++ "\n")))
      (String.join
        ((context.rootLines table (fileIdentifier.map fun _ => "")).map (· ++ "\n"))) := by
  have ended : Leaves "\n" "\n" := leaves_of_no_quote (by decide)
  have name : Level (context.typeName table.name.text) :=
    level_typeName container wellFormed.name.level
  have opening : Leaves ("extension " ++ context.typeName table.name.text ++ " \x7b")
      ("extension " ++ context.typeName table.name.text ++ " \x7b") :=
    ((leaves_of_no_quote (by decide)).append name.leaves).append (leaves_of_no_quote (by decide))
  have lead : Leaves "    public static let fileIdentifier: String? = "
      "    public static let fileIdentifier: String? = " :=
    leaves_of_no_quote (by decide)
  have declared := lead.append (leaves_fileIdentifierText literals)
  have below := leaves_lines (bare_finishLines context.lateBinding)
  simp only [Context.rootLines, List.cons_append, List.nil_append, List.map_cons,
    String.join_cons]
  exact (opening.append ended).append ((declared.append ended).append below)

theorem oneLine_rootLines (container : OneLine context.container) {table : Record}
    (wellFormed : table.WellFormed) (fileIdentifier : Option String) :
    ∀ line ∈ context.rootLines table (fileIdentifier.map fun _ => ""), OneLine line := by
  have name : OneLine (context.typeName table.name.text) := by
    unfold Context.typeName
    split
    · exact wellFormed.name.spelled.oneLine
    · exact (container.append (by decide)).append wellFormed.name.spelled.oneLine
  have opening : OneLine ("extension " ++ context.typeName table.name.text ++ " \x7b") :=
    (OneLine.append (by decide) name).append (by decide)
  have declared : OneLine ("    public static let fileIdentifier: String? = " ++
      fileIdentifierText (fileIdentifier.map fun _ => "")) := by
    rw [fileIdentifierText_blank]
    cases fileIdentifier.isSome <;> decide
  have below : ∀ line ∈ Context.finishLines context.lateBinding ++ ["\x7d"], OneLine line :=
    fun line member => (bare_finishLines context.lateBinding line member).oneLine
  rw [Context.rootLines, List.append_assoc, List.cons_append, List.cons_append, List.nil_append,
    List.forall_mem_cons, List.forall_mem_cons]
  exact ⟨opening, declared, below⟩

/-- The code of a block has the lines of the block, with an empty file identifier. -/
theorem leaves_render (level : Level context.container) (container : OneLine context.container)
    (wellFormed : document.WellFormed) {declaration : Declaration}
    (declared : declaration.WellFormed) :
    Leaves (render context document declaration)
      (String.join ((codeLines context document declaration).map (· ++ "\n"))) := by
  have own := (level_nest_ownLines level declared).leaves
  rw [render_eq_blockText, blockText, codeLines, List.map_append, String.join_append,
    ← context.nest_block_eq_join (ownLines_ne_nil context declaration)
      (oneLine_ownLines container declared)]
  apply own.append
  obtain ⟨none, none'⟩ | ⟨table, rfl, lines, lines'⟩ :=
    extensionLines_cases context document declaration
  · rw [none, none']
    exact leaves_of_no_quote (by decide)
  · rw [lines, lines']
    exact leaves_rootLines level declared wellFormed.fileIdentifier

theorem oneLine_codeLines (container : OneLine context.container) {declaration : Declaration}
    (declared : declaration.WellFormed) :
    ∀ line ∈ codeLines context document declaration, OneLine line := by
  rw [codeLines, List.forall_mem_append]
  refine ⟨Context.oneLine_nestLines container (oneLine_ownLines container declared), ?_⟩
  obtain ⟨-, none⟩ | ⟨table, rfl, -, lines⟩ := extensionLines_cases context document declaration
  · rw [none]
    exact List.forall_mem_nil _
  · rw [lines]
    exact oneLine_rootLines container declared document.fileIdentifier

end Blocks

theorem lines_of_leaves {text : String} {lines : List String}
    (leaves : Leaves text (String.join (lines.map (· ++ "\n"))))
    (oneLine : ∀ line ∈ lines, OneLine line) : Text.lines (outside text) = lines := by
  rw [leaves.outside_eq, lines_join oneLine]

theorem join_lines_flatMap {α : Type} (items : List α) (linesOf : α → List String) :
    String.join ((items.flatMap linesOf).map (· ++ "\n")) =
      String.join (items.map fun item => String.join ((linesOf item).map (· ++ "\n"))) := by
  induction items with
  | nil => rfl
  | cons item items inductionHypothesis =>
    rw [List.flatMap_cons, List.map_append, String.join_append, inductionHypothesis, List.map_cons,
      String.join_cons]

def headerLines (withImport : Bool) : List String :=
  ["import Foundation"] ++ (if withImport then ["import FlatBuffersSwift"] else []) ++ [""]

/-- The lines of the code of a source. -/
theorem lines_outside_source {schema : Schema} (wellFormed : schema.WellFormed)
    (withImport : Bool) :
    Text.lines (outside (source schema withImport)) =
      headerLines withImport ++
        (emittedBy schema).flatMap (fun declaration =>
          codeLines (contextOf schema) schema.document declaration ++ [""]) ++
        (if schema.isRecursive then lateBindingLines ++ [""] else []) := by
  have level : Level (contextOf schema).container := wellFormed.level_container
  have container : OneLine (contextOf schema).container := oneLine_container wellFormed
  have own := (Schema.wellFormed_iff.mp wellFormed).1
  have declared (declaration : Declaration) (emitted : declaration ∈ emittedBy schema) :
      declaration.WellFormed :=
    wellFormed.declared (mem_declarations_of_emittedBy emitted)
  have ended : Leaves "\n" "\n" := leaves_of_no_quote (by decide)
  have top : Leaves (header withImport)
      (String.join ((headerLines withImport).map (· ++ "\n"))) := by
    rw [← block_eq_join (by simp [headerLines])]
    apply leaves_of_no_quote
    cases withImport <;> decide
  have blocks : Leaves
      (String.join ((emittedBy schema).map fun declaration =>
        render (contextOf schema) schema.document declaration ++ "\n"))
      (String.join (((emittedBy schema).flatMap fun declaration =>
        codeLines (contextOf schema) schema.document declaration ++ [""]).map (· ++ "\n"))) := by
    rw [join_lines_flatMap]
    apply leaves_join
    intro declaration emitted
    rw [List.map_append, String.join_append]
    exact (leaves_render level container own (declared declaration emitted)).append ended
  have bottom : Leaves (if schema.isRecursive then lateBindingHelper ++ "\n" else "")
      (String.join
        ((if schema.isRecursive then lateBindingLines ++ [""] else []).map (· ++ "\n"))) := by
    cases schema.isRecursive
    · exact leaves_of_no_quote (by decide)
    · rw [if_pos rfl, if_pos rfl, List.map_append, String.join_append, lateBindingHelper,
        block_eq_join (by simp [lateBindingLines])]
      exact (leaves_lines bare_lateBindingLines).append ended
  apply lines_of_leaves
  · rw [List.map_append, List.map_append, String.join_append, String.join_append]
    exact (top.append blocks).append bottom
  · rw [List.forall_mem_append, List.forall_mem_append, List.forall_mem_flatMap]
    refine ⟨⟨?_, ?_⟩, ?_⟩
    · cases withImport <;> decide
    · intro declaration emitted
      rw [List.forall_mem_append]
      exact ⟨oneLine_codeLines container (declared declaration emitted), by decide⟩
    · split
      · rw [List.forall_mem_append]
        exact ⟨fun line member => (bare_lateBindingLines line member).oneLine, by decide⟩
      · exact List.forall_mem_nil _

end Code

section Leads

/-- A lead that no line of a declaration has, nested or not. -/
structure Foreign (lead : String) : Prop where
  written : lead ≠ ""
  clashes : ∀ opening ∈ "extension " :: leads, Clash lead opening

variable {lead : String} (foreign : Foreign lead)

include foreign

theorem filter_begins_nestLines (context : Context) (declaration : Declaration) :
    (context.nestLines (ownLines context declaration)).filter (begins lead) = [] := by
  obtain ⟨clash, clashes⟩ := List.forall_mem_cons.mp foreign.clashes
  have own := filter_begins_ownLines foreign.written clashes context declaration
  unfold Context.nestLines
  split
  · exact own
  · have opening : begins lead ("extension " ++ context.container ++ " \x7b") = false := by
      rw [String.append_assoc]
      exact begins_append_of_clash clash _
    have closing : begins lead "\x7d" = false :=
      begins_append_of_clash (clashes "\x7d" (by decide)) ""
    have inside : ((ownLines context declaration).map indentLine).filter (begins lead) = [] := by
      rw [List.filter_map, List.map_eq_nil_iff, ← own]
      exact List.filter_congr fun line _ => begins_indentLine lead line
    rw [List.cons_append, List.filter_cons_of_neg (by simp [opening]), List.filter_append, inside,
      List.nil_append, List.filter_cons_of_neg (by simp [closing]), List.filter_nil]

theorem filter_begins_codeLines (context : Context) (document : Document)
    (declaration : Declaration) :
    (codeLines context document declaration).filter (begins lead) =
      (blankExtensionLines context document declaration).filter (begins lead) := by
  rw [codeLines, List.filter_append, filter_begins_nestLines foreign, List.nil_append]

variable {schema : Schema} (wellFormed : schema.WellFormed)

include wellFormed

theorem linesBeginning_nest {declaration : Declaration} (emitted : declaration ∈ emittedBy schema) :
    linesBeginning lead
      ((contextOf schema).nest (block (ownLines (contextOf schema) declaration))) = [] := by
  have declared := wellFormed.declared (mem_declarations_of_emittedBy emitted)
  have level : Level ((contextOf schema).nest (block (ownLines (contextOf schema) declaration))) :=
    level_nest_ownLines wellFormed.level_container declared
  rw [linesBeginning, level.leaves.outside_eq, lines_nest_ownLines wellFormed emitted,
    filter_begins_nestLines foreign]

theorem linesBeginning_source {withImport : Bool} {helping : List String}
    (top : (headerLines withImport).filter (begins lead) = [])
    (bottom : lateBindingLines.filter (begins lead) = helping) :
    linesBeginning lead (source schema withImport) =
      ((emittedBy schema).flatMap
          (blankExtensionLines (contextOf schema) schema.document)).filter (begins lead) ++
        (if schema.isRecursive then helping else []) := by
  have blank : begins lead "" = false := by
    simpa [begins, Bool.eq_false_iff] using foreign.written
  have ended : [""].filter (begins lead) = [] := by simp [blank]
  have extensions (declaration : Declaration) :
      (codeLines (contextOf schema) schema.document declaration ++ [""]).filter (begins lead) =
        (blankExtensionLines (contextOf schema) schema.document declaration).filter
          (begins lead) := by
    rw [List.filter_append, filter_begins_codeLines foreign, ended, List.append_nil]
  have helps : (if schema.isRecursive then lateBindingLines ++ [""] else []).filter (begins lead) =
      if schema.isRecursive then helping else [] := by
    split
    · rw [List.filter_append, ended, List.append_nil, bottom]
    · rfl
  rw [linesBeginning, lines_outside_source wellFormed, List.filter_append, List.filter_append, top,
    List.nil_append, helps, List.filter_flatMap, List.filter_flatMap]
  simp only [extensions]

end Leads

end FlatSchema.Swift
