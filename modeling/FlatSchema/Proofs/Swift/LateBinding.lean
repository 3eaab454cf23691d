import FlatSchema.Proofs.Scope.Cycle
import FlatSchema.Proofs.Swift.CodeLines

/-!
Late binding in a source. The root table is the first to be emitted and the only one with a root
extension, which calls the helper exactly where a cycle is reached, and there the helper is the last
block. Without a root table there is neither. What a text calls and declares is told by how the
lines of its code begin.
-/

namespace FlatSchema.Swift

open Scope Text

/-- The lines that call the helper for late binding. -/
def calls (text : String) : List String :=
  linesBeginning "try performLateBindings(" text

/-- The lines that define the helper for late binding. -/
def definitions (text : String) : List String :=
  linesBeginning "fileprivate func performLateBindings(" text

/-- The lines that declare a file identifier, which only root extensions do. -/
def fileIdentifiers (text : String) : List String :=
  linesBeginning "public static let fileIdentifier" text

/-- The text of the root extension of a type. -/
def extensionText (type : String) (fileIdentifier : Option String) (bindsLate : Bool) : String :=
  "extension " ++ type ++ " \x7b" ++ "\n" ++
  "    public static let fileIdentifier: String? = " ++
    (fileIdentifier.elim "nil" fun text => "\"" ++ text ++ "\"") ++ "\n" ++
  "    public static func finish(_ builder: FlatBuffersBuilder, offset: Offset) throws " ++
    "-> Data \x7b" ++ "\n" ++
  (if bindsLate then "        try performLateBindings(builder)" ++ "\n" else "") ++
  "        return try builder.finish(offset: offset, fileIdentifier: fileIdentifier)" ++ "\n" ++
  "    \x7d" ++ "\n" ++
  "\x7d" ++ "\n"

section Blocks

variable {context : Context} {document : Document}

theorem block_rootLines (context : Context) (table : Record) (fileIdentifier : Option String) :
    block (context.rootLines table fileIdentifier) =
      extensionText (context.typeName table.name.text) fileIdentifier context.lateBinding := by
  have nonempty : context.rootLines table fileIdentifier ≠ [] := by simp [Context.rootLines]
  have identifier : fileIdentifierText fileIdentifier =
      fileIdentifier.elim "nil" fun text => "\"" ++ text ++ "\"" := by
    cases fileIdentifier <;> rfl
  rewrite [block_eq_join nonempty]
  unfold Context.rootLines Context.finishLines extensionText
  rewrite [identifier]
  cases context.lateBinding <;>
    simp only [Bool.false_eq_true, if_false, if_true, List.cons_append, List.nil_append,
      List.map_cons, List.map_nil, String.join_cons, String.join_nil, String.append_assoc,
      String.append_empty]

/-- The block of the root table has the root extension behind what it declares. -/
theorem render_of_root {table : Record} (root : document.rootType = some table.name) :
    render context document (.table table) =
      context.nest (block (context.tableLines table)) ++
        extensionText (context.typeName table.name.text) document.fileIdentifier
          context.lateBinding := by
  rw [render, Context.table, decide_eq_true root, if_pos rfl, block_rootLines]

/-- Only a table that has the name of the root type has a root extension. -/
theorem extensionLines_eq_nil {declaration : Declaration}
    (other : ∀ table, declaration = .table table → document.rootType ≠ some table.name) :
    extensionLines context document declaration = [] := by
  cases declaration with
  | table declared => exact if_neg (other declared rfl)
  | struct => rfl
  | enumeration => rfl
  | union => rfl

theorem render_of_no_extension {declaration : Declaration}
    (noExtension : extensionLines context document declaration = []) :
    render context document declaration =
      context.nest (block (ownLines context declaration)) := by
  rw [render_eq_blockText, blockText, noExtension]
  simp

/-- The block of a declaration does not begin as the helper does. -/
theorem render_ne_lateBindingHelper (declaration : Declaration) :
    render context document declaration ≠ lateBindingHelper := by
  have helper : begins "fileprivate" lateBindingHelper = true := by
    obtain ⟨rest, text⟩ := exists_block_eq_append
      "fileprivate func performLateBindings(_ builder: FlatBuffersBuilder) throws \x7b" _
    rw [lateBindingHelper, lateBindingLines, text]
    exact begins_append_of_starts (by decide +kernel) (by decide) rest
  have other : begins "fileprivate" (render context document declaration) = false := by
    rw [render_eq_blockText]
    obtain ⟨rest, text | text⟩ := exists_blockText_eq_append context document declaration
    · rw [text]
      exact begins_append_of_clash (by decide +kernel) rest
    · rw [text]
      exact begins_append_of_clash (by decide +kernel) rest
  intro same
  rw [same, helper] at other
  cases other

end Blocks

section Emitted

variable {schema : Schema} {name : Ident} {table : Record}

theorem exists_emittedBy_eq_cons (rooted : schema.document.rootType = some name)
    (found : schema.scope.tables[name.text]? = some table) :
    ∃ others, emittedBy schema = .table table :: others := by
  rw [emittedBy, roots_of_found rooted found]
  exact exists_emission_eq_cons (mem_declarations_of_found found)

theorem name_eq_of_found (found : schema.scope.tables[name.text]? = some table) :
    table.name = name :=
  congrArg Ident.mk (schema.scope_keyed.tables name.text table found)

theorem isRecursive_without_root
    (noRoot : ∀ name, schema.document.rootType = some name → name.text ∉ schema.scope.tables) :
    schema.isRecursive = false := by
  apply reachesCycle_of_no_table
  intro text declared
  obtain ⟨name, rooted, rfl⟩ := Option.map_eq_some_iff.mp declared
  exact noRoot name rooted

/-- No table that is emitted after the root table has its name. -/
theorem rootType_ne_after_root {others : List Declaration}
    (rooted : schema.document.rootType = some name)
    (found : schema.scope.tables[name.text]? = some table)
    (emitted : emittedBy schema = .table table :: others) :
    ∀ other ∈ others, ∀ table, other = .table table →
      schema.document.rootType ≠ some table.name := by
  rintro other member declared rfl root
  obtain ⟨roots, -, sound⟩ := emittedBy_sound schema
  have distinct := sound.distinct
  rw [emitted, List.map_cons, List.nodup_cons] at distinct
  -- Such a table would have the name of the root, and a name is emitted once.
  have same : declared.name = table.name :=
    (Option.some.inj (root.symm.trans rooted)).trans (name_eq_of_found found).symm
  have again : declared.name.text ∈ others.map (·.name) := List.mem_map_of_mem member
  rw [same] at again
  exact distinct.1 again

theorem rootType_ne_without_root
    (noRoot : ∀ name, schema.document.rootType = some name → name.text ∉ schema.scope.tables) :
    ∀ declaration ∈ emittedBy schema, ∀ table, declaration = .table table →
      schema.document.rootType ≠ some table.name := by
  rintro declaration member declared rfl root
  have found := getElem?_of_mem_declarations schema.scope_keyed
    (mem_declarations_of_emittedBy member)
  have known : declared.name.text ∈ schema.scope.tables := by
    simp [Std.TreeMap.mem_iff_isSome_getElem?, found]
  exact noRoot declared.name root known

/-- The extensions of a source are that of its root table. -/
theorem flatMap_blankExtensionLines_of_found (rooted : schema.document.rootType = some name)
    (found : schema.scope.tables[name.text]? = some table) :
    (emittedBy schema).flatMap (blankExtensionLines (contextOf schema) schema.document) =
      (contextOf schema).rootLines table (schema.document.fileIdentifier.map fun _ => "") := by
  obtain ⟨others, emitted⟩ := exists_emittedBy_eq_cons rooted found
  have root : schema.document.rootType = some table.name := by
    rw [rooted, name_eq_of_found found]
  have first : blankExtensionLines (contextOf schema) schema.document (.table table) =
      (contextOf schema).rootLines table (schema.document.fileIdentifier.map fun _ => "") :=
    if_pos root
  have further : others.flatMap (blankExtensionLines (contextOf schema) schema.document) = [] := by
    rw [List.flatMap_eq_nil_iff]
    intro other member
    exact extensionLines_eq_nil (rootType_ne_after_root rooted found emitted other member)
  rw [emitted, List.flatMap_cons, first, further, List.append_nil]

theorem flatMap_blankExtensionLines_without_root
    (noRoot : ∀ name, schema.document.rootType = some name → name.text ∉ schema.scope.tables) :
    (emittedBy schema).flatMap (blankExtensionLines (contextOf schema) schema.document) = [] := by
  rw [List.flatMap_eq_nil_iff]
  intro declaration emitted
  exact extensionLines_eq_nil (rootType_ne_without_root noRoot declaration emitted)

end Emitted

section Read

theorem foreign_call : Foreign "try performLateBindings(" :=
  ⟨by decide, by decide +kernel⟩

theorem foreign_definition : Foreign "fileprivate func performLateBindings(" :=
  ⟨by decide, by decide +kernel⟩

theorem foreign_fileIdentifier : Foreign "public static let fileIdentifier" :=
  ⟨by decide, by decide +kernel⟩

/-- The helper defines itself in its first line. -/
theorem filter_lateBindingLines :
    lateBindingLines.filter (begins "try performLateBindings(") = [] ∧
      lateBindingLines.filter (begins "fileprivate func performLateBindings(") =
        ["fileprivate func performLateBindings(_ builder: FlatBuffersBuilder) throws \x7b"] ∧
      lateBindingLines.filter (begins "public static let fileIdentifier") = [] := by
  refine ⟨?_, ?_, ?_⟩
  all_goals
    rw [filter_begins_eq_map, lateBindingLines]
    simp only [List.map_cons, List.map_nil]
    repeat rw [String.toList_ofList]
    rfl

/-- A root extension calls the helper in one line or not at all and declares one file identifier. -/
theorem filter_rootLines (context : Context) (table : Record) (fileIdentifier : Option String)
    {lines : List String}
    (blank : lines = context.rootLines table (fileIdentifier.map fun _ => "")) :
    lines.filter (begins "try performLateBindings(") =
        (if context.lateBinding then ["        try performLateBindings(builder)"] else []) ∧
      lines.filter (begins "fileprivate func performLateBindings(") = [] ∧
      lines.filter (begins "public static let fileIdentifier") =
        ["    public static let fileIdentifier: String? = " ++
          if fileIdentifier.isSome then "\"\"" else "nil"] := by
  subst blank
  refine ⟨?_, ?_, ?_⟩
  all_goals
    rw [filter_begins_rootLines (by decide +kernel), fileIdentifierText_blank,
      filter_begins_eq_map]
    cases fileIdentifier.isSome <;> cases context.lateBinding
    all_goals
      simp only [Context.finishLines, List.map_append, List.map_cons, List.map_nil,
        String.toList_append, if_true, if_false, Bool.false_eq_true]
      repeat rw [String.toList_ofList]
      rfl

/-- A text that has no part in late binding. -/
structure Silent (text : String) : Prop where
  noCall : calls text = []
  noDefinition : definitions text = []
  noFileIdentifier : fileIdentifiers text = []

/-- What the code of a source says. What the block of a declaration nests has no part in late
binding. The source calls the helper in one line and defines it in one line where a cycle is
reached, and declares one file identifier where there is a root table. -/
structure Told (schema : Schema) (withImport : Bool) : Prop where
  own : ∀ declaration ∈ emittedBy schema,
    Silent ((contextOf schema).nest (block (ownLines (contextOf schema) declaration)))
  called : calls (source schema withImport) =
    if schema.isRecursive then ["        try performLateBindings(builder)"] else []
  defined : definitions (source schema withImport) =
    if schema.isRecursive then
      ["fileprivate func performLateBindings(_ builder: FlatBuffersBuilder) throws \x7b"]
    else []
  rootTable : ∀ name table, schema.document.rootType = some name →
    schema.scope.tables[name.text]? = some table →
    fileIdentifiers (source schema withImport) =
      ["    public static let fileIdentifier: String? = " ++
        if schema.document.fileIdentifier.isSome then "\"\"" else "nil"]
  noRootTable : (∀ name, schema.document.rootType = some name → name.text ∉ schema.scope.tables) →
    fileIdentifiers (source schema withImport) = []

section Sources

variable {schema : Schema} (wellFormed : schema.WellFormed) (withImport : Bool)

include wellFormed

theorem calls_source :
    calls (source schema withImport) =
      if schema.isRecursive then ["        try performLateBindings(builder)"] else [] := by
  have top : (headerLines withImport).filter (begins "try performLateBindings(") = [] := by
    cases withImport <;> decide +kernel
  refine (linesBeginning_source foreign_call wellFormed top
    filter_lateBindingLines.1).trans ?_
  rw [ite_self, List.append_nil]
  obtain ⟨roots, start, -⟩ := emittedBy_sound schema
  cases start with
  | rootTable rooted found =>
    exact (filter_rootLines _ _ _ (flatMap_blankExtensionLines_of_found rooted found)).1
  | everywhere noRoot =>
    rw [flatMap_blankExtensionLines_without_root noRoot, isRecursive_without_root noRoot]
    rfl

theorem definitions_source :
    definitions (source schema withImport) =
      if schema.isRecursive then
        ["fileprivate func performLateBindings(_ builder: FlatBuffersBuilder) throws \x7b"]
      else [] := by
  have top : (headerLines withImport).filter (begins "fileprivate func performLateBindings(") =
      [] := by
    cases withImport <;> decide +kernel
  refine (linesBeginning_source foreign_definition wellFormed top
    filter_lateBindingLines.2.1).trans ?_
  obtain ⟨roots, start, -⟩ := emittedBy_sound schema
  cases start with
  | rootTable rooted found =>
    rw [(filter_rootLines _ _ _ (flatMap_blankExtensionLines_of_found rooted found)).2.1,
      List.nil_append]
  | everywhere noRoot =>
    rw [flatMap_blankExtensionLines_without_root noRoot, List.filter_nil, List.nil_append]

theorem fileIdentifiers_source :
    fileIdentifiers (source schema withImport) =
      ((emittedBy schema).flatMap
        (blankExtensionLines (contextOf schema) schema.document)).filter
          (begins "public static let fileIdentifier") := by
  have top : (headerLines withImport).filter (begins "public static let fileIdentifier") = [] := by
    cases withImport <;> decide +kernel
  refine (linesBeginning_source foreign_fileIdentifier wellFormed top
    filter_lateBindingLines.2.2).trans ?_
  rw [ite_self, List.append_nil]

theorem told_of_wellFormed : Told schema withImport where
  own := by
    intro declaration emitted
    exact ⟨linesBeginning_nest foreign_call wellFormed emitted,
      linesBeginning_nest foreign_definition wellFormed emitted,
      linesBeginning_nest foreign_fileIdentifier wellFormed emitted⟩
  called := calls_source wellFormed withImport
  defined := definitions_source wellFormed withImport
  rootTable := by
    intro name table rooted found
    rw [fileIdentifiers_source wellFormed]
    exact (filter_rootLines _ _ _ (flatMap_blankExtensionLines_of_found rooted found)).2.2
  noRootTable := by
    intro noRoot
    rw [fileIdentifiers_source wellFormed, flatMap_blankExtensionLines_without_root noRoot,
      List.filter_nil]

end Sources

end Read

/-- Helper, root extension and cycle belong together. The helper is the last block, once, exactly if
a cycle is reached. Where the root type is a table, its block comes first, and it alone has a root
extension, which calls the helper exactly if a cycle is reached. Where it is not, no cycle is
reached and no block has a root extension. So the source of a schema that was read calls the helper
exactly if it defines it. -/
theorem lateBinding_coherent (schema : Schema) (withImport : Bool) :
    (∃ blocks,
      blocks = (emittedBy schema).map (render (contextOf schema) schema.document) ++
        (if schema.isRecursive then [lateBindingHelper] else []) ∧
      source schema withImport = header withImport ++ String.join (blocks.map (· ++ "\n")) ∧
      blocks.count lateBindingHelper = if schema.isRecursive then 1 else 0) ∧
    (Text.lines lateBindingHelper).head? =
      some "fileprivate func performLateBindings(_ builder: FlatBuffersBuilder) throws \x7b" ∧
    (∀ name table, schema.document.rootType = some name →
      schema.scope.tables[name.text]? = some table →
      ∃ others, emittedBy schema = .table table :: others ∧
        render (contextOf schema) schema.document (.table table) =
          (contextOf schema).nest (block ((contextOf schema).tableLines table)) ++
            extensionText ((contextOf schema).typeName table.name.text)
              schema.document.fileIdentifier schema.isRecursive ∧
        ∀ other ∈ others, render (contextOf schema) schema.document other =
          (contextOf schema).nest (block (ownLines (contextOf schema) other))) ∧
    ((∀ name, schema.document.rootType = some name → name.text ∉ schema.scope.tables) →
      schema.isRecursive = false ∧
        ∀ declaration ∈ emittedBy schema, render (contextOf schema) schema.document declaration =
          (contextOf schema).nest (block (ownLines (contextOf schema) declaration))) ∧
    (schema.Parsed →
      Told schema withImport ∧
        (calls (source schema withImport) ≠ [] ↔ definitions (source schema withImport) ≠ [])) := by
  have absent : lateBindingHelper ∉
      (emittedBy schema).map (render (contextOf schema) schema.document) := by
    intro member
    obtain ⟨declaration, -, same⟩ := List.mem_map.mp member
    exact render_ne_lateBindingHelper declaration same
  refine ⟨⟨_, rfl, ?_, ?_⟩, ?_, ?_, ?_, ?_⟩
  · exact source_eq_blocks schema withImport
  · rw [List.count_append, List.count_eq_zero.mpr absent]
    cases schema.isRecursive <;> simp
  · have oneLine : ∀ line ∈ lateBindingLines, OneLine line :=
      fun line member => (bare_lateBindingLines line member).oneLine
    rw [lateBindingHelper, block_eq_join (by simp [lateBindingLines]), lines_join oneLine]
    rfl
  · intro name table rooted found
    obtain ⟨others, emitted⟩ := exists_emittedBy_eq_cons rooted found
    refine ⟨others, emitted, ?_, ?_⟩
    · exact render_of_root (rooted.trans (congrArg some (name_eq_of_found found).symm))
    · intro other member
      exact render_of_no_extension
        (extensionLines_eq_nil (rootType_ne_after_root rooted found emitted other member))
  · intro noRoot
    refine ⟨isRecursive_without_root noRoot, ?_⟩
    intro declaration emitted
    exact render_of_no_extension
      (extensionLines_eq_nil (rootType_ne_without_root noRoot declaration emitted))
  · intro parsed
    have told := told_of_wellFormed parsed.wellFormed withImport
    refine ⟨told, ?_⟩
    rw [told.called, told.defined]
    cases schema.isRecursive <;> simp

section Misleading

/-- A file identifier with a line in it that looks like a call. -/
def misleadingText : String :=
  "namespace n; table T \x7b next: T; \x7d root_type T; " ++
    "file_identifier \"\ntry performLateBindings(builder)\";"

def misleading : Schema :=
  { document :=
      { nameSpace := some ⟨[⟨"n"⟩]⟩
        rootType := some ⟨"T"⟩
        fileIdentifier := some "\ntry performLateBindings(builder)"
        tables := [⟨⟨"T"⟩, [⟨⟨"next"⟩, ⟨.reference ⟨"T"⟩, false⟩, none, {}⟩], {}⟩] }
    children := [] }

theorem lateBinding_coherent_misleading :
    Schema.compile misleadingText = .ok misleading ∧
      calls (source misleading true) = ["        try performLateBindings(builder)"] ∧
      definitions (source misleading true) =
        ["fileprivate func performLateBindings(_ builder: FlatBuffersBuilder) throws \x7b"] := by
  have accepted : Schema.compile misleadingText = .ok misleading := by rfl
  have searched : misleading.scope.explore? [] [] ["T"] = none := by cbv
  have recursive : misleading.isRecursive = true := by
    change (misleading.scope.explore? [] [] ["T"]).isNone = true
    rw [searched]
    rfl
  obtain ⟨-, -, -, -, told⟩ := lateBinding_coherent misleading true
  obtain ⟨told, -⟩ := told (.of_compile accepted)
  have call := told.called
  have definition := told.defined
  rw [recursive] at call definition
  exact ⟨accepted, call, definition⟩

end Misleading

end FlatSchema.Swift
