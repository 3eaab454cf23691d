import FlatSchema.Proofs.Swift.Shapes

/-!
Declared names by their lines. A line that declares something begins with a lead that no line of
another purpose in the same block begins with, and goes on with the name. So a reader that knows
nothing of the schema finds in the block of a declaration, nested or not, the name of the
declaration and in order the names of its members.
-/

namespace FlatSchema

open Text Declaration

theorem Text.Run.takeWhile_append {kept : Char → Bool} {run rest : String} (isRun : Run kept run)
    (stops : Stops kept rest) : (run.toList ++ rest.toList).takeWhile kept = run.toList := by
  rw [List.takeWhile_append_of_pos isRun]
  unfold Stops at stops
  cases spelled : rest.toList with
  | nil => simp
  | cons character characters =>
    have stopped : kept character = false := stops character (by rw [spelled]; rfl)
    simp [stopped]

namespace Declaration.Kind

/-- The members that have a line of their own: all but deprecated fields. -/
def shown : (kind : Kind) → kind.Content → List Ident
  | table => fun record => (record.fields.filter (!·.isDeprecated)).map (·.name)
  | struct => fun record => (record.fields.filter (!·.isDeprecated)).map (·.name)
  | enumeration => fun declared => declared.cases.map (·.name)
  | union => TaggedUnion.cases

/-- How the line begins that declares the type. -/
def lead : Kind → String
  | table => "public final class "
  | struct => "public struct "
  | enumeration => "public enum "
  | union => "public enum "

/-- How the lines begin that declare the members. -/
def memberLead : Kind → String
  | table => "public var "
  | struct => "public var "
  | enumeration => "case "
  | union => "case with"

end Declaration.Kind

namespace Swift

/-- The name behind a lead, in a line that begins with the lead after its indentation. -/
def nameAfter? (lead line : String) : Option String :=
  if begins lead line then
    let rest := (line.toList.dropWhile (· = ' ')).drop lead.toList.length
    some (.ofList (rest.takeWhile isNameChar))
  else
    none

/-- The names behind a lead in the lines of a text, in order. -/
def namesAfter (lead text : String) : List String :=
  (Text.lines text).filterMap (nameAfter? lead)

section Lines

variable {lead opening name rest : String}

theorem nameAfter?_of_clash (clash : Clash lead opening) (rest : String) :
    nameAfter? lead (opening ++ rest) = none := by
  rw [nameAfter?, begins_append_of_clash clash]
  rfl

theorem nameAfter?_empty (written : lead ≠ "") : nameAfter? lead "" = none := by
  have unlike : begins lead "" = false := by simpa [begins, Bool.eq_false_iff] using written
  rw [nameAfter?, unlike]
  rfl

/-- A line that opens with the lead tells the name that it goes on with. -/
theorem nameAfter?_opening (opens : opening.toList.dropWhile (· = ' ') = lead.toList)
    (written : lead ≠ "") (isRun : Run isNameChar name) (stops : Stops isNameChar rest) :
    nameAfter? lead (opening ++ (name ++ rest)) = some name := by
  have starts : begins lead (opening ++ (name ++ rest)) = true :=
    begins_append_of_starts (opens ▸ List.prefix_rfl) written _
  have inked : (opening.toList.dropWhile (· = ' ')).isEmpty = false := by
    rw [opens, List.isEmpty_eq_false_iff]
    simpa using written
  rw [nameAfter?, if_pos starts, String.toList_append, List.dropWhile_append, inked, opens]
  simp [isRun.takeWhile_append stops]

theorem dropWhile_indentLine (line : String) :
    (indentLine line).toList.dropWhile (· = ' ') = line.toList.dropWhile (· = ' ') := by
  unfold indentLine
  split
  · rfl
  · rw [String.toList_append]
    rfl

theorem begins_indentLine (lead line : String) :
    begins lead (indentLine line) = begins lead line := by
  rw [begins, begins, dropWhile_indentLine]

theorem nameAfter?_indentLine (lead line : String) :
    nameAfter? lead (indentLine line) = nameAfter? lead line := by
  rw [nameAfter?, nameAfter?, begins_indentLine, dropWhile_indentLine]

/-- The lines of a block once it is nested. -/
def Context.nestLines (context : Context) (lines : List String) : List String :=
  if context.container.isEmpty then lines
  else ("extension " ++ context.container ++ " \x7b") :: lines.map indentLine ++ ["\x7d"]

theorem Context.nest_block_eq_join (context : Context) {lines : List String} (nonempty : lines ≠ [])
    (oneLine : ∀ line ∈ lines, OneLine line) :
    context.nest (block lines) = String.join ((context.nestLines lines).map (· ++ "\n")) := by
  unfold nest nestLines
  split
  · exact block_eq_join nonempty
  · have body : String.join ((lines.map indentLine).map (· ++ "\n")) =
        "\n".intercalate (lines.map indentLine) ++ "\n" :=
      (block_eq_join (by simpa using nonempty)).symm
    rw [block_eq_join nonempty, indent_join oneLine, List.map_append, List.map_cons,
      List.cons_append, String.join_cons, String.join_append, body]
    simp [String.append_assoc]

theorem Context.oneLine_nestLines {context : Context} (container : OneLine context.container)
    {lines : List String} (oneLine : ∀ line ∈ lines, OneLine line) :
    ∀ line ∈ context.nestLines lines, OneLine line := by
  unfold nestLines
  split
  · exact oneLine
  · rw [List.forall_mem_append, List.forall_mem_cons, List.forall_mem_map]
    exact ⟨⟨(OneLine.append (by decide) container).append (by decide),
      fun line member => (oneLine line member).indentLine⟩,
      List.forall_mem_singleton.mpr (by decide)⟩

/-- The lines of a nested block are those of the block between the two that nest it. -/
theorem Context.lines_nest_block {context : Context} (container : OneLine context.container)
    {lines : List String} (nonempty : lines ≠ []) (oneLine : ∀ line ∈ lines, OneLine line) :
    Text.lines (context.nest (block lines)) = context.nestLines lines := by
  rw [context.nest_block_eq_join nonempty oneLine, lines_join (oneLine_nestLines container oneLine)]

theorem lines_nest_ownLines {schema : Schema} (wellFormed : schema.WellFormed)
    {declaration : Declaration} (emitted : declaration ∈ emittedBy schema) :
    Text.lines ((contextOf schema).nest (block (ownLines (contextOf schema) declaration))) =
      (contextOf schema).nestLines (ownLines (contextOf schema) declaration) := by
  have container : OneLine (contextOf schema).container := oneLine_container wellFormed
  have declared := wellFormed.declared (mem_declarations_of_emittedBy emitted)
  exact Context.lines_nest_block container (ownLines_ne_nil _ _)
    (oneLine_ownLines container declared)

/-- Nesting does not change what is read. -/
theorem Context.namesAfter_nest_block {context : Context} (container : OneLine context.container)
    {lines : List String} (nonempty : lines ≠ []) (oneLine : ∀ line ∈ lines, OneLine line)
    (clashExtension : Clash lead "extension ") (clashClosing : Clash lead "\x7d") :
    namesAfter lead (context.nest (block lines)) = lines.filterMap (nameAfter? lead) := by
  rw [namesAfter, lines_nest_block container nonempty oneLine, nestLines]
  split
  · rfl
  · have closing : nameAfter? lead "\x7d" = none := nameAfter?_of_clash clashClosing ""
    have opening : nameAfter? lead ("extension " ++ context.container ++ " \x7b") = none := by
      rw [String.append_assoc]
      exact nameAfter?_of_clash clashExtension _
    rw [List.cons_append, List.filterMap_cons_none opening, List.filterMap_append,
      List.filterMap_cons_none closing, List.filterMap_nil, List.append_nil, List.filterMap_map]
    exact List.filterMap_congr fun line _ => nameAfter?_indentLine lead line

end Lines

section Layout

/-- The lines of a block: that of the type, one for each member, and others. The names of the type
and of the members stand with what follows them. -/
def layout (kind : Kind) (type : String × String) (members : List (String × String))
    (others : List String) : List String :=
  (kind.lead ++ (type.1 ++ type.2)) ::
    members.map (fun member => "    " ++ kind.memberLead ++ (member.1 ++ member.2)) ++ others

/-- A name, and what ends it. -/
structure Delimited (part : String × String) : Prop where
  name : Run isNameChar part.1
  rest : Stops isNameChar part.2

variable (kind : Kind)

/-- A line that declares neither the type nor a member. -/
def Passed (line : String) : Prop :=
  nameAfter? kind.lead line = none ∧ nameAfter? kind.memberLead line = none

theorem passed_of_clash {opening : String} (clash : Clash kind.lead opening)
    (clashMember : Clash kind.memberLead opening) (rest : String) : Passed kind (opening ++ rest) :=
  ⟨nameAfter?_of_clash clash rest, nameAfter?_of_clash clashMember rest⟩

theorem passed_closing : Passed kind "\x7d" := by
  have clash : Clash kind.lead "\x7d" := by cases kind <;> decide
  have clashMember : Clash kind.memberLead "\x7d" := by cases kind <;> decide
  exact passed_of_clash kind clash clashMember ""

theorem passed_empty : Passed kind "" :=
  ⟨nameAfter?_empty (by cases kind <;> decide), nameAfter?_empty (by cases kind <;> decide)⟩

variable {kind} {type : String × String} {members : List (String × String)} {others : List String}

theorem names_layout (delimited : Delimited type)
    (passed : ∀ line ∈ others, Passed kind line) :
    (layout kind type members others).filterMap (nameAfter? kind.lead) = [type.1] := by
  have clash : Clash kind.lead ("    " ++ kind.memberLead) := by cases kind <;> decide
  have opening : nameAfter? kind.lead (kind.lead ++ (type.1 ++ type.2)) = some type.1 :=
    nameAfter?_opening (by cases kind <;> decide) (by cases kind <;> decide) delimited.name
      delimited.rest
  have silent : others.filterMap (nameAfter? kind.lead) = [] :=
    List.filterMap_eq_nil_iff.mpr fun line member => (passed line member).1
  rw [layout, List.cons_append, List.filterMap_cons_some opening, List.filterMap_append, silent,
    List.append_nil, List.filterMap_map, List.filterMap_eq_nil_iff.mpr]
  exact fun member _ => nameAfter?_of_clash clash _

theorem memberNames_layout (delimited : ∀ member ∈ members, Delimited member)
    (passed : ∀ line ∈ others, Passed kind line) :
    (layout kind type members others).filterMap (nameAfter? kind.memberLead) =
      members.map (·.1) := by
  have clash : Clash kind.memberLead kind.lead := by cases kind <;> decide
  have told (member : String × String) (among : member ∈ members) :
      nameAfter? kind.memberLead ("    " ++ kind.memberLead ++ (member.1 ++ member.2)) =
        some member.1 :=
    nameAfter?_opening (by cases kind <;> decide) (by cases kind <;> decide)
      (delimited member among).name (delimited member among).rest
  have silent : others.filterMap (nameAfter? kind.memberLead) = [] :=
    List.filterMap_eq_nil_iff.mpr fun line member => (passed line member).2
  rw [layout, List.cons_append, List.filterMap_cons_none (nameAfter?_of_clash clash _),
    List.filterMap_append, silent, List.append_nil, List.filterMap_map, ← List.filterMap_eq_map]
  exact List.filterMap_congr told

end Layout

section Blocks

variable (context : Context)

/-- What follows the name of the type in its line. -/
def afterName : (kind : Kind) → kind.Content → String
  | .enumeration => fun declared => ": " ++ scalarType declared.base ++ ", CaseIterable \x7b"
  | _ => fun _ => " \x7b"

/-- The members that have a line of their own, with what follows their names there. -/
def memberParts : (kind : Kind) → kind.Content → List (String × String)
  | .table => fun record => (record.fields.filter (!·.isDeprecated)).map fun field =>
      (field.name.text, ": " ++ context.propertyText field)
  | .struct => fun record => (record.fields.filter (!·.isDeprecated)).map fun field =>
      (field.name.text, ": " ++ context.typeText field.type)
  | .enumeration => fun declared => declared.cases.map fun enumCase =>
      (enumCase.name.text, assigned enumCase.value)
  | .union => fun declared => declared.cases.map fun name =>
      (name.text, "(" ++ context.typeName name.text ++ ")")

/-- The lines that declare neither the type nor a member of it. -/
def otherLines : (kind : Kind) → kind.Content → List String
  | .table => fun _ => ["    public init() \x7b\x7d", "\x7d"]
  | .struct => fun record =>
      let members := context.members record
      ["", "    public init(" ++ parameterList members ++ ") \x7b"] ++
        members.map (fun (name, _) => "        self." ++ name ++ " = " ++ name) ++
        ["    \x7d", "\x7d"]
  | .enumeration => fun _ => ["\x7d"]
  | .union => fun _ => ["\x7d"]

theorem ownLines_eq_layout (kind : Kind) (content : kind.Content) :
    ownLines context (kind.declaration content) =
      layout kind ((kind.name content).text, afterName kind content)
        (memberParts context kind content) (otherLines context kind content) := by
  have property (field : Field) : "    " ++ context.property field =
      "    public var " ++ (field.name.text ++ (": " ++ context.propertyText field)) := by
    simp only [Context.property, ← String.append_assoc]
    rfl
  cases kind <;>
    simp [layout, ownLines, Context.tableLines, property, Context.structLines, Context.members,
      parameterList, Context.enumerationLines, caseLine_eq_assigned, Context.unionLines,
      memberParts, otherLines, afterName, Kind.declaration, Kind.name, Kind.lead, Kind.memberLead,
      String.append_assoc]

variable {context}

theorem delimited_afterName {kind : Kind} {content : kind.Content}
    (wellFormed : (kind.declaration content).WellFormed) :
    Delimited ((kind.name content).text, afterName kind content) := by
  have brace : Stops isNameChar " \x7b" := by decide
  cases kind with
  | table => exact ⟨(Record.WellFormed.name wellFormed).spelled.2, brace⟩
  | struct => exact ⟨(Record.WellFormed.name wellFormed).spelled.2, brace⟩
  | enumeration =>
    refine ⟨(Enumeration.WellFormed.name wellFormed).spelled.2, ?_⟩
    exact (Stops.append (by decide) (by decide) _).append (by simp) _
  | union => exact ⟨(TaggedUnion.WellFormed.name wellFormed).spelled.2, brace⟩

theorem delimited_memberParts {kind : Kind} {content : kind.Content}
    (wellFormed : (kind.declaration content).WellFormed) :
    ∀ part ∈ memberParts context kind content, Delimited part := by
  have colon (type : String) : Stops isNameChar (": " ++ type) :=
    Stops.append (by decide) (by decide) type
  have field {record : Record} (sound : record.WellFormed) {field : Field}
      (member : field ∈ record.fields.filter (!·.isDeprecated)) : Run isNameChar field.name.text :=
    (sound.fields field (List.mem_of_mem_filter member)).name.spelled.2
  cases kind with
  | table => exact List.forall_mem_map.mpr fun _ member => ⟨field wellFormed member, colon _⟩
  | struct => exact List.forall_mem_map.mpr fun _ member => ⟨field wellFormed member, colon _⟩
  | enumeration =>
    refine List.forall_mem_map.mpr fun enumCase member => ⟨?_, stops_assigned (by decide) _⟩
    exact (Enumeration.WellFormed.cases wellFormed enumCase member).name.spelled.2
  | union =>
    refine List.forall_mem_map.mpr fun name member => ⟨?_, ?_⟩
    · exact (TaggedUnion.WellFormed.cases wellFormed name member).spelled.2
    · exact (Stops.append (by decide) (by decide) _).append (by simp) _

theorem passed_otherLines (kind : Kind) (content : kind.Content) :
    ∀ line ∈ otherLines context kind content, Passed kind line := by
  have closing : ∀ line ∈ ["\x7d"], Passed kind line :=
    List.forall_mem_singleton.mpr (passed_closing kind)
  cases kind with
  | table =>
    have initializer : Passed .table ("    public init(" ++ ") \x7b\x7d") :=
      passed_of_clash .table (by decide) (by decide) _
    exact List.forall_mem_cons.mpr ⟨initializer, closing⟩
  | struct =>
    have initializer (rest : String) : Passed .struct ("    public init(" ++ rest) :=
      passed_of_clash .struct (by decide) (by decide) rest
    have assignment (rest : String) : Passed .struct ("        self." ++ rest) :=
      passed_of_clash .struct (by decide) (by decide) rest
    have innerClosing : Passed .struct ("    \x7d" ++ "") :=
      passed_of_clash .struct (by decide) (by decide) ""
    simp only [otherLines, String.append_assoc, List.forall_mem_append, List.forall_mem_cons,
      List.forall_mem_map]
    exact ⟨⟨⟨passed_empty .struct, initializer _, List.forall_mem_nil _⟩, fun _ _ => assignment _⟩,
      innerClosing, passed_closing .struct, List.forall_mem_nil _⟩
  | enumeration => exact closing
  | union => exact closing

/-- The own block of a declaration tells its name and those of its members. -/
theorem names_nest_ownLines (container : OneLine context.container) {kind : Kind}
    {content : kind.Content} (wellFormed : (kind.declaration content).WellFormed) :
    let text := context.nest (block (ownLines context (kind.declaration content)))
    namesAfter kind.lead text = [(kind.name content).text] ∧
      namesAfter kind.memberLead text = (kind.shown content).map (·.text) := by
  have oneLine := oneLine_ownLines container wellFormed
  have nonempty := ownLines_ne_nil context (kind.declaration content)
  have passed : ∀ line ∈ otherLines context kind content, Passed kind line :=
    passed_otherLines kind content
  intro text
  constructor
  · rw [Context.namesAfter_nest_block container nonempty oneLine (by cases kind <;> decide)
      (by cases kind <;> decide), ownLines_eq_layout]
    exact names_layout (delimited_afterName wellFormed) passed
  · rw [Context.namesAfter_nest_block container nonempty oneLine (by cases kind <;> decide)
      (by cases kind <;> decide), ownLines_eq_layout,
      memberNames_layout (delimited_memberParts wellFormed) passed]
    cases kind <;> simp [memberParts, Kind.shown]

end Blocks

end Swift

end FlatSchema
