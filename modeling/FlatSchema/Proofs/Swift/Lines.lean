import FlatSchema.Swift.Source

/-!
Blocks by their lines. A block holds the lines of its declaration, which a namespace nests, and for
the root table also the lines of its root extension, which always stand at file scope. How a line
begins is fixed by what it is for, whatever names it goes on with, so a line of one purpose is never
taken for one of another.
-/

namespace FlatSchema.Swift

/-- The lines of a declaration as they are before its block is nested. -/
def ownLines (context : Context) : Declaration → List String
  | .table declared => context.tableLines declared
  | .struct declared => context.structLines declared
  | .enumeration declared => Context.enumerationLines declared
  | .union declared => context.unionLines declared

/-- The lines of the root extension, of which every declaration but the root table has none. -/
def extensionLines (context : Context) (document : Document) : Declaration → List String
  | .table declared =>
    if document.rootType = some declared.name then
      context.rootLines declared document.fileIdentifier
    else
      []
  | _ => []

theorem block_eq_join {lines : List String} (nonempty : lines ≠ []) :
    block lines = String.join (lines.map (· ++ "\n")) := by
  induction lines with
  | nil => contradiction
  | cons line lines inductionHypothesis =>
    cases lines with
    | nil => simp [block]
    | cons next lines =>
      rw [List.map_cons, String.join_cons, ← inductionHypothesis (by simp), block,
        String.intercalate_cons_cons, block]
      simp only [String.append_assoc]

/-- The text of a block by its lines: those of the declaration nested, the others as they are. -/
def blockText (context : Context) (document : Document) (declaration : Declaration) : String :=
  context.nest (block (ownLines context declaration)) ++
    String.join ((extensionLines context document declaration).map (· ++ "\n"))

theorem render_eq_blockText (context : Context) (document : Document) (declaration : Declaration) :
    render context document declaration = blockText context document declaration := by
  cases declaration with
  | table declared =>
    by_cases root : document.rootType = some declared.name
    · have nonempty : context.rootLines declared document.fileIdentifier ≠ [] := by
        simp [Context.rootLines]
      simp [render, blockText, Context.table, ownLines, extensionLines, root,
        block_eq_join nonempty]
    · simp [render, blockText, Context.table, ownLines, extensionLines, root]
  | struct declared => simp [render, blockText, Context.struct, ownLines, extensionLines]
  | enumeration declared => simp [render, blockText, Context.enumeration, ownLines, extensionLines]
  | union declared => simp [render, blockText, Context.union, ownLines, extensionLines]

/-- The first line of a declaration makes it public. -/
theorem exists_ownLines_eq_cons (context : Context) (declaration : Declaration) :
    ∃ rest, ownLines context declaration =
      ("public " ++ rest) :: (ownLines context declaration).tail := by
  cases declaration with
  | table declared =>
    refine ⟨"final class " ++ (declared.name.text ++ " \x7b"), ?_⟩
    rw [← String.append_assoc, ← String.append_assoc]
    rfl
  | struct declared =>
    refine ⟨"struct " ++ (declared.name.text ++ " \x7b"), ?_⟩
    rw [← String.append_assoc, ← String.append_assoc]
    rfl
  | enumeration declared =>
    refine ⟨"enum " ++ (declared.name.text ++ (": " ++ (scalarType declared.base ++
      ", CaseIterable \x7b"))), ?_⟩
    rw [← String.append_assoc, ← String.append_assoc, ← String.append_assoc,
      ← String.append_assoc]
    rfl
  | union declared =>
    refine ⟨"enum " ++ (declared.name.text ++ " \x7b"), ?_⟩
    rw [← String.append_assoc, ← String.append_assoc]
    rfl

theorem ownLines_ne_nil (context : Context) (declaration : Declaration) :
    ownLines context declaration ≠ [] := by
  obtain ⟨rest, opening⟩ := exists_ownLines_eq_cons context declaration
  rw [opening]
  exact List.cons_ne_nil _ _

theorem exists_block_eq_append (line : String) (lines : List String) :
    ∃ rest, block (line :: lines) = line ++ rest := by
  rw [block_eq_join (List.cons_ne_nil line lines), List.map_cons, String.join_cons,
    String.append_assoc]
  exact ⟨_, rfl⟩

/-- A block begins with the declaration or with the extension that nests it. -/
theorem exists_blockText_eq_append (context : Context) (document : Document)
    (declaration : Declaration) :
    ∃ rest, blockText context document declaration = "public " ++ rest ∨
      blockText context document declaration = "extension " ++ rest := by
  rw [blockText, Context.nest]
  split
  · obtain ⟨first, opening⟩ := exists_ownLines_eq_cons context declaration
    obtain ⟨rest, text⟩ := exists_block_eq_append ("public " ++ first)
      (ownLines context declaration).tail
    rw [opening, text]
    simp only [String.append_assoc]
    exact ⟨_, .inl rfl⟩
  · simp only [String.append_assoc]
    exact ⟨_, .inr rfl⟩

/-- How the lines of declarations begin, empty lines apart. -/
def leads : List String :=
  ["public final class ", "public struct ", "public enum ", "    public var ", "    public init(",
   "        self.", "    case ", "    \x7d", "\x7d"]

/-- A line is empty or begins as lines of declarations do. -/
def Led (line : String) : Prop :=
  line = "" ∨ ∃ lead ∈ leads, ∃ rest, line = lead ++ rest

theorem led_append (lead rest : String) (member : lead ∈ leads) : Led (lead ++ rest) :=
  .inr ⟨lead, member, rest, rfl⟩

theorem led_tableLines (context : Context) (table : Record) :
    ∀ line ∈ context.tableLines table, Led line := by
  intro line member
  simp only [Context.tableLines, List.mem_append, List.mem_map, List.mem_cons, List.not_mem_nil,
    or_false] at member
  rcases member with (rfl | ⟨field, -, rfl⟩) | rfl | rfl
  · rw [String.append_assoc]
    exact led_append "public final class " _ (by decide)
  · have joined : "    " ++ context.property field =
        "    public var " ++ (field.name.text ++ ": " ++ context.propertyText field) := by
      simp only [Context.property, ← String.append_assoc]
      rfl
    rw [joined]
    exact led_append "    public var " _ (by decide)
  · exact led_append "    public init(" ") \x7b\x7d" (by decide)
  · exact led_append "\x7d" "" (by decide)

theorem led_structLines (context : Context) (struct : Record) :
    ∀ line ∈ context.structLines struct, Led line := by
  intro line member
  simp only [Context.structLines, List.mem_append, List.mem_map, List.mem_cons, List.not_mem_nil,
    or_false] at member
  rcases member with (((rfl | ⟨field, -, rfl⟩) | rfl | rfl) | ⟨field, -, rfl⟩) | rfl | rfl
  · rw [String.append_assoc]
    exact led_append "public struct " _ (by decide)
  · rw [String.append_assoc, String.append_assoc]
    exact led_append "    public var " _ (by decide)
  · exact .inl rfl
  · rw [String.append_assoc]
    exact led_append "    public init(" _ (by decide)
  · rw [String.append_assoc, String.append_assoc]
    exact led_append "        self." _ (by decide)
  · exact led_append "    \x7d" "" (by decide)
  · exact led_append "\x7d" "" (by decide)

theorem led_enumerationLines (enumeration : Enumeration) :
    ∀ line ∈ Context.enumerationLines enumeration, Led line := by
  intro line member
  simp only [Context.enumerationLines, List.mem_append, List.mem_map, List.mem_cons,
    List.not_mem_nil, or_false] at member
  rcases member with (rfl | ⟨enumCase, -, rfl⟩) | rfl
  · rw [String.append_assoc, String.append_assoc, String.append_assoc]
    exact led_append "public enum " _ (by decide)
  · rw [Context.caseLine, String.append_assoc]
    exact led_append "    case " _ (by decide)
  · exact led_append "\x7d" "" (by decide)

theorem led_unionLines (context : Context) (union : TaggedUnion) :
    ∀ line ∈ context.unionLines union, Led line := by
  intro line member
  simp only [Context.unionLines, List.mem_append, List.mem_map, List.mem_cons, List.not_mem_nil,
    or_false] at member
  rcases member with (rfl | ⟨name, -, rfl⟩) | rfl
  · rw [String.append_assoc]
    exact led_append "public enum " _ (by decide)
  · have joined : "    case with" ++ name.text ++ "(" ++ context.typeName name.text ++ ")" =
        "    case " ++ ("with" ++ name.text ++ "(" ++ context.typeName name.text ++ ")") := by
      simp only [← String.append_assoc]
      rfl
    rw [joined]
    exact led_append "    case " _ (by decide)
  · exact led_append "\x7d" "" (by decide)

theorem led_ownLines (context : Context) (declaration : Declaration) :
    ∀ line ∈ ownLines context declaration, Led line := by
  cases declaration with
  | table declared => exact led_tableLines context declared
  | struct declared => exact led_structLines context declared
  | enumeration declared => exact led_enumerationLines declared
  | union declared => exact led_unionLines context declared

/-- A line begins with a text after its indentation. -/
def begins (text line : String) : Bool :=
  text.toList.isPrefixOf (line.toList.dropWhile (· = ' '))

theorem begins_append {text lead : String} (inked : lead.toList.dropWhile (· = ' ') ≠ [])
    (rest : String) :
    begins text (lead ++ rest) =
      text.toList.isPrefixOf (lead.toList.dropWhile (· = ' ') ++ rest.toList) := by
  rw [begins, String.toList_append, List.dropWhile_append, List.isEmpty_eq_false_iff.mpr inked]
  rfl

/-- A text and the lead of a line differ before one of them ends. -/
def Clash (text lead : String) : Prop :=
  ¬ text.toList <+: lead.toList.dropWhile (· = ' ') ∧
    ¬ lead.toList.dropWhile (· = ' ') <+: text.toList

instance (text lead : String) : Decidable (Clash text lead) :=
  inferInstanceAs (Decidable (_ ∧ _))

theorem begins_append_of_clash {text lead : String} (clash : Clash text lead) (rest : String) :
    begins text (lead ++ rest) = false := by
  have inked : lead.toList.dropWhile (· = ' ') ≠ [] := by
    intro blank
    exact clash.2 (blank ▸ List.nil_prefix)
  rw [begins_append inked, Bool.eq_false_iff, ne_eq, List.isPrefixOf_iff_prefix]
  intro starts
  rcases List.prefix_or_prefix_of_prefix starts (List.prefix_append _ _) with inside | outside
  · exact clash.1 inside
  · exact clash.2 outside

theorem begins_append_of_starts {text lead : String}
    (starts : text.toList <+: lead.toList.dropWhile (· = ' ')) (written : text ≠ "")
    (rest : String) : begins text (lead ++ rest) = true := by
  have inked : lead.toList.dropWhile (· = ' ') ≠ [] := by
    intro blank
    rw [blank, List.prefix_nil] at starts
    exact written (by simpa using starts)
  rw [begins_append inked, List.isPrefixOf_iff_prefix]
  exact starts.trans (List.prefix_append _ _)

theorem begins_of_led {text line : String} (written : text ≠ "")
    (clashes : ∀ lead ∈ leads, Clash text lead) (led : Led line) : begins text line = false := by
  rcases led with rfl | ⟨lead, member, rest, rfl⟩
  · simpa [begins, Bool.eq_false_iff] using written
  · exact begins_append_of_clash (clashes lead member) rest

/-- No line of a declaration begins with a text that clashes with all leads. -/
theorem filter_begins_ownLines {text : String} (written : text ≠ "")
    (clashes : ∀ lead ∈ leads, Clash text lead) (context : Context) (declaration : Declaration) :
    (ownLines context declaration).filter (begins text) = [] := by
  rw [List.filter_eq_nil_iff]
  intro line member
  rw [begins_of_led written clashes (led_ownLines context declaration line member)]
  exact Bool.false_ne_true

/-- The opening of a root extension is passed over by a text that clashes with it. -/
theorem filter_begins_rootLines {text : String} (clash : Clash text "extension ")
    (context : Context) (table : Record) (fileIdentifier : Option String) :
    (context.rootLines table fileIdentifier).filter (begins text) =
      (("    public static let fileIdentifier: String? = " ++ fileIdentifierText fileIdentifier) ::
        (Context.finishLines context.lateBinding ++ ["\x7d"])).filter (begins text) := by
  have opening : begins text ("extension " ++ context.typeName table.name.text ++ " \x7b") =
      false := by
    rw [String.append_assoc]
    exact begins_append_of_clash clash _
  rw [Context.rootLines, List.append_assoc, List.cons_append,
    List.filter_cons_of_neg (by simp [opening]), List.cons_append, List.nil_append]

end FlatSchema.Swift
