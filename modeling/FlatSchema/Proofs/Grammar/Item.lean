import FlatSchema.Proofs.Grammar.Declaration
import Mathlib.Data.List.Nodup

/-!
Items and whole files as they are read. Each kind of item has a keyword of its own, so no text is
read by two rules for items, and the order of these rules does not matter. A text is a file of the
language exactly if nothing but trivia is left behind its items.
-/

namespace FlatSchema

open Grammar Rule Token

theorem directive_reads {word : String} {first : UInt8} (solid : Solid word first)
    (noSlash : first ≠ Byte.slash) : (directive word).Reads (Directive word) Anything := by
  have semicolon : Solid ";" 59 := by decide
  constructor
  · intro bytes rest text matched
    simp only [directive, bind_eq_some_iff, pure_eq_some_iff] at matched
    obtain ⟨_, _, skipped, _, _, wordMatched, text, _, textMatched, _, _, stopMatched, rfl, rfl⟩ :=
      matched
    obtain ⟨_, stop, rfl⟩ := (symbol_reads semicolon).sound stopMatched
    obtain ⟨_, literal, rfl⟩ := stringLiteral_reads.sound textMatched
    obtain ⟨⟨_, opening, rfl⟩, -⟩ := keyword_sound solid wordMatched
    obtain ⟨_, rfl, -, closed⟩ := skipComments_sound skipped
    have before := closed (by simp [symbol_ne_nil solid opening])
    exact ⟨_, .intro before opening literal stop, by simp only [List.append_assoc]⟩
  · rintro _ rest _ ⟨before, opening, literal, stop⟩ -
    simp only [List.append_assoc]
    rw [directive, skipComments_bind_append ((keyword_ignoresBlanks _).bind _) before
        (lead?_symbol_ne solid noSlash opening _),
      bind_of_match (keyword_complete solid opening (Before.clear_name (.literal literal rfl _))),
      bind_of_match (stringLiteral_reads.complete literal trivial),
      bind_of_match (symbol_complete semicolon stop _), pure_apply]

theorem rootTypeRule_reads : rootTypeRule.Reads RootType Anything := by
  have leading : Solid "root_type" 114 := by decide
  have semicolon : Solid ";" 59 := by decide
  constructor
  · intro bytes rest name matched
    simp only [rootTypeRule, bind_eq_some_iff, pure_eq_some_iff] at matched
    obtain ⟨_, _, skipped, _, _, wordMatched, name, _, nameMatched, _, _, stopMatched, rfl, rfl⟩ :=
      matched
    obtain ⟨_, stop, rfl⟩ := (symbol_reads semicolon).sound stopMatched
    obtain ⟨_, title, rfl⟩ := Ident.rule_reads.sound nameMatched
    obtain ⟨⟨_, opening, rfl⟩, clear⟩ := keyword_sound leading wordMatched
    obtain ⟨_, rfl, -, closed⟩ := skipComments_sound skipped
    have before := closed (by simp [symbol_ne_nil leading opening])
    exact ⟨_, .intro before opening (title.startsBlank clear) title stop,
      by simp only [List.append_assoc]⟩
  · rintro _ rest _ ⟨before, opening, starts, title, stop⟩ -
    simp only [List.append_assoc]
    rw [rootTypeRule, skipComments_bind_append ((keyword_ignoresBlanks _).bind _) before
        (lead?_symbol_ne leading (by decide) opening _),
      bind_of_match (keyword_complete leading opening (starts.clear _)),
      bind_of_match (Ident.rule_reads.complete title (Before.clear_name
        (.symbol semicolon stop rfl _))),
      bind_of_match (symbol_complete semicolon stop _), pure_apply]

namespace Grammar

variable {α : Type} {phrase : Phrase α} {separator : List UInt8 → Prop}

theorem Separated.head {word : List UInt8} {values : List α}
    (separated : Separated phrase separator word values) :
    values ≠ [] ∧ ∃ first rest value, phrase first value ∧ first ++ rest = word := by
  cases separated with
  | last written => exact ⟨List.cons_ne_nil _ _, _, [], _, written, List.append_nil _⟩
  | cons written _ _ => exact ⟨List.cons_ne_nil _ _, _, _, _, written, rfl⟩

/-- A list is empty and has no word, or it starts with its first word. -/
theorem Listed.head {word : List UInt8} {values : List α}
    (listed : Listed phrase separator word values) :
    (values = [] ∧ word = []) ∨
      (values ≠ [] ∧ ∃ first rest value, phrase first value ∧ first ++ rest = word) := by
  cases listed with
  | empty => exact .inl ⟨rfl, rfl⟩
  | plain separated => exact .inr separated.head
  | @trailing _ mark _ separated _ =>
    obtain ⟨nonempty, first, rest, value, written, rfl⟩ := separated.head
    exact .inr ⟨nonempty, first, rest ++ mark, value, written, by simp⟩

end Grammar

namespace Namespace

theorem rule_reads : rule.Reads Written Anything := by
  have leading : Solid "namespace" 110 := by decide
  have dot : Solid "." 46 := by decide
  have semicolon : Solid ";" 59 := by decide
  have partsReads := listOf_reads (Ident.rule_reads.strengthen Before.clear_name)
    (symbol_reads dot) (fun written => .symbol dot written rfl _)
    Ident.rule_namedFirst.nonempty
  constructor
  · intro bytes rest nameSpace matched
    simp only [rule, bind_eq_some_iff, pure_eq_some_iff] at matched
    obtain ⟨_, _, skipped, _, _, wordMatched, parts, _, partsMatched, _, _, stopMatched,
      rfl, rfl⟩ := matched
    obtain ⟨_, stop, rfl⟩ := (symbol_reads semicolon).sound stopMatched
    obtain ⟨_, names, rfl⟩ := partsReads.sound partsMatched
    obtain ⟨⟨_, opening, rfl⟩, clear⟩ := keyword_sound leading wordMatched
    obtain ⟨_, rfl, -, closed⟩ := skipComments_sound skipped
    have before := closed (by simp [symbol_ne_nil leading opening])
    refine ⟨_, .intro before opening ?_ names stop, by simp only [List.append_assoc]⟩
    intro nonempty
    rcases names.head with ⟨empty, -⟩ | ⟨-, first, others, name, title, rfl⟩
    · exact absurd empty nonempty
    · rw [List.append_assoc] at clear
      obtain ⟨byte, rest, rfl, blank⟩ := title.startsBlank clear
      exact ⟨byte, rest ++ others, rfl, blank⟩
  · rintro _ rest _ @⟨_, _, listed, ending, _, before, opening, starts, names, stop⟩ -
    simp only [List.append_assoc]
    have boundary : Clear Byte.isNameByte (listed ++ (ending ++ rest)) := by
      rcases names.head with ⟨-, rfl⟩ | ⟨nonempty, -⟩
      · exact Before.clear_name (.symbol semicolon stop rfl rest)
      · exact (starts nonempty).clear _
    have noDot := lead?_symbol_ne semicolon (by decide : (59 : UInt8) ≠ 46) stop rest
    rw [rule, skipComments_bind_append ((keyword_ignoresBlanks _).bind _) before
        (lead?_symbol_ne leading (by decide) opening _),
      bind_of_match (keyword_complete leading opening boundary),
      bind_of_match (partsReads.complete names ⟨.symbol semicolon stop rfl _,
        Ident.rule_eq_none (.symbol semicolon stop rfl _), symbol_eq_none dot noDot⟩),
      bind_of_match (symbol_complete semicolon stop _), pure_apply]

end Namespace

namespace Rule

variable {α β : Type}

/-- The rule skips comments and then reads a keyword. -/
def HeadedBy (word : String) (rule : Rule α) : Prop :=
  ∃ next : Unit → Rule α, ∀ bytes,
    rule bytes = (skipComments >>= fun _ => keyword word >>= next) bytes

theorem HeadedBy.map {word : String} {rule : Rule α} (headed : rule.HeadedBy word)
    (function : α → β) : (function <$> rule : Rule β).HeadedBy word := by
  obtain ⟨next, equation⟩ := headed
  refine ⟨fun read => function <$> next read, ?_⟩
  intro bytes
  obtain ⟨left, skipped⟩ := skipComments_total bytes
  rw [map_apply, equation, bind_of_match skipped, bind_of_match skipped]
  cases matched : keyword word left with
  | none => rw [bind_of_no_match matched, bind_of_no_match matched, Option.map_none]
  | some result =>
    obtain ⟨_, rest⟩ := result
    rw [bind_of_match matched, bind_of_match matched, map_apply]

/-- A word made of bytes of names, as every keyword is. -/
def IsKeyword (word : String) : Prop :=
  (utf8Bytes word).all Byte.isNameByte = true ∧ utf8Bytes word ≠ []

instance (word : String) : Decidable (IsKeyword word) :=
  inferInstanceAs (Decidable (_ ∧ _))

theorem IsKeyword.solid {word : String} (isKeyword : IsKeyword word) :
    ∃ first, Solid word first ∧ Byte.isNameByte first = true := by
  obtain ⟨first, others, spelled⟩ := List.exists_cons_of_ne_nil isKeyword.2
  have member : Byte.isNameByte first = true :=
    List.all_eq_true.mp isKeyword.1 first (by simp [spelled])
  exact ⟨first, ⟨by rw [spelled, List.head?_cons],
    Byte.isBlank_of_isValueByte (Byte.isValueByte_of_isNameByte member)⟩, member⟩

/-- The keyword that is read is the run of bytes of names behind the blanks. -/
theorem IsKeyword.takeWhile_of_match {word : String} (isKeyword : IsKeyword word)
    {bytes rest : List UInt8} (matched : keyword word bytes = some ((), rest)) :
    (bytes.dropWhile Byte.isBlank).takeWhile Byte.isNameByte = utf8Bytes word := by
  obtain ⟨first, solid, -⟩ := isKeyword.solid
  obtain ⟨⟨_, @⟨blanks, blank⟩, rfl⟩, clear⟩ := keyword_sound solid matched
  have stays : ¬ Byte.isBlank first = true := by simp [solid.2]
  rw [List.append_assoc, dropWhile_append_of_blanks blank, solid.cons, List.cons_append,
    List.dropWhile_cons_of_neg stays, ← List.cons_append, ← solid.cons,
    List.takeWhile_append_of_pos (List.all_eq_true.mp isKeyword.1), takeWhile_of_clear clear,
    List.append_nil]

/-- Two rules with keywords match the same bytes only if the keywords are the same. -/
theorem HeadedBy.eq_of_match {first second : String} {rule : Rule α} {other : Rule β}
    (headed : rule.HeadedBy first) (otherHeaded : other.HeadedBy second)
    (isKeyword : IsKeyword first) (otherIsKeyword : IsKeyword second) {bytes : List UInt8}
    (matched : (rule bytes).isSome) (otherMatched : (other bytes).isSome) : first = second := by
  obtain ⟨next, equation⟩ := headed
  obtain ⟨otherNext, otherEquation⟩ := otherHeaded
  obtain ⟨⟨value, rest⟩, found⟩ := Option.isSome_iff_exists.mp matched
  obtain ⟨⟨otherValue, otherRest⟩, otherFound⟩ := Option.isSome_iff_exists.mp otherMatched
  obtain ⟨left, skipped⟩ := skipComments_total bytes
  rw [equation, bind_of_match skipped, bind_eq_some_iff] at found
  rw [otherEquation, bind_of_match skipped, bind_eq_some_iff] at otherFound
  obtain ⟨_, _, wordMatched, -⟩ := found
  obtain ⟨_, _, otherWordMatched, -⟩ := otherFound
  apply utf8Bytes_injective
  rw [← isKeyword.takeWhile_of_match wordMatched,
    ← otherIsKeyword.takeWhile_of_match otherWordMatched]

/-- A rule with a keyword does not match where only trivia is left. -/
theorem HeadedBy.eq_none_of_last {word : String} {rule : Rule α} (headed : rule.HeadedBy word)
    (isKeyword : IsKeyword word) {last : List UInt8} (trivia : LastTrivia last) :
    rule last = none := by
  obtain ⟨next, equation⟩ := headed
  obtain ⟨first, solid, -⟩ := isKeyword.solid
  rw [equation, skipComments_bind_last ((keyword_ignoresBlanks word).bind _) trivia]
  exact bind_of_no_match (keyword_eq_none solid (by simp [lead?]))

theorem firstOf_eq_some {rules : List (Rule α)} {bytes : List UInt8} {result : α × List UInt8}
    (matched : firstOf rules bytes = some result) : ∃ rule ∈ rules, rule bytes = some result := by
  induction rules with
  | nil => cases matched
  | cons rule rules inductionHypothesis =>
    rw [firstOf, orElse_apply, Option.or_eq_some_iff] at matched
    rcases matched with found | ⟨-, later⟩
    · exact ⟨rule, by simp, found⟩
    · obtain ⟨other, membership, found⟩ := inductionHypothesis later
      exact ⟨other, by simp [membership], found⟩

theorem firstOf_of_match {rules : List (Rule α)} {rule : Rule α} {bytes : List UInt8}
    {result : α × List UInt8} (membership : rule ∈ rules) (matched : rule bytes = some result)
    (alone : ∀ other ∈ rules, (other bytes).isSome → other = rule) :
    firstOf rules bytes = some result := by
  induction rules with
  | nil => cases membership
  | cons head rules inductionHypothesis =>
    rw [firstOf, orElse_apply]
    cases found : head bytes with
    | some other =>
      obtain rfl := alone head (by simp) (by simp [found])
      rw [← found, matched, Option.some_or]
    | none =>
      have later : rule ∈ rules := by
        rcases List.mem_cons.mp membership with rfl | later
        · rw [matched] at found
          cases found
        · exact later
      rw [Option.none_or]
      exact inductionHypothesis later fun other inside => alone other (by simp [inside])

theorem firstOf_eq_none {rules : List (Rule α)} {bytes : List UInt8}
    (unmatched : ∀ rule ∈ rules, rule bytes = none) : firstOf rules bytes = none := by
  cases found : firstOf rules bytes with
  | none => rfl
  | some result =>
    obtain ⟨rule, membership, matched⟩ := firstOf_eq_some found
    rw [unmatched rule membership] at matched
    cases matched

end Rule

namespace Item

/-- The rules for items with their keywords. -/
def headedRules : List (String × Rule Item) :=
  ["include", "namespace", "root_type", "file_identifier", "file_extension", "attribute", "table",
    "struct", "enum", "union"].zip rules

theorem rules_eq : rules = headedRules.map Prod.snd := rfl

theorem headedRules_headedBy :
    ∀ entry ∈ headedRules, IsKeyword entry.1 ∧ entry.2.HeadedBy entry.1 := by
  simp only [headedRules, rules, List.zip_cons_cons, List.zip_nil_left, List.forall_mem_cons,
    List.not_mem_nil, false_implies, implies_true, and_true]
  refine ⟨?_, ?_, ?_, ?_, ?_, ?_, ?_, ?_, ?_, ?_⟩
  all_goals exact ⟨by decide, HeadedBy.map ⟨_, fun _ => rfl⟩ _⟩

/-- At most one of the rules for items matches. -/
theorem headedRules_unique {first second : String × Rule Item} (member : first ∈ headedRules)
    (otherMember : second ∈ headedRules) {bytes : List UInt8}
    (matched : (first.2 bytes).isSome) (otherMatched : (second.2 bytes).isSome) :
    first = second := by
  obtain ⟨isKeyword, headed⟩ := headedRules_headedBy first member
  obtain ⟨otherIsKeyword, otherHeaded⟩ := headedRules_headedBy second otherMember
  have distinct : (headedRules.map Prod.fst).Nodup := by decide
  exact List.inj_on_of_nodup_map distinct member otherMember
    (headed.eq_of_match otherHeaded isKeyword otherIsKeyword matched otherMatched)

theorem rule_of_match {rule : Rule Item} (member : rule ∈ rules) {bytes : List UInt8}
    {result : Item × List UInt8} (matched : rule bytes = some result) :
    Item.rule bytes = some result := by
  refine firstOf_of_match member matched ?_
  intro other otherMember otherMatched
  rw [rules_eq] at member otherMember
  obtain ⟨entry, entryMember, rfl⟩ := List.mem_map.mp member
  obtain ⟨otherEntry, otherEntryMember, rfl⟩ := List.mem_map.mp otherMember
  rw [headedRules_unique otherEntryMember entryMember otherMatched (by simp [matched])]

theorem rule_eq_none_of_last {last : List UInt8} (trivia : LastTrivia last) :
    rule last = none := by
  apply firstOf_eq_none
  intro other member
  rw [rules_eq] at member
  obtain ⟨entry, entryMember, rfl⟩ := List.mem_map.mp member
  obtain ⟨isKeyword, headed⟩ := headedRules_headedBy entry entryMember
  exact headed.eq_none_of_last isKeyword trivia

/-- The rule for one kind of item reads items of this kind. -/
theorem kind_reads {α : Type} {part : Rule α} {phrase : Phrase α}
    (reads : part.Reads phrase Anything) (kind : α → Item) :
    (kind <$> part : Rule Item).Reads
      (fun word item => ∃ value, phrase word value ∧ kind value = item) Anything :=
  reads.map Iff.rfl

theorem rule_reads : rule.Reads Written Anything := by
  have inclusionReads := kind_reads
    (directive_reads (by decide : Solid "include" 105) (by decide)) inclusion
  have nameSpaceReads := kind_reads Namespace.rule_reads nameSpace
  have rootTypeReads := kind_reads rootTypeRule_reads rootType
  have fileIdentifierReads := kind_reads
    (directive_reads (by decide : Solid "file_identifier" 102) (by decide)) fileIdentifier
  have fileExtensionReads := kind_reads
    (directive_reads (by decide : Solid "file_extension" 102) (by decide)) fileExtension
  have userAttributeReads := kind_reads
    (directive_reads (by decide : Solid "attribute" 97) (by decide)) userAttribute
  have tableReads := kind_reads
    (Record.rule_reads (by decide : Solid "table" 116) (by decide)) table
  have structReads := kind_reads
    (Record.rule_reads (by decide : Solid "struct" 115) (by decide)) struct
  have enumerationReads := kind_reads Enumeration.rule_reads enumeration
  have unionReads := kind_reads TaggedUnion.rule_reads union
  constructor
  · intro bytes rest item matched
    obtain ⟨part, member, found⟩ := firstOf_eq_some matched
    simp only [rules, List.mem_cons, List.not_mem_nil, or_false] at member
    rcases member with rfl | rfl | rfl | rfl | rfl | rfl | rfl | rfl | rfl | rfl
    · obtain ⟨word, ⟨_, written, rfl⟩, split⟩ := inclusionReads.sound found
      exact ⟨word, .inclusion written, split⟩
    · obtain ⟨word, ⟨_, written, rfl⟩, split⟩ := nameSpaceReads.sound found
      exact ⟨word, .nameSpace written, split⟩
    · obtain ⟨word, ⟨_, written, rfl⟩, split⟩ := rootTypeReads.sound found
      exact ⟨word, .rootType written, split⟩
    · obtain ⟨word, ⟨_, written, rfl⟩, split⟩ := fileIdentifierReads.sound found
      exact ⟨word, .fileIdentifier written, split⟩
    · obtain ⟨word, ⟨_, written, rfl⟩, split⟩ := fileExtensionReads.sound found
      exact ⟨word, .fileExtension written, split⟩
    · obtain ⟨word, ⟨_, written, rfl⟩, split⟩ := userAttributeReads.sound found
      exact ⟨word, .userAttribute written, split⟩
    · obtain ⟨word, ⟨_, written, rfl⟩, split⟩ := tableReads.sound found
      exact ⟨word, .table written, split⟩
    · obtain ⟨word, ⟨_, written, rfl⟩, split⟩ := structReads.sound found
      exact ⟨word, .struct written, split⟩
    · obtain ⟨word, ⟨_, written, rfl⟩, split⟩ := enumerationReads.sound found
      exact ⟨word, .enumeration written, split⟩
    · obtain ⟨word, ⟨_, written, rfl⟩, split⟩ := unionReads.sound found
      exact ⟨word, .union written, split⟩
  · intro word rest item written _
    cases written with
    | inclusion written =>
      exact rule_of_match (by simp [rules]) (inclusionReads.complete ⟨_, written, rfl⟩ trivial)
    | nameSpace written =>
      exact rule_of_match (by simp [rules]) (nameSpaceReads.complete ⟨_, written, rfl⟩ trivial)
    | rootType written =>
      exact rule_of_match (by simp [rules]) (rootTypeReads.complete ⟨_, written, rfl⟩ trivial)
    | fileIdentifier written =>
      exact rule_of_match (by simp [rules]) (fileIdentifierReads.complete ⟨_, written, rfl⟩ trivial)
    | fileExtension written =>
      exact rule_of_match (by simp [rules]) (fileExtensionReads.complete ⟨_, written, rfl⟩ trivial)
    | userAttribute written =>
      exact rule_of_match (by simp [rules]) (userAttributeReads.complete ⟨_, written, rfl⟩ trivial)
    | table written =>
      exact rule_of_match (by simp [rules]) (tableReads.complete ⟨_, written, rfl⟩ trivial)
    | struct written =>
      exact rule_of_match (by simp [rules]) (structReads.complete ⟨_, written, rfl⟩ trivial)
    | enumeration written =>
      exact rule_of_match (by simp [rules]) (enumerationReads.complete ⟨_, written, rfl⟩ trivial)
    | union written =>
      exact rule_of_match (by simp [rules]) (unionReads.complete ⟨_, written, rfl⟩ trivial)

theorem rule_advances : rule.Advances := by
  apply rule_reads.advances
  rintro _ item written rfl
  -- A word without bytes would be read where nothing is left.
  have matched : rule ([] ++ []) = some (item, []) := rule_reads.complete written trivial
  rw [List.append_nil, rule_eq_none_of_last (.closed .nil)] at matched
  cases matched

theorem readAll_suffix (bytes : List UInt8) : (readAll bytes).2 <:+ bytes := by
  obtain ⟨⟨body, -, split⟩, -⟩ :=
    collect_sound rule_reads rule_advances (rfl : collect rule bytes = (_, _))
  exact ⟨body, split⟩

/-- Reading all items and then trivia to the end is reading a file. -/
theorem readAll_iff_file {bytes : List UInt8} {items : List Item} :
    (∃ rest, readAll bytes = (items, rest) ∧ skipTrivia rest = some ((), [])) ↔
      File bytes items := by
  constructor
  · rintro ⟨rest, collected, ended⟩
    obtain ⟨⟨body, repeated, rfl⟩, -⟩ := collect_sound rule_reads rule_advances collected
    exact .intro repeated (lastTrivia_of_skipTrivia ended)
  · rintro @⟨body, last, items, repeated, trivia⟩
    obtain ⟨collected, -⟩ := collect_complete rule_reads rule_advances (fun _ _ => trivial)
      repeated trivial (rule_eq_none_of_last trivia)
    exact ⟨last, collected, skipTrivia_last trivia⟩

end Item

end FlatSchema
