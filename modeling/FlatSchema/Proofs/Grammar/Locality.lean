import FlatSchema.Proofs.Grammar.Lists

/-!
Which bytes a rule goes by. No rule looks at what stands in front of the place where it begins, so
moving that place moves the end and nothing else. What ends in a mark of its own is read without a
look at what follows it; a name, a value or what ends in one of these goes on for as long as its
bytes do, and only for them the bytes behind make a difference.
-/

namespace FlatSchema

open Grammar Rule Token

/-- What the grammar has a rule for. -/
inductive Nonterminal where
  | ident
  | inclusion
  | userAttribute
  | fileExtension
  | fileIdentifier
  | nameSpace
  | rootType
  | metadataEntry
  | metadata
  | fieldType
  | field
  | table
  | struct
  | enumCase
  | enumeration
  | unionCase
  | union
  deriving DecidableEq, Repr

namespace Nonterminal

/-- What a word of a nonterminal stands for. -/
abbrev Node : Nonterminal → Type
  | ident | rootType | unionCase => Ident
  | inclusion | userAttribute | fileExtension | fileIdentifier => String
  | nameSpace => Namespace
  | metadataEntry => MetadataEntry
  | metadata => Metadata
  | fieldType => FieldType
  | field => Field
  | table | struct => Record
  | enumCase => EnumCase
  | enumeration => Enumeration
  | union => TaggedUnion

def rule : (nonterminal : Nonterminal) → Rule nonterminal.Node
  | ident => Ident.rule
  | inclusion => directive "include"
  | userAttribute => directive "attribute"
  | fileExtension => directive "file_extension"
  | fileIdentifier => directive "file_identifier"
  | nameSpace => Namespace.rule
  | rootType => rootTypeRule
  | metadataEntry => MetadataEntry.rule
  | metadata => Metadata.rule
  | fieldType => FieldType.rule
  | field => Field.rule
  | table => Record.rule "table"
  | struct => Record.rule "struct"
  | enumCase => EnumCase.rule
  | enumeration => Enumeration.rule
  | unionCase => Ident.rule
  | union => TaggedUnion.rule

/-- Whether the words end in a semicolon, a brace or a parenthesis. -/
def isDelimited : Nonterminal → Bool
  | ident | metadataEntry | fieldType | enumCase | unionCase => false
  | _ => true

/-- Every rule reads some phrase whose words may stand at the end, and anywhere if they are
delimited. -/
theorem exists_reads (nonterminal : Nonterminal) :
    ∃ (phrase : Phrase nonterminal.Node) (follows : List UInt8 → Prop),
      nonterminal.rule.Reads phrase follows ∧ follows [] ∧
        (nonterminal.isDelimited = true → ∀ rest, follows rest) := by
  have everywhere {delimited : Bool} :
      Anything [] ∧ (delimited = true → ∀ rest, Anything rest) :=
    ⟨trivial, fun _ _ => trivial⟩
  have ended {isMember : UInt8 → Bool} : Before isMember [] := by simp [Before, lead?]
  have undelimited {follows : List UInt8 → Prop} : false = true → ∀ rest, follows rest :=
    fun impossible => absurd impossible Bool.false_ne_true
  cases nonterminal with
  | ident => exact ⟨_, _, Ident.rule_reads, by simp [Clear], undelimited⟩
  | inclusion =>
    exact ⟨_, _, directive_reads (by decide : Solid "include" 105) (by decide), everywhere⟩
  | userAttribute =>
    exact ⟨_, _, directive_reads (by decide : Solid "attribute" 97) (by decide), everywhere⟩
  | fileExtension =>
    exact ⟨_, _, directive_reads (by decide : Solid "file_extension" 102) (by decide), everywhere⟩
  | fileIdentifier =>
    exact ⟨_, _, directive_reads (by decide : Solid "file_identifier" 102) (by decide), everywhere⟩
  | nameSpace => exact ⟨_, _, Namespace.rule_reads, everywhere⟩
  | rootType => exact ⟨_, _, rootTypeRule_reads, everywhere⟩
  | metadataEntry => exact ⟨_, _, MetadataEntry.rule_reads, ended, undelimited⟩
  | metadata => exact ⟨_, _, Metadata.rule_reads, everywhere⟩
  | fieldType => exact ⟨_, _, FieldType.rule_reads, by simp [Clear], undelimited⟩
  | field => exact ⟨_, _, Field.rule_reads, everywhere⟩
  | table =>
    exact ⟨_, _, Record.rule_reads (by decide : Solid "table" 116) (by decide), everywhere⟩
  | struct =>
    exact ⟨_, _, Record.rule_reads (by decide : Solid "struct" 115) (by decide), everywhere⟩
  | enumCase => exact ⟨_, _, EnumCase.rule_reads, ended, undelimited⟩
  | enumeration => exact ⟨_, _, Enumeration.rule_reads, everywhere⟩
  | unionCase => exact ⟨_, _, Ident.rule_reads, by simp [Clear], undelimited⟩
  | union => exact ⟨_, _, TaggedUnion.rule_reads, everywhere⟩

theorem rule_nil (nonterminal : Nonterminal) : nonterminal.rule [] = none := by
  cases nonterminal <;> rfl

end Nonterminal

namespace Rule

variable {α : Type} {rule : Rule α} {phrase : Phrase α} {follows : List UInt8 → Prop}

/-- A word without bytes would be read where nothing is left. -/
theorem Reads.ne_nil (reads : rule.Reads phrase follows) (ended : follows [])
    (unmatched : rule [] = none) {word : List UInt8} {value : α} (written : phrase word value) :
    word ≠ [] := by
  rintro rfl
  have matched : rule ([] ++ []) = some (value, []) := reads.complete written ended
  rw [List.append_nil, unmatched] at matched
  cases matched

/-- Bytes put in front of a buffer move what is read. -/
theorem Reads.readAt_append (reads : rule.Reads phrase follows) (front buffer : List UInt8)
    (offset : Nat) :
    rule.readAt (front ++ buffer) (front.length + offset) =
      (rule.readAt buffer offset).map fun (value, stop) => (value, front.length + stop) := by
  rw [readAt, readAt, List.drop_append, Nat.add_sub_cancel_left,
    List.drop_eq_nil_of_le (Nat.le_add_right _ _), List.nil_append]
  cases matched : rule (buffer.drop offset) with
  | none => rfl
  | some result =>
    obtain ⟨value, rest⟩ := result
    obtain ⟨word, -, split⟩ := reads.sound matched
    have shorter := congrArg List.length split
    simp only [List.length_append, List.length_drop] at shorter
    simp only [Option.map_some, Option.some.injEq, Prod.mk.injEq, true_and, List.length_append]
    omega

/-- What ends by itself is read the same whatever stands behind it. -/
theorem Reads.readAt_take_append (reads : rule.Reads phrase Anything)
    (nonempty : ∀ {word value}, phrase word value → word ≠ []) {buffer : List UInt8}
    {offset stop : Nat} {value : α} (read : rule.readAt buffer offset = some (value, stop))
    (back : List UInt8) :
    rule.readAt (buffer.take stop ++ back) offset = some (value, stop) := by
  rw [reads.readAt_eq_some_iff nonempty] at read ⊢
  obtain ⟨ordered, inside, written⟩ := read
  have length : (buffer.take stop).length = stop := List.length_take_of_le inside
  refine ⟨ordered, ?_, ?_⟩
  · rw [List.length_append, length]
    exact Nat.le_add_right _ _
  · rwa [List.take_left' length]

end Rule

/-- Reading moves with the place at which it begins, and delimited words are read by their own bytes
alone. -/
theorem rules_local (nonterminal : Nonterminal) (buffer : List UInt8) (offset : Nat) :
    (∀ front : List UInt8,
      nonterminal.rule.readAt (front ++ buffer) (front.length + offset) =
        (nonterminal.rule.readAt buffer offset).map fun (node, stop) =>
          (node, front.length + stop)) ∧
    (nonterminal.isDelimited = true →
      ∀ node stop, nonterminal.rule.readAt buffer offset = some (node, stop) →
        ∀ back : List UInt8,
          nonterminal.rule.readAt (buffer.take stop ++ back) offset =
            nonterminal.rule.readAt buffer offset) := by
  obtain ⟨phrase, follows, reads, ended, delimited⟩ := nonterminal.exists_reads
  refine ⟨fun front => reads.readAt_append front buffer offset, ?_⟩
  intro isDelimited node stop read back
  have closed : nonterminal.rule.Reads phrase Anything :=
    reads.strengthen fun _ => delimited isDelimited _
  rw [read]
  exact closed.readAt_take_append (closed.ne_nil trivial nonterminal.rule_nil) read back

section Fields

/-- A field between two others, the last of which is cut short in a comment. -/
def fieldsBuffer : List UInt8 :=
  utf8Bytes "x: A; /* b */ y: [B] = -1 (k: \"v\"); z /* c"

def middleField : Field :=
  ⟨⟨"y"⟩, ⟨.reference ⟨"B"⟩, true⟩, some "-1", ⟨[⟨"k", some "v"⟩]⟩⟩

/-- The field is read the same behind other bytes, and in front of what would go on with it if it
did not end by itself. -/
theorem rules_local_middle :
    Field.rule.readAt fieldsBuffer 5 = some (middleField, 35) ∧
      Field.rule.readAt (utf8Bytes "w" ++ fieldsBuffer) 6 = some (middleField, 36) ∧
      Field.rule.readAt (fieldsBuffer.take 35 ++ utf8Bytes "(l);") 5 = some (middleField, 35) := by
  have read : Field.rule.readAt fieldsBuffer 5 = some (middleField, 35) := by decide +kernel
  obtain ⟨moved, alone⟩ := rules_local .field fieldsBuffer 5
  refine ⟨read, ?_, ?_⟩
  · have shifted := moved (utf8Bytes "w")
    rwa [show Nonterminal.rule .field = Field.rule from rfl, read] at shifted
  · rw [← read]
    exact alone rfl middleField 35 read (utf8Bytes "(l);")

/-- A name is not delimited: it goes on with the bytes that are put behind it. -/
example : Ident.rule.readAt (utf8Bytes "ab") 0 = some (⟨"ab"⟩, 2) ∧
    Ident.rule.readAt (utf8Bytes "ab" ++ utf8Bytes "c") 0 = some (⟨"abc"⟩, 3) := by
  decide +kernel

end Fields

end FlatSchema
