import FlatSchema.Proofs.Grammar.Item

/-!
Lists as the grammar has them and lists as they are read. The grammar puts points between the names
of a namespace and none behind the last, and it wants a case in every enumeration and union. Each
list is read up to where no further item stands, whether a separator came before that place or not,
so two kinds of lists are read that the grammar does not have: names with a point behind the last,
and cases of which there are none. There are no others.
-/

namespace FlatSchema

def Byte.point : UInt8 := 46

namespace Grammar

variable {α : Type}

/-- Words with separators between them and none after the last; there may be no word. -/
inductive Joined (phrase : Phrase α) (separator : List UInt8 → Prop) : Phrase (List α) where
  | empty : Joined phrase separator [] []
  | plain {word : List UInt8} {values : List α} :
      Separated phrase separator word values → Joined phrase separator word values

/-- One word or more with separators between them and one after the last. -/
inductive Trailed (phrase : Phrase α) (separator : List UInt8 → Prop) : Phrase (List α) where
  | closed {word mark : List UInt8} {values : List α} :
      Separated phrase separator word values → separator mark →
      Trailed phrase separator (word ++ mark) values

/-- Cases in braces, at least one, with perhaps a comma after the last. -/
inductive SomeCases (phrase : Phrase α) : Phrase (List α) where
  | plain {left body before right : List UInt8} {values : List α} :
      Symbol "\x7b" left → Separated (Commented phrase) (Symbol ",") body values →
      Trivia before → Symbol "\x7d" right →
      SomeCases phrase (left ++ body ++ before ++ right) values
  | trailing {left body before right : List UInt8} {values : List α} :
      Symbol "\x7b" left → Trailed (Commented phrase) (Symbol ",") body values →
      Trivia before → Symbol "\x7d" right →
      SomeCases phrase (left ++ body ++ before ++ right) values

/-- Braces with no case between them. -/
inductive NoCases : Phrase (List α) where
  | braces {left before right : List UInt8} :
      Symbol "\x7b" left → Trivia before → Symbol "\x7d" right →
      NoCases (left ++ before ++ right) []

/-- A word of a phrase stands in a buffer between two offsets. -/
def StandsAt (phrase : Phrase α) (buffer : List UInt8) (offset stop : Nat) (value : α) : Prop :=
  offset ≤ stop ∧ stop ≤ buffer.length ∧ phrase ((buffer.take stop).drop offset) value

end Grammar

open Grammar Rule Token

/-- A namespace whose names are written in a given way. -/
inductive Namespace.WrittenAs (list : Phrase (List Ident)) : Phrase Namespace where
  | intro {before opening names stop : List UInt8} {parts : List Ident} :
      Trivia before → Symbol "namespace" opening → (parts ≠ [] → StartsBlank names) →
      list names parts → Symbol ";" stop →
      WrittenAs list (before ++ opening ++ names ++ stop) { parts }

/-- An enumeration whose cases are written in a given way. -/
inductive Enumeration.WrittenAs (list : Phrase (List EnumCase)) : Phrase Enumeration where
  | intro {before opening title colon scalar notes body : List UInt8} {name : Ident}
      {spelling : String} {base : Scalar} {metadata : Metadata} {cases : List EnumCase} :
      Trivia before → Symbol "enum" opening → StartsBlank title → Identifier title name →
      Symbol ":" colon → Name scalar spelling → (spelling, base) ∈ Scalar.spellings →
      Metadata.WrittenPerhaps notes metadata → list body cases →
      WrittenAs list (before ++ opening ++ title ++ colon ++ scalar ++ notes ++ body)
        { name, base, cases, metadata }

/-- A union whose cases are written in a given way. -/
inductive TaggedUnion.WrittenAs (list : Phrase (List Ident)) : Phrase TaggedUnion where
  | intro {before opening title notes body : List UInt8} {name : Ident} {metadata : Metadata}
      {cases : List Ident} :
      Trivia before → Symbol "union" opening → StartsBlank title → Identifier title name →
      Metadata.WrittenPerhaps notes metadata → list body cases →
      WrittenAs list (before ++ opening ++ title ++ notes ++ body) { name, cases, metadata }

section Shapes

variable {α : Type} {phrase : Phrase α} {separator : List UInt8 → Prop} {word : List UInt8}
  {values : List α}

theorem Grammar.Joined.listed (joined : Joined phrase separator word values) :
    Listed phrase separator word values := by
  cases joined with
  | empty => exact .empty
  | plain separated => exact .plain separated

theorem Grammar.Trailed.listed (trailed : Trailed phrase separator word values) :
    Listed phrase separator word values := by
  cases trailed with
  | closed separated mark => exact .trailing separated mark

theorem Grammar.listed_iff_joined_or_trailed :
    Listed phrase separator word values ↔
      Joined phrase separator word values ∨ Trailed phrase separator word values := by
  constructor
  · intro listed
    cases listed with
    | empty => exact .inl .empty
    | plain separated => exact .inl (.plain separated)
    | trailing separated mark => exact .inr (.closed separated mark)
  · intro either
    rcases either with joined | trailed
    · exact joined.listed
    · exact trailed.listed

theorem Grammar.cases_iff_some_or_none :
    Cases phrase word values ↔ SomeCases phrase word values ∨ NoCases word values := by
  constructor
  · rintro ⟨left, listed, before, right⟩
    cases listed with
    | empty => exact .inr (by simpa using NoCases.braces left before right)
    | plain separated => exact .inl (.plain left separated before right)
    | trailing separated mark => exact .inl (.trailing left (.closed separated mark) before right)
  · intro either
    rcases either with (⟨left, separated, before, right⟩ | ⟨left, trailed, before, right⟩) |
      ⟨left, before, right⟩
    · exact .braced left (.plain separated) before right
    · exact .braced left trailed.listed before right
    · simpa using Cases.braced left (.empty : Listed (Commented phrase) _ _ _) before right

theorem Grammar.SomeCases.ne_nil (cases : SomeCases phrase word values) : values ≠ [] := by
  rcases cases with ⟨-, separated, -, -⟩ | ⟨-, ⟨separated, -⟩, -, -⟩
  · exact separated.head.1
  · exact separated.head.1

end Shapes

theorem Enumeration.WrittenAs.cases_ne_nil {word : List UInt8} {enumeration : Enumeration}
    (written : WrittenAs (SomeCases EnumCase.Written) word enumeration) :
    enumeration.cases ≠ [] := by
  obtain ⟨-, -, -, -, -, -, -, -, body⟩ := written
  exact body.ne_nil

theorem TaggedUnion.WrittenAs.cases_ne_nil {word : List UInt8} {union : TaggedUnion}
    (written : WrittenAs (SomeCases Identifier) word union) : union.cases ≠ [] := by
  obtain ⟨-, -, -, -, -, body⟩ := written
  exact body.ne_nil

theorem Namespace.Written.ne_nil {word : List UInt8} {nameSpace : Namespace}
    (written : Written word nameSpace) : word ≠ [] := by
  obtain ⟨-, opening, -, -, -⟩ := written
  simp [symbol_ne_nil (by decide : Solid "namespace" 110) opening]

theorem Enumeration.Written.ne_nil {word : List UInt8} {enumeration : Enumeration}
    (written : Written word enumeration) : word ≠ [] := by
  obtain ⟨-, opening, -, -, -, -, -, -, -⟩ := written
  simp [symbol_ne_nil (by decide : Solid "enum" 101) opening]

theorem TaggedUnion.Written.ne_nil {word : List UInt8} {union : TaggedUnion}
    (written : Written word union) : word ≠ [] := by
  obtain ⟨-, opening, -, -, -, -⟩ := written
  simp [symbol_ne_nil (by decide : Solid "union" 117) opening]

theorem Namespace.written_iff {word : List UInt8} {nameSpace : Namespace} :
    Written word nameSpace ↔
      WrittenAs (Joined Identifier (Symbol ".")) word nameSpace ∨
        WrittenAs (Trailed Identifier (Symbol ".")) word nameSpace := by
  constructor
  · rintro ⟨before, opening, starts, names, stop⟩
    rcases listed_iff_joined_or_trailed.mp names with joined | trailed
    · exact .inl (.intro before opening starts joined stop)
    · exact .inr (.intro before opening starts trailed stop)
  · rintro (⟨before, opening, starts, joined, stop⟩ | ⟨before, opening, starts, trailed, stop⟩)
    · exact .intro before opening starts joined.listed stop
    · exact .intro before opening starts trailed.listed stop

theorem Enumeration.written_iff {word : List UInt8} {enumeration : Enumeration} :
    Written word enumeration ↔
      WrittenAs (SomeCases EnumCase.Written) word enumeration ∨
        WrittenAs NoCases word enumeration := by
  constructor
  · rintro ⟨before, opening, starts, title, colon, scalar, known, notes, body⟩
    rcases cases_iff_some_or_none.mp body with some | none
    · exact .inl (.intro before opening starts title colon scalar known notes some)
    · exact .inr (.intro before opening starts title colon scalar known notes none)
  · rintro (⟨before, opening, starts, title, colon, scalar, known, notes, body⟩ |
      ⟨before, opening, starts, title, colon, scalar, known, notes, body⟩)
    · exact .intro before opening starts title colon scalar known notes
        (cases_iff_some_or_none.mpr (.inl body))
    · exact .intro before opening starts title colon scalar known notes
        (cases_iff_some_or_none.mpr (.inr body))

theorem TaggedUnion.written_iff {word : List UInt8} {union : TaggedUnion} :
    Written word union ↔
      WrittenAs (SomeCases Identifier) word union ∨ WrittenAs NoCases word union := by
  constructor
  · rintro ⟨before, opening, starts, title, notes, body⟩
    rcases cases_iff_some_or_none.mp body with some | none
    · exact .inl (.intro before opening starts title notes some)
    · exact .inr (.intro before opening starts title notes none)
  · rintro (⟨before, opening, starts, title, notes, body⟩ |
      ⟨before, opening, starts, title, notes, body⟩)
    · exact .intro before opening starts title notes (cases_iff_some_or_none.mpr (.inl body))
    · exact .intro before opening starts title notes (cases_iff_some_or_none.mpr (.inr body))

section Offsets

variable {α : Type} {rule : Rule α} {phrase : Phrase α}

/-- A rule for words that end by themselves reads at an offset what stands there. -/
theorem Rule.Reads.readAt_eq_some_iff (reads : rule.Reads phrase Anything)
    (nonempty : ∀ {word value}, phrase word value → word ≠ []) {buffer : List UInt8}
    {offset stop : Nat} {value : α} :
    rule.readAt buffer offset = some (value, stop) ↔ StandsAt phrase buffer offset stop value := by
  constructor
  · intro read
    unfold Rule.readAt at read
    split at read
    · cases read
    · next rest matched =>
      cases read
      obtain ⟨word, written, split⟩ := reads.sound matched
      have positive := List.length_pos_iff.mpr (nonempty written)
      have lengths := congrArg List.length split
      simp only [List.length_append, List.length_drop] at lengths
      refine ⟨by omega, by omega, ?_⟩
      have consumed : (buffer.take (buffer.length - rest.length)).drop offset = word := by
        rw [List.drop_take, ← split, List.take_left']
        omega
      rw [consumed]
      exact written
  · rintro ⟨ordered, inside, written⟩
    have behind : buffer.drop stop = (buffer.drop offset).drop (stop - offset) := by
      rw [List.drop_drop, Nat.add_sub_of_le ordered]
    have split : buffer.drop offset = (buffer.take stop).drop offset ++ buffer.drop stop := by
      rw [List.drop_take, behind, List.take_append_drop]
    have matched : rule (buffer.drop offset) = some (value, buffer.drop stop) := by
      rw [split]
      exact reads.complete written trivial
    rw [Rule.readAt, matched]
    simp only [List.length_drop, Option.some.injEq, Prod.mk.injEq, true_and]
    omega

end Offsets

section Points

theorem Grammar.count_symbol {text : String} {word : List UInt8} (written : Symbol text word)
    {byte : UInt8} (solid : Byte.isBlank byte = false) :
    word.count byte = (utf8Bytes text).count byte := by
  obtain ⟨blank⟩ := written
  rw [List.count_append, List.count_eq_zero.mpr, Nat.zero_add]
  intro member
  rw [blank byte member] at solid
  cases solid

theorem Grammar.count_point_identifier {word : List UInt8} {name : Ident}
    (written : Identifier word name) : word.count Byte.point = 0 := by
  obtain ⟨@⟨blanks, text, blank, spelled⟩⟩ := written
  obtain ⟨first, others, bytes, start, members⟩ := spelled.cons
  apply List.count_eq_zero.mpr
  intro member
  rw [bytes, List.mem_append, List.mem_cons] at member
  rcases member with inBlanks | rfl | inOthers
  · cases blank _ inBlanks
  · cases start
  · cases members _ inOthers

theorem Grammar.count_point_separated {names : List UInt8} {parts : List Ident}
    (separated : Separated Identifier (Symbol ".") names parts) :
    names.count Byte.point + 1 = parts.length := by
  induction separated with
  | last written => simp [count_point_identifier written]
  | cons written mark _ inductionHypothesis =>
    have one : List.count Byte.point (utf8Bytes ".") = 1 := by decide
    rw [List.count_append, List.count_append, count_point_identifier written,
      count_symbol mark (by decide), one, List.length_cons]
    omega

/-- A list of names has a point behind the last exactly if it has as many points as names. -/
theorem Grammar.joined_iff_count_point {names : List UInt8} {parts : List Ident} :
    Joined Identifier (Symbol ".") names parts ↔
      Listed Identifier (Symbol ".") names parts ∧
        names.count Byte.point = parts.length - 1 := by
  constructor
  · intro joined
    refine ⟨joined.listed, ?_⟩
    cases joined with
    | empty => rfl
    | plain separated =>
      have count := count_point_separated separated
      omega
  · rintro ⟨listed, count⟩
    cases listed with
    | empty => exact .empty
    | plain separated => exact .plain separated
    | trailing separated mark =>
      have between := count_point_separated separated
      have one : List.count Byte.point (utf8Bytes ".") = 1 := by decide
      rw [List.count_append, count_symbol mark (by decide), one] at count
      omega

theorem Grammar.Trivia.blanks_of_no_slash {word : List UInt8} (trivia : Trivia word)
    (noSlash : Byte.slash ∉ word) : Blanks word := by
  induction trivia with
  | nil => exact List.forall_mem_nil _
  | blank blank _ inductionHypothesis =>
    rw [List.mem_cons, not_or] at noSlash
    exact List.forall_mem_cons.mpr ⟨blank, inductionHypothesis noSlash.2⟩
  | comment written _ _ =>
    cases written <;> simp at noSlash

/-- Where there are no comments, all points of a namespace stand between its names. -/
theorem Namespace.WrittenAs.count_point {word : List UInt8} {nameSpace : Namespace}
    (written : WrittenAs (Joined Identifier (Symbol ".")) word nameSpace)
    (noSlash : Byte.slash ∉ word) : word.count Byte.point = nameSpace.parts.length - 1 := by
  obtain @⟨before, opening, names, stop, parts, trivia, leading, -, joined, ending⟩ := written
  have solid : Byte.isBlank Byte.point = false := by decide
  have inBefore : before.count Byte.point = 0 := by
    apply List.count_eq_zero.mpr
    intro member
    simp only [List.mem_append, not_or] at noSlash
    have blank := trivia.blanks_of_no_slash noSlash.1.1.1 _ member
    rw [solid] at blank
    cases blank
  have inOpening : opening.count Byte.point = 0 := (count_symbol leading solid).trans (by decide)
  have inStop : stop.count Byte.point = 0 := (count_symbol ending solid).trans (by decide)
  have inNames := (joined_iff_count_point.mp joined).2
  simp only [List.count_append]
  omega

end Points

/-- The lists that are read. Of namespaces these are the ones of the grammar, with one point fewer
than names, and those with a point behind the last name; of enumerations and unions they are the ones
of the grammar, with at least one case, and those without cases. -/
theorem lists_read_iff (buffer : List UInt8) (offset stop : Nat) :
    (∀ nameSpace, Namespace.rule.readAt buffer offset = some (nameSpace, stop) ↔
      StandsAt (Namespace.WrittenAs (Joined Identifier (Symbol "."))) buffer offset stop nameSpace ∨
      StandsAt (Namespace.WrittenAs (Trailed Identifier (Symbol "."))) buffer offset stop
        nameSpace) ∧
    (∀ names parts, Joined Identifier (Symbol ".") names parts ↔
      Listed Identifier (Symbol ".") names parts ∧ names.count Byte.point = parts.length - 1) ∧
    (∀ enumeration, Enumeration.rule.readAt buffer offset = some (enumeration, stop) ↔
      StandsAt (Enumeration.WrittenAs (SomeCases EnumCase.Written)) buffer offset stop enumeration ∨
      StandsAt (Enumeration.WrittenAs NoCases) buffer offset stop enumeration) ∧
    ∀ union, TaggedUnion.rule.readAt buffer offset = some (union, stop) ↔
      StandsAt (TaggedUnion.WrittenAs (SomeCases Identifier)) buffer offset stop union ∨
      StandsAt (TaggedUnion.WrittenAs NoCases) buffer offset stop union := by
  refine ⟨?_, fun names parts => joined_iff_count_point, ?_, ?_⟩
  · intro nameSpace
    rw [Namespace.rule_reads.readAt_eq_some_iff Namespace.Written.ne_nil]
    simp only [StandsAt, Namespace.written_iff, and_or_left]
  · intro enumeration
    rw [Enumeration.rule_reads.readAt_eq_some_iff Enumeration.Written.ne_nil]
    simp only [StandsAt, Enumeration.written_iff, and_or_left]
  · intro union
    rw [TaggedUnion.rule_reads.readAt_eq_some_iff TaggedUnion.Written.ne_nil]
    simp only [StandsAt, TaggedUnion.written_iff, and_or_left]

/-- Each of the three rules reads a list that the grammar does not have: a point behind the only name
of a namespace, and braces without a case. -/
theorem lists_read_beyond_grammar :
    Namespace.rule.readAt (utf8Bytes "namespace a.;") 0 = some (⟨[⟨"a"⟩]⟩, 13) ∧
    ¬ StandsAt (Namespace.WrittenAs (Joined Identifier (Symbol "."))) (utf8Bytes "namespace a.;")
      0 13 ⟨[⟨"a"⟩]⟩ ∧
    Enumeration.rule.readAt (utf8Bytes "enum E: byte \x7b\x7d") 0 =
      some (⟨⟨"E"⟩, .int8, [], {}⟩, 15) ∧
    ¬ StandsAt (Enumeration.WrittenAs (SomeCases EnumCase.Written))
      (utf8Bytes "enum E: byte \x7b\x7d") 0 15 ⟨⟨"E"⟩, .int8, [], {}⟩ ∧
    TaggedUnion.rule.readAt (utf8Bytes "union U \x7b\x7d") 0 = some (⟨⟨"U"⟩, [], {}⟩, 10) ∧
    ¬ StandsAt (TaggedUnion.WrittenAs (SomeCases Identifier)) (utf8Bytes "union U \x7b\x7d") 0 10
      ⟨⟨"U"⟩, [], {}⟩ := by
  refine ⟨by decide +kernel, ?_, by decide +kernel, ?_, by decide +kernel, ?_⟩
  · rintro ⟨-, -, written⟩
    have points := written.count_point (by decide +kernel)
    revert points
    decide +kernel
  · rintro ⟨-, -, written⟩
    exact written.cases_ne_nil rfl
  · rintro ⟨-, -, written⟩
    exact written.cases_ne_nil rfl

end FlatSchema
