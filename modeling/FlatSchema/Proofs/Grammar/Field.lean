import FlatSchema.Proofs.Grammar.Follow

/-!
Fields and their parts as they are read: values, metadata, types. A part that may be missing is
never mistaken for one that is there.
-/

namespace FlatSchema

open Grammar Rule Token

/-- A bare value is no string literal. -/
theorem Token.stringLiteral_of_value {word : List UInt8} {text : String}
    (written : Value word text) (rest : List UInt8) : stringLiteral (word ++ rest) = none := by
  have quote : Solid "\"" Byte.quote := by decide
  obtain ⟨blank, nonempty, members⟩ := written
  obtain ⟨first, others, spelled⟩ := List.exists_cons_of_ne_nil nonempty
  rw [spelled] at members ⊢
  have member := members first (by simp)
  apply bind_of_no_match
  apply symbol_eq_none quote
  rw [List.append_assoc, lead?_append_of_blanks blank, List.cons_append,
    lead?_cons (Byte.isBlank_of_isValueByte member)]
  rintro ⟨⟩
  cases member

theorem assignedValue_reads :
    assignedValue.Reads (Perhaps Assignment)
      (Before fun byte => byte == 61 || Byte.isValueByte byte) := by
  have equals : Solid "=" 61 := by decide
  constructor
  · intro bytes rest value? matched
    rw [assignedValue, bind_eq_some_iff] at matched
    obtain ⟨mark?, middle, markMatched, matched⟩ := matched
    rcases optional_eq_some markMatched with ⟨_, rfl, found⟩ | ⟨rfl, -, rfl⟩
    · simp only [bind_eq_some_iff, pure_eq_some_iff] at matched
      obtain ⟨value, _, valueMatched, rfl, rfl⟩ := matched
      obtain ⟨mark, markWritten, rfl⟩ := (symbol_reads equals).sound found
      obtain ⟨word, written, rfl⟩ := value_reads.sound valueMatched
      exact ⟨mark ++ word, .present (.assigned markWritten written), List.append_assoc ..⟩
    · cases matched
      exact ⟨[], .missing, rfl⟩
  · intro word rest value? written before
    rw [assignedValue]
    cases written with
    | missing =>
      have noMark : lead? rest ≠ some 61 := by
        apply Before.lead?_ne
        exact before.mono fun byte equal => by simp [equal]
      rw [List.nil_append, bind_of_match (optional_of_no_match (symbol_eq_none equals noMark))]
      rfl
    | present written =>
      obtain ⟨markWritten, written⟩ := written
      have values : Before Byte.isValueByte rest :=
        before.mono fun byte member => by simp [member]
      rw [List.append_assoc,
        bind_of_match (optional_of_match (symbol_complete equals markWritten _))]
      exact bind_of_match (value_reads.complete written values.clear_value)

/-- After what may be an assignment a class begins only if the rest does. -/
theorem Grammar.Before.assigned {isMember : UInt8 → Bool} {word rest : List UInt8}
    {value? : Option String} (written : Perhaps Assignment word value?)
    (outside : isMember 61 = false) (before : Before isMember rest) :
    Before isMember (word ++ rest) := by
  cases written with
  | missing => exact before
  | present written =>
    obtain ⟨markWritten, -⟩ := written
    rw [List.append_assoc]
    exact .symbol (by decide) markWritten outside _

namespace MetadataEntry

theorem rule_reads :
    rule.Reads Written (Before fun byte => byte == 58 || Byte.isValueByte byte) := by
  have colon : Solid ":" 58 := by decide
  constructor
  · intro bytes rest entry matched
    rw [rule, bind_eq_some_iff] at matched
    obtain ⟨key, afterKey, keyMatched, matched⟩ := matched
    rw [bind_eq_some_iff] at matched
    obtain ⟨mark?, middle, markMatched, matched⟩ := matched
    obtain ⟨word, keyWritten, rfl⟩ := name_reads.sound keyMatched
    rcases optional_eq_some markMatched with ⟨_, rfl, found⟩ | ⟨rfl, -, rfl⟩
    · simp only [bind_eq_some_iff, pure_eq_some_iff] at matched
      obtain ⟨value, _, valueMatched, rfl, rfl⟩ := matched
      obtain ⟨mark, markWritten, rfl⟩ := (symbol_reads colon).sound found
      rw [orElse_apply, Option.or_eq_some_iff] at valueMatched
      rcases valueMatched with literalMatched | ⟨-, bareMatched⟩
      · obtain ⟨last, written, rfl⟩ := stringLiteral_reads.sound literalMatched
        exact ⟨_, .literal keyWritten markWritten written, by simp only [List.append_assoc]⟩
      · obtain ⟨last, written, rfl⟩ := value_reads.sound bareMatched
        exact ⟨_, .bare keyWritten markWritten written, by simp only [List.append_assoc]⟩
    · cases matched
      exact ⟨word, .key keyWritten, rfl⟩
  · intro word rest entry written before
    have values : Before Byte.isValueByte rest :=
      before.mono fun byte member => by simp [member]
    rw [rule]
    cases written with
    | key keyWritten =>
      have names : Before Byte.isNameByte rest :=
        values.mono fun byte => Byte.isValueByte_of_isNameByte
      have noMark : lead? rest ≠ some 58 :=
        Before.lead?_ne (before.mono fun byte equal => by simp [equal])
      rw [bind_of_match (name_reads.complete keyWritten names.clear_name),
        bind_of_match (optional_of_no_match (symbol_eq_none colon noMark))]
      rfl
    | @literal _ mark last _ value keyWritten markWritten valueWritten =>
      have names : Before Byte.isNameByte (mark ++ (last ++ rest)) :=
        .symbol colon markWritten rfl _
      have read : stringLiteral (last ++ rest) = some (value, rest) :=
        stringLiteral_reads.complete valueWritten trivial
      simp only [List.append_assoc]
      rw [bind_of_match (name_reads.complete keyWritten names.clear_name),
        bind_of_match (optional_of_match (symbol_complete colon markWritten _))]
      apply bind_of_match
      rw [orElse_apply, read, Option.some_or]
    | @bare _ mark last _ _ keyWritten markWritten valueWritten =>
      have names : Before Byte.isNameByte (mark ++ (last ++ rest)) :=
        .symbol colon markWritten rfl _
      have read := value_reads.complete valueWritten values.clear_value
      simp only [List.append_assoc]
      rw [bind_of_match (name_reads.complete keyWritten names.clear_name),
        bind_of_match (optional_of_match (symbol_complete colon markWritten _))]
      apply bind_of_match
      rw [orElse_apply, stringLiteral_of_value valueWritten, Option.none_or, read]

end MetadataEntry

namespace Metadata

theorem rule_reads : rule.Reads Written Anything := by
  have left : Solid "(" 40 := by decide
  have right : Solid ")" 41 := by decide
  have comma : Solid "," 44 := by decide
  have entriesReads := listOf1_reads MetadataEntry.rule_reads (symbol_reads comma)
    (fun written => .symbol comma written rfl _) (symbol_ne_nil comma)
  constructor
  · intro bytes rest metadata matched
    simp only [rule, bind_eq_some_iff, pure_eq_some_iff] at matched
    obtain ⟨_, _, leftMatched, entries, _, entriesMatched, _, _, rightMatched, rfl, rfl⟩ := matched
    obtain ⟨_, leftWritten, rfl⟩ := (symbol_reads left).sound leftMatched
    obtain ⟨_, entriesWritten, rfl⟩ := entriesReads.sound entriesMatched
    obtain ⟨_, rightWritten, rfl⟩ := (symbol_reads right).sound rightMatched
    exact ⟨_, .parenthesized leftWritten entriesWritten rightWritten,
      by simp only [List.append_assoc]⟩
  · rintro _ rest _ ⟨leftWritten, entriesWritten, rightWritten⟩ -
    have noComma := lead?_symbol_ne right (by decide : (41 : UInt8) ≠ 44) rightWritten rest
    simp only [List.append_assoc]
    rw [rule, bind_of_match (symbol_complete left leftWritten _),
      bind_of_match (entriesReads.complete entriesWritten
        ⟨.symbol right rightWritten rfl _, symbol_eq_none comma noComma⟩),
      bind_of_match (symbol_complete right rightWritten _), pure_apply]

theorem rule_eq_none {bytes : List UInt8} (different : lead? bytes ≠ some 40) :
    rule bytes = none :=
  bind_of_no_match (symbol_eq_none (by decide) different)

/-- Metadata is missing only where no parenthesis stands. -/
theorem optionalRule_reads : optionalRule.Reads WrittenPerhaps (Before (· == 40)) := by
  constructor
  · intro bytes rest metadata matched
    simp only [optionalRule, bind_eq_some_iff, pure_eq_some_iff] at matched
    obtain ⟨metadata?, _, found, rfl, rfl⟩ := matched
    rcases optional_eq_some found with ⟨metadata, rfl, matched⟩ | ⟨rfl, -, rfl⟩
    · obtain ⟨word, written, rfl⟩ := rule_reads.sound matched
      exact ⟨word, .intro (.present written), rfl⟩
    · exact ⟨[], .intro .missing, rfl⟩
  · rintro word rest _ ⟨written⟩ before
    rw [optionalRule]
    cases written with
    | missing =>
      exact bind_of_match (optional_of_no_match (rule_eq_none before.lead?_ne))
    | present written =>
      exact bind_of_match (optional_of_match (rule_reads.complete written trivial))

end Metadata

theorem Grammar.Before.annotated {isMember : UInt8 → Bool} {word rest : List UInt8}
    {metadata : Metadata} (written : Metadata.WrittenPerhaps word metadata)
    (outside : isMember 40 = false) (before : Before isMember rest) :
    Before isMember (word ++ rest) := by
  obtain ⟨written⟩ := written
  cases written with
  | missing => exact before
  | present written =>
    obtain ⟨leftWritten, -, -⟩ := written
    simp only [List.append_assoc]
    exact .symbol (by decide) leftWritten outside _

theorem Scalar.ofName?_eq_some_iff {name : String} {scalar : Scalar} :
    Scalar.ofName? name = some scalar ↔ (name, scalar) ∈ Scalar.spellings := by
  constructor
  · intro found
    obtain ⟨before, after, split, -⟩ := List.lookup_eq_some_iff.mp found
    rw [split]
    simp
  · intro listed
    have known : ∀ spelling ∈ Scalar.spellings,
        Scalar.ofName? spelling.1 = some spelling.2 := by decide
    exact known (name, scalar) listed

namespace BaseType

theorem rule_reads : rule.Reads Written (Clear Byte.isNameByte) := by
  refine name_reads.map ?_
  intro word base
  constructor
  · intro written
    cases written with
    | string named => exact ⟨_, named, rfl⟩
    | @scalar _ name known named spelled =>
      have other : name ≠ "string" := by
        rintro rfl
        revert spelled
        cases known <;> decide
      refine ⟨_, named, ?_⟩
      rw [ofName, if_neg other, Scalar.ofName?_eq_some_iff.mpr spelled]
    | @reference _ name named other unknown =>
      have missing : Scalar.ofName? name = none := by
        rw [Option.eq_none_iff_forall_ne_some]
        intro known found
        exact unknown known (Scalar.ofName?_eq_some_iff.mp found)
      refine ⟨_, named, ?_⟩
      rw [ofName, if_neg other, missing]
  · rintro ⟨name, named, rfl⟩
    rw [ofName]
    split
    next equal => exact .string (equal ▸ named)
    next other =>
      cases found : Scalar.ofName? name with
      | none =>
        refine .reference named other ?_
        intro known spelled
        rw [Scalar.ofName?_eq_some_iff.mpr spelled] at found
        cases found
      | some known => exact .scalar named (Scalar.ofName?_eq_some_iff.mp found)

/-- A base type is a name. -/
theorem Written.named {word : List UInt8} {base : BaseType} (written : Written word base) :
    ∃ name, Name word name := by
  cases written with
  | string named => exact ⟨_, named⟩
  | scalar named => exact ⟨_, named⟩
  | reference named => exact ⟨_, named⟩

end BaseType

namespace FieldType

theorem rule_reads : rule.Reads Written (Clear Byte.isNameByte) := by
  have left : Solid "[" 91 := by decide
  have right : Solid "]" 93 := by decide
  constructor
  · intro bytes rest type matched
    rw [rule, orElse_apply, Option.or_eq_some_iff] at matched
    rcases matched with vectorMatched | ⟨-, singleMatched⟩
    · simp only [vectorRule, bind_eq_some_iff, pure_eq_some_iff] at vectorMatched
      obtain ⟨_, _, leftMatched, base, _, baseMatched, _, _, rightMatched, rfl, rfl⟩ :=
        vectorMatched
      obtain ⟨_, leftWritten, rfl⟩ := (symbol_reads left).sound leftMatched
      obtain ⟨_, written, rfl⟩ := BaseType.rule_reads.sound baseMatched
      obtain ⟨_, rightWritten, rfl⟩ := (symbol_reads right).sound rightMatched
      exact ⟨_, .vector leftWritten written rightWritten, by simp only [List.append_assoc]⟩
    · simp only [bind_eq_some_iff, pure_eq_some_iff] at singleMatched
      obtain ⟨base, _, baseMatched, rfl, rfl⟩ := singleMatched
      obtain ⟨word, written, rfl⟩ := BaseType.rule_reads.sound baseMatched
      exact ⟨word, .single written, rfl⟩
  · intro word rest type written clear
    rw [rule, orElse_apply]
    cases written with
    | single written =>
      obtain ⟨name, named⟩ := written.named
      obtain ⟨first, leads, start⟩ := lead?_name named rest
      have noVector : vectorRule (word ++ rest) = none := by
        apply bind_of_no_match
        apply symbol_eq_none left
        rw [leads]
        rintro ⟨⟩
        cases start
      rw [noVector, Option.none_or, bind_of_match (BaseType.rule_reads.complete written clear),
        pure_apply]
    | @vector _ _ right' _ leftWritten written rightWritten =>
      have names : Before Byte.isNameByte (right' ++ rest) := .symbol right rightWritten rfl _
      simp only [List.append_assoc]
      rw [vectorRule, bind_of_match (symbol_complete left leftWritten _),
        bind_of_match (BaseType.rule_reads.complete written names.clear_name),
        bind_of_match (symbol_complete right rightWritten _), pure_apply, Option.some_or]

end FieldType

namespace Field

theorem rule_reads : rule.Reads Written Anything := by
  have colon : Solid ":" 58 := by decide
  have semicolon : Solid ";" 59 := by decide
  constructor
  · intro bytes rest field matched
    simp only [rule, bind_eq_some_iff, pure_eq_some_iff] at matched
    obtain ⟨_, _, skipped, name, _, nameMatched, _, _, colonMatched, type, _, typeMatched,
      default, _, defaultMatched, metadata, _, metadataMatched, _, _, stopMatched, rfl, rfl⟩ :=
        matched
    obtain ⟨_, stop, rfl⟩ := (symbol_reads semicolon).sound stopMatched
    obtain ⟨_, notes, rfl⟩ := Metadata.optionalRule_reads.sound metadataMatched
    obtain ⟨_, assigned, rfl⟩ := assignedValue_reads.sound defaultMatched
    obtain ⟨_, kind, rfl⟩ := FieldType.rule_reads.sound typeMatched
    obtain ⟨_, mark, rfl⟩ := (symbol_reads colon).sound colonMatched
    obtain ⟨_, title, rfl⟩ := Ident.rule_reads.sound nameMatched
    obtain ⟨_, rfl, -, closed⟩ := skipComments_sound skipped
    have before := closed (by simp [symbol_ne_nil colon mark])
    exact ⟨_, .intro before title mark kind assigned notes stop,
      by simp only [List.append_assoc]⟩
  · rintro _ rest _ ⟨before, title, mark, kind, assigned, notes, stop⟩ -
    simp only [List.append_assoc]
    have noComment := lead?_identifier_ne title (show Byte.isNameStart Byte.slash = false by decide)
    rw [rule, skipComments_bind_append (Ident.rule_ignoresBlanks.bind _) before (noComment _),
      bind_of_match (Ident.rule_reads.complete title (Before.clear_name
        (.symbol colon mark rfl _))),
      bind_of_match (symbol_complete colon mark _),
      bind_of_match (FieldType.rule_reads.complete kind (Before.clear_name
        (.assigned assigned rfl (.annotated notes rfl (.symbol semicolon stop rfl _))))),
      bind_of_match (assignedValue_reads.complete assigned
        (.annotated notes rfl (.symbol semicolon stop rfl _))),
      bind_of_match (Metadata.optionalRule_reads.complete notes (.symbol semicolon stop rfl _)),
      bind_of_match (symbol_complete semicolon stop _), pure_apply]

theorem rule_eq_none {trivia rest : List UInt8} (before : Trivia trivia)
    (noComment : lead? rest ≠ some Byte.slash) (noName : Before Byte.isNameStart rest) :
    rule (trivia ++ rest) = none := by
  rw [rule, skipComments_bind_append (Ident.rule_ignoresBlanks.bind _) before noComment]
  exact bind_of_no_match (Ident.rule_eq_none noName)

theorem rule_advances : rule.Advances := by
  apply rule_reads.advances
  rintro _ _ ⟨-, -, mark, -, -, -, -⟩
  simp [symbol_ne_nil (by decide : Solid ":" 58) mark]

end Field

end FlatSchema
