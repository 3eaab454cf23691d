import FlatSchema.Proofs.Grammar.Field

/-!
Declarations as they are read: tables and structs with fields in braces, enumerations and unions
with cases in braces.
-/

namespace FlatSchema

open Grammar Rule Token

namespace Record

theorem rule_reads {word : String} {first : UInt8} (solid : Solid word first)
    (noSlash : first ≠ Byte.slash) : (rule word).Reads (Written word) Anything := by
  have left : Solid "\x7b" 123 := by decide
  have right : Solid "\x7d" 125 := by decide
  constructor
  · intro bytes rest record matched
    simp only [rule, bind_eq_some_iff, pure_eq_some_iff] at matched
    obtain ⟨_, _, skipped, _, _, wordMatched, name, _, nameMatched, metadata, _, metadataMatched,
      _, _, leftMatched, fields, _, fieldsMatched, _, _, skippedAfter, _, _, rightMatched,
      rfl, rfl⟩ := matched
    obtain ⟨_, closing, rfl⟩ := (symbol_reads right).sound rightMatched
    obtain ⟨_, rfl, -, closedAfter⟩ := skipComments_sound skippedAfter
    obtain ⟨⟨_, body, rfl⟩, -⟩ :=
      collect_sound Field.rule_reads Field.rule_advances (Option.some.inj fieldsMatched)
    obtain ⟨_, opening, rfl⟩ := (symbol_reads left).sound leftMatched
    obtain ⟨_, notes, rfl⟩ := Metadata.optionalRule_reads.sound metadataMatched
    obtain ⟨_, title, rfl⟩ := Ident.rule_reads.sound nameMatched
    obtain ⟨⟨_, leading, rfl⟩, clear⟩ := keyword_sound solid wordMatched
    obtain ⟨_, rfl, -, closed⟩ := skipComments_sound skipped
    have before := closed (by simp [symbol_ne_nil left opening])
    have after := closedAfter (by simp [symbol_ne_nil right closing])
    exact ⟨_, .intro before leading (title.startsBlank clear) title notes opening body after
      closing, by simp only [List.append_assoc]⟩
  · rintro _ rest _ ⟨before, leading, starts, title, notes, opening, body, after, closing⟩ -
    simp only [List.append_assoc]
    have noComment := lead?_symbol_ne right (by decide : (125 : UInt8) ≠ Byte.slash) closing rest
    have stops := Field.rule_eq_none after noComment (.symbol right closing rfl _)
    obtain ⟨collected, -⟩ := collect_complete Field.rule_reads Field.rule_advances
      (fun _ _ => trivial) body trivial stops
    rw [rule, skipComments_bind_append ((keyword_ignoresBlanks word).bind _) before
        (lead?_symbol_ne solid noSlash leading _),
      bind_of_match (keyword_complete solid leading (starts.clear _)),
      bind_of_match (Ident.rule_reads.complete title (Before.clear_name
        (.annotated notes rfl (.symbol left opening rfl _)))),
      bind_of_match (Metadata.optionalRule_reads.complete notes (.symbol left opening rfl _)),
      bind_of_match (symbol_complete left opening _),
      bind_of_match (congrArg some collected),
      skipComments_bind_append ((symbol_ignoresBlanks _).bind _) after noComment,
      bind_of_match (symbol_complete right closing _), pure_apply]

end Record

/-- In front of trivia stands the first comment, or what follows the trivia. -/
theorem Grammar.Before.trivia {isMember : UInt8 → Bool} {trivia rest : List UInt8}
    (written : Trivia trivia) (outside : isMember Byte.slash = false)
    (before : Before isMember rest) : Before isMember (trivia ++ rest) := by
  induction written with
  | nil => exact before
  | @blank byte _ blank _ inductionHypothesis =>
    have one : Blanks [byte] := by simpa [Blanks] using blank
    intro found leads
    rw [List.cons_append, ← List.singleton_append, lead?_append_of_blanks one] at leads
    exact inductionHypothesis found leads
  | comment written _ _ =>
    have solid : Byte.isBlank Byte.slash = false := by decide
    cases written <;> exact .of_lead (lead?_cons solid _) outside

/-- What a list of cases needs to know about its cases: each starts with a name, and the rule goes
by that. -/
structure Grammar.NamedFirst {α : Type} (item : Rule α) (phrase : Phrase α) : Prop where
  ignores : item.IgnoresBlanks
  leads {word : List UInt8} {value : α} (written : phrase word value) (rest : List UInt8) :
    ∃ byte, lead? (word ++ rest) = some byte ∧ Byte.isNameStart byte = true
  fails {rest : List UInt8} (before : Before Byte.isNameStart rest) : item rest = none

section Cases

variable {α : Type} {item : Rule α} {phrase : Phrase α}

theorem Grammar.NamedFirst.noComment (named : NamedFirst item phrase) {word : List UInt8}
    {value : α} (written : phrase word value) (rest : List UInt8) :
    lead? (word ++ rest) ≠ some Byte.slash := by
  obtain ⟨byte, leads, start⟩ := named.leads written rest
  rw [leads]
  rintro ⟨⟩
  cases start

theorem Grammar.NamedFirst.nonempty (named : NamedFirst item phrase) {word : List UInt8}
    {value : α} (written : phrase word value) : word ≠ [] := by
  rintro rfl
  obtain ⟨byte, leads, -⟩ := named.leads written []
  cases leads

theorem commented_reads {follows : List UInt8 → Prop} (reads : item.Reads phrase follows)
    (named : NamedFirst item phrase) :
    (skipComments *> item : Rule α).Reads (Commented phrase) follows := by
  constructor
  · intro bytes rest value matched
    rw [seqRight_apply, bind_eq_some_iff] at matched
    obtain ⟨_, middle, skipped, itemMatched⟩ := matched
    obtain ⟨word, written, rfl⟩ := reads.sound itemMatched
    obtain ⟨trivia, rfl, -, closed⟩ := skipComments_sound skipped
    have before := closed (by simp [named.nonempty written])
    exact ⟨trivia ++ word, .led before written, List.append_assoc ..⟩
  · rintro _ rest value ⟨before, written⟩ follow
    rw [seqRight_apply, List.append_assoc,
      skipComments_bind_append named.ignores before (named.noComment written rest)]
    exact reads.complete written follow

theorem caseList_reads {isMember : UInt8 → Bool}
    (reads : item.Reads phrase (Before isMember)) (named : NamedFirst item phrase)
    (comma : isMember 44 = false) (slash : isMember Byte.slash = false)
    (brace : isMember 125 = false) :
    (caseList item).Reads (Cases phrase) Anything := by
  have left : Solid "\x7b" 123 := by decide
  have right : Solid "\x7d" 125 := by decide
  have mark : Solid "," 44 := by decide
  have listReads := listOf_reads (commented_reads reads named) (symbol_reads mark)
    (fun written => .symbol mark written comma _) (by
      rintro _ _ ⟨-, written⟩
      simp [named.nonempty written])
  constructor
  · intro bytes rest values matched
    simp only [caseList, bind_eq_some_iff, pure_eq_some_iff] at matched
    obtain ⟨_, _, leftMatched, cases, _, casesMatched, _, _, skipped, _, _, rightMatched,
      rfl, rfl⟩ := matched
    obtain ⟨_, closing, rfl⟩ := (symbol_reads right).sound rightMatched
    obtain ⟨_, rfl, -, closed⟩ := skipComments_sound skipped
    obtain ⟨_, body, rfl⟩ := listReads.sound casesMatched
    obtain ⟨_, opening, rfl⟩ := (symbol_reads left).sound leftMatched
    have before := closed (by simp [symbol_ne_nil right closing])
    exact ⟨_, .braced opening body before closing, by simp only [List.append_assoc]⟩
  · rintro _ rest values ⟨opening, body, before, closing⟩ -
    simp only [List.append_assoc]
    have noComment := lead?_symbol_ne right (by decide : (125 : UInt8) ≠ Byte.slash) closing rest
    have noMark : Before (· == 44) (_ ++ (_ ++ rest)) :=
      .trivia before rfl (.symbol right closing rfl rest)
    have noItem := named.fails (.symbol right closing rfl rest)
    have stops := (skipComments_bind_append named.ignores before noComment).trans noItem
    rw [caseList, bind_of_match (symbol_complete left opening _),
      bind_of_match (listReads.complete body ⟨.trivia before slash (.symbol right closing brace _),
        stops, symbol_eq_none mark noMark.lead?_ne⟩),
      skipComments_bind_append ((symbol_ignoresBlanks _).bind _) before noComment,
      bind_of_match (symbol_complete right closing _), pure_apply]

end Cases

theorem Ident.rule_namedFirst : NamedFirst Ident.rule Identifier where
  ignores := Ident.rule_ignoresBlanks
  leads := by
    rintro _ _ ⟨named⟩ rest
    exact lead?_name named rest
  fails := Ident.rule_eq_none

namespace EnumCase

theorem rule_reads :
    rule.Reads Written (Before fun byte => byte == 61 || Byte.isValueByte byte) := by
  constructor
  · intro bytes rest enumCase matched
    simp only [rule, bind_eq_some_iff, pure_eq_some_iff] at matched
    obtain ⟨name, _, nameMatched, value, _, valueMatched, rfl, rfl⟩ := matched
    obtain ⟨_, assigned, rfl⟩ := assignedValue_reads.sound valueMatched
    obtain ⟨_, title, rfl⟩ := Ident.rule_reads.sound nameMatched
    exact ⟨_, .intro title assigned, List.append_assoc ..⟩
  · rintro _ rest _ ⟨title, assigned⟩ before
    have names : Before Byte.isNameByte rest :=
      before.mono fun byte member => by simp [Byte.isValueByte_of_isNameByte member]
    rw [List.append_assoc, rule,
      bind_of_match (Ident.rule_reads.complete title (Before.clear_name
        (.assigned assigned rfl names))),
      bind_of_match (assignedValue_reads.complete assigned before), pure_apply]

theorem rule_namedFirst : NamedFirst rule Written where
  ignores := Ident.rule_ignoresBlanks.bind _
  leads := by
    rintro _ _ ⟨title, -⟩ rest
    rw [List.append_assoc]
    exact Ident.rule_namedFirst.leads title _
  fails before := bind_of_no_match (Ident.rule_eq_none before)

end EnumCase

/-- A list of cases opens with a brace. -/
theorem Grammar.Before.cases {α : Type} {isMember : UInt8 → Bool} {phrase : Phrase α}
    {word : List UInt8} {values : List α} (written : Cases phrase word values)
    (outside : isMember 123 = false) (rest : List UInt8) : Before isMember (word ++ rest) := by
  obtain ⟨opening, -, -, -⟩ := written
  simp only [List.append_assoc]
  exact .symbol (by decide) opening outside _

namespace Enumeration

theorem rule_reads : rule.Reads Written Anything := by
  have leading : Solid "enum" 101 := by decide
  have colon : Solid ":" 58 := by decide
  have casesReads := caseList_reads EnumCase.rule_reads EnumCase.rule_namedFirst
    (by decide) (by decide) (by decide)
  constructor
  · intro bytes rest enumeration matched
    simp only [rule, bind_eq_some_iff] at matched
    obtain ⟨_, _, skipped, _, _, wordMatched, name, _, nameMatched, _, _, colonMatched, spelling,
      _, scalarMatched, matched⟩ := matched
    cases known : Scalar.ofName? spelling with
    | none =>
      rw [known] at matched
      cases matched
    | some base =>
      simp only [known, bind_eq_some_iff, pure_eq_some_iff] at matched
      obtain ⟨metadata, _, metadataMatched, cases, _, casesMatched, rfl, rfl⟩ := matched
      obtain ⟨_, body, rfl⟩ := casesReads.sound casesMatched
      obtain ⟨_, notes, rfl⟩ := Metadata.optionalRule_reads.sound metadataMatched
      obtain ⟨_, scalar, rfl⟩ := name_reads.sound scalarMatched
      obtain ⟨_, mark, rfl⟩ := (symbol_reads colon).sound colonMatched
      obtain ⟨_, title, rfl⟩ := Ident.rule_reads.sound nameMatched
      obtain ⟨⟨_, opening, rfl⟩, clear⟩ := keyword_sound leading wordMatched
      obtain ⟨_, rfl, -, closed⟩ := skipComments_sound skipped
      have before := closed (by simp [symbol_ne_nil leading opening])
      exact ⟨_, .intro before opening (title.startsBlank clear) title mark scalar
        (Scalar.ofName?_eq_some_iff.mp known) notes body, by simp only [List.append_assoc]⟩
  · rintro _ rest _ ⟨before, opening, starts, title, mark, scalar, known, notes, body⟩ -
    simp only [List.append_assoc]
    rw [rule, skipComments_bind_append ((keyword_ignoresBlanks _).bind _) before
        (lead?_symbol_ne leading (by decide) opening _),
      bind_of_match (keyword_complete leading opening (starts.clear _)),
      bind_of_match (Ident.rule_reads.complete title (Before.clear_name
        (.symbol colon mark rfl _))),
      bind_of_match (symbol_complete colon mark _),
      bind_of_match (name_reads.complete scalar (Before.clear_name
        (.annotated notes rfl (.cases body rfl _)))),
      Scalar.ofName?_eq_some_iff.mpr known]
    dsimp only
    rw [bind_of_match (Metadata.optionalRule_reads.complete notes (.cases body rfl _)),
      bind_of_match (casesReads.complete body trivial), pure_apply]

end Enumeration

namespace TaggedUnion

theorem rule_reads : rule.Reads Written Anything := by
  have leading : Solid "union" 117 := by decide
  have casesReads := caseList_reads (Ident.rule_reads.strengthen Before.clear_name)
    Ident.rule_namedFirst (by decide) (by decide) (by decide)
  constructor
  · intro bytes rest union matched
    simp only [rule, bind_eq_some_iff, pure_eq_some_iff] at matched
    obtain ⟨_, _, skipped, _, _, wordMatched, name, _, nameMatched, metadata, _, metadataMatched,
      cases, _, casesMatched, rfl, rfl⟩ := matched
    obtain ⟨_, body, rfl⟩ := casesReads.sound casesMatched
    obtain ⟨_, notes, rfl⟩ := Metadata.optionalRule_reads.sound metadataMatched
    obtain ⟨_, title, rfl⟩ := Ident.rule_reads.sound nameMatched
    obtain ⟨⟨_, opening, rfl⟩, clear⟩ := keyword_sound leading wordMatched
    obtain ⟨_, rfl, -, closed⟩ := skipComments_sound skipped
    have before := closed (by simp [symbol_ne_nil leading opening])
    exact ⟨_, .intro before opening (title.startsBlank clear) title notes body,
      by simp only [List.append_assoc]⟩
  · rintro _ rest _ ⟨before, opening, starts, title, notes, body⟩ -
    simp only [List.append_assoc]
    rw [rule, skipComments_bind_append ((keyword_ignoresBlanks _).bind _) before
        (lead?_symbol_ne leading (by decide) opening _),
      bind_of_match (keyword_complete leading opening (starts.clear _)),
      bind_of_match (Ident.rule_reads.complete title (Before.clear_name
        (.annotated notes rfl (.cases body rfl _)))),
      bind_of_match (Metadata.optionalRule_reads.complete notes (.cases body rfl _)),
      bind_of_match (casesReads.complete body trivial), pure_apply]

end TaggedUnion

end FlatSchema
