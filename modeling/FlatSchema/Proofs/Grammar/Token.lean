import FlatSchema.Proofs.Grammar.Reading
import FlatSchema.Proofs.Text.Utf8

/-!
Tokens as they are read: each with the blanks in front of it, a name or a value as far as its bytes
go, a literal up to the first quote that nothing protects.
-/

namespace FlatSchema

namespace Byte

theorem isNameByte_of_isNameStart {byte : UInt8} (start : isNameStart byte = true) :
    isNameByte byte = true := by
  simp [isNameByte, start]

theorem isValueByte_of_isNameByte {byte : UInt8} (member : isNameByte byte = true) :
    isValueByte byte = true := by
  simp [isValueByte, member]

/-- Bytes of values, and so of names, are ASCII. -/
theorem toNat_lt_of_isValueByte {byte : UInt8} (member : isValueByte byte = true) :
    byte.toNat < 128 := by
  simp only [isValueByte, isNameByte, isNameStart, isLetter, isDigit, Bool.or_eq_true,
    Bool.and_eq_true, decide_eq_true_eq, UInt8.le_iff_toNat_le, ← UInt8.toNat_inj,
    UInt8.reduceToNat] at member
  omega

theorem isBlank_of_isValueByte {byte : UInt8} (member : isValueByte byte = true) :
    isBlank byte = false := by
  rw [Bool.eq_false_iff]
  intro blank
  simp only [isValueByte, isNameByte, isNameStart, isLetter, isDigit, isBlank, Bool.or_eq_true,
    Bool.and_eq_true, decide_eq_true_eq, UInt8.le_iff_toNat_le, ← UInt8.toNat_inj,
    UInt8.reduceToNat] at member blank
  omega

theorem isBlank_of_isNameStart {byte : UInt8} (start : isNameStart byte = true) :
    isBlank byte = false :=
  isBlank_of_isValueByte (isValueByte_of_isNameByte (isNameByte_of_isNameStart start))

theorem isValueByte_of_isBlank {byte : UInt8} (blank : isBlank byte = true) :
    isValueByte byte = false := by
  rw [Bool.eq_false_iff]
  intro member
  rw [isBlank_of_isValueByte member] at blank
  cases blank

theorem isNameByte_of_isBlank {byte : UInt8} (blank : isBlank byte = true) :
    isNameByte byte = false := by
  rw [Bool.eq_false_iff]
  intro member
  have outside := isValueByte_of_isBlank blank
  rw [isValueByte_of_isNameByte member] at outside
  cases outside

end Byte

namespace Grammar

/-- No byte of a class stands next. -/
def Clear (isMember : UInt8 → Bool) (bytes : List UInt8) : Prop :=
  ∀ byte ∈ bytes.head?, isMember byte = false

/-- The first byte that is no blank. -/
def lead? (bytes : List UInt8) : Option UInt8 :=
  (bytes.dropWhile Byte.isBlank).head?

theorem clear_cons {isMember : UInt8 → Bool} {byte : UInt8} {bytes : List UInt8} :
    Clear isMember (byte :: bytes) ↔ isMember byte = false := by
  simp [Clear]

theorem clear_dropWhile (isMember : UInt8 → Bool) (bytes : List UInt8) :
    Clear isMember (bytes.dropWhile isMember) := by
  intro byte found
  have rejected := List.head?_dropWhile_not isMember bytes
  rw [Option.mem_def.mp found] at rejected
  simpa using rejected

theorem dropWhile_of_clear {isMember : UInt8 → Bool} {bytes : List UInt8}
    (clear : Clear isMember bytes) : bytes.dropWhile isMember = bytes := by
  cases bytes with
  | nil => rfl
  | cons byte bytes => rw [List.dropWhile_cons_of_neg (by simp [clear_cons.mp clear])]

theorem takeWhile_of_clear {isMember : UInt8 → Bool} {bytes : List UInt8}
    (clear : Clear isMember bytes) : bytes.takeWhile isMember = [] := by
  cases bytes with
  | nil => rfl
  | cons byte bytes => rw [List.takeWhile_cons_of_neg (by simp [clear_cons.mp clear])]

theorem blanks_takeWhile (bytes : List UInt8) : Blanks (bytes.takeWhile Byte.isBlank) :=
  fun byte membership => List.all_eq_true.mp List.all_takeWhile byte membership

theorem dropWhile_append_of_blanks {blanks : List UInt8} (blank : Blanks blanks)
    (rest : List UInt8) :
    (blanks ++ rest).dropWhile Byte.isBlank = rest.dropWhile Byte.isBlank :=
  List.dropWhile_append_of_pos blank

@[simp]
theorem lead?_append_of_blanks {blanks : List UInt8} (blank : Blanks blanks)
    (rest : List UInt8) : lead? (blanks ++ rest) = lead? rest := by
  rw [lead?, dropWhile_append_of_blanks blank, lead?]

theorem lead?_cons {byte : UInt8} (solid : Byte.isBlank byte = false) (rest : List UInt8) :
    lead? (byte :: rest) = some byte := by
  rw [lead?, List.dropWhile_cons_of_neg (by simp [solid]), List.head?_cons]

/-- What keeps the first solid byte out of a class keeps the next byte out of it, too. -/
theorem clear_of_lead {isMember : UInt8 → Bool} {bytes : List UInt8}
    (blankless : ∀ byte, Byte.isBlank byte = true → isMember byte = false)
    (leads : ∀ byte ∈ lead? bytes, isMember byte = false) : Clear isMember bytes := by
  cases bytes with
  | nil => simp [Clear]
  | cons byte bytes =>
    rw [clear_cons]
    by_cases blank : Byte.isBlank byte = true
    · exact blankless byte blank
    · exact leads byte (lead?_cons (by simpa using blank) bytes)

theorem SpellsName.cons {bytes : List UInt8} (spelled : SpellsName bytes) :
    ∃ first others, bytes = first :: others ∧ Byte.isNameStart first = true ∧
      ∀ byte ∈ others, Byte.isNameByte byte = true := by
  cases bytes with
  | nil => cases spelled
  | cons first others => exact ⟨first, others, rfl, spelled⟩

end Grammar

namespace Rule

open Grammar Token

variable {α β : Type}

theorem Reads.congr {rule : Rule α} {phrase other : Phrase α} {follows : List UInt8 → Prop}
    (reads : rule.Reads phrase follows)
    (same : ∀ {word value}, phrase word value ↔ other word value) :
    rule.Reads other follows where
  sound matched := by
    obtain ⟨word, written, split⟩ := reads.sound matched
    exact ⟨word, same.mp written, split⟩
  complete written := reads.complete (same.mpr written)

/-- Blanks in front make no difference to the rule. -/
def IgnoresBlanks (rule : Rule α) : Prop :=
  ∀ bytes, rule (bytes.dropWhile Byte.isBlank) = rule bytes

theorem IgnoresBlanks.bind {rule : Rule α} (ignores : rule.IgnoresBlanks) (next : α → Rule β) :
    (rule >>= next : Rule β).IgnoresBlanks := by
  intro bytes
  rw [bind_apply, bind_apply, ignores]

theorem IgnoresBlanks.map {rule : Rule α} (ignores : rule.IgnoresBlanks) (function : α → β) :
    (function <$> rule : Rule β).IgnoresBlanks := by
  intro bytes
  rw [map_apply, map_apply, ignores]

theorem skipBlanks_bind_apply (next : Unit → Rule α) (bytes : List UInt8) :
    (skipBlanks >>= next) bytes = next () (bytes.dropWhile Byte.isBlank) := rfl

theorem skipBlanks_ignoresBlanks (next : Unit → Rule α) :
    (skipBlanks >>= next : Rule α).IgnoresBlanks := by
  intro bytes
  rw [skipBlanks_bind_apply, skipBlanks_bind_apply,
    dropWhile_of_clear (clear_dropWhile Byte.isBlank bytes)]

/-- A rule with blanks skipped in front of it reads its words with blanks in front of them. -/
theorem skipBlanks_reads {rule : Rule α} {phrase : Phrase α} {follows : List UInt8 → Prop}
    (reads : rule.Reads phrase follows)
    (solid : ∀ {word value}, phrase word value →
      ∃ byte rest, word = byte :: rest ∧ Byte.isBlank byte = false) :
    (skipBlanks >>= fun _ => rule : Rule α).Reads
      (fun whole value => ∃ blanks word, Blanks blanks ∧ phrase word value ∧
        blanks ++ word = whole) follows where
  sound {bytes rest value} matched := by
    rw [skipBlanks_bind_apply] at matched
    obtain ⟨word, written, split⟩ := reads.sound matched
    refine ⟨bytes.takeWhile Byte.isBlank ++ word,
      ⟨_, word, blanks_takeWhile bytes, written, rfl⟩, ?_⟩
    rw [List.append_assoc, split, List.takeWhile_append_dropWhile]
  complete {_ rest value} written follow := by
    obtain ⟨blanks, word, blank, written, rfl⟩ := written
    obtain ⟨byte, others, rfl, isSolid⟩ := solid written
    rw [skipBlanks_bind_apply, List.append_assoc, dropWhile_append_of_blanks blank,
      List.cons_append, List.dropWhile_cons_of_neg (by simp [isSolid])]
    exact reads.complete written follow

theorem exactly_reads (expected : List UInt8) :
    (exactly expected).Reads (fun word _ => word = expected) Anything := by
  constructor
  · intro bytes rest value matched
    induction expected generalizing bytes with
    | nil =>
      cases matched
      exact ⟨[], rfl, rfl⟩
    | cons first more inductionHypothesis =>
      cases bytes with
      | nil => cases matched
      | cons byte bytes =>
        simp only [exactly] at matched
        split at matched
        next equal =>
          obtain ⟨word, rfl, rfl⟩ := inductionHypothesis matched
          exact ⟨first :: word, rfl, by rw [equal, List.cons_append]⟩
        next => cases matched
  · rintro word rest value rfl -
    induction word with
    | nil => rfl
    | cons first more inductionHypothesis => simpa [exactly] using inductionHypothesis

theorem exactly_of_head_ne {expected : UInt8} {more bytes : List UInt8}
    (different : bytes.head? ≠ some expected) : exactly (expected :: more) bytes = none := by
  cases bytes with
  | nil => rfl
  | cons byte bytes =>
    have unequal : byte ≠ expected := by simpa using different
    simp [exactly, unequal]

/-- A first byte and then all bytes of a class that follow it. -/
theorem run_reads (isFirst isOther : UInt8 → Bool)
    (ascii : ∀ byte, isFirst byte = true ∨ isOther byte = true → byte.toNat < 128) :
    (do let first ← byteOf isFirst
        let others ← bytesOf isOther
        return ofAscii (first :: others) : Rule String).Reads
      (fun word text => utf8Bytes text = word ∧ ∃ first others, word = first :: others ∧
        isFirst first = true ∧ ∀ byte ∈ others, isOther byte = true)
      (Clear isOther) := by
  constructor
  · intro bytes rest text matched
    rw [bind_eq_some_iff] at matched
    obtain ⟨first, middle, firstMatched, matched⟩ := matched
    cases bytes with
    | nil => cases firstMatched
    | cons byte bytes =>
      simp only [byteOf] at firstMatched
      split at firstMatched
      next member =>
        obtain ⟨rfl, rfl⟩ := Prod.mk.inj (Option.some.inj firstMatched)
        have othersMatched : bytesOf isOther bytes =
            some (bytes.takeWhile isOther, bytes.dropWhile isOther) := rfl
        rw [bind_of_match othersMatched, pure_eq_some_iff] at matched
        obtain ⟨rfl, rfl⟩ := matched
        have others : ∀ byte ∈ bytes.takeWhile isOther, isOther byte = true :=
          List.all_eq_true.mp List.all_takeWhile
        refine ⟨byte :: bytes.takeWhile isOther, ⟨utf8Bytes_ofAscii ?_, byte, _, rfl, member,
          others⟩, ?_⟩
        · intro other membership
          rcases List.mem_cons.mp membership with rfl | inside
          · exact ascii other (.inl member)
          · exact ascii other (.inr (others other inside))
        · rw [List.cons_append, List.takeWhile_append_dropWhile]
      next => cases firstMatched
  · rintro word rest text ⟨spelled, first, others, rfl, member, members⟩ clear
    have small : ∀ byte ∈ first :: others, byte.toNat < 128 := by
      intro byte membership
      rcases List.mem_cons.mp membership with rfl | inside
      · exact ascii byte (.inl member)
      · exact ascii byte (.inr (members byte inside))
    have firstRead : byteOf isFirst (first :: others ++ rest) = some (first, others ++ rest) := by
      simp [byteOf, member]
    have othersRead : bytesOf isOther (others ++ rest) = some (others, rest) := by
      rw [bytesOf, List.takeWhile_append_of_pos members, List.dropWhile_append_of_pos members,
        takeWhile_of_clear clear, dropWhile_of_clear clear, List.append_nil]
    rw [bind_of_match firstRead, bind_of_match othersRead, pure_apply,
      ofAscii_eq_of_bytes small spelled]

end Rule

namespace Token

open Grammar Rule

theorem symbol_ignoresBlanks (text : String) : (symbol text).IgnoresBlanks :=
  skipBlanks_ignoresBlanks _

theorem keyword_ignoresBlanks (word : String) : (keyword word).IgnoresBlanks :=
  (symbol_ignoresBlanks word).bind _

theorem name_ignoresBlanks : name.IgnoresBlanks :=
  skipBlanks_ignoresBlanks _

/-- A text that starts with a byte that is no blank, as every fixed piece of text does. -/
def Solid (text : String) (first : UInt8) : Prop :=
  (utf8Bytes text).head? = some first ∧ Byte.isBlank first = false

instance (text : String) (first : UInt8) : Decidable (Solid text first) :=
  inferInstanceAs (Decidable (_ ∧ _))

variable {text : String} {first : UInt8}

theorem Solid.cons (solid : Solid text first) :
    utf8Bytes text = first :: (utf8Bytes text).tail := by
  obtain ⟨others, spelled⟩ := List.head?_eq_some_iff.mp solid.1
  rw [spelled, List.tail_cons]

theorem symbol_reads (solid : Solid text first) :
    (symbol text).Reads (fun word _ => Symbol text word) Anything := by
  have spelled := skipBlanks_reads (exactly_reads (utf8Bytes text)) (by
    rintro word value rfl
    exact ⟨first, _, solid.cons, solid.2⟩)
  refine spelled.congr ?_
  intro word value
  constructor
  · rintro ⟨blanks, word, blank, rfl, rfl⟩
    exact .spelled blank
  · rintro ⟨blank⟩
    exact ⟨_, _, blank, rfl, rfl⟩

theorem symbol_complete (solid : Solid text first) {word : List UInt8}
    (written : Symbol text word) (rest : List UInt8) :
    symbol text (word ++ rest) = some ((), rest) :=
  (symbol_reads solid).complete written trivial

theorem lead?_symbol (solid : Solid text first) {word : List UInt8} (written : Symbol text word)
    (rest : List UInt8) : lead? (word ++ rest) = some first := by
  obtain ⟨blank⟩ := written
  rw [List.append_assoc, lead?_append_of_blanks blank, solid.cons, List.cons_append,
    lead?_cons solid.2]

/-- A symbol is not read where another byte stands first. -/
theorem symbol_eq_none (solid : Solid text first) {bytes : List UInt8}
    (different : lead? bytes ≠ some first) : symbol text bytes = none := by
  rw [symbol, skipBlanks_bind_apply, solid.cons]
  exact exactly_of_head_ne different

theorem symbol_ne_nil (solid : Solid text first) {word : List UInt8}
    (written : Symbol text word) : word ≠ [] := by
  obtain ⟨-⟩ := written
  rw [solid.cons]
  simp

theorem keyword_complete (solid : Solid text first) {word rest : List UInt8}
    (written : Symbol text word) (clear : Clear Byte.isNameByte rest) :
    keyword text (word ++ rest) = some ((), rest) := by
  rw [keyword, bind_of_match (symbol_complete solid written rest)]
  cases rest with
  | nil => rfl
  | cons byte rest => simp [notBefore, clear_cons.mp clear]

theorem keyword_sound (solid : Solid text first) {bytes rest : List UInt8}
    (matched : keyword text bytes = some ((), rest)) :
    (∃ word, Symbol text word ∧ word ++ rest = bytes) ∧ Clear Byte.isNameByte rest := by
  rw [keyword, bind_eq_some_iff] at matched
  obtain ⟨_, middle, symbolMatched, boundary⟩ := matched
  cases middle with
  | nil =>
    cases boundary
    exact ⟨(symbol_reads solid).sound symbolMatched, by simp [Clear]⟩
  | cons byte middle =>
    simp only [notBefore] at boundary
    split at boundary
    next => cases boundary
    next outside =>
      cases boundary
      exact ⟨(symbol_reads solid).sound symbolMatched, clear_cons.mpr (by simpa using outside)⟩

theorem keyword_eq_none (solid : Solid text first) {bytes : List UInt8}
    (different : lead? bytes ≠ some first) : keyword text bytes = none :=
  bind_of_no_match (symbol_eq_none solid different)

theorem name_reads : name.Reads Name (Clear Byte.isNameByte) := by
  have run := skipBlanks_reads (run_reads Byte.isNameStart Byte.isNameByte ?_) ?_
  · refine run.congr ?_
    intro whole text
    constructor
    · rintro ⟨blanks, _, blank, ⟨rfl, first, others, spelled, member, members⟩, rfl⟩
      refine .spelled blank ?_
      rw [spelled]
      exact ⟨member, members⟩
    · rintro ⟨blank, spelled⟩
      exact ⟨_, _, blank, ⟨rfl, spelled.cons⟩, rfl⟩
  · rintro byte (member | member)
    · exact Byte.toNat_lt_of_isValueByte
        (Byte.isValueByte_of_isNameByte (Byte.isNameByte_of_isNameStart member))
    · exact Byte.toNat_lt_of_isValueByte (Byte.isValueByte_of_isNameByte member)
  · rintro word text ⟨-, first, others, rfl, member, -⟩
    exact ⟨first, others, rfl, Byte.isBlank_of_isNameStart member⟩

theorem value_reads : value.Reads Value (Clear Byte.isValueByte) := by
  have run := skipBlanks_reads (run_reads Byte.isValueByte Byte.isValueByte ?_) ?_
  · refine run.congr ?_
    intro whole text
    constructor
    · rintro ⟨blanks, _, blank, ⟨rfl, first, others, spelled, member, members⟩, rfl⟩
      refine .spelled blank ?_
      rw [spelled]
      exact ⟨List.cons_ne_nil _ _, by simpa using ⟨member, members⟩⟩
    · rintro ⟨blank, nonempty, members⟩
      refine ⟨_, _, blank, ⟨rfl, ?_⟩, rfl⟩
      obtain ⟨first, others, bytes⟩ := List.exists_cons_of_ne_nil nonempty
      rw [bytes] at members ⊢
      exact ⟨first, others, rfl, members first (by simp),
        fun byte membership => members byte (by simp [membership])⟩
  · rintro byte (member | member) <;> exact Byte.toNat_lt_of_isValueByte member
  · rintro word text ⟨-, first, others, rfl, member, -⟩
    exact ⟨first, others, rfl, Byte.isBlank_of_isValueByte member⟩

theorem splitAtQuote?_sound {bytes inside rest : List UInt8}
    (found : splitAtQuote? bytes = some (inside, rest)) :
    Quotable inside ∧ inside ++ Byte.quote :: rest = bytes := by
  fun_induction splitAtQuote? bytes generalizing inside with
  | case1 => cases found
  | case2 bytes =>
    cases found
    exact ⟨.nil, rfl⟩
  | case3 => cases found
  | case4 escaped bytes _ inductionHypothesis =>
    obtain ⟨⟨inside, rest⟩, within, equality⟩ := Option.map_eq_some_iff.mp found
    cases equality
    obtain ⟨quotable, rfl⟩ := inductionHypothesis within
    exact ⟨.escaped quotable, rfl⟩
  | case5 byte bytes noQuote noBackslash inductionHypothesis =>
    obtain ⟨⟨inside, rest⟩, within, equality⟩ := Option.map_eq_some_iff.mp found
    cases equality
    obtain ⟨quotable, rfl⟩ := inductionHypothesis within
    exact ⟨.plain noQuote noBackslash quotable, rfl⟩

theorem splitAtQuote?_complete {inside : List UInt8} (quotable : Quotable inside)
    (rest : List UInt8) : splitAtQuote? (inside ++ Byte.quote :: rest) = some (inside, rest) := by
  induction quotable with
  | nil =>
    rw [List.nil_append, splitAtQuote?.eq_def]
    simp
  | plain noQuote noBackslash _ inductionHypothesis =>
    rw [List.cons_append, splitAtQuote?.eq_def]
    simp [noQuote, noBackslash, inductionHypothesis]
  | escaped _ inductionHypothesis =>
    have noQuote : Byte.backslash ≠ Byte.quote := by decide
    rw [List.cons_append, List.cons_append, splitAtQuote?.eq_def]
    simp [noQuote, inductionHypothesis]

theorem stringLiteral_reads : stringLiteral.Reads Literal Anything := by
  have solid : Solid "\"" Byte.quote := by decide
  have spelled : utf8Bytes "\"" = [Byte.quote] := by decide
  constructor
  · intro bytes rest text matched
    rw [stringLiteral, bind_eq_some_iff] at matched
    obtain ⟨_, opened, quoteMatched, matched⟩ := matched
    rw [bind_eq_some_iff] at matched
    obtain ⟨inside, closed, found, matched⟩ := matched
    obtain ⟨_, ⟨blank⟩, rfl⟩ := (symbol_reads solid).sound quoteMatched
    obtain ⟨quotable, rfl⟩ := splitAtQuote?_sound found
    cases decoded : ofUtf8? inside with
    | none =>
      rw [decoded] at matched
      cases matched
    | some _ =>
      rw [decoded] at matched
      cases matched
      obtain rfl := ofUtf8?_eq_some_iff.mp decoded
      refine ⟨_, .quoted blank quotable, ?_⟩
      rw [spelled]
      simp only [List.append_assoc, List.cons_append, List.nil_append]
  · rintro _ rest text ⟨blank, quotable⟩ -
    have quoteRead := symbol_complete solid (.spelled blank)
      (utf8Bytes text ++ Byte.quote :: rest)
    rw [spelled] at quoteRead
    simp only [List.append_assoc, List.cons_append, List.nil_append] at quoteRead ⊢
    rw [stringLiteral, bind_of_match quoteRead, bind_of_match (splitAtQuote?_complete quotable rest),
      ofUtf8?_eq_some_iff.mpr rfl]
    rfl

end Token

end FlatSchema
