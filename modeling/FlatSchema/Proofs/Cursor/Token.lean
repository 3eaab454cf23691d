import FlatSchema.Proofs.Cursor.Basic

/-!
Tokens by positions. Every token first brings its position into the buffer, while comments may be
skipped from a position behind the end, which then stays as it is. The search for a closing quote
steps over two bytes at a backslash and may so come to stand behind the end.
-/

namespace FlatSchema

namespace Cursor

open Checked

def skipBlanks : Cursor Unit := do
  let bytes ← read
  let position ← get
  moveTo (← scan Byte.isBlank bytes (min position (size bytes)))

def comment : Cursor Unit := do
  skipBlanks
  let bytes ← read
  let start ← get
  let rest ← slice bytes start (size bytes)
  if [Byte.slash, Byte.slash] <+: rest then
    moveTo (← lineEnd start rest)
  else if [Byte.slash, Byte.star] <+: rest then
    match ← blockEnd start rest with
    | some stop => moveTo stop
    | none => failure
  else
    failure

def skipCommentsWithin : Nat → Cursor Unit
  | 0 => cutOff
  | rounds + 1 => do
    match ← optional comment with
    | none => return ()
    | some () => skipCommentsWithin rounds

def skipComments : Cursor Unit :=
  bounded skipCommentsWithin

def symbol (text : String) : Cursor Unit := do
  skipBlanks
  let bytes ← read
  let start ← get
  match add? start (size (utf8Bytes text)) with
  | none => failure
  | some stop =>
    if stop ≤ size bytes then
      if (← slice bytes start stop) = utf8Bytes text then moveTo stop else failure
    else
      failure

def keyword (word : String) : Cursor Unit := do
  symbol word
  let bytes ← read
  let position ← get
  if (bytes[position.toNat]?).any Byte.isNameByte then failure else return ()

/-- Reads the bytes up to a position, which have to be UTF-8. -/
def textUpTo (stop : UInt64) : Cursor String := do
  let bytes ← read
  let start ← get
  match ofUtf8? (← slice bytes start stop) with
  | none => failure
  | some text => do
    moveTo stop
    return text

def name : Cursor String := do
  skipBlanks
  let bytes ← read
  let start ← get
  if (bytes[start.toNat]?).any Byte.isNameStart then
    textUpTo (← scan Byte.isNameByte bytes (← add start 1))
  else
    failure

def value : Cursor String := do
  skipBlanks
  let bytes ← read
  let start ← get
  let stop ← scan Byte.isValueByte bytes start
  if stop = start then failure else textUpTo stop

def stringLiteral : Cursor String := do
  symbol "\""
  let bytes ← read
  let start ← get
  match ← closingQuote bytes start with
  | none => failure
  | some stop =>
    let text ← textUpTo stop
    moveTo (← add stop 1)
    return text

end Cursor

namespace Cursor

open Checked

variable {buffer : List UInt8}

theorem skipBlanks_run (short : Short buffer) (position : UInt64) :
    ∃ stop, skipBlanks.run buffer position = some (.ok (some ((), stop))) ∧
      min position.toNat buffer.length ≤ stop.toNat ∧ stop.toNat ≤ buffer.length ∧
      buffer.drop stop.toNat = (buffer.drop position.toNat).dropWhile Byte.isBlank := by
  have toNat_start : (min position (size buffer)).toNat = min position.toNat buffer.length := by
    change (if position ≤ size buffer then position else size buffer).toNat = _
    have toNat_size := short.toNat_size
    simp only [UInt64.le_iff_toNat_le]
    split <;> omega
  have ahead : buffer.drop (min position.toNat buffer.length) = buffer.drop position.toNat := by
    rw [List.drop_eq_drop_iff]
    omega
  obtain ⟨stop, scanned, toNat_stop, stopAhead⟩ :=
    scan_eq_pure Byte.isBlank short (min position (size buffer))
  have inside := scan_le_length (by omega) toNat_stop
  rw [toNat_start] at inside stopAhead
  rw [ahead] at stopAhead
  refine ⟨stop, ?_, inside.1, inside.2, stopAhead⟩
  rw [skipBlanks, run_read_bind, run_get_bind, run_bind_of_done scanned, run_moveTo]

/-- After blanks the position is inside of the buffer. -/
theorem FollowsAt.skipBlanks_bind {α : Type} {next : Cursor α} {nextRule : Rule α}
    (short : Short buffer) (position : UInt64)
    (second : ∀ middle : UInt64, middle.toNat ≤ buffer.length →
      FollowsAt next nextRule buffer middle) :
    FollowsAt (skipBlanks >>= fun _ => next) (Token.skipBlanks >>= fun _ => nextRule) buffer
      position := by
  obtain ⟨middle, ran, -, inside, ahead⟩ := skipBlanks_run short position
  exact .bind_of_match rfl ran ⟨ahead, .inl inside⟩ (second middle inside)

theorem symbol_follows {text : String} (length : (utf8Bytes text).length < 2 ^ 64) :
    Follows (symbol text) (Token.symbol text) := by
  intro buffer short position
  refine .skipBlanks_bind short position fun start inside => ?_
  have small : buffer.length < 2 ^ 63 := short
  have toNat_length : (size (utf8Bytes text)).toNat = (utf8Bytes text).length := by
    rw [size, UInt64.toNat_ofNat']
    omega
  have tooLong (beyond : buffer.length < start.toNat + (utf8Bytes text).length) :
      Rule.exactly (utf8Bytes text) (buffer.drop start.toNat) = none := by
    rw [Rule.exactly_apply, if_neg]
    intro taken
    have shorter := congrArg List.length taken
    rw [List.length_take, List.length_drop] at shorter
    omega
  cases sum : add? start (size (utf8Bytes text)) with
  | none =>
    have overflows := le_of_add? sum
    refine .of_unmatched (tooLong (by omega)) ?_
    rw [run_read_bind, run_get_bind, sum, run_failure]
  | some stop =>
    have toNat_stop := toNat_of_add? sum
    by_cases fits : stop ≤ size buffer
    · have stopInside : stop.toNat ≤ buffer.length := by
        rwa [UInt64.le_iff_toNat_le, short.toNat_size] at fits
      have sliced := slice_eq_pure short (by omega : start.toNat ≤ stop.toNat) stopInside
      have count : stop.toNat - start.toNat = (utf8Bytes text).length := by omega
      rw [count] at sliced
      by_cases same : (buffer.drop start.toNat).take (utf8Bytes text).length = utf8Bytes text
      · refine .of_matched ((Rule.exactly_apply _ _).trans (if_pos same)) ?_ ⟨?_, .inl stopInside⟩
        · rw [run_read_bind, run_get_bind, sum]
          simp only [if_pos fits]
          rw [run_bind_of_done sliced, if_pos same, run_moveTo]
        · rw [List.drop_drop, toNat_stop, toNat_length]
      · refine .of_unmatched ((Rule.exactly_apply _ _).trans (if_neg same)) ?_
        rw [run_read_bind, run_get_bind, sum]
        simp only [if_pos fits]
        rw [run_bind_of_done sliced, if_neg same, run_failure]
    · refine .of_unmatched (tooLong ?_) ?_
      · rw [UInt64.le_iff_toNat_le, short.toNat_size] at fits
        omega
      · rw [run_read_bind, run_get_bind, sum]
        simp only [if_neg fits]
        rw [run_failure]

theorem keyword_follows {word : String} (length : (utf8Bytes word).length < 2 ^ 64) :
    Follows (keyword word) (Token.keyword word) := by
  refine (symbol_follows length).bind fun _ buffer short position => ?_
  cases ahead : buffer.drop position.toNat with
  | nil =>
    refine .of_matched (congrArg _ ahead) ?_ ⟨ahead, .inr rfl⟩
    rw [run_read_bind, run_get_bind, List.getElem?_eq_none (List.drop_eq_nil_iff.mp ahead)]
    rfl
  | cons byte bytes =>
    have found : (buffer[position.toNat]?).any Byte.isNameByte = Byte.isNameByte byte := by
      rw [getElem?_of_cons ahead, Option.any_some]
    by_cases member : Byte.isNameByte byte = true
    · refine .of_unmatched ?_ ?_
      · rw [ahead, Rule.notBefore, if_pos member]
      · rw [run_read_bind, run_get_bind, found, if_pos member, run_failure]
    · have boundary : Rule.notBefore Byte.isNameByte (buffer.drop position.toNat) =
          some ((), byte :: bytes) := by
        rw [ahead, Rule.notBefore, if_neg member]
      refine .of_matched boundary ?_ ⟨ahead, .inr rfl⟩
      rw [run_read_bind, run_get_bind, found, if_neg member, run_pure]

theorem textUpTo_run (short : Short buffer) {start stop : UInt64} {bytes rest : List UInt8}
    (ahead : buffer.drop start.toNat = bytes ++ rest)
    (toNat_stop : stop.toNat = start.toNat + bytes.length) (inside : start.toNat ≤ buffer.length) :
    (textUpTo stop).run buffer start =
      some (.ok ((ofUtf8? bytes).map fun text => (text, stop))) := by
  have total := congrArg List.length ahead
  rw [List.length_drop, List.length_append] at total
  have sliced := slice_eq_pure short (by omega : start.toNat ≤ stop.toNat)
    (by omega : stop.toNat ≤ buffer.length)
  rw [ahead, List.take_left' (by omega)] at sliced
  rw [textUpTo, run_read_bind, run_get_bind, run_bind_of_done sliced]
  cases ofUtf8? bytes with
  | none => rfl
  | some text => rfl

section Words

variable {isFirst isOther : UInt8 → Bool}

/-- What the rules for names and values do after blanks. -/
abbrev wordRule (isFirst isOther : UInt8 → Bool) : Rule String := do
  let first ← Rule.byteOf isFirst
  let others ← Rule.bytesOf isOther
  return ofAscii (first :: others)

theorem wordRule_of_not_first {byte : UInt8} (outside : ¬ isFirst byte = true)
    (bytes : List UInt8) : wordRule isFirst isOther (byte :: bytes) = none := by
  apply Rule.bind_of_no_match
  rw [Rule.byteOf, if_neg outside]

theorem wordRule_of_first {byte : UInt8} (member : isFirst byte = true) (bytes : List UInt8) :
    wordRule isFirst isOther (byte :: bytes) =
      some (ofAscii (byte :: bytes.takeWhile isOther), bytes.dropWhile isOther) := by
  have first : Rule.byteOf isFirst (byte :: bytes) = some (byte, bytes) := by
    rw [Rule.byteOf, if_pos member]
  rw [wordRule, Rule.bind_of_match first]
  rfl

/-- A word is the text up to where the bytes of its class end; being ASCII it is UTF-8. -/
theorem FollowsAt.word (short : Short buffer)
    (ascii : ∀ byte, isFirst byte = true ∨ isOther byte = true → byte.toNat < 128)
    {start stop : UInt64} {byte : UInt8} {bytes : List UInt8}
    (ahead : buffer.drop start.toNat = byte :: bytes) (member : isFirst byte = true)
    (toNat_stop : stop.toNat = start.toNat + ((bytes.takeWhile isOther).length + 1))
    {cursor : Cursor String}
    (ran : cursor.run buffer start = (textUpTo stop).run buffer start) :
    FollowsAt cursor (wordRule isFirst isOther) buffer start := by
  have split : buffer.drop start.toNat =
      (byte :: bytes.takeWhile isOther) ++ bytes.dropWhile isOther := by
    rw [ahead, List.cons_append, List.takeWhile_append_dropWhile]
  have length : stop.toNat = start.toNat + (byte :: bytes.takeWhile isOther).length := by
    rw [toNat_stop, List.length_cons]
  have small : ∀ other ∈ byte :: bytes.takeWhile isOther, other.toNat < 128 := by
    intro other membership
    rcases List.mem_cons.mp membership with rfl | inside
    · exact ascii other (.inl member)
    · exact ascii other (.inr (List.all_eq_true.mp List.all_takeWhile other inside))
  have total := congrArg List.length split
  rw [List.length_drop, List.length_append, List.length_cons] at total
  have read : wordRule isFirst isOther (buffer.drop start.toNat) =
      some (ofAscii (byte :: bytes.takeWhile isOther), bytes.dropWhile isOther) := by
    rw [ahead, wordRule_of_first member]
  refine .of_matched read ?_ ⟨drop_of_toNat split length, .inl (by omega)⟩
  rw [ran, textUpTo_run short split length (by omega),
    ofUtf8?_eq_some_iff.mpr (utf8Bytes_ofAscii small)]
  rfl

end Words

theorem name_follows : Follows name Token.name := by
  intro buffer short position
  refine .skipBlanks_bind short position fun start inside => ?_
  have ascii (byte : UInt8)
      (member : Byte.isNameStart byte = true ∨ Byte.isNameByte byte = true) :
      byte.toNat < 128 :=
    Byte.toNat_lt_of_isValueByte
      (Byte.isValueByte_of_isNameByte (member.elim Byte.isNameByte_of_isNameStart id))
  cases ahead : buffer.drop start.toNat with
  | nil =>
    refine .of_unmatched (congrArg _ ahead) ?_
    rw [run_read_bind, run_get_bind, List.getElem?_eq_none (List.drop_eq_nil_iff.mp ahead)]
    rfl
  | cons byte bytes =>
    have found : (buffer[start.toNat]?).any Byte.isNameStart = Byte.isNameStart byte := by
      rw [getElem?_of_cons ahead, Option.any_some]
    by_cases member : Byte.isNameStart byte = true
    · obtain ⟨second, sum, toNat_second, secondAhead⟩ := add_one_eq_pure short ahead
      obtain ⟨stop, scanned, toNat_stop, -⟩ := scan_eq_pure Byte.isNameByte short second
      rw [secondAhead, toNat_second, Nat.add_assoc, Nat.add_comm 1] at toNat_stop
      refine .word short ascii ahead member toNat_stop ?_
      rw [run_read_bind, run_get_bind, found, if_pos member, run_bind_of_done sum,
        run_bind_of_done scanned]
    · refine .of_unmatched ((congrArg _ ahead).trans (wordRule_of_not_first member bytes)) ?_
      rw [run_read_bind, run_get_bind, found, if_neg member, run_failure]

theorem value_follows : Follows value Token.value := by
  intro buffer short position
  refine .skipBlanks_bind short position fun start inside => ?_
  have ascii (byte : UInt8)
      (member : Byte.isValueByte byte = true ∨ Byte.isValueByte byte = true) :
      byte.toNat < 128 :=
    Byte.toNat_lt_of_isValueByte (member.elim id id)
  obtain ⟨stop, scanned, toNat_stop, -⟩ := scan_eq_pure Byte.isValueByte short start
  cases ahead : buffer.drop start.toNat with
  | nil =>
    rw [ahead, List.takeWhile_nil, List.length_nil, Nat.add_zero] at toNat_stop
    refine .of_unmatched (congrArg _ ahead) ?_
    rw [run_read_bind, run_get_bind, run_bind_of_done scanned,
      if_pos (UInt64.toNat_inj.mp toNat_stop), run_failure]
  | cons byte bytes =>
    by_cases member : Byte.isValueByte byte = true
    · rw [ahead, List.takeWhile_cons_of_pos member, List.length_cons] at toNat_stop
      have moved : stop ≠ start := by
        rintro rfl
        omega
      refine .word short ascii ahead member toNat_stop ?_
      rw [run_read_bind, run_get_bind, run_bind_of_done scanned, if_neg moved]
    · rw [ahead, List.takeWhile_cons_of_neg member, List.length_nil, Nat.add_zero] at toNat_stop
      refine .of_unmatched ((congrArg _ ahead).trans (wordRule_of_not_first member bytes)) ?_
      rw [run_read_bind, run_get_bind, run_bind_of_done scanned,
        if_pos (UInt64.toNat_inj.mp toNat_stop), run_failure]

theorem stringLiteral_follows : Follows stringLiteral Token.stringLiteral := by
  intro buffer short position
  refine (symbol_follows (by decide) short position).bind fun _ start stands opened => ?_
  obtain ⟨-, inside⟩ := stands.le_length (Token.symbol_advances (by decide) _ _ _ opened)
  have small : buffer.length < 2 ^ 63 := short
  obtain ⟨found, searched, toNat_found⟩ := closingQuote_eq_pure short start
  cases split : Token.splitAtQuote? (buffer.drop start.toNat) with
  | none =>
    rw [split, Option.map_none, Option.map_eq_none_iff] at toNat_found
    subst toNat_found
    refine .of_unmatched (Rule.bind_of_no_match split) ?_
    rw [run_read_bind, run_get_bind, run_bind_of_done searched]
    rfl
  | some result =>
    obtain ⟨text, rest⟩ := result
    rw [split, Option.map_some, Option.map_eq_some_iff] at toNat_found
    obtain ⟨stop, rfl, toNat_stop⟩ := toNat_found
    obtain ⟨-, whole⟩ := Token.splitAtQuote?_sound split
    have stopAhead := drop_of_toNat whole.symm toNat_stop
    obtain ⟨last, sum, toNat_last, lastAhead⟩ := add_one_eq_pure short stopAhead
    have before := (lt_size_of_cons short stopAhead).1
    have ran := textUpTo_run short whole.symm toNat_stop inside
    cases decoded : ofUtf8? text with
    | none =>
      rw [decoded] at ran
      refine .of_unmatched ?_ ?_
      · rw [Rule.bind_of_match split, decoded]
        rfl
      · rw [run_read_bind, run_get_bind, run_bind_of_done searched]
        exact run_bind_of_no_match ran
    | some literal =>
      rw [decoded] at ran
      refine .of_matched (show _ = some (literal, rest) from ?_) ?_ ⟨lastAhead, .inl (by omega)⟩
      · rw [Rule.bind_of_match split, decoded]
        rfl
      · rw [run_read_bind, run_get_bind, run_bind_of_done searched]
        refine (run_bind_of_match ran).trans ?_
        rw [run_bind_of_done sum]
        rfl

theorem comment_follows : Follows comment Token.comment := by
  intro buffer short position
  obtain ⟨start, blanksRan, -, inside, ahead⟩ := skipBlanks_run short position
  have same : Token.comment (buffer.drop position.toNat) =
      Token.comment (buffer.drop start.toNat) := by
    rw [ahead, Token.comment_ignoresBlanks]
  have sliced : slice buffer start (size buffer) = pure (buffer.drop start.toNat) := by
    have toNat_size := short.toNat_size
    rw [slice_eq_pure short (by omega) (by omega), List.take_of_length_le]
    rw [List.length_drop]
    omega
  by_cases line : [Byte.slash, Byte.slash] <+: buffer.drop start.toNat
  · obtain ⟨stop, ended, stopInside, stopAhead⟩ := lineEnd_eq_pure short inside rfl
    have matched : Token.comment (buffer.drop position.toNat) =
        some ((), Token.afterNewline (buffer.drop start.toNat)) := by
      obtain ⟨body, split⟩ := line
      rw [same, ← split, Token.comment_slashes]
      rfl
    refine .of_matched matched ?_ ⟨stopAhead, .inl stopInside⟩
    rw [comment, run_bind_of_match blanksRan, run_read_bind, run_get_bind,
      run_bind_of_done sliced, if_pos line, run_bind_of_done ended, run_moveTo]
  · by_cases block : [Byte.slash, Byte.star] <+: buffer.drop start.toNat
    · obtain ⟨body, split⟩ := block
      have opened : buffer.drop start.toNat = Byte.slash :: Byte.star :: body := split.symm
      obtain ⟨found, ended, foundInside, foundAhead⟩ := blockEnd_eq_pure short opened
      have matched := same
      rw [← split, Token.comment_slashStar, ← foundAhead] at matched
      have begun : comment.run buffer position =
          (found.elim failure moveTo : Cursor Unit).run buffer start := by
        rw [comment, run_bind_of_match blanksRan, run_read_bind, run_get_bind,
          run_bind_of_done sliced, if_neg line, if_pos ⟨body, split⟩, opened,
          run_bind_of_done ended]
        cases found <;> rfl
      cases found with
      | none => exact .of_unmatched matched begun
      | some stop => exact .of_matched matched begun ⟨rfl, .inl (foundInside stop rfl)⟩
    · refine .of_unmatched ?_ ?_
      · rw [same]
        refine Token.comment_eq_none_of_not_prefix line block ?_
        rw [ahead]
        exact Grammar.clear_dropWhile _ _
      · rw [comment, run_bind_of_match blanksRan, run_read_bind, run_get_bind,
          run_bind_of_done sliced, if_neg line, if_neg block, run_failure]

theorem skipComments_follows : Follows skipComments Token.skipComments := by
  refine .loop fun {buffer} short rounds position later => ?_
  rw [skipCommentsWithin, Token.skipComments_eq]
  refine (comment_follows short position).optional.bind fun found? middle _ found => ?_
  rcases Rule.optional_eq_some found with ⟨_, rfl, matched⟩ | ⟨rfl, -, -⟩
  · exact later middle (Token.comment_advances _ _ _ matched)
  · exact .pure ()

end Cursor

end FlatSchema
