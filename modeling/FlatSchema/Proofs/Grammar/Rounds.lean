import FlatSchema.Proofs.Grammar.Trivia

/-!
Repetitions round by round. A repetition, a list and the comments at a place are each one part and
then the same again from where it ends, as long as every part reads a byte.
-/

namespace FlatSchema

namespace Rule

variable {α : Type} {item : Rule α} {separator : Rule Unit} {bytes middle next : List UInt8}
  {value : α}

theorem seqLeft_advances (itemAdvances : item.Advances) (separatorAdvances : separator.Advances) :
    (item <* separator : Rule α).Advances := by
  intro bytes value rest matched
  rw [seqLeft_apply] at matched
  simp only [bind_eq_some_iff, pure_eq_some_iff] at matched
  obtain ⟨_, middle, itemMatched, _, _, separatorMatched, rfl, rfl⟩ := matched
  exact Nat.lt_trans (separatorAdvances _ _ _ separatorMatched) (itemAdvances _ _ _ itemMatched)

theorem seqRight_advances (separatorAdvances : separator.Advances)
    (itemAdvances : item.Advances) : (separator *> item : Rule α).Advances := by
  intro bytes value rest matched
  rw [seqRight_apply, bind_eq_some_iff] at matched
  obtain ⟨_, middle, separatorMatched, itemMatched⟩ := matched
  exact Nat.lt_trans (itemAdvances _ _ _ itemMatched) (separatorAdvances _ _ _ separatorMatched)

/-- A repetition is a match, if there is one, and the repetition from there on. -/
theorem many_eq (itemAdvances : item.Advances) :
    many item = do
      match ← optional item with
      | none => return []
      | some value => return value :: (← many item) := by
  funext bytes
  cases found : item bytes with
  | none =>
    rw [many, collect_of_no_match found, bind_of_match (optional_of_no_match found)]
    rfl
  | some result =>
    rw [many, collect_of_match itemAdvances found, bind_of_match (optional_of_match found)]
    rfl

theorem listOf_of_no_item (noItem : item bytes = none) :
    listOf item separator bytes = some ([], bytes) := by
  have unclosed : (item <* separator : Rule α) bytes = none := by
    rw [seqLeft_apply, bind_of_no_match noItem]
  rw [listOf, bind_apply, many, collect_of_no_match unclosed]
  exact bind_of_match (optional_of_no_match noItem)

theorem listOf_of_last (found : item bytes = some (value, middle))
    (noSeparator : separator middle = none) :
    listOf item separator bytes = some ([value], middle) := by
  have unclosed : (item <* separator : Rule α) bytes = none := by
    rw [seqLeft_apply, bind_of_match found, bind_of_no_match noSeparator]
  rw [listOf, bind_apply, many, collect_of_no_match unclosed]
  exact bind_of_match (optional_of_match found)

theorem listOf_of_separator (itemAdvances : item.Advances)
    (separatorAdvances : separator.Advances) (found : item bytes = some (value, middle))
    (separated : separator middle = some ((), next)) :
    listOf item separator bytes =
      (listOf item separator next).map fun (values, rest) => (value :: values, rest) := by
  have closed : (item <* separator : Rule α) bytes = some (value, next) := by
    rw [seqLeft_apply, bind_of_match found, bind_of_match separated, pure_apply]
  rw [listOf, bind_apply, bind_apply, many, many,
    collect_of_match (seqLeft_advances itemAdvances separatorAdvances) closed]
  simp only [Option.bind_some, bind_apply, pure_apply, Option.map_bind]
  rfl

/-- A list is an item, if there is one, and after a separator the rest of the list. -/
theorem listOf_eq (itemAdvances : item.Advances) (separatorAdvances : separator.Advances) :
    listOf item separator = do
      match ← optional item with
      | none => return []
      | some value =>
        match ← optional separator with
        | none => return [value]
        | some () => return value :: (← listOf item separator) := by
  funext bytes
  cases found : item bytes with
  | none =>
    rw [listOf_of_no_item found, bind_of_match (optional_of_no_match found)]
    rfl
  | some result =>
    obtain ⟨value, middle⟩ := result
    rw [bind_of_match (optional_of_match found)]
    cases separated : separator middle with
    | none =>
      rw [listOf_of_last found separated]
      refine .trans ?_ (bind_of_match (optional_of_no_match separated)).symm
      rfl
    | some result =>
      obtain ⟨_, next⟩ := result
      rw [listOf_of_separator itemAdvances separatorAdvances found separated, Option.map_eq_bind]
      refine .trans ?_ (bind_of_match (optional_of_match separated)).symm
      rfl

/-- One item or more, up to where no separator follows. -/
def wholeList (item : Rule α) (separator : Rule Unit) : Rule (List α) := do
  let values ← listOf1 item separator
  match ← optional separator with
  | none => return values
  | some () => failure

theorem wholeList_of_no_item (noItem : item bytes = none) :
    wholeList item separator bytes = none := by
  rw [wholeList, listOf1, bind_of_no_match (bind_of_no_match noItem)]

theorem wholeList_of_last (found : item bytes = some (value, middle))
    (noSeparator : separator middle = none) :
    wholeList item separator bytes = some ([value], middle) := by
  have unopened : (separator *> item : Rule α) middle = none := by
    rw [seqRight_apply, bind_of_no_match noSeparator]
  have listed : listOf1 item separator bytes = some ([value], middle) := by
    rw [listOf1, bind_of_match found, bind_apply, many, collect_of_no_match unopened]
    rfl
  rw [wholeList, bind_of_match listed]
  exact bind_of_match (optional_of_no_match noSeparator)

theorem wholeList_of_separator (itemAdvances : item.Advances)
    (separatorAdvances : separator.Advances) (found : item bytes = some (value, middle))
    (separated : separator middle = some ((), next)) :
    wholeList item separator bytes =
      (wholeList item separator next).map fun (values, rest) => (value :: values, rest) := by
  cases further : item next with
  | none =>
    -- A separator without an item behind it is not part of the list.
    have unopened : (separator *> item : Rule α) middle = none := by
      rw [seqRight_apply, bind_of_match separated, further]
    have listed : listOf1 item separator bytes = some ([value], middle) := by
      rw [listOf1, bind_of_match found, bind_apply, many, collect_of_no_match unopened]
      rfl
    rw [wholeList_of_no_item further, wholeList, bind_of_match listed,
      bind_of_match (optional_of_match separated)]
    rfl
  | some result =>
    obtain ⟨second, rest⟩ := result
    have opened : (separator *> item : Rule α) middle = some (second, rest) := by
      rw [seqRight_apply, bind_of_match separated, further]
    have listed : listOf1 item separator bytes =
        (listOf1 item separator next).map fun (values, rest) => (value :: values, rest) := by
      rw [listOf1, bind_of_match found, bind_of_match further, bind_apply, bind_apply, many, many,
        collect_of_match (seqRight_advances separatorAdvances itemAdvances) opened]
      rfl
    rw [wholeList, bind_apply, bind_apply, listed, Option.bind_map, Option.map_bind]
    refine Option.bind_congr fun result _ => ?_
    simp only [Function.comp_apply, bind_apply, Option.map_bind]
    refine Option.bind_congr fun separated? _ => ?_
    rcases separated? with ⟨_ | _, _⟩ <;> rfl

/-- A whole list is an item, and after a separator another whole list. -/
theorem wholeList_eq (itemAdvances : item.Advances) (separatorAdvances : separator.Advances) :
    wholeList item separator = do
      let value ← item
      match ← optional separator with
      | none => return [value]
      | some () => return value :: (← wholeList item separator) := by
  funext bytes
  cases found : item bytes with
  | none => rw [wholeList_of_no_item found, bind_of_no_match found]
  | some result =>
    obtain ⟨value, middle⟩ := result
    rw [bind_of_match found]
    cases separated : separator middle with
    | none =>
      rw [wholeList_of_last found separated]
      refine .trans ?_ (bind_of_match (optional_of_no_match separated)).symm
      rfl
    | some result =>
      obtain ⟨_, next⟩ := result
      rw [wholeList_of_separator itemAdvances separatorAdvances found separated,
        Option.map_eq_bind]
      refine .trans ?_ (bind_of_match (optional_of_match separated)).symm
      rfl

/-- What cannot begin with a separator comes after a whole list, if it comes after a list at all. -/
theorem listOf1_bind_eq {β : Type} {next : List α → Rule β}
    (excludes : ∀ values bytes, separator bytes ≠ none → next values bytes = none) :
    listOf1 item separator >>= next = wholeList item separator >>= next := by
  funext bytes
  cases listed : listOf1 item separator bytes with
  | none => rw [wholeList, bind_assoc, bind_of_no_match listed, bind_of_no_match listed]
  | some result =>
    obtain ⟨values, rest⟩ := result
    rw [wholeList, bind_assoc, bind_of_match listed, bind_of_match listed, bind_assoc]
    cases separated : separator rest with
    | none => rw [bind_of_match (optional_of_no_match separated), pure_bind]
    | some found =>
      rw [excludes values rest (by simp [separated]), bind_of_match (optional_of_match separated)]
      rfl

end Rule

/-- Bytes are read where the front of the buffer equals them. -/
theorem Rule.exactly_apply (expected bytes : List UInt8) :
    exactly expected bytes =
      if bytes.take expected.length = expected then some ((), bytes.drop expected.length)
      else none := by
  split
  · next taken =>
    have split : expected ++ bytes.drop expected.length = bytes := by
      have whole := List.take_append_drop expected.length bytes
      rwa [taken] at whole
    have read : exactly expected (expected ++ bytes.drop expected.length) =
        some ((), bytes.drop expected.length) :=
      (exactly_reads expected).complete rfl trivial
    rwa [split] at read
  · next different =>
    cases matched : exactly expected bytes with
    | none => rfl
    | some result =>
      obtain ⟨_, rfl, rfl⟩ := (exactly_reads expected).sound matched
      exact absurd List.take_left different

/-- Skipping comments is skipping one, if there is one, and those behind it. -/
theorem Token.skipComments_eq :
    skipComments = (do
      match ← optional comment with
      | none => return ()
      | some () => skipComments) := by
  funext bytes
  cases matched : comment bytes with
  | none =>
    rw [skipComments_of_no_comment matched, Rule.bind_of_match (Rule.optional_of_no_match matched)]
    rfl
  | some result =>
    rw [skipComments_of_comment matched, Rule.bind_of_match (Rule.optional_of_match matched)]

theorem Token.skipComments_seqRight_advances {α : Type} {rule : Rule α} (advances : rule.Advances) :
    (skipComments *> rule : Rule α).Advances := by
  intro bytes value rest matched
  rw [Rule.seqRight_apply, Rule.bind_eq_some_iff] at matched
  obtain ⟨_, middle, skipped, matched⟩ := matched
  obtain ⟨trivia, rfl, -, -⟩ := skipComments_sound skipped
  have shorter := advances _ _ _ matched
  rw [List.length_append]
  omega

theorem Token.comment_eq_none_of_not_prefix {bytes : List UInt8}
    (noLine : ¬ [Byte.slash, Byte.slash] <+: bytes)
    (noBlock : ¬ [Byte.slash, Byte.star] <+: bytes)
    (clear : Grammar.Clear Byte.isBlank bytes) : comment bytes = none := by
  have unread {second : UInt8} (different : ¬ [Byte.slash, second] <+: bytes) :
      Rule.exactly [Byte.slash, second] bytes = none := by
    rw [Rule.exactly_apply, if_neg]
    intro taken
    exact different (List.prefix_iff_eq_take.mpr taken.symm)
  rw [comment, Rule.skipBlanks_bind_apply, Grammar.dropWhile_of_clear clear, Rule.orElse_apply,
    lineComment, Rule.bind_of_no_match (unread noLine), blockComment,
    Rule.bind_of_no_match (unread noBlock)]
  rfl

theorem Token.symbol_advances {text : String} (nonempty : utf8Bytes text ≠ []) :
    (symbol text).Advances := by
  intro bytes _ rest matched
  rw [symbol, Rule.skipBlanks_bind_apply] at matched
  obtain ⟨_, rfl, split⟩ := (Rule.exactly_reads _).sound matched
  have lengths := congrArg List.length split
  have fewer := (List.dropWhile_suffix (l := bytes) Byte.isBlank).length_le
  have positive := List.length_pos_iff.mpr nonempty
  rw [List.length_append] at lengths
  omega

theorem Token.keyword_advances {word : String} (nonempty : utf8Bytes word ≠ []) :
    (keyword word).Advances := by
  intro bytes _ rest matched
  obtain ⟨_, middle, symbolMatched, boundary⟩ := Rule.bind_eq_some_iff.mp matched
  have same : middle = rest := by
    cases middle with
    | nil =>
      cases boundary
      rfl
    | cons byte middle =>
      simp only [Rule.notBefore] at boundary
      split at boundary
      · cases boundary
      · cases boundary
        rfl
  exact same ▸ symbol_advances nonempty _ _ _ symbolMatched

end FlatSchema
