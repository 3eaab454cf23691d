import FlatSchema.Proofs.Grammar.Ending
import FlatSchema.Proofs.Grammar.Recognition
import FlatSchema.Proofs.Schema.Strict
import FlatSchema.Proofs.Text.Position

/-!
What a strict error points at. Reading stops behind some items and the trivia after them, and
cutting the text short anywhere behind this place leaves the items and the place as they are: a cut
makes neither an item nor a comment. So the text up to the place is the longest front part that is
accepted, and the place is what an error reports.
-/

namespace FlatSchema

open Token Grammar

/-- A text up to a byte offset that is between two characters. -/
structure Text.UpTo (text : String) (offset : Nat) (start : String) : Prop where
  front : ∃ rest, start ++ rest = text
  length : (utf8Bytes start).length = offset

theorem head?_toList_append {front back : String} {letter : Char}
    (leads : front.toList.head? = some letter) : (front ++ back).toList.head? = some letter := by
  rw [String.toList_append, List.head?_append, leads, Option.some_or]

/-- The two kinds of errors differ in the first letter of what they say. -/
theorem ParseError.reason_unexpected_ne (snippet : String) (position : Position) :
    (unexpected snippet position).reason ≠ repeatedDirective.reason := by
  have unexpectedLetter : (unexpected snippet position).reason.toList.head? = some 'U' :=
    head?_toList_append (congrArg List.head? String.toList_ofList)
  have repeatedLetter : repeatedDirective.reason.toList.head? = some 'I' :=
    head?_toList_append (congrArg List.head? String.toList_ofList)
  intro equal
  rw [equal, repeatedLetter] at unexpectedLetter
  exact absurd unexpectedLetter (by decide)

namespace Schema

/-- The text up to an offset is accepted with a schema, and no more of the text is accepted. -/
structure LongestAccepted (text : String) (offset : Nat) (schema : Schema) : Prop where
  accepted : ∃ start, Text.UpTo text offset start ∧ compile start = .ok schema
  longest : ∀ further longer, offset < further → Text.UpTo text further longer →
    ∃ error, compile longer = .error error

theorem finish_eq_repeatedDirective_iff {text : String} {parsed : Option (Schema × Nat)} :
    finish text parsed = .error .repeatedDirective ↔ parsed = none := by
  cases parsed with
  | none => simp [finish]
  | some result =>
    simp only [finish]
    split <;> simp

theorem parse?_eq_none_iff {bytes rest : List UInt8} {items : List Item}
    (recognised : Item.Recognised bytes items rest) :
    parse? bytes = none ↔ ¬ Item.Once items := by
  rw [parse?_eq_map, Item.readAll_eq_iff.mpr recognised, Option.map_eq_none_iff,
    Document.addAll?_empty_eq_none_iff]

/-- Bytes with some items in front, and something left behind the trivia after the items. -/
def Leaves (bytes : List UInt8) (items : List Item) (left : List UInt8) : Prop :=
  ∃ rest, Item.Recognised bytes items rest ∧ skipTrivia rest = some ((), left)

namespace Leaves

variable {text : String} {bytes left : List UInt8} {items : List Item}

theorem exists_of_bytes (bytes : List UInt8) : ∃ items left, Leaves bytes items left := by
  obtain ⟨left, skipped, -⟩ := skipTrivia_suffix (Item.readAll bytes).2
  exact ⟨_, left, _, Item.recognised_readAll bytes, skipped⟩

theorem suffix (leaves : Leaves bytes items left) : left <:+ bytes := by
  obtain ⟨rest, ⟨⟨body, -, rfl⟩, -⟩, skipped⟩ := leaves
  obtain ⟨other, otherSkipped, suffix⟩ := skipTrivia_suffix rest
  rw [skipped] at otherSkipped
  cases otherSkipped
  exact suffix.trans (List.suffix_append _ _)

/-- Where bytes are cut short inside what is left, reading stops at the same place, behind the same
items. This place is between two characters of a text. -/
theorem cut (leaves : Leaves bytes items left) (nonempty : left ≠ []) :
    ∃ front, EndsAscii front ∧ front ++ left = bytes ∧
      ∀ more, more <+: left → Leaves (front ++ more) items more := by
  obtain ⟨rest, recognised, skipped⟩ := leaves
  obtain ⟨trivia, isTrivia, rfl⟩ := trivia_of_skipTrivia skipped nonempty
  obtain ⟨body, repeated, rfl⟩ := recognised.front
  have ends : EndsAscii body := repeated.endsAscii fun _ _ written => written.endsAscii
  refine ⟨body ++ trivia, ends.append isTrivia.endsAscii, List.append_assoc _ _ _, ?_⟩
  -- The cut goes through what is left, so items and trivia stay as they are.
  rintro more ⟨back, rfl⟩
  have whole : Item.Recognised (body ++ trivia ++ more ++ back) items (trivia ++ more ++ back) := by
    simpa only [List.append_assoc] using recognised
  refine ⟨trivia ++ more, whole.cut, ?_⟩
  rw [skipTrivia_append isTrivia, skipTrivia_of_rest skipped]

theorem parse?_of_once (leaves : Leaves bytes items left) (once : Item.Once items) :
    ∃ stop, parse? bytes = some ({ document := Document.ofItems items, children := [] }, stop) ∧
      triviaEnd bytes stop = bytes.length - left.length := by
  obtain ⟨rest, recognised, skipped⟩ := leaves
  have collected := Item.readAll_eq_iff.mpr recognised
  have added := Document.addAll?_empty_eq_some_iff.mpr ⟨once, rfl⟩
  have suffix := Item.readAll_suffix bytes
  rw [collected] at suffix
  refine ⟨bytes.length - rest.length, ?_, triviaEnd_eq suffix skipped⟩
  rw [parse?_eq_map, collected, added, Option.map_some, withStop, collected]

theorem compile_of_nil (leaves : Leaves (utf8Bytes text) items []) (once : Item.Once items) :
    compile text = .ok { document := Document.ofItems items, children := [] } := by
  obtain ⟨stop, parsed, ended⟩ := leaves.parse?_of_once once
  rw [compile, parsed, finish, ended]
  simp

theorem compile_of_more (leaves : Leaves (utf8Bytes text) items left) (once : Item.Once items)
    (nonempty : left ≠ []) :
    compile text = .error (.unexpected
      (Text.snippet text ((utf8Bytes text).length - left.length))
      (Position.ofOffset (utf8Bytes text) ((utf8Bytes text).length - left.length))) := by
  obtain ⟨stop, parsed, ended⟩ := leaves.parse?_of_once once
  have positive := List.length_pos_iff.mpr nonempty
  have shorter := leaves.suffix.length_le
  have inside : (utf8Bytes text).length - left.length < (utf8Bytes text).length := by omega
  rw [compile, parsed, finish, ended, if_pos inside]

/-- What is left starts with a byte that is no blank. -/
theorem solid (leaves : Leaves bytes items left) (nonempty : left ≠ []) :
    ∃ byte, bytes[bytes.length - left.length]? = some byte ∧ Byte.isBlank byte = false := by
  obtain ⟨front, rfl⟩ := leaves.suffix
  obtain ⟨_, -, skipped⟩ := leaves
  obtain ⟨byte, after, rfl⟩ := List.exists_cons_of_ne_nil nonempty
  refine ⟨byte, ?_, clear_cons.mp (clear_of_skipTrivia skipped)⟩
  rw [List.length_append, Nat.add_sub_cancel, List.getElem?_append_right (Nat.le_refl _),
    Nat.sub_self, List.getElem?_cons_zero]

theorem longestAccepted (leaves : Leaves (utf8Bytes text) items left) (once : Item.Once items)
    (nonempty : left ≠ []) :
    LongestAccepted text ((utf8Bytes text).length - left.length)
      { document := Document.ofItems items, children := [] } := by
  obtain ⟨front, ends, split, cuts⟩ := leaves.cut nonempty
  have offset : (utf8Bytes text).length - left.length = front.length := by
    rw [← split, List.length_append, Nat.add_sub_cancel]
  rw [offset]
  constructor
  · obtain ⟨start, rest, whole, bytes⟩ := exists_append_of_endsAscii split ends
    refine ⟨start, ⟨⟨rest, whole⟩, by rw [bytes]⟩, ?_⟩
    have leavesNothing := cuts [] List.nil_prefix
    rw [List.append_nil, ← bytes] at leavesNothing
    exact leavesNothing.compile_of_nil once
  · -- Beyond the place something of what is left is there, and it is no trivia either.
    rintro further longer later ⟨⟨rest, whole⟩, rfl⟩
    have bytes : utf8Bytes longer ++ utf8Bytes rest = front ++ left := by
      rw [split, ← whole, utf8Bytes_append]
    obtain ⟨more, longerBytes⟩ : front <+: utf8Bytes longer :=
      List.prefix_of_prefix_length_le ⟨left, rfl⟩ ⟨_, bytes⟩ (Nat.le_of_lt later)
    rw [← longerBytes, List.append_assoc] at bytes
    have leavesMore := cuts more ⟨_, List.append_cancel_left bytes⟩
    rw [longerBytes] at leavesMore
    have moreNonempty : more ≠ [] := by
      rintro rfl
      rw [← longerBytes, List.append_nil] at later
      exact Nat.lt_irrefl _ later
    exact ⟨_, leavesMore.compile_of_more once moreNonempty⟩

/-- Something unexpected is reported only where something is left, behind items that repeat no
directive. -/
theorem of_unexpected (leaves : Leaves (utf8Bytes text) items left) {snippet : String}
    {position : Position} (failed : compile text = .error (.unexpected snippet position)) :
    Item.Once items ∧ left ≠ [] := by
  have once : Item.Once items := by
    by_contra repeats
    obtain ⟨_, recognised, -⟩ := leaves
    rw [compile, (parse?_eq_none_iff recognised).mpr repeats, finish] at failed
    cases failed
  refine ⟨once, ?_⟩
  rintro rfl
  rw [leaves.compile_of_nil once] at failed
  cases failed

end Leaves

/-- An error about something unexpected points at the end of the longest front part of the text that
is accepted, and this part has the schema of the items before the error. The other error says that
these items repeat a directive. -/
theorem error_ends_longest_accepted (text : String) :
    (∀ snippet position, compile text = .error (.unexpected snippet position) →
      ∃ offset schema stop,
        (∀ other, position.IsAt (utf8Bytes text) other ↔ other = offset) ∧
        offset < (utf8Bytes text).length ∧
        (∃ byte, (utf8Bytes text)[offset]? = some byte ∧ Byte.isBlank byte = false) ∧
        parse? (utf8Bytes text) = some (schema, stop) ∧
        LongestAccepted text offset schema) ∧
    ((∃ error, compile text = .error error ∧ error.position = { line := 1, column := 1 } ∧
        error.reason =
          "Input is not a valid schema or repeats a namespace, root_type, file_identifier or " ++
            "file_extension") ↔
      ∃ items rest, Item.Recognised (utf8Bytes text) items rest ∧ ¬ Item.Once items) := by
  constructor
  · intro snippet position failed
    obtain ⟨items, left, leaves⟩ := Leaves.exists_of_bytes (utf8Bytes text)
    obtain ⟨once, nonempty⟩ := leaves.of_unexpected failed
    obtain ⟨stop, parsed, -⟩ := leaves.parse?_of_once once
    have solid := leaves.solid nonempty
    rw [leaves.compile_of_more once nonempty] at failed
    cases failed
    refine ⟨(utf8Bytes text).length - left.length, _, stop, ?_, ?_, solid, parsed,
      leaves.longestAccepted once nonempty⟩
    · intro other
      exact Position.isAt_ofOffset_iff (Nat.sub_le _ _)
    · obtain ⟨byte, found, -⟩ := solid
      exact (List.getElem?_eq_some_iff.mp found).1
  · constructor
    · rintro ⟨error, failed, -, said⟩
      cases error with
      | unexpected snippet position => exact absurd said (ParseError.reason_unexpected_ne _ _)
      | repeatedDirective =>
        have recognised := Item.recognised_readAll (utf8Bytes text)
        rw [compile, finish_eq_repeatedDirective_iff, parse?_eq_none_iff recognised] at failed
        exact ⟨_, _, recognised, failed⟩
    · rintro ⟨items, rest, recognised, repeats⟩
      refine ⟨.repeatedDirective, ?_, rfl, rfl⟩
      rw [compile, finish_eq_repeatedDirective_iff, parse?_eq_none_iff recognised]
      exact repeats

/-- In front of something that is no item, the table and the line break are accepted. -/
theorem error_ends_longest_accepted_service :
    compile "table A \x7b\x7d\n  rpc_service S \x7b\x7d" =
        .error (.unexpected "rpc_service S \x7b\x7d" { line := 2, column := 3 }) ∧
      ∃ schema, LongestAccepted "table A \x7b\x7d\n  rpc_service S \x7b\x7d" 13 schema := by
  have failed : compile "table A \x7b\x7d\n  rpc_service S \x7b\x7d" =
      .error (.unexpected "rpc_service S \x7b\x7d" { line := 2, column := 3 }) := by
    rfl
  obtain ⟨offset, schema, _, isAt, -, -, -, accepted⟩ :=
    (error_ends_longest_accepted _).1 _ _ failed
  obtain rfl : 13 = offset := (isAt 13).mp (Position.isAt_iff.mpr (by decide))
  exact ⟨failed, schema, accepted⟩

/-- A comment that is not closed is no comment, and the error points at where it opens. -/
example : compile "table A \x7b\x7d // done\n/* more" =
    .error (.unexpected "/* more" { line := 2, column := 1 }) := by
  rfl

end Schema

end FlatSchema
