import FlatSchema.Proofs.Grammar.Item

/-!
The items that stand at the front of bytes. An item ends by itself, so the bytes behind it make no
difference to how it is read: items in front of bytes are read first, and what follows them is then
read as if it stood alone.
-/

namespace FlatSchema.Item

open Grammar Rule

theorem rule_eq_none_iff {bytes : List UInt8} :
    rule bytes = none ↔ ∀ word item rest, Written word item → word ++ rest ≠ bytes := by
  constructor
  · rintro unmatched word item rest written rfl
    have matched : rule (word ++ rest) = some (item, rest) := rule_reads.complete written trivial
    rw [unmatched] at matched
    cases matched
  · intro none
    cases matched : rule bytes with
    | none => rfl
    | some result =>
      obtain ⟨word, written, split⟩ := rule_reads.sound matched
      exact absurd split (none word result.1 result.2 written)

/-- Some items stand at the front of bytes, and no item stands where they end. -/
structure Recognised (bytes : List UInt8) (items : List Item) (rest : List UInt8) : Prop where
  front : ∃ body, Repeated Written body items ∧ body ++ rest = bytes
  stops : ∀ word item after, Written word item → word ++ after ≠ rest

/-- The same items are recognised where bytes are cut short behind them: no item comes about by
cutting. -/
theorem Recognised.cut {bytes rest more : List UInt8} {items : List Item}
    (recognised : Recognised (bytes ++ more) items (rest ++ more)) :
    Recognised bytes items rest := by
  obtain ⟨⟨body, repeated, split⟩, stops⟩ := recognised
  rw [← List.append_assoc] at split
  refine ⟨⟨body, repeated, List.append_cancel_right split⟩, ?_⟩
  rintro word item after written rfl
  exact stops word item (after ++ more) written (List.append_assoc _ _ _).symm

/-- Items in front are read first, whatever follows them. -/
theorem readAll_append {body : List UInt8} {items : List Item}
    (repeated : Repeated Written body items) (rest : List UInt8) :
    readAll (body ++ rest) = (items ++ (readAll rest).1, (readAll rest).2) := by
  induction repeated with
  | nil => rfl
  | @cons word others item items written _ inductionHypothesis =>
    have matched : rule (word ++ (others ++ rest)) = some (item, others ++ rest) :=
      rule_reads.complete written trivial
    rw [List.append_assoc, readAll, collect_of_match rule_advances matched, ← readAll,
      inductionHypothesis, List.cons_append]

theorem readAll_of_no_match {bytes : List UInt8} (unmatched : rule bytes = none) :
    readAll bytes = ([], bytes) :=
  collect_of_no_match unmatched

theorem readAll_eq_iff {bytes rest : List UInt8} {items : List Item} :
    readAll bytes = (items, rest) ↔ Recognised bytes items rest := by
  constructor
  · intro collected
    obtain ⟨front, unmatched⟩ := collect_sound rule_reads rule_advances collected
    exact ⟨front, rule_eq_none_iff.mp unmatched⟩
  · rintro ⟨⟨body, repeated, rfl⟩, stops⟩
    rw [readAll_append repeated, readAll_of_no_match (rule_eq_none_iff.mpr stops),
      List.append_nil]

theorem recognised_readAll (bytes : List UInt8) :
    Recognised bytes (readAll bytes).1 (readAll bytes).2 :=
  readAll_eq_iff.mp rfl

end FlatSchema.Item
