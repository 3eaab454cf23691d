import FlatSchema.Schema.Compile
import FlatSchema.Proofs.Grammar.Item
import FlatSchema.Proofs.Schema.Assembly

/-!
Strict reading against the grammar. A text is accepted exactly if the grammar derives it from items
that repeat no directive, and the schema is the one that the items say.
-/

namespace FlatSchema

open Token

namespace Schema

/-- The texts of a schema whose inclusions are left unresolved. -/
inductive Written : String → Schema → Prop where
  | intro {text : String} {items : List Item} :
      Grammar.File (utf8Bytes text) items → Item.Once items →
      Written text { document := Document.ofItems items, children := [] }

theorem triviaEnd_eq {buffer rest left : List UInt8} (suffix : rest <:+ buffer)
    (skipped : skipTrivia rest = some ((), left)) :
    triviaEnd buffer (buffer.length - rest.length) = buffer.length - left.length := by
  have remains : buffer.drop (buffer.length - rest.length) = rest :=
    (List.suffix_iff_eq_drop.mp suffix).symm
  rw [triviaEnd, Rule.readAt, remains, skipped]

theorem length_le_triviaEnd_iff {buffer rest : List UInt8} (suffix : rest <:+ buffer) :
    buffer.length ≤ triviaEnd buffer (buffer.length - rest.length) ↔
      skipTrivia rest = some ((), []) := by
  obtain ⟨left, skipped, leftSuffix⟩ := skipTrivia_suffix rest
  have shorter := (leftSuffix.trans suffix).length_le
  rw [triviaEnd_eq suffix skipped, skipped]
  cases left with
  | nil => simp
  | cons byte left =>
    rw [List.length_cons] at shorter ⊢
    simp
    omega

theorem finish_some_eq_ok_iff {text : String} {read schema : Schema} {stop : Nat} :
    finish text (some (read, stop)) = .ok schema ↔
      read = schema ∧ (utf8Bytes text).length ≤ triviaEnd (utf8Bytes text) stop := by
  by_cases more : triviaEnd (utf8Bytes text) stop < (utf8Bytes text).length
  · simp [finish, more]
  · simp [finish, more, Nat.le_of_not_lt more]

theorem exists_of_finish {text : String} {parsed : Option (Schema × Nat)} {schema : Schema}
    (accepted : finish text parsed = .ok schema) : ∃ stop, parsed = some (schema, stop) := by
  cases parsed with
  | none => cases accepted
  | some result =>
    obtain ⟨read, stop⟩ := result
    obtain ⟨rfl, -⟩ := finish_some_eq_ok_iff.mp accepted
    exact ⟨stop, rfl⟩

/-- Acceptance looks at where reading stopped and not at what was read. -/
theorem finish_map (text : String) (parsed : Option (Schema × Nat)) (change : Schema → Schema) :
    finish text (parsed.map fun result => (change result.1, result.2)) =
      (finish text parsed).map change := by
  cases parsed with
  | none => rfl
  | some result =>
    simp only [finish, Option.map_some]
    split <;> rfl

theorem finish_withStop_eq_ok_iff {text : String} {read schema : Schema} :
    finish text (some (withStop (utf8Bytes text) read)) = .ok schema ↔
      read = schema ∧ Grammar.File (utf8Bytes text) (Item.readAll (utf8Bytes text)).1 := by
  rw [withStop, finish_some_eq_ok_iff, length_le_triviaEnd_iff (Item.readAll_suffix _),
    ← Item.readAll_iff_file]
  refine and_congr_right fun _ => ⟨?_, ?_⟩
  · intro skipped
    exact ⟨_, rfl, skipped⟩
  · rintro ⟨rest, collected, skipped⟩
    rwa [collected]

/-- A text is accepted exactly if the grammar derives it, and otherwise there is an error. -/
theorem compile_accepts_grammar (text : String) :
    (∀ schema, compile text = .ok schema ↔ Written text schema) ∧
      ((¬ ∃ schema, Written text schema) → ∃ error, compile text = .error error) := by
  have accepted (schema : Schema) : compile text = .ok schema ↔ Written text schema := by
    rw [compile, parse?_eq_map]
    constructor
    · intro finished
      cases added : Document.addAll? {} (Item.readAll (utf8Bytes text)).1 with
      | none =>
        rw [added] at finished
        cases finished
      | some document =>
        rw [added, Option.map_some, finish_withStop_eq_ok_iff] at finished
        obtain ⟨rfl, file⟩ := finished
        obtain ⟨once, rfl⟩ := Document.addAll?_empty_eq_some_iff.mp added
        exact .intro file once
    · rintro @⟨items, file, once⟩
      obtain ⟨rest, collected, -⟩ := Item.readAll_iff_file.mpr file
      have read : (Item.readAll (utf8Bytes text)).1 = items := by rw [collected]
      have added := Document.addAll?_empty_eq_some_iff.mpr ⟨once, rfl⟩
      rw [read, added, Option.map_some, finish_withStop_eq_ok_iff, read]
      exact ⟨rfl, file⟩
  refine ⟨accepted, ?_⟩
  intro underivable
  cases result : compile text with
  | error error => exact ⟨error, rfl⟩
  | ok schema => exact absurd ⟨schema, (accepted schema).mp result⟩ underivable

end Schema

end FlatSchema
