import FlatSchema.Proofs.Grammar.Language
import FlatSchema.Proofs.Text.Utf8

/-!
How the parts of a file end. An item ends in a semicolon or a closing brace, and trivia in a blank
or the end of a comment. All of these are characters of their own, so a text can be cut behind any
item and behind the trivia after it, also where comments and literals hold other characters.
-/

namespace FlatSchema

namespace Grammar

theorem Symbol.suffix {text : String} {word : List UInt8} (written : Symbol text word) :
    utf8Bytes text <:+ word := by
  obtain ⟨_⟩ := written
  exact List.suffix_append _ _

theorem Cases.suffix {α : Type} {phrase : Phrase α} {word : List UInt8} {values : List α}
    (written : Cases phrase word values) : utf8Bytes "\x7d" <:+ word := by
  obtain ⟨_, _, _, right⟩ := written
  exact right.suffix.trans (List.suffix_append _ _)

theorem Directive.suffix {keyword : String} {word : List UInt8} {text : String}
    (written : Directive keyword word text) : utf8Bytes ";" <:+ word := by
  obtain ⟨_, _, _, stop⟩ := written
  exact stop.suffix.trans (List.suffix_append _ _)

end Grammar

open Grammar

theorem Record.Written.suffix {keyword : String} {word : List UInt8} {record : Record}
    (written : Record.Written keyword word record) : utf8Bytes "\x7d" <:+ word := by
  obtain ⟨_, _, _, _, _, _, _, _, right⟩ := written
  exact right.suffix.trans (List.suffix_append _ _)

/-- An item ends in a semicolon or a closing brace. -/
theorem Item.Written.suffix {word : List UInt8} {item : Item} (written : Item.Written word item) :
    utf8Bytes ";" <:+ word ∨ utf8Bytes "\x7d" <:+ word := by
  cases written with
  | inclusion directive => exact .inl directive.suffix
  | fileIdentifier directive => exact .inl directive.suffix
  | fileExtension directive => exact .inl directive.suffix
  | userAttribute directive => exact .inl directive.suffix
  | nameSpace nameSpace =>
    obtain ⟨_, _, _, _, stop⟩ := nameSpace
    exact .inl (stop.suffix.trans (List.suffix_append _ _))
  | rootType rootType =>
    obtain ⟨_, _, _, _, stop⟩ := rootType
    exact .inl (stop.suffix.trans (List.suffix_append _ _))
  | table record => exact .inr record.suffix
  | struct record => exact .inr record.suffix
  | enumeration enumeration =>
    obtain ⟨_, _, _, _, _, _, _, _, body⟩ := enumeration
    exact .inr (body.suffix.trans (List.suffix_append _ _))
  | union union =>
    obtain ⟨_, _, _, _, _, body⟩ := union
    exact .inr (body.suffix.trans (List.suffix_append _ _))

theorem Item.Written.endsAscii {word : List UInt8} {item : Item}
    (written : Item.Written word item) : EndsAscii word := by
  rcases written.suffix with semicolon | brace
  · exact .of_suffix (by decide) semicolon (by decide)
  · exact .of_suffix (by decide) brace (by decide)

namespace Grammar

theorem Comment.endsAscii {word : List UInt8} (written : Comment word) : EndsAscii word := by
  cases written with
  | line _ => exact .of_suffix (List.cons_ne_nil _ _) (List.suffix_append _ _) (by decide)
  | block _ => exact .of_suffix (List.cons_ne_nil _ _) (List.suffix_append _ _) (by decide)

theorem Trivia.endsAscii {word : List UInt8} (trivia : Trivia word) : EndsAscii word := by
  induction trivia with
  | nil => decide
  | @blank byte rest blank _ inductionHypothesis =>
    have small : EndsAscii [byte] := by
      simp only [Byte.isBlank, Bool.or_eq_true, decide_eq_true_eq, or_assoc] at blank
      rcases blank with rfl | rfl | rfl | rfl | rfl <;> decide
    exact small.append inductionHypothesis
  | comment written _ inductionHypothesis => exact written.endsAscii.append inductionHypothesis

theorem Repeated.endsAscii {α : Type} {phrase : Phrase α} {word : List UInt8} {values : List α}
    (repeated : Repeated phrase word values)
    (ends : ∀ word value, phrase word value → EndsAscii word) : EndsAscii word := by
  induction repeated with
  | nil => decide
  | cons first _ inductionHypothesis => exact (ends _ _ first).append inductionHypothesis

end Grammar

end FlatSchema
