import FlatSchema.Proofs.Text.Utf8
import Mathlib.Data.String.Basic

/-!
The order of texts. Texts are compared character by character, and in UTF-8 the same comparison can
be made byte by byte: of two characters the smaller one has the smaller first byte, or else the same
first bytes and then a smaller one.
-/

namespace FlatSchema

/-- The bytes of the smaller character come first, whatever follows. -/
theorem utf8EncodeChar_append_lt {first second : Char} (less : first < second)
    (rest rest' : List UInt8) :
    String.utf8EncodeChar first ++ rest < String.utf8EncodeChar second ++ rest' := by
  have values : first.val.toNat < second.val.toNat := less
  have bounded : second.val.toNat < 1114112 := second.valid.elim (by omega) (by omega)
  -- With quotients of quotients each byte has its digit, and the smaller number has the smaller
  -- digit where they first differ.
  have quotients (value : Nat) : value / 4096 = value / 64 / 64 ∧
      value / 262144 = value / 64 / 64 / 64 := by
    omega
  simp only [String.utf8EncodeChar, quotients]
  split_ifs <;>
    simp only [List.cons_append, List.nil_append, List.cons_lt_cons_iff, UInt8.lt_iff_toNat_lt,
      ← UInt8.toNat_inj, UInt8.toNat_ofNat'] <;>
    omega

theorem flatMap_utf8EncodeChar_lt {first second : List Char} (less : first < second) :
    first.flatMap String.utf8EncodeChar < second.flatMap String.utf8EncodeChar := by
  induction first generalizing second with
  | nil =>
    cases second with
    | nil => exact absurd less (List.lt_irrefl _)
    | cons character others =>
      rw [List.flatMap_cons, List.flatMap_nil]
      cases bytes : String.utf8EncodeChar character with
      | nil => exact absurd bytes (String.utf8EncodeChar_ne_nil)
      | cons byte bytes => exact List.nil_lt_cons _ _
  | cons character others inductionHypothesis =>
    cases second with
    | nil => exact absurd less (List.not_lt_nil _)
    | cons character' others' =>
      rcases List.cons_lt_cons_iff.mp less with smaller | ⟨rfl, further⟩
      · exact utf8EncodeChar_append_lt smaller _ _
      · exact List.append_left_lt (inductionHypothesis further)

/-- Texts are in order exactly if their bytes are. -/
theorem utf8Bytes_lt_iff {first second : String} :
    utf8Bytes first < utf8Bytes second ↔ first < second := by
  have ascending {first second : String} (less : first < second) :
      utf8Bytes first < utf8Bytes second := by
    rw [utf8Bytes_eq_flatMap, utf8Bytes_eq_flatMap]
    exact flatMap_utf8EncodeChar_lt (String.lt_iff.mp less)
  refine ⟨?_, ascending⟩
  intro less
  rcases lt_trichotomy first second with smaller | rfl | greater
  · exact smaller
  · exact absurd less (List.lt_irrefl _)
  · exact absurd less (List.lt_asymm (ascending greater))

theorem compare_eq_lt_iff_utf8Bytes_lt {first second : String} :
    compare first second = .lt ↔ utf8Bytes first < utf8Bytes second := by
  rw [utf8Bytes_lt_iff]
  exact compareOfLessAndEq_eq_lt

end FlatSchema
