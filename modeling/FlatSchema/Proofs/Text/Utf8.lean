import FlatSchema.Text.Byte

/-!
Texts and their bytes. Decoding accepts exactly the bytes of a text and gives this text back, so a
text is told by its bytes; bytes below 128 are characters of their own, so a text can be cut behind
them.
-/

namespace FlatSchema

theorem utf8Bytes_eq_flatMap (text : String) :
    utf8Bytes text = text.toList.flatMap String.utf8EncodeChar := by
  rw [utf8Bytes, String.toUTF8, ← String.utf8Encode_toList, List.utf8Encode]
  simp

theorem utf8Bytes_append (first second : String) :
    utf8Bytes (first ++ second) = utf8Bytes first ++ utf8Bytes second := by
  simp only [utf8Bytes_eq_flatMap, String.toList_append, List.flatMap_append]

/-- Decoding is the inverse of encoding, and is defined nowhere else. -/
theorem ofUtf8?_eq_some_iff {bytes : List UInt8} {text : String} :
    ofUtf8? bytes = some text ↔ utf8Bytes text = bytes := by
  unfold ofUtf8? utf8Bytes String.toUTF8 String.fromUTF8?
  constructor
  · intro decoded
    split at decoded
    · cases decoded
      rfl
    · cases decoded
  · rintro rfl
    rw [dif_pos text.isValidUTF8]
    rfl

theorem utf8Bytes_injective {first second : String}
    (equal : utf8Bytes first = utf8Bytes second) : first = second := by
  have decoded := ofUtf8?_eq_some_iff.mpr equal
  rw [ofUtf8?_eq_some_iff.mpr rfl] at decoded
  exact Option.some.inj decoded.symm

theorem utf8EncodeChar_ascii {byte : UInt8} (small : byte.toNat < 128) :
    String.utf8EncodeChar (Char.ofNat byte.toNat) = [byte] := by
  have valid : byte.toNat.isValidChar := .inl (by omega)
  have code : (Char.ofNat byte.toNat).val.toNat = byte.toNat := by
    rw [Char.ofNat, dif_pos valid]
    rfl
  have ascii : byte.toNat ≤ 127 := by omega
  simp [String.utf8EncodeChar, code, ascii]

/-- The bytes of the text that ASCII bytes spell are those bytes. -/
theorem utf8Bytes_ofAscii {bytes : List UInt8} (small : ∀ byte ∈ bytes, byte.toNat < 128) :
    utf8Bytes (ofAscii bytes) = bytes := by
  rw [utf8Bytes_eq_flatMap, ofAscii, String.toList_ofList]
  induction bytes with
  | nil => rfl
  | cons byte bytes inductionHypothesis =>
    rw [List.map_cons, List.flatMap_cons, utf8EncodeChar_ascii (small byte (by simp)),
      inductionHypothesis fun other membership => small other (by simp [membership])]
    rfl

theorem ofAscii_eq_of_bytes {bytes : List UInt8} {text : String}
    (small : ∀ byte ∈ bytes, byte.toNat < 128) (equal : utf8Bytes text = bytes) :
    ofAscii bytes = text :=
  utf8Bytes_injective (by rw [utf8Bytes_ofAscii small, equal])

/-- A byte below 128 is a character of its own and never a part of a longer one. -/
theorem utf8EncodeChar_eq_singleton {character : Char} {byte : UInt8}
    (membership : byte ∈ String.utf8EncodeChar character) (small : byte.toNat < 128) :
    String.utf8EncodeChar character = [byte] := by
  by_cases ascii : character.val.toNat ≤ 127
  · simp only [String.utf8EncodeChar, ascii, if_true, List.mem_singleton] at membership ⊢
    rw [membership]
  · exfalso
    simp only [String.utf8EncodeChar, ascii, if_false] at membership
    repeat' split at membership
    all_goals
      simp only [List.mem_cons, List.not_mem_nil, or_false] at membership
      rcases membership with rfl | rfl | rfl | rfl
    all_goals
      rw [UInt8.toNat_ofNat'] at small
      omega

/-- The empty word, and words whose last byte is a character of its own. -/
def EndsAscii (word : List UInt8) : Prop :=
  ∀ byte ∈ word.getLast?, byte.toNat < 128

instance (word : List UInt8) : Decidable (EndsAscii word) :=
  Option.decidableForallMem word.getLast?

namespace EndsAscii

theorem of_suffix {last word : List UInt8} (nonempty : last ≠ []) (suffix : last <:+ word)
    (ends : EndsAscii last) : EndsAscii word := by
  obtain ⟨front, rfl⟩ := suffix
  intro byte membership
  rw [List.getLast?_append, List.getLast?_eq_some_getLast nonempty, Option.some_or] at membership
  exact ends byte (by rwa [List.getLast?_eq_some_getLast nonempty])

theorem append {first second : List UInt8} (before : EndsAscii first) (after : EndsAscii second) :
    EndsAscii (first ++ second) := by
  cases second with
  | nil => rwa [List.append_nil]
  | cons byte second => exact of_suffix (List.cons_ne_nil _ _) (List.suffix_append _ _) after

theorem of_append {first second : List UInt8} (ends : EndsAscii (first ++ second)) :
    EndsAscii second := by
  intro byte last
  apply ends byte
  rw [List.getLast?_append, Option.mem_def.mp last, Option.some_or]
  rfl

end EndsAscii

/-- Behind a byte that is a character of its own, characters can be parted. -/
theorem exists_flatMap_utf8EncodeChar {characters : List Char} {front back : List UInt8}
    (encoded : characters.flatMap String.utf8EncodeChar = front ++ back)
    (ends : EndsAscii front) :
    ∃ before after, before ++ after = characters ∧
      before.flatMap String.utf8EncodeChar = front := by
  induction characters generalizing front with
  | nil =>
    obtain ⟨rfl, -⟩ := List.append_eq_nil_iff.mp encoded.symm
    exact ⟨[], [], rfl, rfl⟩
  | cons character characters inductionHypothesis =>
    rw [List.flatMap_cons, List.append_eq_append_iff] at encoded
    rcases encoded with ⟨middle, rfl, encoded⟩ | ⟨middle, whole, -⟩
    · obtain ⟨before, after, rfl, rfl⟩ := inductionHypothesis encoded ends.of_append
      exact ⟨character :: before, after, rfl, rfl⟩
    · by_cases empty : front = []
      · exact ⟨[], character :: characters, rfl, empty.symm⟩
      · -- The last byte of the front is in the encoding of the character, so it is all of it.
        have membership : front.getLast empty ∈ String.utf8EncodeChar character := by
          rw [whole]
          exact List.mem_append_left _ (List.getLast_mem empty)
        have single := utf8EncodeChar_eq_singleton membership
          (ends _ (List.getLast?_eq_some_getLast empty))
        refine ⟨[character], characters, rfl, ?_⟩
        rw [List.flatMap_singleton, single]
        rw [single] at whole
        rcases List.append_eq_singleton_iff.mp whole.symm with ⟨none, -⟩ | ⟨all, -⟩
        · exact absurd none empty
        · exact all.symm

/-- A text can be cut where its bytes can, behind a byte that is a character of its own. -/
theorem exists_append_of_endsAscii {text : String} {front back : List UInt8}
    (bytes : front ++ back = utf8Bytes text) (ends : EndsAscii front) :
    ∃ start rest, start ++ rest = text ∧ utf8Bytes start = front := by
  rw [utf8Bytes_eq_flatMap] at bytes
  obtain ⟨before, after, split, encoded⟩ := exists_flatMap_utf8EncodeChar bytes.symm ends
  refine ⟨String.ofList before, String.ofList after, ?_, ?_⟩
  · rw [← String.ofList_append, split, String.ofList_toList]
  · rw [utf8Bytes_eq_flatMap, String.toList_ofList, encoded]

end FlatSchema
