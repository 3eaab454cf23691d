import FlatSchema.Proofs.Grammar.Token

/-!
Names and bare values as texts. They are ASCII, so what a rule reads byte by byte can be told from
the characters of the text that it gives, and back.
-/

namespace FlatSchema

namespace Text

def isNameLead (character : Char) : Bool :=
  character.isAlpha || character = '_'

def isNameChar (character : Char) : Bool :=
  character.isAlphanum || character = '_'

def isValueChar (character : Char) : Bool :=
  isNameChar character || character = '.' || character = '+' || character = '-'

/-- A letter or an underscore, and then letters, digits and underscores. -/
def IsName (text : String) : Prop :=
  text.toList.head?.any isNameLead = true ∧ ∀ character ∈ text.toList, isNameChar character = true

/-- Letters, digits, underscores, points and signs, at least one of them. -/
def IsValue (text : String) : Prop :=
  text ≠ "" ∧ ∀ character ∈ text.toList, isValueChar character = true

instance : DecidablePred IsName :=
  fun _ => inferInstanceAs (Decidable (_ ∧ _))

instance : DecidablePred IsValue :=
  fun _ => inferInstanceAs (Decidable (_ ∧ _))

theorem isValueChar_of_isNameChar {character : Char} (member : isNameChar character = true) :
    isValueChar character = true := by
  simp [isValueChar, member]

/-- The classes of characters are those of bytes. -/
theorem classes_ofNat (byte : UInt8) :
    isNameLead (Char.ofNat byte.toNat) = Byte.isNameStart byte ∧
      isNameChar (Char.ofNat byte.toNat) = Byte.isNameByte byte ∧
      isValueChar (Char.ofNat byte.toNat) = Byte.isValueByte byte := by
  have classes : ∀ code < 256,
      isNameLead (Char.ofNat code) = Byte.isNameStart (.ofNat code) ∧
        isNameChar (Char.ofNat code) = Byte.isNameByte (.ofNat code) ∧
        isValueChar (Char.ofNat code) = Byte.isValueByte (.ofNat code) := by
    decide +kernel
  simpa using classes byte.toNat byte.toNat_lt

theorem toNat_lt_of_isValueChar {character : Char} (member : isValueChar character = true) :
    character.toNat < 128 := by
  unfold isValueChar isNameChar at member
  delta Char.isAlphanum Char.isAlpha Char.isUpper Char.isLower Char.isDigit at member
  simp only [Bool.or_eq_true, Bool.and_eq_true, decide_eq_true_eq, UInt32.le_iff_toNat_le,
    ge_iff_le] at member
  change ((((((65 ≤ character.toNat ∧ character.toNat ≤ 90) ∨
    (97 ≤ character.toNat ∧ character.toNat ≤ 122)) ∨
    (48 ≤ character.toNat ∧ character.toNat ≤ 57)) ∨ character = '_') ∨ character = '.') ∨
    character = '+') ∨ character = '-' at member
  rcases member with ((((letterOrDigit | rfl) | rfl) | rfl) | rfl)
  · omega
  all_goals decide

end Text

open Grammar Text

/-- The characters of an ASCII text are its bytes. -/
theorem toList_eq_map_utf8Bytes {text : String}
    (small : ∀ byte ∈ utf8Bytes text, byte.toNat < 128) :
    text.toList = (utf8Bytes text).map fun byte => Char.ofNat byte.toNat := by
  have spelled : ofAscii (utf8Bytes text) = text := ofAscii_eq_of_bytes small rfl
  have characters := congrArg String.toList spelled
  rw [ofAscii, String.toList_ofList] at characters
  exact characters.symm

theorem isName_of_spellsName {text : String} (spelled : SpellsName (utf8Bytes text)) :
    IsName text := by
  obtain ⟨first, others, bytes, start, members⟩ := spelled.cons
  have nameBytes : ∀ byte ∈ utf8Bytes text, Byte.isNameByte byte = true := by
    rw [bytes, List.forall_mem_cons]
    exact ⟨Byte.isNameByte_of_isNameStart start, members⟩
  have characters := toList_eq_map_utf8Bytes fun byte member =>
    Byte.toNat_lt_of_isValueByte (Byte.isValueByte_of_isNameByte (nameBytes byte member))
  constructor
  · rw [characters, bytes, List.map_cons, List.head?_cons, Option.any_some, (classes_ofNat first).1]
    exact start
  · rw [characters, List.forall_mem_map]
    intro byte member
    rw [(classes_ofNat byte).2.1]
    exact nameBytes byte member

theorem isValue_of_spellsValue {text : String} (spelled : SpellsValue (utf8Bytes text)) :
    IsValue text := by
  obtain ⟨nonempty, members⟩ := spelled
  constructor
  · rintro rfl
    exact nonempty rfl
  · rw [toList_eq_map_utf8Bytes fun byte member => Byte.toNat_lt_of_isValueByte (members byte member),
      List.forall_mem_map]
    intro byte member
    rw [(classes_ofNat byte).2.2]
    exact members byte member

/-- The bytes of a text that has the characters of values only are bytes of values. -/
theorem isValueByte_of_isValueChar {text : String}
    (spelled : ∀ character ∈ text.toList, isValueChar character = true) :
    ∀ byte ∈ utf8Bytes text, Byte.isValueByte byte = true := by
  intro byte member
  rw [utf8Bytes_eq_flatMap, List.mem_flatMap] at member
  obtain ⟨character, inside, encoded⟩ := member
  have small := toNat_lt_of_isValueChar (spelled character inside)
  let code : UInt8 := .ofNat character.toNat
  have same : code.toNat = character.toNat := UInt8.toNat_ofNat_of_lt (Nat.lt_trans small (by decide))
  have spells : Char.ofNat code.toNat = character := by
    rw [same]
    exact Char.ofNat_toNat character
  rw [← spells, utf8EncodeChar_ascii (by omega), List.mem_singleton] at encoded
  rw [encoded, ← (classes_ofNat code).2.2, spells]
  exact spelled character inside

end FlatSchema
