import FlatSchema.Proofs.Grammar.Trivia

/-!
What may follow. The parts of a declaration are told apart by the first byte past the blanks, so
what has to be known of the bytes after a part is which byte that is not.
-/

namespace FlatSchema

namespace Grammar

open Token

/-- The first byte that is no blank, if there is one, is outside of a class. -/
def Before (isMember : UInt8 → Bool) (bytes : List UInt8) : Prop :=
  ∀ byte ∈ lead? bytes, isMember byte = false

namespace Before

variable {isMember : UInt8 → Bool} {bytes : List UInt8}

theorem of_lead {byte : UInt8} (leads : lead? bytes = some byte)
    (outside : isMember byte = false) : Before isMember bytes := by
  intro other found
  rw [leads, Option.mem_some] at found
  exact found ▸ outside

theorem symbol {text : String} {first : UInt8} (solid : Solid text first) {word : List UInt8}
    (written : Symbol text word) (outside : isMember first = false) (rest : List UInt8) :
    Before isMember (word ++ rest) :=
  .of_lead (lead?_symbol solid written rest) outside

theorem literal {word : List UInt8} {text : String} (written : Literal word text)
    (outside : isMember Byte.quote = false) (rest : List UInt8) :
    Before isMember (word ++ rest) := by
  obtain ⟨blank, -⟩ := written
  have solid : Byte.isBlank Byte.quote = false := by decide
  refine .of_lead ?_ outside
  rw [List.append_assoc, lead?_append_of_blanks blank]
  exact lead?_cons solid _

theorem clear_name (before : Before Byte.isNameByte bytes) : Clear Byte.isNameByte bytes :=
  clear_of_lead (fun _ => Byte.isNameByte_of_isBlank) before

theorem clear_value (before : Before Byte.isValueByte bytes) : Clear Byte.isValueByte bytes :=
  clear_of_lead (fun _ => Byte.isValueByte_of_isBlank) before

theorem mono {isOther : UInt8 → Bool} (before : Before isMember bytes)
    (included : ∀ byte, isOther byte = true → isMember byte = true) :
    Before isOther bytes := by
  intro byte found
  rw [Bool.eq_false_iff]
  intro member
  have outside := before byte found
  rw [included byte member] at outside
  cases outside

theorem lead?_ne {excluded : UInt8} (before : Before (· == excluded) bytes) :
    lead? bytes ≠ some excluded := by
  intro leads
  have outside := before excluded leads
  simp at outside

end Before

/-- A name is led by one of the bytes with which names start. -/
theorem lead?_name {word : List UInt8} {text : String} (written : Name word text)
    (rest : List UInt8) :
    ∃ byte, lead? (word ++ rest) = some byte ∧ Byte.isNameStart byte = true := by
  obtain ⟨blank, spelled⟩ := written
  rw [List.append_assoc, lead?_append_of_blanks blank]
  obtain ⟨first, others, bytes, start, -⟩ := spelled.cons
  rw [bytes, List.cons_append]
  exact ⟨first, lead?_cons (Byte.isBlank_of_isNameStart start) _, start⟩

theorem lead?_identifier_ne {word : List UInt8} {name : Ident} (written : Identifier word name)
    {byte : UInt8} (other : Byte.isNameStart byte = false) (rest : List UInt8) :
    lead? (word ++ rest) ≠ some byte := by
  obtain ⟨named⟩ := written
  obtain ⟨first, leads, start⟩ := lead?_name named rest
  rw [leads]
  rintro ⟨⟩
  rw [start] at other
  cases other

theorem lead?_symbol_ne {text : String} {first other : UInt8} (solid : Solid text first)
    (different : first ≠ other) {word : List UInt8} (written : Symbol text word)
    (rest : List UInt8) : lead? (word ++ rest) ≠ some other := by
  rw [lead?_symbol solid written]
  simpa using different

theorem StartsBlank.clear {word : List UInt8} (starts : StartsBlank word) (rest : List UInt8) :
    Clear Byte.isNameByte (word ++ rest) := by
  obtain ⟨byte, others, rfl, blank⟩ := starts
  exact clear_cons.mpr (Byte.isNameByte_of_isBlank blank)

/-- A name that does not run on from a keyword has a blank in front of it. -/
theorem Identifier.startsBlank {word rest : List UInt8} {name : Ident}
    (written : Identifier word name) (clear : Clear Byte.isNameByte (word ++ rest)) :
    StartsBlank word := by
  obtain ⟨@⟨blanks, _, blank, spelled⟩⟩ := written
  cases blanks with
  | cons byte blanks => exact ⟨byte, _, rfl, blank byte (by simp)⟩
  | nil =>
    obtain ⟨first, others, bytes, start, -⟩ := spelled.cons
    rw [bytes] at clear
    have member := Byte.isNameByte_of_isNameStart start
    rw [clear_cons.mp clear] at member
    cases member

end Grammar

open Grammar Rule Token

namespace Rule

variable {α : Type}

theorem Reads.strengthen {rule : Rule α} {phrase : Phrase α} {follows stricter : List UInt8 → Prop}
    (reads : rule.Reads phrase follows) (weaker : ∀ {rest}, stricter rest → follows rest) :
    rule.Reads phrase stricter where
  sound := reads.sound
  complete written follow := reads.complete written (weaker follow)

end Rule

theorem Token.name_eq_none {bytes : List UInt8} (before : Before Byte.isNameStart bytes) :
    name bytes = none := by
  rw [name, skipBlanks_bind_apply]
  apply bind_of_no_match
  cases solid : bytes.dropWhile Byte.isBlank with
  | nil => rfl
  | cons byte rest =>
    have outside := before byte (by rw [lead?, solid, List.head?_cons, Option.mem_some])
    simp [byteOf, outside]

namespace Ident

theorem rule_ignoresBlanks : rule.IgnoresBlanks :=
  name_ignoresBlanks.map ofSource

theorem rule_reads : rule.Reads Identifier (Clear Byte.isNameByte) := by
  refine name_reads.map ?_
  intro word ident
  constructor
  · rintro ⟨named⟩
    exact ⟨_, named, rfl⟩
  · rintro ⟨text, named, rfl⟩
    exact .stored named

theorem rule_eq_none {bytes : List UInt8} (before : Before Byte.isNameStart bytes) :
    rule bytes = none := by
  rw [rule, map_apply, name_eq_none before]
  rfl

end Ident

end FlatSchema
