import FlatSchema.Text.Title
import FlatSchema.Proofs.Text.Spelling

/-!
Title case of names. On ASCII the full case mappings are those of single letters, so the title case
of a name has as many characters as the name, and is made of the characters of names.
-/

namespace FlatSchema.Text

/-- Expansions and runs above ASCII do not count for an ASCII character. -/
theorem mapCase_of_ascii {expansions : List (Nat × List Nat)} {run : CaseRun} {runs : List CaseRun}
    {character : Char} (ascii : character.toNat < 128)
    (expansionsAbove : ∀ expansion ∈ expansions, 128 ≤ expansion.1)
    (runsAbove : ∀ run ∈ runs, 128 ≤ run.first) :
    mapCase expansions (run :: runs) character =
      [(run.image? character.toNat).getD character] := by
  have unexpanded : expansions.lookup character.toNat = none := by
    rw [List.lookup_eq_none_iff]
    intro expansion member
    have above := expansionsAbove expansion member
    rw [bne_iff_ne]
    omega
  have outside : runs.findSome? (·.image? character.toNat) = none := by
    rw [List.findSome?_eq_none_iff]
    intro other member
    have above := runsAbove other member
    rw [CaseRun.image?, if_neg (by omega)]
  rw [mapCase, unexpanded, List.findSome?_cons]
  cases run.image? character.toNat with
  | none => simp only [outside]
  | some image => rfl

/-- On ASCII the case mappings change letters one by one. -/
theorem cases_of_ascii {character : Char} (ascii : character.toNat < 128) :
    upperCase character = [character.toUpper] ∧ lowerCase character = [character.toLower] := by
  have upper : upperCase character = _ :=
    mapCase_of_ascii ascii (by decide +kernel) (by decide +kernel)
  have lower : lowerCase character = _ :=
    mapCase_of_ascii ascii (by decide +kernel) (by decide +kernel)
  have mapped : ∀ code < 128,
      (CaseRun.image? ⟨0x61, 0x7A, 1, -32⟩ code).getD (Char.ofNat code) =
          (Char.ofNat code).toUpper ∧
        (CaseRun.image? ⟨0x41, 0x5A, 1, 32⟩ code).getD (Char.ofNat code) =
          (Char.ofNat code).toLower := by
    decide +kernel
  have image := mapped character.toNat ascii
  rw [Char.ofNat_toNat] at image
  rw [upper, lower, image.1, image.2]
  exact ⟨rfl, rfl⟩

theorem lowerFrom_of_ascii {characters : List Char}
    (ascii : ∀ character ∈ characters, character.toNat < 128) (before : List Char) :
    lowerFrom before characters = characters.map Char.toLower := by
  induction characters generalizing before with
  | nil => rfl
  | cons character characters inductionHypothesis =>
    obtain ⟨asciiFirst, asciiRest⟩ := List.forall_mem_cons.mp ascii
    have noSigma : character ≠ 'Σ' := by
      rintro rfl
      revert asciiFirst
      decide
    rw [lowerFrom.eq_3 before character characters noSigma, (cases_of_ascii asciiFirst).2,
      inductionHypothesis asciiRest]
    rfl

theorem toList_titleCase_of_ascii {text : String} {first : Char} {others : List Char}
    (ascii : ∀ character ∈ text.toList, character.toNat < 128)
    (characters : text.toList = first :: others) :
    (titleCase text).toList = first.toUpper :: others.map Char.toLower := by
  rw [characters, List.forall_mem_cons] at ascii
  rw [titleCase, characters]
  simp only [(cases_of_ascii ascii.1).1, lowerFrom_of_ascii ascii.2, String.toList_ofList]
  rfl

/-- A letter stays a letter in either case, and all else stays as it is. -/
theorem isNameChar_cases {character : Char} (member : isNameChar character = true) :
    isNameChar character.toUpper = true ∧ isNameChar character.toLower = true := by
  have kept : ∀ code < 128, isNameChar (Char.ofNat code) = true →
      isNameChar (Char.ofNat code).toUpper = true ∧
        isNameChar (Char.ofNat code).toLower = true := by
    decide +kernel
  have image := kept character.toNat (toNat_lt_of_isValueChar (isValueChar_of_isNameChar member))
  rw [Char.ofNat_toNat] at image
  exact image member

theorem isNameChar_titleCase {text : String}
    (spelled : ∀ character ∈ text.toList, isNameChar character = true) :
    ∀ character ∈ (titleCase text).toList, isNameChar character = true := by
  cases characters : text.toList with
  | nil =>
    rw [titleCase, characters]
    exact List.forall_mem_nil _
  | cons first others =>
    have ascii : ∀ character ∈ text.toList, character.toNat < 128 := by
      intro character member
      exact toNat_lt_of_isValueChar (isValueChar_of_isNameChar (spelled character member))
    rw [toList_titleCase_of_ascii ascii characters, List.forall_mem_cons, List.forall_mem_map]
    rw [characters, List.forall_mem_cons] at spelled
    refine ⟨(isNameChar_cases spelled.1).1, ?_⟩
    intro character member
    exact (isNameChar_cases (spelled.2 character member)).2

end FlatSchema.Text
