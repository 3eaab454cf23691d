import FlatSchema.Proofs.Schema.WellFormed
import FlatSchema.Proofs.Text.Title

/-!
What the name of a container tells about its namespace. Title case gives every part that begins with
a letter a capital, and no other capitals, so the parts can be read off the container again. An
underscore has no capital: a part that begins with one cannot be told from the end of the part before
it. Up to this and up to the case of letters the container has all that the namespace says.
-/

namespace FlatSchema

namespace Text

/-- The characters of a text with the case of letters dropped. -/
def lowered (text : String) : List Char :=
  text.toList.map Char.toLower

/-- Title case of ASCII characters. -/
def titled : List Char → List Char
  | [] => []
  | first :: others => first.toUpper :: others.map Char.toLower

section Characters

variable {character : Char}

/-- Each case of a name's character can be had from the other, and capitals are the upper case of
letters. -/
theorem cases_of_isNameChar (member : isNameChar character = true) :
    character.toUpper.toLower = character.toLower ∧ character.toLower.toUpper = character.toUpper ∧
      character.toLower.toLower = character.toLower ∧ character.toLower.isUpper = false ∧
      character.toUpper.isUpper = character.isAlpha := by
  have mapped : ∀ code < 128,
      (Char.ofNat code).toUpper.toLower = (Char.ofNat code).toLower ∧
        (Char.ofNat code).toLower.toUpper = (Char.ofNat code).toUpper ∧
        (Char.ofNat code).toLower.toLower = (Char.ofNat code).toLower ∧
        (Char.ofNat code).toLower.isUpper = false ∧
        (Char.ofNat code).toUpper.isUpper = (Char.ofNat code).isAlpha := by
    decide +kernel
  have image := mapped character.toNat (toNat_lt_of_isValueChar (isValueChar_of_isNameChar member))
  rwa [Char.ofNat_toNat] at image

end Characters

theorem IsName.exists_cons {text : String} (spelled : IsName text) :
    ∃ first others, text.toList = first :: others ∧ isNameLead first = true ∧
      isNameChar first = true ∧ ∀ character ∈ others, isNameChar character = true := by
  obtain ⟨lead, members⟩ := spelled
  cases characters : text.toList with
  | nil => simp [characters] at lead
  | cons first others =>
    rw [characters] at lead members
    rw [List.forall_mem_cons] at members
    exact ⟨first, others, rfl, lead, members⟩

theorem toList_titleCase_of_isName {text : String} (spelled : IsName text) :
    (titleCase text).toList = titled text.toList := by
  obtain ⟨first, others, characters, -⟩ := spelled.exists_cons
  have ascii : ∀ character ∈ text.toList, character.toNat < 128 := by
    intro character member
    exact toNat_lt_of_isValueChar (isValueChar_of_isNameChar (spelled.2 character member))
  rw [toList_titleCase_of_ascii ascii characters, characters, titled]

/-- Title case and lower case of names tell the same. -/
theorem titled_eq_iff_lowered_eq {text text' : String} (spelled : IsName text)
    (spelled' : IsName text') :
    titled text.toList = titled text'.toList ↔ lowered text = lowered text' := by
  obtain ⟨first, others, characters, -, member, members⟩ := spelled.exists_cons
  obtain ⟨first', others', characters', -, member', members'⟩ := spelled'.exists_cons
  simp only [lowered, characters, characters', titled, List.map_cons, List.cons.injEq]
  apply and_congr_left
  intro _
  constructor
  · intro same
    rw [← (cases_of_isNameChar member).1, same, (cases_of_isNameChar member').1]
  · intro same
    rw [← (cases_of_isNameChar member).2.1, same, (cases_of_isNameChar member').2.1]

/-- Characters cut into words, each capital beginning one. -/
def splitAtCapitals : List Char → List (List Char)
  | [] => []
  | character :: characters =>
    match splitAtCapitals characters with
    | [] => [[character]]
    | word :: words =>
      if word.head?.any Char.isUpper then
        [character] :: word :: words
      else
        (character :: word) :: words

/-- Nothing, or something that begins with a capital. -/
def StartsCapital (characters : List Char) : Prop :=
  characters.head?.all Char.isUpper = true

theorem exists_splitAtCapitals_cons (character : Char) (characters : List Char) :
    ∃ word words, splitAtCapitals (character :: characters) = (character :: word) :: words := by
  rw [splitAtCapitals]
  split
  · exact ⟨[], [], rfl⟩
  · split
    · exact ⟨[], _, rfl⟩
    · exact ⟨_, _, rfl⟩

theorem splitAtCapitals_append {others rest : List Char}
    (plain : ∀ character ∈ others, character.isUpper = false) (starts : StartsCapital rest)
    (first : Char) :
    splitAtCapitals (first :: (others ++ rest)) = (first :: others) :: splitAtCapitals rest := by
  induction others generalizing first with
  | nil =>
    rw [List.nil_append, splitAtCapitals]
    cases rest with
    | nil => rfl
    | cons character characters =>
      obtain ⟨word, words, split⟩ := exists_splitAtCapitals_cons character characters
      have capital : character.isUpper = true := starts
      simp [split, capital]
  | cons character others inductionHypothesis =>
    rw [List.forall_mem_cons] at plain
    rw [List.cons_append, splitAtCapitals, inductionHypothesis plain.2]
    simp [plain.1]

/-- Words in title case can be told apart if all but the first begin with letters. -/
theorem splitAtCapitals_flatMap_titled {words : List String} (spelled : ∀ word ∈ words, IsName word)
    (lettered : ∀ word ∈ words.tail, word.toList.head?.any Char.isAlpha = true) :
    splitAtCapitals (words.flatMap fun word => titled word.toList) =
      words.map fun word => titled word.toList := by
  induction words with
  | nil => rfl
  | cons word words inductionHypothesis =>
    rw [List.forall_mem_cons] at spelled
    obtain ⟨first, others, characters, -, -, members⟩ := spelled.1.exists_cons
    have further := inductionHypothesis spelled.2 fun word member =>
      lettered word (List.mem_of_mem_tail member)
    have plain : ∀ character ∈ others.map Char.toLower, character.isUpper = false := by
      rw [List.forall_mem_map]
      intro character member
      exact (cases_of_isNameChar (members character member)).2.2.2.1
    have starts : StartsCapital (words.flatMap fun word => titled word.toList) := by
      cases words with
      | nil => rfl
      | cons next words =>
        have letter := lettered next (List.mem_cons_self ..)
        have nextSpelled := spelled.2 next (List.mem_cons_self ..)
        obtain ⟨lead, behind, nextCharacters, -, member, -⟩ := nextSpelled.exists_cons
        simp only [nextCharacters, List.head?_cons, Option.any_some] at letter
        simp [StartsCapital, nextCharacters, titled, (cases_of_isNameChar member).2.2.2.2, letter]
    rw [List.flatMap_cons, characters, titled, List.cons_append,
      splitAtCapitals_append plain starts, further, List.map_cons, characters, titled]

end Text

namespace Namespace

open Text

/-- Whether a part of a namespace is marked off from the part before it by no capital. -/
def isUnderscored (part : String) : Bool :=
  part.toList.head? = some '_'

/-- Parts with each underscored one joined to the part before it. -/
def joinUnderscored : List String → List String
  | [] => []
  | part :: parts =>
    match joinUnderscored parts with
    | [] => [part]
    | next :: words =>
      if isUnderscored next then (part ++ next) :: words else part :: next :: words

/-- The words of a namespace, which are its parts up to underscored ones. -/
def words (nameSpace : Namespace) : List String :=
  joinUnderscored (nameSpace.parts.map (·.text))

theorem joinUnderscored_of_plain {part : String} {parts : List String}
    (plain : ∀ part ∈ parts, isUnderscored part = false) :
    joinUnderscored (part :: parts) = part :: parts := by
  induction parts generalizing part with
  | nil => rfl
  | cons next parts inductionHypothesis =>
    rw [List.forall_mem_cons] at plain
    rw [joinUnderscored, inductionHypothesis plain.2]
    simp [plain.1]

/-- Without underscored parts after the first, the words of a namespace are its parts. -/
theorem words_of_plain {nameSpace : Namespace}
    (plain : ∀ part ∈ nameSpace.parts.tail, isUnderscored part.text = false) :
    nameSpace.words = nameSpace.parts.map (·.text) := by
  rw [words]
  cases parts : nameSpace.parts with
  | nil => rfl
  | cons part parts' =>
    rw [parts, List.tail_cons] at plain
    apply joinUnderscored_of_plain
    rwa [List.forall_mem_map]

theorem isName_append {first second : String} (spelled : IsName first) (spelled' : IsName second) :
    IsName (first ++ second) := by
  obtain ⟨lead, others, characters, leads, -⟩ := spelled.exists_cons
  refine ⟨?_, ?_⟩
  · simp [String.toList_append, characters, leads]
  · rw [String.toList_append, List.forall_mem_append]
    exact ⟨spelled.2, spelled'.2⟩

theorem titled_append {first second : String} (spelled : IsName first)
    (underscored : isUnderscored second = true) :
    titled (first ++ second).toList = titled first.toList ++ titled second.toList := by
  obtain ⟨lead, others, characters, -⟩ := spelled.exists_cons
  rw [String.toList_append, characters]
  cases behind : second.toList with
  | nil => simp [titled]
  | cons underscore rest =>
    have mark : underscore = '_' := by simpa [isUnderscored, behind] using underscored
    subst mark
    simp only [titled, List.cons_append, List.map_append, List.map_cons]
    rfl

section Joined

variable {parts : List String} (spelled : ∀ part ∈ parts, IsName part)

include spelled

theorem isName_joinUnderscored : ∀ word ∈ joinUnderscored parts, IsName word := by
  induction parts with
  | nil => exact List.forall_mem_nil _
  | cons part parts inductionHypothesis =>
    rw [List.forall_mem_cons] at spelled
    have further := inductionHypothesis spelled.2
    rw [joinUnderscored]
    split
    · exact List.forall_mem_singleton.mpr spelled.1
    · next next words joined =>
      rw [joined, List.forall_mem_cons] at further
      split
      · exact List.forall_mem_cons.mpr ⟨isName_append spelled.1 further.1, further.2⟩
      · exact List.forall_mem_cons.mpr ⟨spelled.1, List.forall_mem_cons.mpr further⟩

theorem isAlpha_tail_joinUnderscored :
    ∀ word ∈ (joinUnderscored parts).tail, word.toList.head?.any Char.isAlpha = true := by
  induction parts with
  | nil => exact List.forall_mem_nil _
  | cons part parts inductionHypothesis =>
    rw [List.forall_mem_cons] at spelled
    have further := inductionHypothesis spelled.2
    have names := isName_joinUnderscored spelled.2
    rw [joinUnderscored]
    split
    · exact List.forall_mem_nil _
    · next next words joined =>
      rw [joined] at further names
      split
      · exact further
      · next plain =>
        refine List.forall_mem_cons.mpr ⟨?_, further⟩
        obtain ⟨lead, others, characters, leads, -⟩ :=
          (names next (List.mem_cons_self ..)).exists_cons
        simp only [isUnderscored, characters, List.head?_cons, Option.some.injEq,
          decide_eq_true_eq] at plain
        simpa [characters, isNameLead, plain] using leads

theorem flatMap_titled_joinUnderscored :
    ((joinUnderscored parts).flatMap fun word => titled word.toList) =
      parts.flatMap fun part => titled part.toList := by
  induction parts with
  | nil => rfl
  | cons part parts inductionHypothesis =>
    rw [List.forall_mem_cons] at spelled
    have further := inductionHypothesis spelled.2
    rw [List.flatMap_cons, ← further, joinUnderscored]
    split
    · next joined => rw [joined, List.flatMap_singleton, List.flatMap_nil, List.append_nil]
    · next next words joined =>
      split
      · next underscored =>
        rw [joined, List.flatMap_cons, titled_append spelled.1 underscored, List.flatMap_cons,
          List.append_assoc]
      · rw [joined, List.flatMap_cons]

end Joined

namespace WellFormed

variable {nameSpace : Namespace} (wellFormed : nameSpace.WellFormed)

include wellFormed

theorem isName_parts : ∀ part ∈ nameSpace.parts.map (·.text), IsName part := by
  rw [List.forall_mem_map]
  intro part member
  exact (wellFormed part member).spelled

theorem isName_words : ∀ word ∈ nameSpace.words, IsName word :=
  isName_joinUnderscored wellFormed.isName_parts

theorem toList_container_parts :
    nameSpace.container.toList =
      (nameSpace.parts.map (·.text)).flatMap fun part => titled part.toList := by
  rw [container, String.toList_join, List.flatMap_map, List.flatMap_map]
  apply List.flatMap_congr
  intro part member
  exact toList_titleCase_of_isName (wellFormed part member).spelled

theorem toList_container :
    nameSpace.container.toList = nameSpace.words.flatMap fun word => titled word.toList := by
  rw [words, flatMap_titled_joinUnderscored wellFormed.isName_parts,
    wellFormed.toList_container_parts]

/-- The words of a namespace are read off its container at the capitals. -/
theorem splitAtCapitals_container :
    splitAtCapitals nameSpace.container.toList =
      nameSpace.words.map fun word => titled word.toList := by
  rw [wellFormed.toList_container]
  exact splitAtCapitals_flatMap_titled wellFormed.isName_words
    (isAlpha_tail_joinUnderscored wellFormed.isName_parts)

theorem container_eq_empty_iff : nameSpace.container = "" ↔ nameSpace.parts = [] := by
  constructor
  · intro empty
    cases parts : nameSpace.parts with
    | nil => rfl
    | cons part others =>
      have spelled := (wellFormed part (by simp [parts])).spelled
      obtain ⟨first, behind, characters, -⟩ := spelled.exists_cons
      have blank := toList_titleCase_of_isName spelled
      rw [container, parts, List.map_cons, String.join_cons, String.append_eq_empty_iff] at empty
      simp [empty.1, characters, titled] at blank
  · intro none
    simp [container, none]

end WellFormed

theorem map_titled_eq_iff {words words' : List String} (spelled : ∀ word ∈ words, IsName word)
    (spelled' : ∀ word ∈ words', IsName word) :
    (words.map fun word => titled word.toList) = (words'.map fun word => titled word.toList) ↔
      words.map lowered = words'.map lowered := by
  induction words generalizing words' with
  | nil => cases words' <;> simp
  | cons word words inductionHypothesis =>
    cases words' with
    | nil => simp
    | cons word' words' =>
      rw [List.forall_mem_cons] at spelled spelled'
      simp only [List.map_cons, List.cons.injEq, titled_eq_iff_lowered_eq spelled.1 spelled'.1,
        inductionHypothesis spelled.2 spelled'.2]

/-- Two namespaces have one container exactly if their words are the same up to case. -/
theorem container_eq_iff {first second : Namespace} (wellFormed : first.WellFormed)
    (wellFormed' : second.WellFormed) :
    first.container = second.container ↔ first.words.map lowered = second.words.map lowered := by
  rw [← map_titled_eq_iff wellFormed.isName_words wellFormed'.isName_words]
  constructor
  · intro same
    rw [← wellFormed.splitAtCapitals_container, ← wellFormed'.splitAtCapitals_container, same]
  · intro same
    apply String.toList_injective
    rw [wellFormed.toList_container, wellFormed'.toList_container, List.flatMap_def,
      List.flatMap_def, same]

/-- Parts that are the same up to case give one container, whatever they begin with. -/
theorem container_eq_of_parts {first second : Namespace} (wellFormed : first.WellFormed)
    (wellFormed' : second.WellFormed)
    (same : (first.parts.map (·.text)).map lowered = (second.parts.map (·.text)).map lowered) :
    first.container = second.container := by
  rw [← map_titled_eq_iff wellFormed.isName_parts wellFormed'.isName_parts] at same
  apply String.toList_injective
  rw [wellFormed.toList_container_parts, wellFormed'.toList_container_parts, List.flatMap_def,
    List.flatMap_def, same]

section Reserved

/-- The reserved words that title case can give: those that begin with a capital. -/
def capitalReserved : List String :=
  ["Protocol", "Self", "Type"]

/-- Whether a namespace has one part only, and that part is up to case a reserved word that begins
with a capital. -/
def spellsReserved (nameSpace : Namespace) : Bool :=
  match nameSpace.parts with
  | [part] => (capitalReserved.map lowered).contains (lowered part.text)
  | _ => false

theorem spellsReserved_eq_true_iff {nameSpace : Namespace} :
    nameSpace.spellsReserved = true ↔
      ∃ part, nameSpace.parts = [part] ∧ ∃ word ∈ capitalReserved, lowered part.text = lowered word := by
  obtain ⟨parts⟩ := nameSpace
  match parts with
  | [] => simp [spellsReserved]
  | [part] =>
    simp only [spellsReserved, List.contains_iff_mem, List.mem_map, List.cons.injEq, and_true,
      exists_eq_left', eq_comm (b := lowered part.text)]
  | _ :: _ :: _ => simp [spellsReserved]

/-- A container begins with a capital or an underscore, and few reserved words do. -/
theorem mem_capitalReserved {word : String} (reserved : word ∈ Ident.reservedWords)
    (lead : word.toList.head?.any (fun first => first.isUpper || first = '_') = true) :
    word ∈ capitalReserved := by
  have few : ∀ word ∈ Ident.reservedWords,
      word.toList.head?.any (fun first => first.isUpper || first = '_') = true →
        word ∈ capitalReserved := by
    decide +kernel
  exact few word reserved lead

theorem isName_of_capitalReserved {word : String} (member : word ∈ capitalReserved) :
    IsName word := by
  have spelled : ∀ word ∈ capitalReserved,
      word.toList.head?.any isNameLead = true ∧ word.toList.all isNameChar = true := by
    decide +kernel
  exact ⟨(spelled word member).1, List.all_eq_true.mp (spelled word member).2⟩

theorem capitalReserved_facts :
    ∀ word ∈ capitalReserved, word ∈ Ident.reservedWords ∧
      splitAtCapitals word.toList = [word.toList] ∧ titled word.toList = word.toList ∧
      '_' ∉ lowered word := by
  decide +kernel

theorem underscore_mem_of_joined {part next word : String} {parts : List String}
    (joined : joinUnderscored (part :: next :: parts) = [word]) : '_' ∈ lowered word := by
  rw [joinUnderscored] at joined
  split at joined
  · next nothing =>
    rw [joinUnderscored] at nothing
    split at nothing
    · cases nothing
    · split at nothing <;> cases nothing
  · next second words _ =>
    split at joined
    · next underscored =>
      cases joined
      have inside : '_' ∈ second.toList := by
        apply List.mem_of_mem_head?
        simpa [isUnderscored] using underscored
      rw [lowered, List.mem_map]
      exact ⟨'_', by simp [inside], rfl⟩
    · cases joined

theorem WellFormed.lead_container {nameSpace : Namespace} (wellFormed : nameSpace.WellFormed)
    (nonempty : nameSpace.parts ≠ []) :
    nameSpace.container.toList.head?.any (fun first => first.isUpper || first = '_') = true := by
  cases parts : nameSpace.parts with
  | nil => contradiction
  | cons part others =>
    have spelled := (wellFormed part (by simp [parts])).spelled
    obtain ⟨first, behind, characters, leads, member, -⟩ := spelled.exists_cons
    rw [container, parts, List.map_cons, String.join_cons, String.toList_append,
      toList_titleCase_of_isName spelled, characters, titled, List.cons_append, List.head?_cons,
      Option.any_some, (cases_of_isNameChar member).2.2.2.2]
    by_cases letter : first.isAlpha = true
    · simp [letter]
    · have underscore : first = '_' := by simpa [isNameLead, letter] using leads
      simp [underscore]

/-- The container of a namespace is a reserved word exactly if the namespace spells one that begins
with a capital. -/
theorem WellFormed.container_mem_reservedWords_iff {nameSpace : Namespace}
    (wellFormed : nameSpace.WellFormed) :
    nameSpace.container ∈ Ident.reservedWords ↔ nameSpace.spellsReserved = true := by
  rw [spellsReserved_eq_true_iff]
  constructor
  · intro reserved
    have nonempty : nameSpace.parts ≠ [] := by
      intro none
      rw [wellFormed.container_eq_empty_iff.mpr none] at reserved
      revert reserved
      decide +kernel
    have capital := mem_capitalReserved reserved (wellFormed.lead_container nonempty)
    obtain ⟨-, whole, same, noUnderscore⟩ := capitalReserved_facts _ capital
    have spelled := isName_of_capitalReserved capital
    have words := wellFormed.splitAtCapitals_container
    rw [whole, eq_comm, List.map_eq_singleton_iff] at words
    obtain ⟨word, single, titledWord⟩ := words
    have isName : IsName word := wellFormed.isName_words word (by simp [single])
    have caseless : lowered word = lowered nameSpace.container := by
      rw [← titled_eq_iff_lowered_eq isName spelled, titledWord, same]
    rw [Namespace.words] at single
    -- Only a single part has no underscore inside its only word.
    match parts : nameSpace.parts with
    | [] => contradiction
    | [part] =>
      rw [parts] at single
      cases single
      exact ⟨part, rfl, _, capital, caseless⟩
    | part :: next :: others =>
      rw [parts] at single
      exact absurd (caseless ▸ underscore_mem_of_joined single) noUnderscore
  · rintro ⟨part, single, word, member, caseless⟩
    obtain ⟨reserved, -, same, -⟩ := capitalReserved_facts word member
    have spelled := isName_of_capitalReserved member
    have isName : IsName part.text := (wellFormed part (by simp [single])).spelled
    have container : nameSpace.container = word := by
      apply String.toList_injective
      rw [Namespace.container, single, List.map_singleton, String.toList_join,
        List.flatMap_singleton, toList_titleCase_of_isName isName,
        (titled_eq_iff_lowered_eq isName spelled).mpr caseless, same]
    rw [container]
    exact reserved

end Reserved

end Namespace

namespace Schema

variable {schema : Schema}

theorem container_of_none (undeclared : schema.document.nameSpace = none) :
    schema.container = "" := by
  rw [container, undeclared]
  rfl

theorem container_of_some {nameSpace : Namespace}
    (declared : schema.document.nameSpace = some nameSpace) :
    schema.container = nameSpace.container := by
  rw [container, declared]
  rfl

end Schema

end FlatSchema
