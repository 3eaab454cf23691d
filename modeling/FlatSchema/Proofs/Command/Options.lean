import FlatSchema.Command.Run
import FlatSchema.Proofs.Disk.Writing

/-!
Options and the arguments that spell them. Where an argument list is accepted, an option has a value
exactly if the value is spelled with it somewhere before the first `--`. So the file that a command
writes to is the one that the arguments name.
-/

namespace FlatSchema

/-- The arguments that give a value to an option. -/
inductive Spells (option : String × Char) (value : String) : List String → Prop where
  | long : Spells option value ["--" ++ option.1, value]
  | longEquals : Spells option value ["--" ++ option.1 ++ "=" ++ value]
  | short : Spells option value ["-" ++ String.singleton option.2, value]
  | shortEquals : Spells option value ["-" ++ String.singleton option.2 ++ "=" ++ value]
  | shortAttached (nonempty : value ≠ "") (noEquals : value.toList.head? ≠ some '=') :
      Spells option value ["-" ++ String.singleton option.2 ++ value]

/-- A value is given to an option somewhere before the arguments that are operands only. -/
def Gives (arguments : List String) (option : String × Char) (value : String) : Prop :=
  ∃ before spelled after, arguments = before ++ spelled ++ after ∧ "--" ∉ before ∧
    Spells option value spelled

/-- The name and the letter of an option cannot be taken for anything else. -/
structure Spellable (option : String × Char) : Prop where
  named : option.1 ≠ ""
  noEquals : '=' ∉ option.1.toList
  noDash : option.2 ≠ '-'

/-- An option is taken, and it can be told from all others. -/
structure KnownArguments.Tells (known : KnownArguments) (option : String × Char) : Prop extends
    Spellable option where
  byLetter : known.options.find? (·.2 = option.2) = some option
  byName : ∀ other ∈ known.options, other.1 = option.1 → other = option

/-- An option is not taken, and neither is a flag of that name. -/
structure KnownArguments.Refuses (known : KnownArguments) (option : String × Char) : Prop extends
    Spellable option where
  byLetter : known.options.find? (·.2 = option.2) = none
  byName : known.options.any (·.1 = option.1) = false
  byFlag : known.flags.contains option.1 = false

section Spelling

variable {option : String × Char} {value argument : String}

theorem spells_singleton_iff :
    Spells option value [argument] ↔
      argument.toList = '-' :: '-' :: (option.1.toList ++ '=' :: value.toList) ∨
        argument.toList = '-' :: option.2 :: '=' :: value.toList ∨
        argument.toList = '-' :: option.2 :: value.toList ∧ value ≠ "" ∧
          value.toList.head? ≠ some '=' := by
  constructor
  · intro spells
    cases spells with
    | longEquals => simp
    | shortEquals => simp
    | shortAttached nonempty noEquals => simp [nonempty, noEquals]
  · rintro (long | short | ⟨short, nonempty, noEquals⟩)
    · have same : argument = "--" ++ option.1 ++ "=" ++ value := by
        apply String.toList_injective
        simp [long]
      rw [same]
      exact .longEquals
    · have same : argument = "-" ++ String.singleton option.2 ++ "=" ++ value := by
        apply String.toList_injective
        simp [short]
      rw [same]
      exact .shortEquals
    · have same : argument = "-" ++ String.singleton option.2 ++ value := by
        apply String.toList_injective
        simp [short]
      rw [same]
      exact .shortAttached nonempty noEquals

/-- Arguments that leave the value of an option to the next argument. -/
def Awaits (option : String × Char) (argument : String) : Prop :=
  argument.toList = '-' :: '-' :: option.1.toList ∨ argument.toList = ['-', option.2]

theorem spells_pair_iff {next : String} :
    Spells option value [argument, next] ↔ Awaits option argument ∧ next = value := by
  constructor
  · intro spells
    cases spells with
    | long => simp [Awaits]
    | short => simp [Awaits]
  · rintro ⟨long | short, rfl⟩
    · have same : argument = "--" ++ option.1 := by
        apply String.toList_injective
        simp [long]
      rw [same]
      exact .long
    · have same : argument = "-" ++ String.singleton option.2 := by
        apply String.toList_injective
        simp [short]
      rw [same]
      exact .short

theorem Spells.cases {spelled : List String} (spells : Spells option value spelled) :
    (∃ argument, spelled = [argument]) ∨ ∃ argument next, spelled = [argument, next] := by
  cases spells with
  | long | short => exact .inr ⟨_, _, rfl⟩
  | longEquals | shortEquals | shortAttached => exact .inl ⟨_, rfl⟩

theorem gives_cons_iff {rest : List String} :
    Gives (argument :: rest) option value ↔
      Spells option value [argument] ∨ Awaits option argument ∧ rest.head? = some value ∨
        argument ≠ "--" ∧ Gives rest option value := by
  constructor
  · rintro ⟨before, spelled, after, split, noEnd, spells⟩
    cases before with
    | nil =>
      obtain ⟨single, rfl⟩ | ⟨first, second, rfl⟩ := spells.cases
      · cases split
        exact .inl spells
      · cases split
        obtain ⟨awaits, rfl⟩ := spells_pair_iff.mp spells
        exact .inr (.inl ⟨awaits, rfl⟩)
    | cons first before =>
      cases split
      rw [List.mem_cons, not_or] at noEnd
      exact .inr (.inr ⟨Ne.symm noEnd.1, before, spelled, after, rfl, noEnd.2, spells⟩)
  · rintro (spells | ⟨awaits, given⟩ | ⟨noEnd, before, spelled, after, rfl, noEnd', spells⟩)
    · exact ⟨[], [argument], rest, rfl, List.not_mem_nil, spells⟩
    · obtain ⟨after, rfl⟩ := List.head?_eq_some_iff.mp given
      exact ⟨[], [argument, value], after, rfl, List.not_mem_nil, spells_pair_iff.mpr ⟨awaits, rfl⟩⟩
    · refine ⟨argument :: before, spelled, after, rfl, ?_, spells⟩
      rw [List.mem_cons, not_or]
      exact ⟨Ne.symm noEnd, noEnd'⟩

/-- Whatever begins with a dash and goes on looks like an option. -/
theorem isOptionLike_of_cons_cons {mark : Char} {rest : List Char}
    (shape : argument.toList = '-' :: mark :: rest) : Argument.isOptionLike argument = true := by
  have notDash : argument ≠ "-" := by
    rintro rfl
    cases shape
  simp [Argument.isOptionLike, shape, notDash]

theorem isOptionLike_of_spells (spells : Spells option value [argument]) :
    Argument.isOptionLike argument = true := by
  obtain long | short | ⟨short, -⟩ := spells_singleton_iff.mp spells
  · exact isOptionLike_of_cons_cons long
  · exact isOptionLike_of_cons_cons short
  · exact isOptionLike_of_cons_cons short

theorem isOptionLike_of_awaits (awaits : Awaits option argument) :
    Argument.isOptionLike argument = true := by
  obtain long | short := awaits
  · exact isOptionLike_of_cons_cons long
  · exact isOptionLike_of_cons_cons short

/-- An argument that does not look like an option has no part in giving a value. -/
theorem gives_cons_of_plain {rest : List String} (plain : Argument.isOptionLike argument = false) :
    Gives (argument :: rest) option value ↔ Gives rest option value := by
  have noSpells : ¬ Spells option value [argument] := by
    intro spells
    rw [isOptionLike_of_spells spells] at plain
    cases plain
  have noAwaits : ¬ Awaits option argument := by
    intro awaits
    rw [isOptionLike_of_awaits awaits] at plain
    cases plain
  have notEnd : argument ≠ "--" := by
    rintro rfl
    revert plain
    decide
  rw [gives_cons_iff]
  simp [noSpells, noAwaits, notEnd]

theorem not_gives_end {rest : List String} (spellable : Spellable option) :
    ¬ Gives ("--" :: rest) option value := by
  rw [gives_cons_iff, spells_singleton_iff, Awaits]
  simp [spellable.noDash.symm, spellable.named]

theorem not_gives_nil : ¬ Gives [] option value := by
  rintro ⟨before, spelled, after, split, -, spells⟩
  simp only [List.nil_eq, List.append_eq_nil_iff] at split
  obtain ⟨single, rfl⟩ | ⟨first, second, rfl⟩ := spells.cases
  · cases split.1.2
  · cases split.1.2

end Spelling

namespace Argument

/-- An equals sign and the value behind it. -/
def behindEquals : Option String → List Char
  | none => []
  | some value => '=' :: value.toList

theorem splitAtEquals_eq_iff {characters : List Char} {name : String} {value? : Option String} :
    splitAtEquals characters = (name, value?) ↔
      '=' ∉ name.toList ∧ characters = name.toList ++ behindEquals value? := by
  constructor
  · intro split
    have whole := List.takeWhile_append_dropWhile (p := (· ≠ '=')) (l := characters)
    have noEquals : '=' ∉ characters.takeWhile (· ≠ '=') := by
      intro member
      simpa using List.all_eq_true.mp List.all_takeWhile _ member
    have stops := List.head?_dropWhile_not (· ≠ '=') characters
    unfold splitAtEquals at split
    cases behind : characters.dropWhile (· ≠ '=') with
    | nil =>
      rw [behind] at split whole
      cases split
      exact ⟨by simpa using noEquals, by simpa [behindEquals] using whole.symm⟩
    | cons mark value =>
      rw [behind] at split whole stops
      cases split
      have equals : mark = '=' := by simpa using stops
      exact ⟨by simpa using noEquals, by simpa [behindEquals, equals] using whole.symm⟩
  · rintro ⟨noEquals, rfl⟩
    have passed : ∀ character ∈ name.toList, decide (character ≠ '=') = true := by
      intro character member
      rw [decide_eq_true_eq]
      rintro rfl
      exact noEquals member
    rw [splitAtEquals, List.takeWhile_append_of_pos passed, List.dropWhile_append_of_pos passed]
    cases value? with
    | none => simp [behindEquals]
    | some value => simp [behindEquals]

theorem attachedValue_eq_some_iff {characters : List Char} {value : String} :
    attachedValue characters = some value ↔
      characters = '=' :: value.toList ∨
        characters = value.toList ∧ value ≠ "" ∧ value.toList.head? ≠ some '=' := by
  have spelled (characters : List Char) :
      String.ofList characters = value ↔ characters = value.toList := by
    constructor
    · rintro rfl
      exact String.toList_ofList.symm
    · rintro rfl
      exact String.ofList_toList
  have nonempty : value ≠ "" ↔ value.toList ≠ [] := by simp
  rw [nonempty]
  unfold attachedValue
  split
  · grind
  · grind
  · next noValue noEquals => grind [List.head?_eq_some_iff]

section Reading

variable {known : KnownArguments} {option : String × Char}

theorem readLong_eq_option_iff {characters : List Char} {name value : String} :
    readLong known characters = .ok (.complete (.option name value)) ↔
      known.options.any (·.1 = name) = true ∧ splitAtEquals characters = (name, some value) := by
  unfold readLong
  grind

theorem readLong_eq_needsValue_iff {characters : List Char} {name : String} :
    readLong known characters = .ok (.needsValue name) ↔
      known.options.any (·.1 = name) = true ∧ splitAtEquals characters = (name, none) := by
  unfold readLong
  grind

theorem readShort_eq_option_iff {letter : Char} {attached : List Char} {name value : String} :
    readShort known letter attached = .ok (.complete (.option name value)) ↔
      (∃ mark, known.options.find? (·.2 = letter) = some (name, mark)) ∧
        attachedValue attached = some value := by
  unfold readShort
  grind

theorem readShort_eq_needsValue_iff {letter : Char} {attached : List Char} {name : String} :
    readShort known letter attached = .ok (.needsValue name) ↔
      (∃ mark, known.options.find? (·.2 = letter) = some (name, mark)) ∧
        attachedValue attached = none := by
  unfold readShort
  grind

section Told

variable (tells : known.Tells option)

include tells

theorem any_of_tells : known.options.any (·.1 = option.1) = true := by
  have member := List.mem_of_find?_eq_some tells.byLetter
  rw [List.any_eq_true]
  exact ⟨option, member, by simp⟩

theorem find?_eq_iff {letter : Char} :
    (∃ mark, known.options.find? (·.2 = letter) = some (option.1, mark)) ↔ letter = option.2 := by
  constructor
  · rintro ⟨mark, found⟩
    have same := tells.byName _ (List.mem_of_find?_eq_some found) rfl
    have marked := List.find?_some found
    rw [same] at marked
    simpa [eq_comm] using marked
  · rintro rfl
    exact ⟨option.2, tells.byLetter⟩

theorem read_eq_option_iff {argument value : String} :
    read known argument = .ok (.complete (.option option.1 value)) ↔
      Spells option value [argument] := by
  have noDash := tells.noDash
  rw [spells_singleton_iff]
  unfold read
  split
  · next characters long =>
    rw [readLong_eq_option_iff, splitAtEquals_eq_iff, long]
    simp [any_of_tells tells, tells.noEquals, behindEquals, noDash.symm]
  · next letter attached notLong short =>
    rw [readShort_eq_option_iff, find?_eq_iff tells, attachedValue_eq_some_iff, short]
    grind
  · next noLong noShort => grind

theorem read_eq_needsValue_iff {argument : String} :
    read known argument = .ok (.needsValue option.1) ↔ Awaits option argument := by
  have noDash := tells.noDash
  have nothing (attached : List Char) : attachedValue attached = none ↔ attached = [] := by
    unfold attachedValue
    grind
  unfold read Awaits
  split
  · next characters long =>
    rw [readLong_eq_needsValue_iff, splitAtEquals_eq_iff, long]
    simp [any_of_tells tells, tells.noEquals, behindEquals, noDash.symm]
  · next letter attached notLong short =>
    rw [readShort_eq_needsValue_iff, find?_eq_iff tells, nothing, short]
    grind
  · next noLong noShort => grind

end Told

section Refused

variable (refuses : known.Refuses option)

include refuses

theorem readLong_of_refused (value? : Option String) (reading : Reading) :
    readLong known (option.1.toList ++ behindEquals value?) ≠ .ok reading := by
  have split : splitAtEquals (option.1.toList ++ behindEquals value?) = (option.1, value?) :=
    splitAtEquals_eq_iff.mpr ⟨refuses.noEquals, rfl⟩
  have byName := refuses.byName
  have byFlag := refuses.byFlag
  rw [readLong, split]
  grind

theorem readShort_of_refused (attached : List Char) (reading : Reading) :
    readShort known option.2 attached ≠ .ok reading := by
  rw [readShort, refuses.byLetter]
  grind

theorem read_of_spells_refused {argument value : String} (spells : Spells option value [argument])
    (reading : Reading) : read known argument ≠ .ok reading := by
  have short := readShort_of_refused refuses
  have noDash := refuses.noDash
  obtain shape | shape | ⟨shape, -⟩ := spells_singleton_iff.mp spells
  · rw [read, shape]
    exact readLong_of_refused refuses (some value) reading
  · grind [read]
  · grind [read]

theorem read_of_awaits_refused {argument : String} (awaits : Awaits option argument)
    (reading : Reading) : read known argument ≠ .ok reading := by
  have long : readLong known option.1.toList ≠ .ok reading := by
    rw [← List.append_nil option.1.toList]
    exact readLong_of_refused refuses none reading
  have short := readShort_of_refused refuses
  have noDash := refuses.noDash
  obtain shape | shape := awaits
  · rw [read, shape]
    exact long
  · grind [read]

end Refused

end Reading

end Argument

namespace Given

open Argument

variable {known : KnownArguments} {given final : Given}

/-- All that reading an argument can do. -/
theorem read_cons_cases {argument : String} {rest : List String}
    (accepted : given.read known (argument :: rest) = .ok final) :
    (argument = "--" ∧ (rest.map Argument.operand).foldlM (add known) given = .ok final) ∨
      argument ≠ "--" ∧
        ((∃ said given', Argument.read known argument = .ok (.complete said) ∧
            given.add known said = .ok given' ∧ given'.read known rest = .ok final) ∨
          ∃ name value others given', Argument.read known argument = .ok (.needsValue name) ∧
            rest = value :: others ∧ Argument.isOptionLike value = false ∧
            given.add known (.option name value) = .ok given' ∧
            given'.read known others = .ok final) := by
  rw [read] at accepted
  split at accepted
  · next isEnd => exact .inl ⟨isEnd, accepted⟩
  · next notEnd =>
    refine .inr ⟨notEnd, ?_⟩
    obtain ⟨reading, read, accepted⟩ := bind_eq_ok_iff.mp accepted
    split at accepted
    · next said =>
      obtain ⟨given', added, accepted⟩ := bind_eq_ok_iff.mp accepted
      exact .inl ⟨said, given', read, added, accepted⟩
    · next name =>
      cases rest with
      | nil => cases accepted
      | cons value others =>
        dsimp only at accepted
        split at accepted
        · cases accepted
        · next plain =>
          obtain ⟨given', added, accepted⟩ := bind_eq_ok_iff.mp accepted
          exact .inr ⟨name, value, others, given', read, rfl, by simpa using plain, added, accepted⟩

/-- An option that was added has its value from then on, and the values of others stay. -/
theorem value?_of_add {given' : Given} {said : Argument}
    (added : given.add known said = .ok given') {name value : String} :
    given'.value? name = some value ↔ given.value? name = some value ∨ said = .option name value := by
  cases said with
  | option name' value' =>
    rw [add] at added
    split at added
    · cases added
    · next free =>
      cases added
      rw [Bool.or_eq_true, not_or] at free
      rw [value?, value?, List.lookup_append]
      by_cases same : name = name'
      · subst same
        have absent := Option.not_isSome_iff_eq_none.mp free.2
        simp [absent]
      · have other : (name == name') = false := by simpa using same
        simp [List.lookup_cons, other, Ne.symm same]
  | flag name' =>
    rw [add] at added
    split at added
    · cases added
    · cases added
      simp [value?]
  | operand value' =>
    rw [add] at added
    split at added
    · cases added
    · cases added
      simp [value?]

theorem value?_of_operands {operands : List String}
    (accepted : (operands.map Argument.operand).foldlM (add known) given = .ok final)
    {name value : String} :
    final.value? name = some value ↔ given.value? name = some value := by
  induction operands generalizing given with
  | nil =>
    cases accepted
    rfl
  | cons operand operands inductionHypothesis =>
    rw [List.map_cons, List.foldlM_cons] at accepted
    obtain ⟨given', added, accepted⟩ := bind_eq_ok_iff.mp accepted
    rw [inductionHypothesis accepted, value?_of_add added]
    simp

theorem value?_of_read {option : String × Char} (tells : known.Tells option)
    {arguments : List String} (accepted : given.read known arguments = .ok final) {value : String} :
    final.value? option.1 = some value ↔
      given.value? option.1 = some value ∨ Gives arguments option value := by
  induction counted : arguments.length using Nat.strongRecOn generalizing arguments given with
  | ind length inductionHypothesis =>
    cases arguments with
    | nil =>
      cases accepted
      simp [not_gives_nil]
    | cons argument rest =>
      rw [List.length_cons] at counted
      obtain ⟨isEnd, operands⟩ | ⟨notEnd, ⟨said, given', read, added, further⟩ |
        ⟨name, next, others, given', read, rfl, plain, added, further⟩⟩ := read_cons_cases accepted
      · rw [value?_of_operands operands, isEnd]
        simp [not_gives_end tells.toSpellable]
      · -- What is complete awaits nothing.
        have noAwaits : ¬ Awaits option argument := by
          rw [← read_eq_needsValue_iff tells, read]
          simp
        have spells : said = .option option.1 value ↔ Spells option value [argument] := by
          rw [← read_eq_option_iff tells, read]
          simp
        rw [inductionHypothesis _ (by omega) further rfl, value?_of_add added, gives_cons_iff, spells]
        simp [noAwaits, notEnd, or_assoc]
      · -- What awaits a value spells nothing by itself, and neither does the value.
        have noSpells : ¬ Spells option value [argument] := by
          rw [← read_eq_option_iff tells, read]
          simp
        have awaits : name = option.1 ↔ Awaits option argument := by
          rw [← read_eq_needsValue_iff tells, read]
          simp
        rw [List.length_cons] at counted
        rw [inductionHypothesis _ (by omega) further rfl, value?_of_add added, gives_cons_iff,
          gives_cons_of_plain plain, ← awaits]
        simp [noSpells, notEnd, or_assoc]

/-- An option has exactly the value that the arguments give to it. -/
theorem value?_eq_some_iff {option : String × Char} (tells : known.Tells option)
    {arguments : List String} (accepted : Given.read known {} arguments = .ok final)
    {value : String} : final.value? option.1 = some value ↔ Gives arguments option value := by
  rw [value?_of_read tells accepted]
  simp [value?]

/-- An option that is not taken is not given in any argument list that is accepted. -/
theorem not_gives_of_read {option : String × Char} (refuses : known.Refuses option)
    {arguments : List String} (accepted : given.read known arguments = .ok final) (value : String) :
    ¬ Gives arguments option value := by
  induction counted : arguments.length using Nat.strongRecOn generalizing arguments given with
  | ind length inductionHypothesis =>
    cases arguments with
    | nil => exact not_gives_nil
    | cons argument rest =>
      rw [List.length_cons] at counted
      have refused {reading : Reading} (read : Argument.read known argument = .ok reading) :
          ¬ Spells option value [argument] ∧ ¬ Awaits option argument :=
        ⟨fun spells => read_of_spells_refused refuses spells reading read,
          fun awaits => read_of_awaits_refused refuses awaits reading read⟩
      obtain ⟨isEnd, -⟩ | ⟨notEnd, ⟨said, given', read, added, further⟩ |
        ⟨name, next, others, given', read, rfl, plain, added, further⟩⟩ := read_cons_cases accepted
      · rw [isEnd]
        exact not_gives_end refuses.toSpellable
      · rw [gives_cons_iff]
        simp [refused read, inductionHypothesis _ (by omega) further rfl]
      · rw [List.length_cons] at counted
        rw [gives_cons_iff, gives_cons_of_plain plain]
        simp [refused read, inductionHypothesis _ (by omega) further rfl]

end Given

/-- A command writes to the file that the arguments name, and to none where they name none. -/
def Reader.TellsOutput (reader : Reader) : Prop :=
  ∀ {arguments : List String} {command : Command}, reader.read arguments = .ok command →
    ∀ file, command.output? = some file ↔ Gives arguments Command.outputOption file

namespace Command

theorem spellable_outputOption : Spellable outputOption :=
  ⟨by decide, by decide, by decide⟩

variable {arguments : List String} {command : Command} {file : String}

theorem output?_of_readGenerate (read : readGenerate arguments = .ok command) :
    command.output? = some file ↔ Gives arguments outputOption file := by
  obtain ⟨given, accepted, read⟩ := bind_eq_ok_iff.mp read
  obtain ⟨input, -, read⟩ := bind_eq_ok_iff.mp read
  cases read
  have tells : KnownArguments.Tells { options := [inputOption, outputOption], flags := ["no-import"] }
      outputOption :=
    ⟨spellable_outputOption, rfl, by decide⟩
  exact Given.value?_eq_some_iff tells accepted

theorem output?_of_readContainers (read : readContainers arguments = .ok command) :
    command.output? = some file ↔ Gives arguments outputOption file := by
  obtain ⟨given, accepted, read⟩ := bind_eq_ok_iff.mp read
  have tells : KnownArguments.Tells { options := [outputOption], takesOperands := true }
      outputOption :=
    ⟨spellable_outputOption, rfl, by decide⟩
  by_cases none : given.operands.isEmpty = true
  · rw [if_pos none] at read
    cases read
  · rw [if_neg none] at read
    cases read
    exact Given.value?_eq_some_iff tells accepted

/-- The JSON form is never written to a file. -/
theorem output?_of_readDump (read : readDump arguments = .ok command) :
    command.output? = some file ↔ Gives arguments outputOption file := by
  obtain ⟨given, accepted, read⟩ := bind_eq_ok_iff.mp read
  obtain ⟨input, -, read⟩ := bind_eq_ok_iff.mp read
  cases read
  have refuses : KnownArguments.Refuses { options := [inputOption] } outputOption :=
    ⟨spellable_outputOption, rfl, rfl, rfl⟩
  simp [output?, Given.not_gives_of_read refuses accepted]

theorem tellsOutput_reader : reader.TellsOutput := by
  intro arguments command read file
  change ofArguments arguments = .ok command at read
  have named {name : String} {arguments : List String}
      (plain : Argument.isOptionLike name = false) :
      Gives (name :: arguments) outputOption file ↔ Gives arguments outputOption file :=
    gives_cons_of_plain plain
  unfold ofArguments at read
  split at read
  · cases read
  · rw [named (by decide), output?_of_readGenerate read]
  · rw [named (by decide), output?_of_readContainers read]
  · rw [named (by decide), output?_of_readDump read]
  · cases read
  · split at read
    · cases read
    · cases read

end Command

end FlatSchema
