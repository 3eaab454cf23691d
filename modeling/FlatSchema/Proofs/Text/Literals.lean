import FlatSchema.Proofs.Schema.WellFormed
import FlatSchema.Proofs.Text.Code
import FlatSchema.Proofs.Text.Lines

/-!
Code outside of literals. What stands between quotes is no code, even where there are line ends in
it, so it is left out before a text is read line by line. Code without literals is passed as it is,
and of a literal the quotes are left.
-/

namespace FlatSchema.Text

open Grammar

/-- The characters outside of literals, in a scan that has come to a mode. -/
def outsideFrom : Mode → List Char → List Char
  | _, [] => []
  | .code, character :: rest =>
    character :: outsideFrom (if character = '"' then .literal else .code) rest
  | .literal, character :: rest =>
    if character = '"' then
      character :: outsideFrom .code rest
    else
      outsideFrom (if character = '\\' then .escape else .literal) rest
  | .escape, _ :: rest => outsideFrom .literal rest

/-- A text without the insides of its literals. -/
def outside (text : String) : String :=
  String.ofList (outsideFrom .code text.toList)

/-- A text that leaves another one outside of its literals, whatever follows it. -/
def Leaves (text left : String) : Prop :=
  ∀ rest, outsideFrom .code (text.toList ++ rest) = left.toList ++ outsideFrom .code rest

section Leaving

variable {text left next nextLeft : String}

theorem Leaves.append (leaves : Leaves text left) (further : Leaves next nextLeft) :
    Leaves (text ++ next) (left ++ nextLeft) := by
  intro rest
  rw [String.toList_append, List.append_assoc, leaves, further, String.toList_append,
    List.append_assoc]

theorem leaves_join {α : Type} {items : List α} {textOf leftOf : α → String}
    (each : ∀ item ∈ items, Leaves (textOf item) (leftOf item)) :
    Leaves (String.join (items.map textOf)) (String.join (items.map leftOf)) := by
  induction items with
  | nil => exact fun _ => rfl
  | cons item items inductionHypothesis =>
    rw [List.forall_mem_cons] at each
    rw [List.map_cons, List.map_cons, String.join_cons, String.join_cons]
    exact each.1.append (inductionHypothesis each.2)

theorem Leaves.outside_eq (leaves : Leaves text left) : outside text = left := by
  have whole := leaves []
  rw [List.append_nil, outsideFrom, List.append_nil] at whole
  rw [outside, whole, String.ofList_toList]

theorem leaves_of_no_quote (noQuote : '"' ∉ text.toList) : Leaves text text := by
  have passed (characters rest : List Char) (noQuote : '"' ∉ characters) :
      outsideFrom .code (characters ++ rest) = characters ++ outsideFrom .code rest := by
    induction characters with
    | nil => rfl
    | cons character characters inductionHypothesis =>
      rw [List.mem_cons, not_or] at noQuote
      rw [List.cons_append, outsideFrom, if_neg (Ne.symm noQuote.1), inductionHypothesis noQuote.2,
        List.cons_append]
  exact fun rest => passed text.toList rest noQuote

/-- Level code has no literals. -/
theorem Level.leaves (level : Level text) : Leaves text text := by
  apply leaves_of_no_quote
  intro quote
  obtain ⟨before, after, split⟩ := List.append_of_mem quote
  have bytes : utf8Bytes text = before.flatMap String.utf8EncodeChar ++
      Byte.quote :: after.flatMap String.utf8EncodeChar := by
    rw [utf8Bytes_eq_flatMap, split, List.flatMap_append, List.flatMap_cons]
    rfl
  have leads := level []
  rw [bytes, openAfter?_append, Option.bind_eq_some_iff] at leads
  obtain ⟨opened, -, leads⟩ := leads
  rw [openAfter?_cons, Bracket.shift?, if_pos rfl] at leads
  cases leads

/-- A line without literals. -/
def Bare (line : String) : Prop :=
  ∀ character ∈ line.toList, character ≠ '"' ∧ character ≠ '\n' ∧ character ≠ '\r'

/-- Lines are compared with the characters in question by a test that runs through them. -/
theorem bare_of_all {lines : List String}
    (all : ((lines.map String.toList).all fun line => line.all fun character =>
      character != '"' && character != '\n' && character != '\r') = true) :
    ∀ line ∈ lines, Bare line := by
  intro line member character among
  have each := List.all_eq_true.mp all line.toList (List.mem_map_of_mem member)
  have plain := List.all_eq_true.mp each character among
  simpa [and_assoc] using plain

theorem Bare.oneLine {line : String} (bare : Bare line) : OneLine line :=
  fun character member => (bare character member).2

theorem leaves_lines {lines : List String} (bare : ∀ line ∈ lines, Bare line) :
    Leaves (String.join (lines.map (· ++ "\n"))) (String.join (lines.map (· ++ "\n"))) := by
  apply leaves_join
  intro line member
  have noQuote : '"' ∉ line.toList := fun quote => (bare line member '"' quote).1 rfl
  exact (leaves_of_no_quote noQuote).append (leaves_of_no_quote (by decide))

end Leaving

section Literals

/-- A byte that is a character of its own tells the character that has it. -/
theorem eq_of_mem_utf8EncodeChar {character other : Char} {byte : UInt8}
    (small : byte.toNat < 128) (member : byte ∈ String.utf8EncodeChar character)
    (single : String.utf8EncodeChar other = [byte]) : character = other := by
  have same : utf8Bytes (String.ofList [character]) = utf8Bytes (String.ofList [other]) := by
    simp [utf8Bytes_eq_flatMap, utf8EncodeChar_eq_singleton member small, single]
  have characters := congrArg String.toList (utf8Bytes_injective same)
  simpa using characters

theorem Quotable.of_append {front back : List UInt8}
    (plain : ∀ byte ∈ front, byte ≠ Byte.quote ∧ byte ≠ Byte.backslash)
    (quotable : Quotable (front ++ back)) : Quotable back := by
  induction front with
  | nil => exact quotable
  | cons byte front inductionHypothesis =>
    rw [List.forall_mem_cons] at plain
    rw [List.cons_append] at quotable
    generalize whole : front ++ back = bytes at quotable inductionHypothesis
    cases quotable with
    | plain _ _ further => exact inductionHypothesis plain.2 further
    | escaped => exact absurd rfl plain.1.2

/-- Bytes that can stand in a literal, from a mode on. -/
def InLiteral : Mode → List UInt8 → Prop
  | .code, _ => False
  | .literal, bytes => Quotable bytes
  | .escape, bytes => Quotable (Byte.backslash :: bytes)

/-- The inside of a literal is left out up to the closing quote. -/
theorem outsideFrom_of_inLiteral {mode : Mode} {characters : List Char}
    (inside : InLiteral mode (characters.flatMap String.utf8EncodeChar)) (rest : List Char) :
    outsideFrom mode (characters ++ '"' :: rest) = '"' :: outsideFrom .code rest := by
  induction characters generalizing mode with
  | nil =>
    cases mode with
    | code => cases inside
    | literal => rfl
    | escape =>
      cases inside with
      | plain _ noBackslash => exact absurd rfl noBackslash
  | cons character characters inductionHypothesis =>
    rw [List.flatMap_cons] at inside
    cases mode with
    | code => cases inside
    | literal =>
      have noQuote : character ≠ '"' := by
        rintro rfl
        cases inside with
        | plain noQuote => exact noQuote rfl
      rw [List.cons_append, outsideFrom, if_neg noQuote]
      by_cases backslash : character = '\\'
      · rw [if_pos backslash]
        subst backslash
        exact @inductionHypothesis .escape inside
      · rw [if_neg backslash]
        apply @inductionHypothesis .literal
        refine Quotable.of_append ?_ inside
        intro byte member
        constructor
        · rintro rfl
          exact noQuote (eq_of_mem_utf8EncodeChar (by decide) member rfl)
        · rintro rfl
          exact backslash (eq_of_mem_utf8EncodeChar (by decide) member rfl)
    | escape =>
      rw [List.cons_append, outsideFrom]
      apply @inductionHypothesis .literal
      -- Of the character behind a backslash only the first byte is protected, and the others, if
      -- there are any, are parts of a longer character.
      cases encoded : String.utf8EncodeChar character with
      | nil => exact absurd encoded String.utf8EncodeChar_ne_nil
      | cons first others =>
        rw [encoded, List.cons_append] at inside
        cases inside with
        | plain _ noBackslash => exact absurd rfl noBackslash
        | escaped further =>
          refine Quotable.of_append ?_ further
          intro byte member
          have large : ¬ byte.toNat < 128 := by
            intro small
            have among : byte ∈ String.utf8EncodeChar character := by
              rw [encoded]
              exact List.mem_cons_of_mem _ member
            have single := utf8EncodeChar_eq_singleton among small
            rw [encoded] at single
            cases single
            cases member
          constructor
          · rintro rfl
            exact large (by decide)
          · rintro rfl
            exact large (by decide)

theorem leaves_literal {text : String} (literal : IsLiteral text) :
    Leaves ("\"" ++ text ++ "\"") "\"\"" := by
  intro rest
  have inside : InLiteral .literal (text.toList.flatMap String.utf8EncodeChar) := by
    rw [← utf8Bytes_eq_flatMap]
    exact literal
  have left := outsideFrom_of_inLiteral inside rest
  rw [String.toList_append, String.toList_append, List.append_assoc, List.append_assoc]
  exact congrArg ('"' :: ·) left

end Literals

end FlatSchema.Text
