import FlatSchema.Text.Cased
import FlatSchema.Text.CaseMapping

/-!
Title case: the first character in upper case and all that follows in lower case. A capital sigma
in the lowered part becomes a final sigma where it ends a word of that part.
-/

namespace FlatSchema.Text

/-- Whether the first character that is not case-ignorable has case. -/
def casedAhead (characters : List Char) : Bool :=
  match characters.dropWhile caseIgnorable.contains with
  | [] => false
  | character :: _ => cased.contains character

/-- Lowers characters from left to right; `before` holds those already passed, nearest first. -/
def lowerFrom (before : List Char) : List Char → List Char
  | [] => []
  | 'Σ' :: after =>
    (if casedAhead before && !casedAhead after then 'ς' else 'σ') :: lowerFrom ('Σ' :: before) after
  | character :: after => lowerCase character ++ lowerFrom (character :: before) after

/-- The text with its first character in upper case and the others in lower case. -/
def titleCase (text : String) : String :=
  match text.toList with
  | [] => ""
  | first :: rest => String.ofList (upperCase first ++ lowerFrom [] rest)

end FlatSchema.Text
