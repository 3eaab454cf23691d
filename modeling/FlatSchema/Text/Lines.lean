/-!
Lines of a text and their indentation. A line ends at a line feed, and a carriage return right
before that line feed belongs to the line end; after the last line feed there is a line only if
something stands there.
-/

namespace FlatSchema.Text

/-- A line whose end was found, given in reverse, without the carriage return of its line end. -/
def closeLine : List Char → List Char
  | '\r' :: reversed => reversed.reverse
  | reversed => reversed.reverse

/-- Lines of the remaining characters; `reversed` is the line begun so far, in reverse. -/
def linesFrom (reversed : List Char) : List Char → List (List Char)
  | [] => if reversed.isEmpty then [] else [reversed.reverse]
  | '\n' :: rest => closeLine reversed :: linesFrom [] rest
  | character :: rest => linesFrom (character :: reversed) rest

/-- The lines of a text without their line ends. -/
def lines (text : String) : List String :=
  (linesFrom [] text.toList).map String.ofList

/-- Moves a line four spaces to the right; an empty line stays empty. -/
def indentLine (line : String) : String :=
  if line.isEmpty then line else "    " ++ line

/-- Indents every line of a text that is not empty. The last line gets no line end. -/
def indent (text : String) : String :=
  "\n".intercalate ((lines text).map indentLine)

end FlatSchema.Text
