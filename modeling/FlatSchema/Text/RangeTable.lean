/-!
Character classes given as data. A class is a list of closed intervals of code points, and a
character belongs to it when one of the intervals holds its code point.
-/

namespace FlatSchema.Text

/-- Closed intervals of code points, in ascending order. -/
abbrev RangeTable := List (Nat × Nat)

/-- Whether a character lies in one of the intervals. -/
def RangeTable.contains (table : RangeTable) (character : Char) : Bool :=
  table.any fun (first, last) => first ≤ character.toNat && character.toNat ≤ last

end FlatSchema.Text
