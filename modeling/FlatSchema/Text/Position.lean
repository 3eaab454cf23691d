import FlatSchema.Text.Byte

/-!
Places in a text for the reader of a message: lines and columns count from one, columns count
bytes, and a snippet shows what stands at the place.
-/

namespace FlatSchema

structure Position where
  line : Nat
  column : Nat
  deriving DecidableEq, Repr

/-- The place of a byte offset; an offset past the end counts as the end. -/
def Position.ofOffset (buffer : List UInt8) (offset : Nat) : Position :=
  let before := buffer.take offset
  { line := before.count Byte.newline + 1
    column := (before.reverse.takeWhile (· ≠ Byte.newline)).length + 1 }

namespace Text

/-- Drops leading characters until `count` bytes of UTF-8 have gone. -/
def dropBytes : Nat → List Char → List Char
  | 0, characters => characters
  | _ + 1, [] => []
  | count + 1, character :: rest => dropBytes (count + 1 - character.utf8Size) rest

/-- Up to 40 characters of the line that starts at a byte offset. -/
def snippet (text : String) (offset : Nat) : String :=
  String.ofList (((dropBytes offset text.toList).takeWhile (· ≠ '\n')).take 40)

end Text

end FlatSchema
