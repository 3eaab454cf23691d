import FlatSchema.Text.GraphemeExtend
import FlatSchema.Text.Unprintable

/-!
Texts quoted for messages. The quoted form stands between double quotes, spells line ends, tabs
and NUL with a backslash and a letter or digit, and gives a character that would not show, or
that would merge with its left neighbour, by its code point in hexadecimal.
-/

namespace FlatSchema.Text

/-- The code point of a character as a backslash, `u` and hexadecimal digits in braces. -/
def codePointEscape (character : Char) : List Char :=
  "\\u\x7b".toList ++ Nat.toDigits 16 character.toNat ++ "\x7d".toList

/-- How one character is written between the quotes. -/
def quoteChar (character : Char) : List Char :=
  match character with
  | '"' => ['\\', '"']
  | '\\' => ['\\', '\\']
  | '\n' => ['\\', 'n']
  | '\r' => ['\\', 'r']
  | '\t' => ['\\', 't']
  | '\x00' => ['\\', '0']
  | _ =>
    if graphemeExtend.contains character || unprintable.contains character then
      codePointEscape character
    else
      [character]

/-- A text between double quotes, with everything escaped that would not print as itself. -/
def quoted (text : String) : String :=
  "\"" ++ String.ofList (text.toList.flatMap quoteChar) ++ "\""

end FlatSchema.Text
