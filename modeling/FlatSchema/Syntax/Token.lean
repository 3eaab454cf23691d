import FlatSchema.Syntax.Rule

/-!
Tokens of the schema language. Every token may have blanks in front of it. Comments are not part
of a token: the rules that allow them skip them by name.
-/

namespace FlatSchema.Token

open Rule

/-- Skips blanks, of which there may be none. -/
def skipBlanks : Rule Unit :=
  fun bytes => some ((), bytes.dropWhile Byte.isBlank)

/-- What follows the first newline; nothing where there is no newline. -/
def afterNewline (bytes : List UInt8) : List UInt8 :=
  (bytes.dropWhile (· ≠ Byte.newline)).drop 1

/-- What follows the first star with a slash after it. -/
def afterCommentEnd? : List UInt8 → Option (List UInt8)
  | [] => none
  | [_] => none
  | first :: second :: rest =>
    if first = Byte.star ∧ second = Byte.slash then some rest
    else afterCommentEnd? (second :: rest)

/-- A comment from two slashes through the end of the line. -/
def lineComment : Rule Unit := do
  exactly [Byte.slash, Byte.slash]
  modify afterNewline

/-- A comment between a slash with a star and the next star with a slash. -/
def blockComment : Rule Unit := do
  exactly [Byte.slash, Byte.star]
  fun bytes => (afterCommentEnd? bytes).map fun rest => ((), rest)

/-- One comment, with the blanks in front of it. -/
def comment : Rule Unit := do
  skipBlanks
  lineComment <|> blockComment

/-- Skips comments as long as there are any. Blanks before something else stay. -/
def skipComments : Rule Unit := do
  let _ ← many comment
  return ()

/-- Skips comments and the blanks after them. -/
def skipTrivia : Rule Unit := do
  skipComments
  skipBlanks

/-- Where comments from an offset on end. An offset past the end of the buffer stays as it is. -/
def commentsEnd (buffer : List UInt8) (offset : Nat) : Nat :=
  match skipComments.readAt buffer offset with
  | some ((), stop) => max offset stop
  | none => offset

/-- A fixed piece of text. -/
def symbol (text : String) : Rule Unit := do
  skipBlanks
  exactly (utf8Bytes text)

/-- A fixed word that does not run on into a longer name. -/
def keyword (word : String) : Rule Unit := do
  symbol word
  notBefore Byte.isNameByte

/-- A name as it is written. -/
def name : Rule String := do
  skipBlanks
  let first ← byteOf Byte.isNameStart
  let others ← bytesOf Byte.isNameByte
  return ofAscii (first :: others)

/-- A bare value: a number, `true`, `false` or the name of a case. -/
def value : Rule String := do
  skipBlanks
  let first ← byteOf Byte.isValueByte
  let others ← bytesOf Byte.isValueByte
  return ofAscii (first :: others)

/-- Splits at the closing quote. A backslash protects the byte after it. -/
def splitAtQuote? : List UInt8 → Option (List UInt8 × List UInt8)
  | [] => none
  | byte :: bytes =>
    if byte = Byte.quote then
      some ([], bytes)
    else if byte = Byte.backslash then
      match bytes with
      | [] => none
      | escaped :: bytes =>
        (splitAtQuote? bytes).map fun (inside, rest) => (byte :: escaped :: inside, rest)
    else
      (splitAtQuote? bytes).map fun (inside, rest) => (byte :: inside, rest)

/-- A literal between double quotes, which has to be UTF-8. Its escapes stay as they are. -/
def stringLiteral : Rule String := do
  symbol "\""
  let inside ← splitAtQuote?
  match ofUtf8? inside with
  | some text => return text
  | none => failure

end FlatSchema.Token
