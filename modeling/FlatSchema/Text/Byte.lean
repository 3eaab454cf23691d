/-!
Bytes of a schema text. Keywords, names and punctuation are ASCII, so the classes below decide
them byte by byte; bytes from 128 up belong to none of the classes.
-/

namespace FlatSchema

/-- The bytes of a text in UTF-8. -/
def utf8Bytes (text : String) : List UInt8 :=
  text.toUTF8.data.toList

/-- The text that a sequence of bytes spells in UTF-8, if it is well formed. -/
def ofUtf8? (bytes : List UInt8) : Option String :=
  String.fromUTF8? ⟨bytes.toArray⟩

/-- The text of bytes below 128, one character each. -/
def ofAscii (bytes : List UInt8) : String :=
  String.ofList (bytes.map fun byte => Char.ofNat byte.toNat)

namespace Byte

def newline : UInt8 := 10

def quote : UInt8 := 34

def star : UInt8 := 42

def slash : UInt8 := 47

def backslash : UInt8 := 92

/-- Space, tab, line feed, form feed and carriage return. -/
def isBlank (byte : UInt8) : Bool :=
  byte = 32 || byte = 9 || byte = 10 || byte = 12 || byte = 13

def isLetter (byte : UInt8) : Bool :=
  (65 ≤ byte && byte ≤ 90) || (97 ≤ byte && byte ≤ 122)

def isDigit (byte : UInt8) : Bool :=
  48 ≤ byte && byte ≤ 57

/-- A name starts with a letter or an underscore. -/
def isNameStart (byte : UInt8) : Bool :=
  isLetter byte || byte = 95

/-- Inside a name digits are allowed too. -/
def isNameByte (byte : UInt8) : Bool :=
  isNameStart byte || isDigit byte

/-- Bare values add the point and the two signs to the bytes of a name. -/
def isValueByte (byte : UInt8) : Bool :=
  isNameByte byte || byte = 46 || byte = 43 || byte = 45

end Byte

end FlatSchema
