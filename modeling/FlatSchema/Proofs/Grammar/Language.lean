import FlatSchema.Syntax.Item

/-!
The schema language as it is written, apart from any way of reading it. A phrase relates a word,
which is a sequence of bytes, to what the word stands for; the phrases of larger parts are put
together from the words of smaller ones. Blanks may stand in front of every token. Comments may
stand in front of an item, a field, a case and a closing brace.
-/

namespace FlatSchema

namespace Grammar

/-- Words with what they stand for. -/
abbrev Phrase (α : Type) := List UInt8 → α → Prop

/-- Nothing but blanks. -/
def Blanks (word : List UInt8) : Prop :=
  ∀ byte ∈ word, Byte.isBlank byte = true

/-- A line comment goes through the first newline, and a block comment through the first star with
a slash after it. -/
inductive Comment : List UInt8 → Prop where
  | line {body : List UInt8} :
      Byte.newline ∉ body →
      Comment ([Byte.slash, Byte.slash] ++ body ++ [Byte.newline])
  | block {body : List UInt8} :
      ¬ [Byte.star, Byte.slash] <:+: body ++ [Byte.star] →
      Comment ([Byte.slash, Byte.star] ++ body ++ [Byte.star, Byte.slash])

/-- Blanks and comments in any order. -/
inductive Trivia : List UInt8 → Prop where
  | nil : Trivia []
  | blank {byte : UInt8} {rest : List UInt8} :
      Byte.isBlank byte = true → Trivia rest → Trivia (byte :: rest)
  | comment {word rest : List UInt8} :
      Comment word → Trivia rest → Trivia (word ++ rest)

/-- Blanks and comments at the end of a text, where a line comment can do without its newline. -/
inductive LastTrivia : List UInt8 → Prop where
  | closed {word : List UInt8} : Trivia word → LastTrivia word
  | openLine {word body : List UInt8} :
      Trivia word → Byte.newline ∉ body →
      LastTrivia (word ++ ([Byte.slash, Byte.slash] ++ body))

/-- A fixed text. -/
inductive Symbol (text : String) : List UInt8 → Prop where
  | spelled {blanks : List UInt8} : Blanks blanks → Symbol text (blanks ++ utf8Bytes text)

/-- A letter or an underscore, and then letters, underscores and digits. -/
def SpellsName : List UInt8 → Prop
  | [] => False
  | first :: others =>
    Byte.isNameStart first = true ∧ ∀ byte ∈ others, Byte.isNameByte byte = true

/-- At least one byte, all of them of those that bare values have. -/
def SpellsValue (word : List UInt8) : Prop :=
  word ≠ [] ∧ ∀ byte ∈ word, Byte.isValueByte byte = true

/-- The inside of a string literal: a quote or a backslash stands there only with a backslash in
front of it. -/
inductive Quotable : List UInt8 → Prop where
  | nil : Quotable []
  | plain {byte : UInt8} {rest : List UInt8} :
      byte ≠ Byte.quote → byte ≠ Byte.backslash → Quotable rest → Quotable (byte :: rest)
  | escaped {byte : UInt8} {rest : List UInt8} :
      Quotable rest → Quotable (Byte.backslash :: byte :: rest)

inductive Name : Phrase String where
  | spelled {blanks : List UInt8} {text : String} :
      Blanks blanks → SpellsName (utf8Bytes text) → Name (blanks ++ utf8Bytes text) text

inductive Value : Phrase String where
  | spelled {blanks : List UInt8} {text : String} :
      Blanks blanks → SpellsValue (utf8Bytes text) → Value (blanks ++ utf8Bytes text) text

inductive Literal : Phrase String where
  | quoted {blanks : List UInt8} {text : String} :
      Blanks blanks → Quotable (utf8Bytes text) →
      Literal (blanks ++ ([Byte.quote] ++ utf8Bytes text ++ [Byte.quote])) text

/-- What keeps a name apart from the keyword in front of it. -/
def StartsBlank (word : List UInt8) : Prop :=
  ∃ byte rest, word = byte :: rest ∧ Byte.isBlank byte = true

variable {α : Type}

/-- A phrase that may be missing. -/
inductive Perhaps (phrase : Phrase α) : Phrase (Option α) where
  | missing : Perhaps phrase [] none
  | present {word : List UInt8} {value : α} :
      phrase word value → Perhaps phrase word (some value)

/-- A phrase with comments in front of it. -/
inductive Commented (phrase : Phrase α) : Phrase α where
  | led {before word : List UInt8} {value : α} :
      Trivia before → phrase word value → Commented phrase (before ++ word) value

/-- Any number of words one after the other. -/
inductive Repeated (phrase : Phrase α) : Phrase (List α) where
  | nil : Repeated phrase [] []
  | cons {word rest : List UInt8} {value : α} {values : List α} :
      phrase word value → Repeated phrase rest values →
      Repeated phrase (word ++ rest) (value :: values)

/-- One word or more with separators between them. -/
inductive Separated (phrase : Phrase α) (separator : List UInt8 → Prop) : Phrase (List α) where
  | last {word : List UInt8} {value : α} :
      phrase word value → Separated phrase separator word [value]
  | cons {word mark rest : List UInt8} {value : α} {values : List α} :
      phrase word value → separator mark → Separated phrase separator rest values →
      Separated phrase separator (word ++ (mark ++ rest)) (value :: values)

/-- Words with separators between them and perhaps one after the last; there may be no word, and
then there is no separator. -/
inductive Listed (phrase : Phrase α) (separator : List UInt8 → Prop) : Phrase (List α) where
  | empty : Listed phrase separator [] []
  | plain {word : List UInt8} {values : List α} :
      Separated phrase separator word values → Listed phrase separator word values
  | trailing {word mark : List UInt8} {values : List α} :
      Separated phrase separator word values → separator mark →
      Listed phrase separator (word ++ mark) values

/-- A name in its stored form. -/
inductive Identifier : Phrase Ident where
  | stored {word : List UInt8} {name : String} :
      Name word name → Identifier word (Ident.ofSource name)

/-- An equals sign with a bare value. -/
inductive Assignment : Phrase String where
  | assigned {mark word : List UInt8} {value : String} :
      Symbol "=" mark → Value word value → Assignment (mark ++ word) value

/-- Cases in braces. -/
inductive Cases (phrase : Phrase α) : Phrase (List α) where
  | braced {left body before right : List UInt8} {values : List α} :
      Symbol "\x7b" left →
      Listed (Commented phrase) (Symbol ",") body values →
      Trivia before → Symbol "\x7d" right →
      Cases phrase (left ++ body ++ before ++ right) values

end Grammar

open Grammar

inductive MetadataEntry.Written : Phrase MetadataEntry where
  | key {word : List UInt8} {key : String} :
      Name word key → Written word { key, value := none }
  | literal {word colon last : List UInt8} {key value : String} :
      Name word key → Symbol ":" colon → Literal last value →
      Written (word ++ colon ++ last) { key, value := some value }
  | bare {word colon last : List UInt8} {key value : String} :
      Name word key → Symbol ":" colon → Value last value →
      Written (word ++ colon ++ last) { key, value := some value }

inductive Metadata.Written : Phrase Metadata where
  | parenthesized {left body right : List UInt8} {entries : List MetadataEntry} :
      Symbol "(" left → Separated MetadataEntry.Written (Symbol ",") body entries →
      Symbol ")" right →
      Written (left ++ body ++ right) { entries }

/-- Metadata where it may be missing. -/
inductive Metadata.WrittenPerhaps : Phrase Metadata where
  | intro {word : List UInt8} {metadata? : Option Metadata} :
      Perhaps Metadata.Written word metadata? → WrittenPerhaps word (metadata?.getD {})

/-- A name is the type `string`, a scalar type or else a reference. -/
inductive BaseType.Written : Phrase BaseType where
  | string {word : List UInt8} : Name word "string" → Written word .string
  | scalar {word : List UInt8} {name : String} {known : Scalar} :
      Name word name → (name, known) ∈ Scalar.spellings → Written word (.scalar known)
  | reference {word : List UInt8} {name : String} :
      Name word name → name ≠ "string" → (∀ known, (name, known) ∉ Scalar.spellings) →
      Written word (.reference (Ident.ofSource name))

inductive FieldType.Written : Phrase FieldType where
  | single {word : List UInt8} {base : BaseType} :
      BaseType.Written word base → Written word { base, isVector := false }
  | vector {left word right : List UInt8} {base : BaseType} :
      Symbol "[" left → BaseType.Written word base → Symbol "]" right →
      Written (left ++ word ++ right) { base, isVector := true }

inductive Field.Written : Phrase Field where
  | intro {before title colon kind assigned notes stop : List UInt8} {name : Ident}
      {type : FieldType} {default : Option String} {metadata : Metadata} :
      Trivia before → Identifier title name → Symbol ":" colon → FieldType.Written kind type →
      Perhaps Assignment assigned default → Metadata.WrittenPerhaps notes metadata →
      Symbol ";" stop →
      Written (before ++ title ++ colon ++ kind ++ assigned ++ notes ++ stop)
        { name, type, default, metadata }

/-- A table or a struct with the given keyword. -/
inductive Record.Written (keyword : String) : Phrase Record where
  | intro {before opening title notes left body after right : List UInt8} {name : Ident}
      {metadata : Metadata} {fields : List Field} :
      Trivia before → Symbol keyword opening → StartsBlank title → Identifier title name →
      Metadata.WrittenPerhaps notes metadata → Symbol "\x7b" left →
      Repeated Field.Written body fields → Trivia after → Symbol "\x7d" right →
      Written keyword (before ++ opening ++ title ++ notes ++ left ++ body ++ after ++ right)
        { name, fields, metadata }

inductive EnumCase.Written : Phrase EnumCase where
  | intro {title assigned : List UInt8} {name : Ident} {value : Option String} :
      Identifier title name → Perhaps Assignment assigned value →
      Written (title ++ assigned) { name, value }

inductive Enumeration.Written : Phrase Enumeration where
  | intro {before opening title colon scalar notes body : List UInt8} {name : Ident}
      {spelling : String} {base : Scalar} {metadata : Metadata} {cases : List EnumCase} :
      Trivia before → Symbol "enum" opening → StartsBlank title → Identifier title name →
      Symbol ":" colon → Name scalar spelling → (spelling, base) ∈ Scalar.spellings →
      Metadata.WrittenPerhaps notes metadata → Cases EnumCase.Written body cases →
      Written (before ++ opening ++ title ++ colon ++ scalar ++ notes ++ body)
        { name, base, cases, metadata }

inductive TaggedUnion.Written : Phrase TaggedUnion where
  | intro {before opening title notes body : List UInt8} {name : Ident} {metadata : Metadata}
      {cases : List Ident} :
      Trivia before → Symbol "union" opening → StartsBlank title → Identifier title name →
      Metadata.WrittenPerhaps notes metadata → Cases Identifier body cases →
      Written (before ++ opening ++ title ++ notes ++ body) { name, cases, metadata }

/-- A keyword with one string literal. -/
inductive Grammar.Directive (keyword : String) : Phrase String where
  | intro {before opening literal stop : List UInt8} {text : String} :
      Trivia before → Symbol keyword opening → Literal literal text → Symbol ";" stop →
      Directive keyword (before ++ opening ++ literal ++ stop) text

inductive Namespace.Written : Phrase Namespace where
  | intro {before opening names stop : List UInt8} {parts : List Ident} :
      Trivia before → Symbol "namespace" opening → (parts ≠ [] → StartsBlank names) →
      Listed Identifier (Symbol ".") names parts → Symbol ";" stop →
      Written (before ++ opening ++ names ++ stop) { parts }

inductive Grammar.RootType : Phrase Ident where
  | intro {before opening title stop : List UInt8} {name : Ident} :
      Trivia before → Symbol "root_type" opening → StartsBlank title → Identifier title name →
      Symbol ";" stop →
      RootType (before ++ opening ++ title ++ stop) name

/-- An item with the comments in front of it. -/
inductive Item.Written : Phrase Item where
  | inclusion {word : List UInt8} {path : String} :
      Directive "include" word path → Written word (.inclusion path)
  | nameSpace {word : List UInt8} {nameSpace : Namespace} :
      Namespace.Written word nameSpace → Written word (.nameSpace nameSpace)
  | rootType {word : List UInt8} {name : Ident} :
      RootType word name → Written word (.rootType name)
  | fileIdentifier {word : List UInt8} {text : String} :
      Directive "file_identifier" word text → Written word (.fileIdentifier text)
  | fileExtension {word : List UInt8} {text : String} :
      Directive "file_extension" word text → Written word (.fileExtension text)
  | userAttribute {word : List UInt8} {text : String} :
      Directive "attribute" word text → Written word (.userAttribute text)
  | table {word : List UInt8} {record : Record} :
      Record.Written "table" word record → Written word (.table record)
  | struct {word : List UInt8} {record : Record} :
      Record.Written "struct" word record → Written word (.struct record)
  | enumeration {word : List UInt8} {enumeration : Enumeration} :
      Enumeration.Written word enumeration → Written word (.enumeration enumeration)
  | union {word : List UInt8} {union : TaggedUnion} :
      TaggedUnion.Written word union → Written word (.union union)

/-- Items, and then blanks and comments to the end. -/
inductive Grammar.File : Phrase (List Item) where
  | intro {body last : List UInt8} {items : List Item} :
      Repeated Item.Written body items → LastTrivia last → File (body ++ last) items

end FlatSchema
