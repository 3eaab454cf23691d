import FlatSchema.Syntax.Declaration

/-!
Top-level items of a schema file: directives and declarations, in any order. Each item may have
comments in front of it. The items are told apart by their first word, so at most one of the
rules matches.
-/

namespace FlatSchema

open Rule Token

inductive Item where
  | inclusion (path : String)
  | nameSpace (nameSpace : Namespace)
  | rootType (name : Ident)
  | fileIdentifier (text : String)
  | fileExtension (text : String)
  | userAttribute (text : String)
  | table (record : Record)
  | struct (record : Record)
  | enumeration (enumeration : Enumeration)
  | union (union : TaggedUnion)
  deriving DecidableEq, Repr

/-- A keyword with one string literal. -/
def directive (word : String) : Rule String := do
  skipComments
  keyword word
  let text ← stringLiteral
  symbol ";"
  return text

namespace Namespace

/-- Names with dots between them; a dot after the last name is allowed, and so is no name. -/
def rule : Rule Namespace := do
  skipComments
  keyword "namespace"
  let parts ← listOf Ident.rule (symbol ".")
  symbol ";"
  return { parts }

end Namespace

/-- The table that a buffer of this schema holds. -/
def rootTypeRule : Rule Ident := do
  skipComments
  keyword "root_type"
  let name ← Ident.rule
  symbol ";"
  return name

namespace Item

/-- One rule for each kind of item. -/
def rules : List (Rule Item) :=
  [inclusion <$> directive "include",
   nameSpace <$> Namespace.rule,
   rootType <$> rootTypeRule,
   fileIdentifier <$> directive "file_identifier",
   fileExtension <$> directive "file_extension",
   userAttribute <$> directive "attribute",
   table <$> Record.rule "table",
   struct <$> Record.rule "struct",
   enumeration <$> Enumeration.rule,
   union <$> TaggedUnion.rule]

def rule : Rule Item :=
  firstOf rules

/-- The items at the start of a buffer, and the bytes after the last of them. -/
def readAll (buffer : List UInt8) : List Item × List UInt8 :=
  collect rule buffer

end Item

end FlatSchema
