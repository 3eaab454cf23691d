/-!
Names as they are stored and emitted. A word that Swift reserves cannot stand as a bare name, so
it is stored with an underscore in front; look-ups and the generated code both use that form.
-/

namespace FlatSchema

/-- A name in its stored form. -/
structure Ident where
  text : String
  deriving DecidableEq, Repr, Inhabited

namespace Ident

/-- Words that Swift does not take as bare names of types, cases or members. -/
def reservedWords : List String :=
  ["associatedtype", "class", "deinit", "enum", "extension", "func", "import", "init", "inout",
   "internal", "let", "operator", "private", "protocol", "public", "static", "struct",
   "subscript", "typealias", "var", "break", "case", "continue", "default", "defer", "do", "else",
   "fallthrough", "for", "guard", "if", "in", "repeat", "return", "switch", "where", "while", "as",
   "catch", "dynamicType", "false", "is", "nil", "rethrows", "super", "self", "Self", "throw",
   "throws", "true", "try", "associativity", "convenience", "dynamic", "didSet", "final", "get",
   "infix", "indirect", "lazy", "left", "mutating", "none", "nonmutating", "optional", "override",
   "postfix", "precedence", "prefix", "Protocol", "required", "right", "set", "Type", "unowned",
   "weak", "willSet"]

def isReserved (word : String) : Bool :=
  reservedWords.contains word

/-- The stored form of a name as written in a schema. -/
def ofSource (word : String) : Ident :=
  ⟨if isReserved word then "_" ++ word else word⟩

end Ident

end FlatSchema
