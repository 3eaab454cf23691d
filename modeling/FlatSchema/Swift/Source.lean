import FlatSchema.Scope.Cycle
import FlatSchema.Scope.Traversal
import FlatSchema.Swift.Block

/-!
A whole Swift file for a schema: imports, one block for each declaration to emit, and the helper
for late binding where the root table reaches a cycle. With a root table only what it reaches is
emitted, and else every declaration.
-/

namespace FlatSchema.Swift

/-- The lines of the function that binds references to objects that did not exist yet when they were
written. -/
def lateBindingLines : List String :=
  ["fileprivate func performLateBindings(_ builder: FlatBuffersBuilder) throws \x7b",
   "    for binding in builder.deferedBindings \x7b",
   "        guard let offset = builder.cache[ObjectIdentifier(binding.object)] else \x7b",
   "            throw FlatBuffersBuildError.couldNotPerformLateBinding",
   "        \x7d",
   "        try builder.update(offset: offset, atCursor: binding.cursor)",
   "    \x7d",
   "    builder.deferedBindings.removeAll()",
   "\x7d"]

def lateBindingHelper : String :=
  block lateBindingLines

/-- The block of a declaration. The table named by the root type is the root. -/
def render (context : Context) (document : Document) : Declaration → String
  | .table declared =>
    context.table declared (document.rootType = some declared.name) document.fileIdentifier
  | .struct declared => context.struct declared
  | .enumeration declared => context.enumeration declared
  | .union declared => context.union declared

/-- The import lines, and an empty line after them. -/
def header (withImport : Bool) : String :=
  block (["import Foundation"] ++ (if withImport then ["import FlatBuffersSwift"] else []) ++ [""])

/-- The context in which the declarations of a schema are written. -/
def contextOf (schema : Schema) : Context :=
  { scope := schema.scope
    container := schema.container
    lateBinding := schema.isRecursive }

/-- The declarations that the source of a schema holds, in order. -/
def emittedBy (schema : Schema) : List Declaration :=
  let scope := schema.scope
  scope.emission (scope.roots (schema.document.rootType.map (·.text)))

/-- Swift source for a schema and what it includes. -/
def source (schema : Schema) (withImport : Bool) : String :=
  let context := contextOf schema
  header withImport ++
    String.join ((emittedBy schema).map fun declaration =>
      render context schema.document declaration ++ "\n") ++
    (if context.lateBinding then lateBindingHelper ++ "\n" else "")

/-- Container types of the namespaces of some schemas, each once, in the order of their first
appearance. A namespace without parts has no container. -/
def containers (schemas : List Schema) : List String :=
  ((schemas.map (·.container)).filter (!·.isEmpty)).eraseDups

/-- One empty enumeration for each container type. -/
def containerSource (schemas : List Schema) : String :=
  "\n".intercalate ((containers schemas).map fun container =>
    "public enum " ++ container ++ " \x7b\x7d")

end FlatSchema.Swift
