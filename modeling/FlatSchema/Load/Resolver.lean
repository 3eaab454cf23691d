import FlatSchema.Disk.FileSystem
import FlatSchema.Load.Failure

/-!
Schemas from a disk. The path of an include is tried from the directory of the file that includes
it, then from the search directories in order, then from the current directory; the first file
found is taken. A file that is still being read further up is not entered again, which cuts
cycles of includes.

The resolver keeps the files being read as a stack. Each entered file has a location of its own on
that stack, so no chain of includes is longer than the number of files.
-/

namespace FlatSchema

structure Resolver where
  searchDirectories : List String := []
  /-- The files being read, the innermost first. -/
  loading : List Location := []
  deriving Repr

namespace Resolver

/-- The paths at which an include is looked for. -/
def candidates (resolver : Resolver) (path : String) : List String :=
  let beside := (resolver.loading.head?.bind Path.parent?).map Path.ofLocation
  (beside.toList ++ resolver.searchDirectories).map (Path.join · path) ++ [path]

/-- The file that an include leads to. -/
def find? (files : FileSystem) (resolver : Resolver) (path : String) : Option Location :=
  ((resolver.candidates path).find? files.isFile).bind fun found =>
    (files.canonicalize found).toOption

variable {m : Type → Type} [Monad m] [MonadStateOf Resolver m]

/-- Runs an action while a file counts as being read. -/
def whileLoading {α : Type} (file : Location) (action : m α) : m α := do
  modify fun resolver => { resolver with loading := file :: resolver.loading }
  let result ← action
  modify fun resolver => { resolver with loading := resolver.loading.tail }
  return result

/-- Reads an included file leniently, unless it is being read already. The bound limits how deep
includes go; with `depthBound` it cuts nothing off. -/
def resolveWithin (files : FileSystem) : Nat → String → m (Option Schema)
  | 0, _ => return none
  | bound + 1, path => do
    let resolver ← get
    match resolver.find? files path with
    | none => return none
    | some file =>
      if file ∈ resolver.loading then
        return none
      match files.read file with
      | .error _ => return none
      | .ok content =>
        let parsed ← whileLoading file (Schema.parseWith? (resolveWithin files bound) content)
        return parsed.map (·.1)

/-- One more than the number of files. -/
def depthBound (files : FileSystem) : Nat :=
  files.files.length + 1

/-- The schema that an include path leads to. -/
def resolve (files : FileSystem) (path : String) : m (Option Schema) :=
  resolveWithin files (depthBound files) path

/-- Reads the file at a path strictly, and what it includes leniently. -/
def compileRoot (files : FileSystem) (path : String) : m (Except Failure Schema) :=
  if !files.isFile path then
    return .error (.notSchemaFile path)
  else
    match files.canonicalize path with
    | .error fault => return .error (.system fault)
    | .ok file =>
      match files.read file with
      | .error fault => return .error (.system fault)
      | .ok content =>
        match ofUtf8? content with
        | none => return .error .notText
        | some text => do
          let result ← whileLoading file (Schema.compileWith (resolve files) text)
          return result.mapError .parse

end Resolver

/-- Loads the schema at a path with a resolver that has no search directories. -/
def Schema.load (files : FileSystem) (path : String) : Except Failure Schema :=
  let loaded : StateM Resolver _ := Resolver.compileRoot files path
  (loaded {}).1

end FlatSchema
