import FlatSchema.Disk.Path

/-!
A file system as a value. Paths are followed one name at a time from a starting directory, and
each name is looked up in a directory that exists, so a path through a missing directory leads
nowhere even where a later `..` would leave it again. There are no links: a location is the one
canonical place of a file.
-/

namespace FlatSchema

inductive Entry where
  | directory
  | file (content : List UInt8)
  deriving DecidableEq, Repr

/-- Why the system refuses a path. -/
inductive Fault where
  | notFound
  | notADirectory
  | isADirectory
  | nameTooLong
  | nulInName
  /-- Anything else, as the system describes it. -/
  | other (code : Nat) (kind text : String)
  deriving DecidableEq, Repr

/-- Directories and files by location. The root is always there. -/
structure Disk where
  entries : List (Location × Entry) := []
  deriving Repr

namespace Disk

def entry? (disk : Disk) (location : Location) : Option Entry :=
  if location.isEmpty then some .directory else disk.entries.lookup location

/-- The disk with one entry added or replaced. -/
def set (disk : Disk) (location : Location) (entry : Entry) : Disk :=
  ⟨(location, entry) :: disk.entries.filter (·.1 ≠ location)⟩

def erase (disk : Disk) (location : Location) : Disk :=
  ⟨disk.entries.filter (·.1 ≠ location)⟩

/-- The content of the file at a location. -/
def content? (disk : Disk) (location : Location) : Option (List UInt8) :=
  match disk.entry? location with
  | some (.file content) => some content
  | _ => none

/-- The locations of all files. -/
def files (disk : Disk) : List Location :=
  disk.entries.filterMap fun (location, entry) =>
    match entry with
    | .file _ => some location
    | .directory => none

/-- A name has at most 255 bytes. -/
def maxName : Nat := 255

/-- A path has at most 4095 bytes. -/
def maxPath : Nat := 4095

/-- Steps from a directory to one of its entries, to itself or to its parent. -/
def step (disk : Disk) (directory : Location) (name : String) : Except Fault Location :=
  if disk.entry? directory ≠ some .directory then
    .error .notADirectory
  else if name = "." then
    .ok directory
  else if name = ".." then
    .ok directory.dropLast
  else if maxName < name.utf8ByteSize then
    .error .nameTooLong
  else if (disk.entry? (directory ++ [name])).isNone then
    .error .notFound
  else
    .ok (directory ++ [name])

/-- Follows names one after the other. -/
def walk (disk : Disk) (start : Location) (names : List String) : Except Fault Location :=
  names.foldlM disk.step start

/-- Where a path starts to be followed, unless it is no path at all. -/
def startOf (current : Location) (path : String) : Except Fault Location :=
  if path.isEmpty then .error .notFound
  else if path.toList.contains '\x00' then .error .nulInName
  else if maxPath < path.utf8ByteSize then .error .nameTooLong
  else if Path.isAbsolute path then .ok []
  else .ok current

/-- The location that a path leads to from a current directory. -/
def locate (disk : Disk) (current : Location) (path : String) : Except Fault Location := do
  let start ← startOf current path
  let location ← disk.walk start (Path.names path)
  if Path.endsInSlash path ∧ disk.entry? location ≠ some .directory then
    throw .notADirectory
  return location

/-- The location of the file that a path leads to; there is none if it leads to a directory. -/
def file? (disk : Disk) (current : Location) (path : String) : Option Location :=
  match disk.locate current path with
  | .error _ => none
  | .ok location => if (disk.content? location).isSome then some location else none

/-- The location that a written file gets. Its directory has to exist, and the path must not lead
to a directory or look as if it did. -/
def target (disk : Disk) (current : Location) (path : String) : Except Fault Location := do
  let start ← startOf current path
  match (Path.names path).reverse with
  | [] => throw .isADirectory
  | name :: above =>
    let directory ← disk.walk start above.reverse
    if disk.entry? directory ≠ some .directory then
      throw .notADirectory
    else if name = "." ∨ name = ".." ∨ Path.endsInSlash path then
      throw .isADirectory
    else if maxName < name.utf8ByteSize then
      throw .nameTooLong
    else if disk.entry? (directory ++ [name]) = some .directory then
      throw .isADirectory
    else
      return directory ++ [name]

/-- Replaces the content of a file, which is created if need be. -/
def write (disk : Disk) (current : Location) (path : String) (content : List UInt8) :
    Except Fault Disk := do
  return disk.set (← disk.target current path) (.file content)

/-- Makes sure that names lead through directories, creating those that are missing. The result
has the location of the last one. -/
def makeDirectories (disk : Disk) (start : Location) : List String → Except Fault (Disk × Location)
  | [] => return (disk, start)
  | name :: names =>
    match disk.step start name with
    | .ok location => makeDirectories disk location names
    | .error .notFound =>
      makeDirectories (disk.set (start ++ [name]) .directory) (start ++ [name]) names
    | .error fault => throw fault

end Disk

/-- A disk and the directory in which paths start. -/
structure Workspace where
  disk : Disk
  current : Location

def Workspace.file? (workspace : Workspace) (path : String) : Option Location :=
  workspace.disk.file? workspace.current path

end FlatSchema
