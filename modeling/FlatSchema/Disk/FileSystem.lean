import FlatSchema.Disk.Basic

/-!
File systems as a reader of files sees them. Paths may be spelled in many ways and lead through
links; a path that leads to a file has one canonical location, and there are finitely many such
locations. Nothing changes while files are being read.
-/

namespace FlatSchema

structure FileSystem where
  /-- Whether a path leads to a file. -/
  isFile : String → Bool
  /-- The location that a path stands for. -/
  canonicalize : String → Except Fault Location
  /-- The bytes of the file at a location. -/
  read : Location → Except Fault (List UInt8)
  /-- The locations of all files. -/
  files : List Location
  mem_files : ∀ {path : String} {location : Location},
    isFile path = true → canonicalize path = .ok location → location ∈ files

namespace Disk

/-- A file, or why there is none to read. -/
def read (disk : Disk) (location : Location) : Except Fault (List UInt8) :=
  match disk.entry? location with
  | some (.file content) => .ok content
  | some .directory => .error .isADirectory
  | none => .error .notFound

theorem mem_files_of_content? {disk : Disk} {location : Location} {content : List UInt8}
    (found : disk.content? location = some content) : location ∈ disk.files := by
  unfold content? at found
  split at found
  · next entry =>
    unfold entry? at entry
    split at entry
    · cases entry
    · obtain ⟨before, after, split, -⟩ := List.lookup_eq_some_iff.mp entry
      simp [files, split]
  · cases found

end Disk

namespace Workspace

theorem locate_of_file? {workspace : Workspace} {path : String} {location : Location}
    (found : workspace.file? path = some location) :
    workspace.disk.locate workspace.current path = .ok location ∧
      location ∈ workspace.disk.files := by
  unfold file? Disk.file? at found
  split at found
  · cases found
  · next place located =>
    split at found
    · next readable =>
      cases found
      obtain ⟨content, found⟩ := Option.isSome_iff_exists.mp readable
      exact ⟨located, Disk.mem_files_of_content? found⟩
    · cases found

/-- The file system that paths of a workspace lead into. -/
def fileSystem (workspace : Workspace) : FileSystem where
  isFile path := (workspace.file? path).isSome
  canonicalize path := workspace.disk.locate workspace.current path
  read := workspace.disk.read
  files := workspace.disk.files
  mem_files := by
    intro path location isFile canonical
    obtain ⟨found, leads⟩ := Option.isSome_iff_exists.mp isFile
    obtain ⟨located, member⟩ := locate_of_file? leads
    cases canonical.symm.trans located
    exact member

instance : Coe Workspace FileSystem := ⟨fileSystem⟩

end Workspace

end FlatSchema
