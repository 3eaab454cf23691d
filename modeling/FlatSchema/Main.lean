import FlatSchema.Command.Run

/-!
The program. It takes the part of the real file system that a command can see into a `Disk`: the
paths that it is given, and from each file that it reads the paths of the includes. The command
then runs on that value, and what it leaves behind is printed and written.
-/

namespace FlatSchema

/-- The places that a path passes through, dots resolved by name. -/
def placesOf (start : Location) (names : List String) : List Location :=
  match names with
  | [] => [start]
  | name :: names =>
    let next :=
      if name = "." then start else if name = ".." then start.dropLast else start ++ [name]
    start :: placesOf next names

/-- The include paths that a file names. -/
def includePaths (content : List UInt8) : List String :=
  (Item.readAll content).1.filterMap fun
    | .inclusion path => some path
    | _ => none

/-- What the system has at a place; what it refuses to show is taken as missing. -/
def observe (place : Location) : IO (Option Entry) := do
  try
    let path ← IO.FS.realPath (Path.ofLocation place)
    if ← path.isDir then
      return some .directory
    else
      return some (.file (← IO.FS.readBinFile path).data.toList)
  catch _ =>
    return none

/-- Takes the places of pending paths into the disk, and then those of the includes found there. -/
partial def gather (current : Location) (disk : Disk) : List (Location × String) → IO Disk
  | [] => return disk
  | (start, path) :: pending => do
    let origin := if Path.isAbsolute path then [] else start
    let mut disk := disk
    let mut found : List (Location × String) := []
    for place in placesOf origin (Path.names path) do
      if (disk.entry? place).isNone then
        match ← observe place with
        | none => pure ()
        | some entry =>
          disk := disk.set place entry
          if let .file content := entry then
            for path in includePaths content do
              found := found ++ [(place.dropLast, path), (current, path)]
    gather current disk (found ++ pending)

end FlatSchema

open FlatSchema in
def main (arguments : List String) : IO UInt32 := do
  let current := Path.names (← IO.FS.realPath ".").toString
  let places := (placesOf [] current).drop 1
  let start : Disk := ⟨places.map fun place => (place, .directory)⟩
  let command? := Command.ofArguments arguments |>.toOption
  let inputs := (command?.map Command.inputs).getD []
  let output := command?.bind Command.output?
  let disk ← gather current start ((inputs ++ output.toList).map fun path => (current, path))
  let outcome := Command.runArguments { disk, current } arguments
  if outcome.code = 0 then
    if let some path := output then
      if let some file := outcome.disk.file? current path then
        let content := (outcome.disk.content? file).getD []
        IO.FS.writeBinFile path ⟨content.toArray⟩
  IO.print outcome.stdout
  IO.eprint outcome.stderr
  return outcome.code.toUInt32
