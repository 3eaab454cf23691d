import FlatSchema.Disk.FileSystem
import Mathlib.Data.List.Basic

/-!
Files that are written. A path leads to the file that was written under it, as it did before if there
was one, and the places of all other files and directories stay as they were.
-/

namespace FlatSchema

/-- Two parts succeed one after the other exactly if each of them does. -/
theorem bind_eq_ok_iff {ε α β : Type} {first : Except ε α} {second : α → Except ε β} {result : β} :
    first >>= second = .ok result ↔ ∃ value, first = .ok value ∧ second value = .ok result := by
  cases first with
  | error failure => simp [bind, Except.bind]
  | ok value => simp [bind, Except.bind]

namespace Disk

variable {disk : Disk} {location other : Location} {entry : Entry}

theorem entry?_set_self (nonempty : location ≠ []) :
    Disk.entry? (disk.set location entry) location = some entry := by
  unfold entry? set
  simp [nonempty]

theorem entry?_set_of_ne (different : other ≠ location) :
    Disk.entry? (disk.set location entry) other = disk.entry? other := by
  have kept (entries : List (Location × Entry)) :
      (entries.filter (·.1 ≠ location)).lookup other = entries.lookup other := by
    induction entries with
    | nil => rfl
    | cons held entries inductionHypothesis =>
      obtain ⟨place, content⟩ := held
      by_cases removed : place = location
      · have passed : (other == place) = false := by simpa [removed] using different
        rw [List.filter_cons_of_neg (by simpa using removed), inductionHypothesis,
          List.lookup_cons, passed]
      · rw [List.filter_cons_of_pos (by simpa using removed), List.lookup_cons, List.lookup_cons,
          inductionHypothesis]
  have first : (other == location) = false := by simpa using different
  unfold entry? set
  rw [List.lookup_cons, first, kept]

theorem content?_set_self (nonempty : location ≠ []) {content : List UInt8} :
    (disk.set location (.file content)).content? location = some content := by
  rw [content?, entry?_set_self nonempty]

section Paths

variable {current : Location} {path : String}

/-- How the place of a written file is found: its directory is there, and it has a name of its own. -/
theorem exists_of_target (found : disk.target current path = .ok location) :
    ∃ start above directory name,
      startOf current path = .ok start ∧ Path.names path = above ++ [name] ∧
      disk.walk start above = .ok directory ∧ disk.entry? directory = some .directory ∧
      name ≠ "." ∧ name ≠ ".." ∧ Path.endsInSlash path = false ∧ name.utf8ByteSize ≤ maxName ∧
      disk.entry? location ≠ some .directory ∧ location = directory ++ [name] := by
  obtain ⟨start, begins, found⟩ := bind_eq_ok_iff.mp found
  split at found
  · cases found
  · next name above names =>
    obtain ⟨directory, walked, found⟩ := bind_eq_ok_iff.mp found
    split at found
    · cases found
    · next isDirectory =>
      split at found
      · cases found
      · next named =>
        split at found
        · cases found
        · next short =>
          split at found
          · cases found
          · next free =>
            cases found
            rw [List.reverse_eq_cons_iff] at names
            push Not at isDirectory named
            exact ⟨start, above.reverse, directory, name, begins, names, walked, isDirectory,
              named.1, named.2.1, by simpa using named.2.2, Nat.le_of_not_lt short, free, rfl⟩

theorem ne_nil_of_target (found : disk.target current path = .ok location) : location ≠ [] := by
  obtain ⟨-, -, directory, name, -, -, -, -, -, -, -, -, -, rfl⟩ := exists_of_target found
  simp

theorem not_directory_of_target (found : disk.target current path = .ok location) :
    disk.entry? location ≠ some .directory := by
  obtain ⟨-, -, directory, name, -, -, -, -, -, -, -, -, free, -⟩ := exists_of_target found
  exact free

/-- All that a step can do. -/
theorem step_eq_ok_iff {directory place : Location} {name : String} :
    disk.step directory name = .ok place ↔
      disk.entry? directory = some .directory ∧
        (name = "." ∧ place = directory ∨ name = ".." ∧ place = directory.dropLast ∨
          name ≠ "." ∧ name ≠ ".." ∧ name.utf8ByteSize ≤ maxName ∧
            disk.entry? (directory ++ [name]) ≠ none ∧ place = directory ++ [name]) := by
  unfold step
  grind [Option.isNone_iff_eq_none]

/-- A new file is in the way of no step that was possible before. -/
theorem step_set {content : List UInt8} (free : disk.entry? location ≠ some .directory)
    (nonempty : location ≠ []) {directory place : Location} {name : String}
    (stepped : disk.step directory name = .ok place) :
    (disk.set location (.file content)).step directory name = .ok place := by
  rw [step_eq_ok_iff] at stepped ⊢
  obtain ⟨isDirectory, stepped⟩ := stepped
  have elsewhere : directory ≠ location := by
    rintro rfl
    exact free isDirectory
  have held (there : disk.entry? (directory ++ [name]) ≠ none) :
      Disk.entry? (disk.set location (.file content)) (directory ++ [name]) ≠ none := by
    by_cases new : directory ++ [name] = location
    · rw [new, entry?_set_self nonempty]
      exact Option.some_ne_none _
    · rwa [entry?_set_of_ne new]
  rw [entry?_set_of_ne elsewhere]
  refine ⟨isDirectory, ?_⟩
  obtain dot | dots | ⟨noDot, noDots, short, there, rest⟩ := stepped
  · exact .inl dot
  · exact .inr (.inl dots)
  · exact .inr (.inr ⟨noDot, noDots, short, held there, rest⟩)

theorem walk_set {content : List UInt8} (free : disk.entry? location ≠ some .directory)
    (nonempty : location ≠ []) {start place : Location} {names : List String}
    (walked : disk.walk start names = .ok place) :
    (disk.set location (.file content)).walk start names = .ok place := by
  induction names generalizing start with
  | nil => exact walked
  | cons name names inductionHypothesis =>
    rw [walk, List.foldlM_cons] at walked ⊢
    obtain ⟨next, stepped, further⟩ := bind_eq_ok_iff.mp walked
    rw [step_set free nonempty stepped]
    exact inductionHypothesis further

theorem locate_eq_ok_iff :
    disk.locate current path = .ok location ↔
      ∃ start, startOf current path = .ok start ∧ disk.walk start (Path.names path) = .ok location ∧
        (Path.endsInSlash path = true → disk.entry? location = some .directory) := by
  rw [locate, bind_eq_ok_iff]
  apply exists_congr
  intro start
  rw [bind_eq_ok_iff]
  apply and_congr_right
  intro begins
  constructor
  · rintro ⟨place, walked, checked⟩
    by_cases refused : Path.endsInSlash path = true ∧ disk.entry? place ≠ some .directory
    · rw [if_pos refused] at checked
      cases checked
    · rw [if_neg refused] at checked
      cases checked
      exact ⟨walked, by simpa using refused⟩
  · rintro ⟨walked, checked⟩
    have passed : ¬ (Path.endsInSlash path = true ∧ disk.entry? location ≠ some .directory) := by
      simpa using checked
    exact ⟨location, walked, by rw [if_neg passed]; rfl⟩

theorem walk_eq_bind {start : Location} {above : List String} {name : String}
    (names : Path.names path = above ++ [name]) :
    disk.walk start (Path.names path) =
      disk.walk start above >>= fun place => disk.step place name := by
  simp [walk, names]

/-- A path leads to the file that was written under it. -/
theorem file?_set_of_target (found : disk.target current path = .ok location)
    (content : List UInt8) :
    Disk.file? (disk.set location (.file content)) current path = some location := by
  obtain ⟨start, above, directory, name, begins, names, walked, isDirectory, noDot, noDots, noSlash,
    short, free, rfl⟩ := exists_of_target found
  have nonempty : directory ++ [name] ≠ [] := by simp
  have elsewhere : directory ≠ directory ++ [name] := by simp
  have stepped : (disk.set (directory ++ [name]) (.file content)).step directory name =
      .ok (directory ++ [name]) := by
    rw [step_eq_ok_iff, entry?_set_of_ne elsewhere, entry?_set_self nonempty]
    exact ⟨isDirectory, .inr (.inr ⟨noDot, noDots, short, Option.some_ne_none _, rfl⟩)⟩
  have located : (disk.set (directory ++ [name]) (.file content)).locate current path =
      .ok (directory ++ [name]) := by
    rw [locate_eq_ok_iff]
    refine ⟨start, begins, ?_, by simp [noSlash]⟩
    rw [walk_eq_bind names, bind_eq_ok_iff]
    exact ⟨directory, walk_set free nonempty walked, stepped⟩
  rw [file?, located]
  simp [content?_set_self nonempty]

/-- The place of a written file is where its path led to before, if there was a file. -/
theorem eq_of_target (found : disk.target current path = .ok location) {earlier : Location}
    (led : disk.file? current path = some earlier) : earlier = location := by
  obtain ⟨start, above, directory, name, begins, names, walked, -, noDot, noDots, -, -, -, rfl⟩ :=
    exists_of_target found
  have located := (@Workspace.locate_of_file? ⟨disk, current⟩ path earlier led).1
  obtain ⟨start', begins', walked', -⟩ := locate_eq_ok_iff.mp located
  cases begins.symm.trans begins'
  rw [walk_eq_bind names, bind_eq_ok_iff] at walked'
  obtain ⟨place, walked', stepped⟩ := walked'
  cases walked.symm.trans walked'
  obtain ⟨-, dot | dots | ⟨-, -, -, -, same⟩⟩ := step_eq_ok_iff.mp stepped
  · exact absurd dot.1 noDot
  · exact absurd dots.1 noDots
  · exact same

/-- Writing succeeds exactly if there is a place for the file. -/
theorem write_eq_ok_iff {content : List UInt8} {after : Disk} :
    disk.write current path content = .ok after ↔
      ∃ location, disk.target current path = .ok location ∧
        disk.set location (.file content) = after := by
  rw [write, bind_eq_ok_iff]
  apply exists_congr
  intro location
  apply and_congr_right
  intro found
  constructor
  · intro same
    cases same
    rfl
  · intro same
    rw [same]
    rfl

end Paths

end Disk

end FlatSchema
