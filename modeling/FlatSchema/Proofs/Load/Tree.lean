import FlatSchema.Load.Resolver
import FlatSchema.Proofs.Schema.Assembly
import Mathlib.Data.List.Nodup

/-!
Trees of files. A tree tells for each schema which file it was read from. It is faithful to a file
system if every file in it has below it, in the order of its includes, the files that the includes
enter, and an include enters a file unless the file is on the way down from the root. As no file
occurs twice on such a way, a bound of one more than the number of files cuts nothing off.
-/

namespace FlatSchema

/-- A file with what it says and the files that were entered from it. -/
inductive FileTree where
  | file (location : Location) (document : Document) (included : List FileTree)

namespace FileTree

def location : FileTree → Location
  | file location _ _ => location

def document : FileTree → Document
  | file _ document _ => document

def schema : FileTree → Schema
  | file _ document included => { document, children := included.map schema }

/-- The files on the way from the root down to some file of the tree. -/
inductive Way : FileTree → List Location → Prop where
  | here {location : Location} {document : Document} {included : List FileTree} :
      Way (file location document included) [location]
  | down {location : Location} {document : Document} {included : List FileTree}
      {child : FileTree} {way : List Location} :
      child ∈ included → Way child way → Way (file location document included) (location :: way)

end FileTree

namespace FileSystem

variable (files : FileSystem) (directories : List String)

/-- The paths at which an include is looked for: beside the innermost file of those being read, in
the search directories, and as it is given. -/
def places (directories : List String) (chain : List Location) (path : String) : List String :=
  (chain.head?.bind Path.parent?).toList.map (fun beside =>
    Path.join (Path.ofLocation beside) path) ++
    directories.map (fun directory => Path.join directory path) ++ [path]

/-- The file that an include enters and what the file says. The first place that is a file counts,
and it is entered unless it is being read, cannot be read or says nothing that can be parsed. -/
def entered? (chain : List Location) (path : String) : Option (Location × Document) := do
  let place ← (places directories chain path).find? files.isFile
  let location ← (files.canonicalize place).toOption
  if chain.contains location then
    none
  else
    let content ← (files.read location).toOption
    let parsed ← Schema.parse? content
    return (location, parsed.1.document)

/-- Below each file are the files that its includes enter. -/
inductive Faithful : List Location → FileTree → Prop where
  | file {above : List Location} {location : Location} {document : Document}
      {included : List FileTree} :
      included.map (fun child => (child.location, child.document)) =
        document.includes.filterMap (files.entered? directories (location :: above)) →
      (∀ child ∈ included, Faithful (location :: above) child) →
      Faithful above (.file location document included)

/-- The tree that an include leads to, up to a depth. -/
def included? : Nat → List Location → String → Option FileTree
  | 0, _, _ => none
  | bound + 1, chain, path =>
    (files.entered? directories chain path).map fun (location, document) =>
      .file location document
        (document.includes.filterMap (included? bound (location :: chain)))

variable {files directories} {chain : List Location} {path : String} {location : Location}
  {document : Document}

theorem toOption_eq_some_iff {ε α : Type} {result : Except ε α} {value : α} :
    result.toOption = some value ↔ result = .ok value := by
  cases result <;> simp [Except.toOption]

theorem fresh_of_entered?
    (entered : files.entered? directories chain path = some (location, document)) :
    location ∈ files.files ∧ location ∉ chain := by
  obtain ⟨place, found, entered⟩ := Option.bind_eq_some_iff.mp entered
  obtain ⟨target, canonical, entered⟩ := Option.bind_eq_some_iff.mp entered
  have isFile := List.find?_some found
  have located := toOption_eq_some_iff.mp canonical
  split at entered
  · cases entered
  · next fresh =>
    obtain ⟨content, -, entered⟩ := Option.bind_eq_some_iff.mp entered
    obtain ⟨parsed, -, entered⟩ := Option.bind_eq_some_iff.mp entered
    cases entered
    exact ⟨files.mem_files isFile located, by simpa using fresh⟩

/-- The files that can still be entered. -/
def unread (files : FileSystem) (chain : List Location) : List Location :=
  files.files.filter (!chain.contains ·)

theorem length_unread_lt (member : location ∈ files.files) (fresh : location ∉ chain) :
    (files.unread (location :: chain)).length < (files.unread chain).length := by
  have split : files.unread (location :: chain) = (files.unread chain).filter (· ≠ location) := by
    simp only [unread, List.filter_filter]
    congr 1
    funext other
    by_cases same : other = location <;> simp [same]
  rw [split]
  refine List.length_filter_lt_length_iff_exists.mpr ⟨location, ?_, by simp⟩
  simpa [unread] using ⟨member, fresh⟩

/-- With a bound above the number of files that can still be entered, an include leads to a tree
exactly if it enters a file, and the tree is faithful. -/
theorem faithful_of_included? {bound : Nat} (enough : (files.unread chain).length < bound) :
    ((files.included? directories bound chain path).map fun tree =>
        (tree.location, tree.document)) = files.entered? directories chain path ∧
      ∀ tree, files.included? directories bound chain path = some tree →
        files.Faithful directories chain tree := by
  induction bound generalizing chain path with
  | zero => omega
  | succ bound inductionHypothesis =>
    rw [included?]
    constructor
    · rw [Option.map_map]
      exact Option.map_id'
    · intro tree led
      obtain ⟨⟨location, document⟩, entered, rfl⟩ := Option.map_eq_some_iff.mp led
      obtain ⟨member, fresh⟩ := fresh_of_entered? entered
      -- The file entered can no longer be entered below, which pays for the step of the bound.
      have still : (files.unread (location :: chain)).length < bound := by
        have fewer := length_unread_lt member fresh
        omega
      refine .file ?_ ?_
      · rw [List.map_filterMap]
        exact List.filterMap_congr fun childPath _ => (inductionHypothesis still).1
      · intro child childMember
        obtain ⟨childPath, -, childLed⟩ := List.mem_filterMap.mp childMember
        exact (inductionHypothesis still).2 child childLed

/-- On the way down a faithful tree no file occurs twice, nor one of those above the tree. -/
theorem Faithful.nodup_way {above way : List Location} {tree : FileTree}
    (faithful : files.Faithful directories above tree)
    (distinct : (tree.location :: above).Nodup) (isWay : tree.Way way) :
    (way.reverse ++ above).Nodup := by
  induction isWay generalizing above with
  | here => exact distinct
  | @down location document included child way member _ inductionHypothesis =>
    obtain ⟨entries, below⟩ := faithful
    have entered : (child.location, child.document) ∈
        document.includes.filterMap (files.entered? directories (location :: above)) := by
      rw [← entries]
      exact List.mem_map_of_mem member
    obtain ⟨path, -, entered⟩ := List.mem_filterMap.mp entered
    have fresh := (fresh_of_entered? entered).2
    rw [List.reverse_cons, List.append_assoc]
    exact inductionHypothesis (below child member) (List.nodup_cons.mpr ⟨fresh, distinct⟩)

end FileSystem

end FlatSchema
