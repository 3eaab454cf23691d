import FlatSchema.Command.Process
import FlatSchema.Proofs.Disk.Writing

/-!
What programs rely on. A file has an identity of its own, to which several paths may lead, some of
them through links, and a content, which may be out of reach for a reader. A write replaces the
whole content of one file or fails without effect, and a stream shows a text whole or refuses it,
which stops the program. Disks are machines of this kind, and they refuse no text.
-/

namespace FlatSchema

section Laws

variable {State File : Type} {machine : Machine State}

/-- The files of a machine in each of its states. -/
structure Inventory (machine : Machine State) (File : Type) where
  /-- The file that a path leads to. -/
  file? : State → String → Option File
  entry? : State → File → Option Entry
  /-- What is read through a path is the content of the file that the path leads to. -/
  reads : ∀ {state : State} {path : String} {location : Location} {content : List UInt8},
    (machine.files state).isFile path = true →
    (machine.files state).canonicalize path = .ok location →
    (machine.files state).read location = .ok content →
    ∃ file, file? state path = some file ∧ entry? state file = some (.file content)

/-- The file that a path leads to was replaced or created, and nothing else has changed. -/
structure Inventory.Replaced (inventory : Inventory machine File) (before after : State)
    (path : String) (file : File) (content : List UInt8) : Prop where
  leads : inventory.file? after path = some file
  led : ∀ earlier, inventory.file? before path = some earlier → earlier = file
  noDirectory : inventory.entry? before file ≠ some .directory
  written : inventory.entry? after file = some (.file content)
  others : ∀ other, other ≠ file → inventory.entry? after other = inventory.entry? before other

/-- A write replaces a whole file, or it fails without effect. -/
structure Machine.WritesWhole (machine : Machine State) (inventory : Inventory machine File) :
    Prop where
  refused : ∀ {state after : State} {path : String} {content : List UInt8} {fault : Fault},
    machine.write state path content = (.error fault, after) → after = state
  replaced : ∀ {state after : State} {path : String} {content : List UInt8},
    machine.write state path content = (.ok (), after) →
    ∃ file, inventory.Replaced state after path file content

/-- A stream shows a text whole, unless it refuses it. -/
def Machine.PrintsWhole (machine : Machine State) : Prop :=
  ∀ {state : State} {stream : StandardStream} {text : String},
    (machine.print state stream text).refusal = none →
    (machine.print state stream text).shown = text

/-- No stream refuses a text. -/
def Machine.TakesAll (machine : Machine State) : Prop :=
  ∀ state stream text, (machine.print state stream text).refusal = none

end Laws

namespace Workspace

/-- Without links a file is known by its location. -/
def inventory : Inventory machine Location where
  file? := file?
  entry? workspace := workspace.disk.entry?
  reads := by
    intro workspace path location content isFile canonical read
    obtain ⟨found, leads⟩ := Option.isSome_iff_exists.mp isFile
    have located := (locate_of_file? leads).1
    cases canonical.symm.trans located
    refine ⟨location, leads, ?_⟩
    change workspace.disk.read location = .ok content at read
    unfold Disk.read at read
    split at read
    · next entry =>
      cases read
      exact entry
    · cases read
    · cases read

/-- All that a write can do. -/
theorem machine_write_cases (workspace : Workspace) (path : String) (content : List UInt8) :
    (∃ fault, machine.write workspace path content = (.error fault, workspace)) ∨
      ∃ location, workspace.disk.target workspace.current path = .ok location ∧
        machine.write workspace path content =
          (.ok (), { workspace with disk := workspace.disk.set location (.file content) }) := by
  cases wrote : workspace.disk.write workspace.current path content with
  | error fault =>
    refine .inl ⟨fault, ?_⟩
    simp only [machine, wrote]
  | ok disk =>
    obtain ⟨location, found, rfl⟩ := Disk.write_eq_ok_iff.mp wrote
    refine .inr ⟨location, found, ?_⟩
    simp only [machine, wrote]

theorem writesWhole_machine : machine.WritesWhole inventory where
  refused := by
    intro workspace after path content fault wrote
    obtain ⟨fault', failed⟩ | ⟨location, -, succeeded⟩ := machine_write_cases workspace path content
    · cases wrote.symm.trans failed
      rfl
    · cases wrote.symm.trans succeeded
  replaced := by
    intro workspace after path content wrote
    obtain ⟨fault, failed⟩ | ⟨location, found, succeeded⟩ :=
      machine_write_cases workspace path content
    · cases wrote.symm.trans failed
    · cases wrote.symm.trans succeeded
      have nonempty : location ≠ [] := Disk.ne_nil_of_target found
      exact ⟨location, Disk.file?_set_of_target found content,
        fun earlier => Disk.eq_of_target found, Disk.not_directory_of_target found,
        Disk.entry?_set_self nonempty, fun other => Disk.entry?_set_of_ne⟩

theorem printsWhole_machine : machine.PrintsWhole :=
  fun _ => rfl

theorem takesAll_machine : machine.TakesAll :=
  fun _ _ _ => rfl

end Workspace

end FlatSchema
