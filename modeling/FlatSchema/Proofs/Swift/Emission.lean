import FlatSchema.Swift.Source
import FlatSchema.Proofs.Scope.Worklist
import Mathlib.Data.List.Nodup

/-!
The order of a Swift source. Between its header and its helper a source holds one block for each
declaration that a worklist machine emits, in that order.
-/

namespace FlatSchema.Swift

open Scope

/-- The declarations at which emission starts: the root table alone where the root type is a table
of the scope, and else every declaration. -/
inductive StartsAt (schema : Schema) : List Declaration → Prop where
  | rootTable {name : Ident} {table : Record} :
      schema.document.rootType = some name → schema.scope.tables[name.text]? = some table →
      StartsAt schema [.table table]
  | everywhere :
      (∀ name, schema.document.rootType = some name → name.text ∉ schema.scope.tables) →
      StartsAt schema schema.scope.declarations

theorem startsAt_roots (schema : Schema) :
    StartsAt schema (schema.scope.roots (schema.document.rootType.map (·.text))) := by
  rw [roots]
  cases declared : schema.document.rootType with
  | none => exact .everywhere (by simp [declared])
  | some name =>
    cases found : schema.scope.tables[name.text]? with
    | none =>
      simp only [Option.map_some, Option.bind_some, table?, found, Option.map_none]
      refine .everywhere ?_
      intro other same
      cases declared.symm.trans same
      simp [Std.TreeMap.mem_iff_isSome_getElem?, found]
    | some table =>
      simp only [Option.map_some, Option.bind_some, table?, found]
      exact .rootTable declared found

theorem mem_declarations_of_found {scope : Scope} {name : String} {table : Record}
    (found : scope.tables[name]? = some table) : .table table ∈ scope.declarations :=
  mem_declarations_iff.mpr ⟨name, .inl (by rw [table?, found, Option.map_some])⟩

namespace StartsAt

variable {schema : Schema} {roots : List Declaration}

theorem declared (start : StartsAt schema roots) :
    ∀ root ∈ roots, root ∈ schema.scope.declarations := by
  intro root member
  cases start with
  | @rootTable name table _ found =>
    rw [List.mem_singleton.mp member]
    exact mem_declarations_of_found found
  | everywhere => exact member

theorem eq_declarations (start : StartsAt schema roots)
    (noRoot : ∀ name, schema.document.rootType = some name → name.text ∉ schema.scope.tables) :
    roots = schema.scope.declarations := by
  cases start with
  | @rootTable name table declared found =>
    have known : name.text ∈ schema.scope.tables := by
      simp [Std.TreeMap.mem_iff_isSome_getElem?, found]
    exact absurd known (noRoot name declared)
  | everywhere => rfl

end StartsAt

theorem roots_of_found {schema : Schema} {name : Ident} {table : Record}
    (rooted : schema.document.rootType = some name)
    (found : schema.scope.tables[name.text]? = some table) :
    schema.scope.roots (schema.document.rootType.map (·.text)) = [.table table] := by
  simp [roots, rooted, table?, found]

theorem emittedBy_sound (schema : Schema) :
    ∃ roots, StartsAt schema roots ∧ Worklist.Sound schema.scope roots ⟨emittedBy schema, []⟩ := by
  have start := startsAt_roots schema
  exact ⟨_, start, ((emits_iff_eq_emission start.declared).mpr rfl).sound⟩

theorem mem_declarations_of_emittedBy {schema : Schema} {declaration : Declaration}
    (member : declaration ∈ emittedBy schema) : declaration ∈ schema.scope.declarations := by
  obtain ⟨roots, start, sound⟩ := emittedBy_sound schema
  obtain ⟨root, rootMember, path⟩ := sound.reached declaration (by simpa using member)
  rcases path.cases_tail with rfl | ⟨_, -, needed⟩
  · exact start.declared declaration rootMember
  · exact mem_declarations_of_needs needed

theorem reached_of_emittedBy {schema : Schema} {name : Ident} {table : Record}
    (rooted : schema.document.rootType = some name)
    (found : schema.scope.tables[name.text]? = some table) {declaration : Declaration}
    (member : declaration ∈ emittedBy schema) :
    Relation.ReflTransGen (Declaration.Needs schema.scope) (.table table) declaration := by
  have run : Worklist.Emits schema.scope [.table table] (emittedBy schema) := by
    rw [emits_iff_eq_emission (by simpa using mem_declarations_of_found found), emittedBy,
      roots_of_found rooted found]
  obtain ⟨root, rootMember, path⟩ := run.sound.reached declaration (by simpa using member)
  rw [List.mem_singleton.mp rootMember] at path
  exact path

theorem header_eq (withImport : Bool) :
    header withImport =
      "import Foundation\n" ++ (if withImport then "import FlatBuffersSwift\n" else "") ++
        "\n" := by
  cases withImport <;> decide

/-- A source is the imports, the blocks of the declarations that the machine emits from its start,
and the helper where it is needed. The names of these declarations differ; each declaration is
reached from a root, and the names of the roots and of whatever is needed are there. Without a root
table every name of the scope is there once. -/
theorem source_emits_preorder (schema : Schema) (withImport : Bool) :
    ∃ roots emitted, StartsAt schema roots ∧
      (∀ result, Worklist.Emits schema.scope roots result ↔ result = emitted) ∧
      source schema withImport =
        "import Foundation\n" ++ (if withImport then "import FlatBuffersSwift\n" else "") ++ "\n" ++
          String.join (emitted.map fun declaration =>
            render (contextOf schema) schema.document declaration ++ "\n") ++
          (if schema.isRecursive then lateBindingHelper ++ "\n" else "") ∧
      (emitted.map (·.name)).Nodup ∧
      (∀ declaration ∈ emitted, ∃ root ∈ roots,
        Relation.ReflTransGen (Declaration.Needs schema.scope) root declaration) ∧
      (∀ root ∈ roots, root.name ∈ emitted.map (·.name)) ∧
      (∀ declaration ∈ emitted, ∀ other, declaration.Needs schema.scope other →
        other.name ∈ emitted.map (·.name)) ∧
      ((∀ name, schema.document.rootType = some name → name.text ∉ schema.scope.tables) →
        ∀ name, name ∈ schema.scope.tables ∨ name ∈ schema.scope.structs ∨
          name ∈ schema.scope.enums ∨ name ∈ schema.scope.unions →
          (emitted.map (·.name)).count name = 1) := by
  have start := startsAt_roots schema
  have unique (result : List Declaration) :
      Worklist.Emits schema.scope _ result ↔ result = emittedBy schema :=
    emits_iff_eq_emission start.declared
  obtain ⟨distinct, reached, rooted, closed⟩ := ((unique _).mpr rfl).sound
  simp only [List.append_nil] at reached rooted closed
  refine ⟨_, _, start, unique, ?_, distinct, reached, rooted, closed, ?_⟩
  · rw [← header_eq]
    rfl
  intro noRoot name known
  rw [← mem_names_iff schema.scope_keyed, names, ← start.eq_declarations noRoot,
    List.mem_map] at known
  obtain ⟨root, member, rfl⟩ := known
  exact List.count_eq_one_of_mem distinct (rooted root member)

end FlatSchema.Swift
