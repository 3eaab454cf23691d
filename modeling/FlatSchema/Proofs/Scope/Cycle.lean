import FlatSchema.Scope.Cycle
import Mathlib.Logic.Relation

/-!
The search for cycles of tables finds one exactly if there is one to find. The names that have been
left reach no cycle, so passing them over hides nothing; and whatever is pending is reached from
every name on the path, so meeting such a name again closes a cycle, while meeting a name from two
sides does not.
-/

namespace FlatSchema.Scope

/-- A table leads to another if a field of it refers to the other by name. -/
def Leads (scope : Scope) (name next : String) : Prop :=
  ∃ record, scope.tables[name]? = some record ∧
    (∃ field ∈ record.fields, ∃ reference,
      field.type.base = .reference reference ∧ reference.text = next) ∧
    next ∈ scope.tables

/-- Some table that leads back to itself is reached. -/
def CycleAhead (scope : Scope) (name : String) : Prop :=
  ∃ table, Relation.ReflTransGen scope.Leads name table ∧ Relation.TransGen scope.Leads table table

theorem mem_references_iff {record : Record} {next : String} :
    next ∈ record.references.map (·.text) ↔
      ∃ field ∈ record.fields, ∃ reference,
        field.type.base = .reference reference ∧ reference.text = next := by
  have named (field : Field) (reference : Ident) :
      field.type.reference? = some reference ↔ field.type.base = .reference reference := by
    rw [FieldType.reference?]
    cases field.type.base <;> simp
  simp only [Record.references, List.mem_map, List.mem_filterMap, named]
  grind

variable {scope : Scope}

theorem leads_iff {name next : String} (declared : name ∈ scope.tables) :
    scope.Leads name next ↔
      next ∈ scope.tables[name].references.map (·.text) ∧ next ∈ scope.tables := by
  rw [mem_references_iff, Leads]
  simp [Std.TreeMap.getElem?_eq_some_getElem declared]

theorem cycleAhead_iff {name : String} :
    scope.CycleAhead name ↔ ∃ next, scope.Leads name next ∧ scope.CycleAhead next := by
  constructor
  · rintro ⟨table, path, cycle⟩
    rcases path.cases_head with rfl | ⟨next, leads, rest⟩
    · obtain ⟨next, leads, rest⟩ := Relation.TransGen.head'_iff.mp cycle
      exact ⟨next, leads, name, rest, cycle⟩
    · exact ⟨next, leads, table, rest, cycle⟩
  · rintro ⟨next, leads, table, path, cycle⟩
    exact ⟨table, path.head leads, cycle⟩

theorem not_cycleAhead_of_not_mem {name : String} (missing : name ∉ scope.tables) :
    ¬ scope.CycleAhead name := by
  rw [cycleAhead_iff]
  rintro ⟨next, ⟨record, found, -, -⟩, -⟩
  rw [Std.TreeMap.getElem?_eq_none missing] at found
  cases found

/-- A search that ends without a cycle has seen all of what is pending, and nothing that it left
has a cycle ahead. -/
theorem explore?_complete {path safe pending result : List String}
    (explored : scope.explore? path safe pending = some result)
    (safeBefore : ∀ name ∈ safe, ¬ scope.CycleAhead name) :
    (∀ name ∈ result, ¬ scope.CycleAhead name) ∧ ∀ name ∈ pending, ¬ scope.CycleAhead name := by
  fun_induction explore? scope path safe pending generalizing result with
  | case1 path safe =>
    rw [← Option.some.inj explored]
    exact ⟨safeBefore, fun _ member => absurd member List.not_mem_nil⟩
  | case2 path safe name pending known inductionHypothesis =>
    obtain ⟨safeAfter, safePending⟩ := inductionHypothesis explored safeBefore
    exact ⟨safeAfter, List.forall_mem_cons.mpr ⟨safeBefore name known, safePending⟩⟩
  | case3 => cases explored
  | case4 => cases explored
  | case5 path safe name pending fresh declared offPath below exploredBelow inductionBelow
      inductionRest =>
    obtain ⟨safeBelow, safeReferences⟩ := inductionBelow exploredBelow safeBefore
    -- The path plays no part here: all that the table refers to has been left.
    have safeName : ¬ scope.CycleAhead name := by
      rw [cycleAhead_iff]
      rintro ⟨next, leads, ahead⟩
      exact safeReferences next ((leads_iff declared).mp leads).1 ahead
    obtain ⟨safeAfter, safePending⟩ :=
      inductionRest explored (List.forall_mem_cons.mpr ⟨safeName, safeBelow⟩)
    exact ⟨safeAfter, List.forall_mem_cons.mpr ⟨safeName, safePending⟩⟩
  | case6 path safe name pending fresh missing inductionHypothesis =>
    obtain ⟨safeAfter, safePending⟩ := inductionHypothesis explored safeBefore
    exact ⟨safeAfter,
      List.forall_mem_cons.mpr ⟨not_cycleAhead_of_not_mem missing, safePending⟩⟩

/-- Every pending table is reached from every name on a path. -/
def Trails (scope : Scope) (path pending : List String) : Prop :=
  ∀ start ∈ path, ∀ name ∈ pending, name ∈ scope.tables →
    Relation.TransGen scope.Leads start name

theorem Trails.tail {path pending : List String} {name : String}
    (trails : scope.Trails path (name :: pending)) : scope.Trails path pending :=
  fun start onPath other member => trails start onPath other (List.mem_cons_of_mem _ member)

/-- The path grows by a pending table when the names that the table refers to become pending. -/
theorem Trails.descend {path pending : List String} {name : String}
    (trails : scope.Trails path (name :: pending)) (declared : name ∈ scope.tables) :
    scope.Trails (name :: path) (scope.tables[name].references.map (·.text)) := by
  intro start onPath next member nextDeclared
  have leads : scope.Leads name next := (leads_iff declared).mpr ⟨member, nextDeclared⟩
  rcases List.mem_cons.mp onPath with rfl | above
  · exact .single leads
  · exact (trails start above name List.mem_cons_self declared).tail leads

/-- A search that meets its path again has a cycle ahead of what is pending. -/
theorem explore?_sound {path safe pending : List String}
    (found : scope.explore? path safe pending = none) (trails : scope.Trails path pending) :
    ∃ name ∈ pending, name ∈ scope.tables ∧ scope.CycleAhead name := by
  fun_induction explore? scope path safe pending with
  | case1 => cases found
  | case2 path safe name pending known inductionHypothesis =>
    obtain ⟨other, member, ahead⟩ := inductionHypothesis found trails.tail
    exact ⟨other, List.mem_cons_of_mem _ member, ahead⟩
  | case3 path safe name pending fresh declared onPath =>
    exact ⟨name, List.mem_cons_self, declared, name, .refl,
      trails name onPath name List.mem_cons_self declared⟩
  | case4 path safe name pending fresh declared offPath foundBelow inductionBelow =>
    obtain ⟨next, member, nextDeclared, ahead⟩ :=
      inductionBelow foundBelow (trails.descend declared)
    exact ⟨name, List.mem_cons_self, declared,
      cycleAhead_iff.mpr ⟨next, (leads_iff declared).mpr ⟨member, nextDeclared⟩, ahead⟩⟩
  | case5 path safe name pending fresh declared offPath below exploredBelow _ inductionRest =>
    obtain ⟨other, member, ahead⟩ := inductionRest found trails.tail
    exact ⟨other, List.mem_cons_of_mem _ member, ahead⟩
  | case6 path safe name pending fresh missing inductionHypothesis =>
    obtain ⟨other, member, ahead⟩ := inductionHypothesis found trails.tail
    exact ⟨other, List.mem_cons_of_mem _ member, ahead⟩

/-- The search from a root finds a cycle exactly if the root is a table with a cycle ahead. -/
theorem reachesCycle_eq_true_iff (scope : Scope) (root : Option String) :
    scope.reachesCycle root = true ↔
      ∃ name, root = some name ∧ name ∈ scope.tables ∧
        ∃ table, Relation.ReflTransGen scope.Leads name table ∧
          Relation.TransGen scope.Leads table table := by
  cases root with
  | none => simp [reachesCycle]
  | some name =>
    rw [reachesCycle, Option.isNone_iff_eq_none]
    constructor
    · intro found
      obtain ⟨start, member, declared, ahead⟩ := explore?_sound found
        fun _ onPath => absurd onPath List.not_mem_nil
      rw [List.mem_singleton.mp member] at declared ahead
      exact ⟨name, rfl, declared, ahead⟩
    · rintro ⟨_, same, -, ahead⟩
      cases same
      cases explored : scope.explore? [] [] [name] with
      | none => rfl
      | some safe =>
        have safeName := (explore?_complete explored fun _ member =>
          absurd member List.not_mem_nil).2 name List.mem_cons_self
        exact absurd ahead safeName

/-- Without a root table no cycle is reached. -/
theorem reachesCycle_of_no_table {root : Option String}
    (noTable : ∀ name, root = some name → name ∉ scope.tables) :
    scope.reachesCycle root = false := by
  cases root with
  | none => rfl
  | some name =>
    have missing := noTable name rfl
    have nothing : scope.explore? [] [] [name] = some [] := by
      rw [explore?, if_neg List.not_mem_nil, dif_neg missing, explore?]
    rw [reachesCycle, nothing, Option.isNone_some]

end FlatSchema.Scope
