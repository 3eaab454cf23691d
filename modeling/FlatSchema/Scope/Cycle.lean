import FlatSchema.Scope.Basic

/-!
Cycles among tables. A table leads to each table that one of its fields names, in a vector or
not; structs, enumerations and unions are not followed. The search goes depth first from one
table. It keeps the names on the way from the start, where meeting a name again closes a cycle,
and the names that have been left without finding one, which need no second visit.
-/

namespace FlatSchema.Scope

/-- Names of tables that are not on a path. -/
def offPath (scope : Scope) (path : List String) : List String :=
  scope.tables.keys.filter (· ∉ path)

theorem length_offPath_lt {scope : Scope} {path : List String} {name : String}
    (declared : name ∈ scope.tables) (fresh : name ∉ path) :
    (scope.offPath (name :: path)).length < (scope.offPath path).length := by
  have split : scope.offPath (name :: path) = (scope.offPath path).filter (· ≠ name) := by
    simp only [offPath, List.filter_filter]
    congr 1
    funext other
    by_cases same : other = name <;> simp [same]
  have member : name ∈ scope.offPath path := by
    simpa [offPath, fresh] using declared
  rw [split]
  exact List.length_filter_lt_length_iff_exists.mpr ⟨name, member, by simp⟩

/-- Follows pending names one after the other. The result is the enlarged list of names known to
lead to no cycle, or none as soon as a name on the path is met again. Names that are no tables
lead nowhere. -/
def explore? (scope : Scope) (path safe : List String) : List String → Option (List String)
  | [] => some safe
  | name :: pending =>
    if name ∈ safe then
      explore? scope path safe pending
    else if declared : name ∈ scope.tables then
      if onPath : name ∈ path then
        none
      else
        match explore? scope (name :: path) safe
            (scope.tables[name].references.map (·.text)) with
        | none => none
        | some safe => explore? scope path (name :: safe) pending
    else
      explore? scope path safe pending
termination_by pending => ((scope.offPath path).length, pending.length)
decreasing_by
  · exact Prod.Lex.right _ (by simp)
  · exact Prod.Lex.left _ _ (length_offPath_lt declared onPath)
  · exact Prod.Lex.right _ (by simp)
  · exact Prod.Lex.right _ (by simp)

/-- Whether a cycle of tables can be reached from the root. A root that is missing, or that is no
table of the scope, reaches none. -/
def reachesCycle (scope : Scope) (root : Option String) : Bool :=
  match root with
  | none => false
  | some name => (scope.explore? [] [] [name]).isNone

end FlatSchema.Scope

namespace FlatSchema

/-- Whether the root table of a schema reaches a cycle, so that generated code has to bind late. -/
def Schema.isRecursive (schema : Schema) : Bool :=
  schema.scope.reachesCycle (schema.document.rootType.map (·.text))

end FlatSchema
