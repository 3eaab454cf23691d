import FlatSchema.Scope.Basic

/-!
The order of emission. A declaration comes first and then, depth first, whatever it references.
Names are what counts as emitted: of several declarations with one name, the one that is met
first is taken and the others are passed over, which also ends cycles.
-/

namespace FlatSchema.Scope

/-- The names of all own declarations, of whatever kind. -/
def names (scope : Scope) : List String :=
  scope.declarations.map (·.name)

/-- Names that have not been emitted. -/
def unemitted (scope : Scope) (emitted : List Declaration) : List String :=
  scope.names.filter (· ∉ emitted.map (·.name))

theorem length_unemitted_lt {scope : Scope} {emitted result : List Declaration}
    {declaration : Declaration} (declared : declaration.name ∈ scope.names)
    (fresh : declaration.name ∉ emitted.map (·.name))
    (extension : declaration :: emitted <:+ result) :
    (scope.unemitted result).length < (scope.unemitted emitted).length := by
  have split : scope.unemitted result =
      (scope.unemitted emitted).filter (· ∉ result.map (·.name)) := by
    simp only [unemitted, List.filter_filter]
    congr 1
    funext name
    by_cases missing : name ∈ result.map (·.name)
    · simp [missing]
    · have earlier : name ∉ emitted.map (·.name) := fun found =>
        missing ((extension.sublist.map _).subset (List.mem_cons_of_mem _ found))
      simp [missing, earlier]
  have member : declaration.name ∈ scope.unemitted emitted := by
    simp only [unemitted, List.mem_filter, decide_eq_true_eq]
    exact ⟨declared, fresh⟩
  have emittedNow : declaration.name ∈ result.map (·.name) :=
    List.mem_map_of_mem (extension.sublist.subset (List.mem_cons_self ..))
  rw [split]
  exact List.length_filter_lt_length_iff_exists.mpr
    ⟨declaration.name, member, by simpa using emittedNow⟩

/-- Emits pending declarations, each with what it references, on top of those already emitted;
the latest stands first. Declarations whose name the scope does not know are passed over. -/
def visit (scope : Scope) (emitted : List Declaration) :
    List Declaration → { result : List Declaration // emitted <:+ result }
  | [] => ⟨emitted, List.suffix_refl _⟩
  | declaration :: pending =>
    if _ : declaration.name ∉ emitted.map (·.name) then
      if _ : declaration.name ∈ scope.names then
        match visit scope (declaration :: emitted) (declaration.references scope) with
        | ⟨below, extension⟩ =>
          match visit scope below pending with
          | ⟨result, further⟩ => ⟨result, (List.suffix_cons ..).trans (extension.trans further)⟩
      else
        visit scope emitted pending
    else
      visit scope emitted pending
termination_by pending => ((scope.unemitted emitted).length, pending.length)
decreasing_by
  · exact Prod.Lex.left _ _ (length_unemitted_lt ‹_› ‹_› (List.suffix_refl _))
  · exact Prod.Lex.left _ _ (length_unemitted_lt ‹_› ‹_› extension)
  · exact Prod.Lex.right _ (by simp)
  · exact Prod.Lex.right _ (by simp)

/-- Declarations to emit for some roots, in order. -/
def emission (scope : Scope) (roots : List Declaration) : List Declaration :=
  (scope.visit [] roots).val.reverse

/-- Where emission starts: at the root table if there is one, and else at every declaration. -/
def roots (scope : Scope) (root : Option String) : List Declaration :=
  match root.bind scope.table? with
  | some table => [table]
  | none => scope.declarations

end FlatSchema.Scope
