import FlatSchema.Proofs.Scope.Cycle
import FlatSchema.Proofs.Swift.Unreachable

/-!
The order of declarations in a file. A scope keeps declarations by name and lists them by name, so
of the order in which a document declares it shows only which of several declarations of one kind
and name comes last. Documents whose declarations are put into another order, where those of one
kind and name stay in theirs, give the same source and the same recursion.
-/

namespace FlatSchema

open Declaration

/-- A document with its declarations in another order. Declarations of one kind and one name follow
each other as before, and nothing else is changed. -/
structure Document.Reorders (document reordered : Document) : Prop where
  others : reordered = { document with
    tables := reordered.tables
    structs := reordered.structs
    enums := reordered.enums
    unions := reordered.unions }
  permuted : ∀ kind : Kind, (kind.listed document).Perm (kind.listed reordered)
  stable : ∀ (kind : Kind) (name : String),
    document.declaring kind name = reordered.declaring kind name

namespace Scope

/-- Two scopes have the same declarations under every name. -/
def Agree (first second : Scope) : Prop :=
  ∀ name, first.AgreeOn second name

theorem agree_of_reorders {schema reordered : Schema}
    (reorders : schema.Alike Document.Reorders reordered) :
    schema.scope.Agree reordered.scope := by
  intro name
  apply agreeOn_of_alike reorders
  intro document document' pair kind
  exact pair.stable kind name

namespace Agree

variable {first second : Scope} (agree : first.Agree second)

include agree

/-- A map lists its entries in the order of names, so its entries tell the list. -/
theorem values_eq (kind : Kind) :
    (kind.entries first).values = (kind.entries second).values := by
  apply Std.TreeMap.Equiv.values_eq
  apply Std.TreeMap.Equiv.of_forall_constGet?_eq
  intro name
  exact agree name kind

theorem declarations_eq : first.declarations = second.declarations := by
  have tables := agree.values_eq .table
  have structs := agree.values_eq .struct
  have enums := agree.values_eq .enumeration
  have unions := agree.values_eq .union
  simp only [Kind.entries] at tables structs enums unions
  unfold declarations
  rw [tables, structs, enums, unions]

theorem roots_eq (root : Option String) : first.roots root = second.roots root := by
  have tables : first.table? = second.table? := by
    funext name
    exact (agree name).find?_eq .table
  unfold roots
  rw [tables, agree.declarations_eq]

theorem step {before after : Worklist} (step : Worklist.Step first before after) :
    Worklist.Step second before after := by
  cases step with
  | drop known => exact .drop known
  | @emit emitted pending declaration fresh =>
    have references : declaration.references first = declaration.references second :=
      references_eq fun name _ => agree name.text
    rw [references]
    exact .emit fresh

theorem emission_eq {roots : List Declaration}
    (declared : ∀ root ∈ roots, root ∈ first.declarations) :
    first.emission roots = second.emission roots := by
  have run : Worklist.Emits first roots (first.emission roots) :=
    (emits_iff_eq_emission declared).mpr rfl
  have declaredToo : ∀ root ∈ roots, root ∈ second.declarations := by
    rwa [← agree.declarations_eq]
  apply (emits_iff_eq_emission declaredToo).mp
  exact Relation.ReflTransGen.mono (fun _ _ => agree.step) _ _ run

theorem reachesCycle_eq (root : Option String) :
    first.reachesCycle root = second.reachesCycle root := by
  by_cases table : ∃ name record, root = some name ∧ first.tables[name]? = some record
  · obtain ⟨name, record, rfl, found⟩ := table
    apply Scope.reachesCycle_eq found (agree name)
    intro declaration _ mention _
    exact agree mention.text
  · have missing : ∀ name, root = some name → name ∉ first.tables := by
      intro name named known
      exact table ⟨name, _, named, Std.TreeMap.getElem?_eq_some_getElem known⟩
    have missingToo : ∀ name, root = some name → name ∉ second.tables := by
      intro name named
      rw [← (agree name).mem_tables_iff]
      exact missing name named
    rw [reachesCycle_of_no_table missing, reachesCycle_of_no_table missingToo]

end Agree

end Scope

namespace Swift

open Scope

section Reordered

variable {schema reordered : Schema} (reorders : schema.Alike Document.Reorders reordered)

include reorders

theorem exists_document_eq_of_reorders : ∃ tables structs enums unions,
    reordered.document = { schema.document with tables, structs, enums, unions } := by
  cases reorders with
  | mk head _ => exact ⟨_, _, _, _, head.others⟩

theorem rootType_of_reorders : reordered.document.rootType = schema.document.rootType := by
  obtain ⟨_, _, _, _, document⟩ := exists_document_eq_of_reorders reorders
  rw [document]

theorem isRecursive_of_reorders : schema.isRecursive = reordered.isRecursive := by
  unfold Schema.isRecursive
  rw [rootType_of_reorders reorders]
  exact (agree_of_reorders reorders).reachesCycle_eq _

theorem emittedBy_of_reorders : emittedBy schema = emittedBy reordered := by
  have agree := agree_of_reorders reorders
  simp only [emittedBy, rootType_of_reorders reorders, ← agree.roots_eq]
  exact agree.emission_eq (startsAt_roots schema).declared

theorem contextOf_of_reorders :
    contextOf reordered = { contextOf schema with scope := reordered.scope } := by
  obtain ⟨_, _, _, _, document⟩ := exists_document_eq_of_reorders reorders
  have container : reordered.container = schema.container := by
    unfold Schema.container
    rw [document]
  unfold contextOf
  rw [← isRecursive_of_reorders reorders, container]

theorem render_of_reorders (declaration : Declaration) :
    render (contextOf schema) schema.document declaration =
      render (contextOf reordered) reordered.document declaration := by
  obtain ⟨_, _, _, _, document⟩ := exists_document_eq_of_reorders reorders
  rw [render_congr schema.document fun name _ => agree_of_reorders reorders name.text,
    contextOf_of_reorders reorders, document]
  cases declaration <;> rfl

end Reordered

/-- In which order the documents of a tree declare makes no difference to the source of the tree and
to its recursion, as long as declarations of one kind and name keep their order. -/
theorem source_ignores_order {schema reordered : Schema}
    (reorders : schema.Alike Document.Reorders reordered) :
    (∀ withImport, source schema withImport = source reordered withImport) ∧
      schema.isRecursive = reordered.isRecursive := by
  refine ⟨?_, isRecursive_of_reorders reorders⟩
  intro withImport
  have blocks (declaration : Declaration) := render_of_reorders reorders declaration
  have lateBinding : (contextOf schema).lateBinding = (contextOf reordered).lateBinding :=
    isRecursive_of_reorders reorders
  unfold source
  simp only [blocks, lateBinding, emittedBy_of_reorders reorders]

section Shapes

/-- A table with fields that refer to other declarations. -/
def recordOf (name : String) (references : List String) : Record :=
  { name := ⟨name⟩
    fields := references.map fun reference =>
      ⟨⟨reference⟩, ⟨.reference ⟨reference⟩, false⟩, none, {}⟩
    metadata := {} }

/-- Tables of which one is declared twice, with an include that declares two enumerations. -/
def shapes : Schema :=
  { document :=
      { includes := ["colors"]
        tables := [recordOf "Shape" [], recordOf "Circle" ["Color"], recordOf "Shape" ["Circle"]] }
    children :=
      [⟨{ enums := [⟨⟨"Color"⟩, .int8, [⟨⟨"Red"⟩, none⟩], {}⟩, ⟨⟨"Axis"⟩, .int8, [], {}⟩] }, []⟩] }

/-- The same with another table in front, and with the included enumerations exchanged. -/
def shapesReordered : Schema :=
  { document :=
      { includes := ["colors"]
        tables := [recordOf "Circle" ["Color"], recordOf "Shape" [], recordOf "Shape" ["Circle"]] }
    children :=
      [⟨{ enums := [⟨⟨"Axis"⟩, .int8, [], {}⟩, ⟨⟨"Color"⟩, .int8, [⟨⟨"Red"⟩, none⟩], {}⟩] }, []⟩] }

/-- Neighbours with different names can be exchanged. -/
theorem filter_swap {α : Type} (name : α → Ident) {first second : α}
    (different : (name first).text ≠ (name second).text) (rest : List α) (known : String) :
    (first :: second :: rest).filter (fun content => (name content).text = known) =
      (second :: first :: rest).filter (fun content => (name content).text = known) := by
  by_cases same : (name first).text = known
  · have other : (name second).text ≠ known := fun equal => different (same.trans equal.symm)
    simp [same, other]
  · simp [List.filter_cons, same]

theorem source_ignores_order_shapes :
    shapes.Alike Document.Reorders shapesReordered ∧ shapes ≠ shapesReordered ∧
      (∀ withImport, source shapes withImport = source shapesReordered withImport) ∧
      shapes.isRecursive = shapesReordered.isRecursive := by
  have reorders : shapes.Alike Document.Reorders shapesReordered := by
    refine .mk ⟨rfl, ?_, ?_⟩ (.cons (.mk ⟨rfl, ?_, ?_⟩ .nil) .nil)
    · intro kind
      cases kind with
      | table => exact .swap ..
      | _ => exact .refl _
    · intro kind name
      cases kind with
      | table => exact filter_swap Record.name (by decide) _ name
      | _ => rfl
    · intro kind
      cases kind with
      | enumeration => exact .swap ..
      | _ => exact .refl _
    · intro kind name
      cases kind with
      | enumeration => exact filter_swap Enumeration.name (by decide) _ name
      | _ => rfl
  exact ⟨reorders, by decide, source_ignores_order reorders⟩

end Shapes

end Swift

end FlatSchema
