import FlatSchema.Scope.Cycle
import FlatSchema.Proofs.Scope.KindPriority
import FlatSchema.Proofs.Scope.Worklist
import Mathlib.Data.List.Forall2

/-!
What emission and the search for cycles depend on. Of a scope they read no more than what stands
under the names that occur in declarations they come to. So two scopes that agree on the names of all
declarations within reach of a root give the same emission from it, and the same cycles.
-/

namespace FlatSchema

open Declaration

/-- The declarations of a kind and a name in a document, in source order. -/
def Document.declaring (document : Document) (kind : Kind) (name : String) : List kind.Content :=
  (kind.listed document).filter fun content => (kind.name content).text = name

theorem Document.flatMap_declaring_eq {kind : Kind} {name : String}
    {documents documents' : List Document}
    (same : List.Forall₂ (fun document document' =>
      document.declaring kind name = document'.declaring kind name) documents documents') :
    documents.flatMap (·.declaring kind name) = documents'.flatMap (·.declaring kind name) := by
  induction same with
  | nil => rfl
  | cons head _ inductionHypothesis =>
    rw [List.flatMap_cons, List.flatMap_cons, head, inductionHypothesis]

theorem Declaration.Kind.last?_eq_getLast? (kind : Kind) (name : String)
    (documents : List Document) :
    kind.last? name documents = (documents.flatMap (·.declaring kind name)).getLast? := by
  rw [last?, List.findRev?_eq_find?_reverse, ← List.head?_filter, List.filter_reverse,
    List.head?_reverse, List.filter_flatMap]
  rfl

mutual

/-- Trees of one shape whose documents are related one by one. -/
inductive Schema.Alike (related : Document → Document → Prop) : Schema → Schema → Prop where
  | mk {document document' : Document} {children children' : List Schema} :
      related document document' → Schema.AllAlike related children children' →
      Schema.Alike related ⟨document, children⟩ ⟨document', children'⟩

inductive Schema.AllAlike (related : Document → Document → Prop) :
    List Schema → List Schema → Prop where
  | nil : Schema.AllAlike related [] []
  | cons {schema schema' : Schema} {schemas schemas' : List Schema} :
      Schema.Alike related schema schema' → Schema.AllAlike related schemas schemas' →
      Schema.AllAlike related (schema :: schemas) (schema' :: schemas')

end

mutual

theorem Schema.Alike.documents {related : Document → Document → Prop} :
    {schema schema' : Schema} → schema.Alike related schema' →
    List.Forall₂ related schema.documents schema'.documents
  | _, _, .mk head children => by
    rw [Schema.documents, Schema.documents]
    exact .cons head children.documents

theorem Schema.AllAlike.documents {related : Document → Document → Prop} :
    {schemas schemas' : List Schema} → Schema.AllAlike related schemas schemas' →
    List.Forall₂ related (schemas.flatMap Schema.documents) (schemas'.flatMap Schema.documents)
  | _, _, .nil => .nil
  | _, _, .cons head rest => by
    rw [List.flatMap_cons, List.flatMap_cons]
    exact List.rel_append head.documents rest.documents

end

/-- The names that occur in a declaration: those its fields refer to, or those of its cases. -/
def Declaration.mentions : Declaration → List Ident
  | .table declared => declared.references
  | .struct declared => declared.references
  | .enumeration _ => []
  | .union declared => declared.cases

namespace Scope

/-- Two scopes have the same declarations under a name. -/
def AgreeOn (first second : Scope) (name : String) : Prop :=
  ∀ kind : Kind, (kind.entries first)[name]? = (kind.entries second)[name]?

/-- Trees whose documents declare a name alike have scopes that agree on it. -/
theorem agreeOn_of_alike {related : Document → Document → Prop} {schema schema' : Schema}
    (alike : schema.Alike related schema') {name : String}
    (same : ∀ document document', related document document' → ∀ kind : Kind,
      document.declaring kind name = document'.declaring kind name) :
    schema.scope.AgreeOn schema'.scope name := by
  intro kind
  rw [Schema.scope, Schema.scope, entries_flatten_ofSchema, entries_flatten_ofSchema,
    kind.last?_eq_getLast?, kind.last?_eq_getLast?, Document.flatMap_declaring_eq
    (alike.documents.imp fun document document' pair => same document document' pair kind)]

/-- Two scopes agree on every name in the declarations that are within reach of a root. -/
def AgreeFrom (first second : Scope) (root : Declaration) : Prop :=
  ∀ declaration, Relation.ReflTransGen (Needs first) root declaration →
    ∀ name ∈ declaration.mentions, first.AgreeOn second name.text

variable {first second : Scope}

namespace AgreeOn

variable {name : String} (agree : first.AgreeOn second name)

include agree

theorem find?_eq (kind : Kind) : kind.find? first name = kind.find? second name := by
  rw [Kind.find?, Kind.find?, agree kind]

theorem resolve?_eq : first.resolve? name = second.resolve? name := by
  rw [resolve?_eq_findSome?, resolve?_eq_findSome?]
  exact congrArg (Kind.ranked.findSome? ·) (funext agree.find?_eq)

theorem mem_tables_iff : name ∈ first.tables ↔ name ∈ second.tables := by
  have entry : first.tables[name]? = second.tables[name]? := agree .table
  rw [Std.TreeMap.mem_iff_isSome_getElem?, Std.TreeMap.mem_iff_isSome_getElem?, entry]

end AgreeOn

/-- What a declaration references depends on the names in it alone. -/
theorem references_eq {declaration : Declaration}
    (agree : ∀ name ∈ declaration.mentions, first.AgreeOn second name.text) :
    declaration.references first = declaration.references second := by
  cases declaration with
  | table declared =>
    exact List.filterMap_congr fun name member => (agree name member).resolve?_eq
  | struct declared =>
    exact List.filterMap_congr fun name member => (agree name member).find?_eq .struct
  | enumeration declared => rfl
  | union declared =>
    exact List.filterMap_congr fun name member => (agree name member).find?_eq .table

section Emission

variable {root : Declaration} (agree : first.AgreeFrom second root)

include agree

theorem Worklist.Step.transfer {before after : Worklist} (sound : Sound first [root] before)
    (step : Step first before after) : Step second before after := by
  cases step with
  | drop known => exact .drop known
  | @emit emitted pending declaration fresh =>
    -- The scope is read for what the declaration references, and the declaration is within reach.
    obtain ⟨_, member, path⟩ := sound.reached declaration (by simp)
    rw [List.mem_singleton.mp member] at path
    rw [references_eq (agree declaration path)]
    exact .emit fresh

theorem Worklist.run_transfer {moment : Worklist}
    (run : Relation.ReflTransGen (Step first) ⟨[], [root]⟩ moment) :
    Relation.ReflTransGen (Step second) ⟨[], [root]⟩ moment := by
  induction run with
  | refl => exact .refl
  | tail earlier step inductionHypothesis =>
    exact inductionHypothesis.tail (step.transfer agree (sound_start.run earlier))

theorem emission_eq (firstDeclared : root ∈ first.declarations)
    (secondDeclared : root ∈ second.declarations) :
    first.emission [root] = second.emission [root] := by
  have run : Worklist.Emits first [root] (first.emission [root]) :=
    (emits_iff_eq_emission (by simpa using firstDeclared)).mpr rfl
  exact (emits_iff_eq_emission (by simpa using secondDeclared)).mp (Worklist.run_transfer agree run)

end Emission

section Cycle

variable {path safe pending : List String} {name : String}

theorem explore?_cons_of_table {scope : Scope} {record : Record} (fresh : name ∉ safe)
    (found : scope.tables[name]? = some record) (offPath : name ∉ path) :
    scope.explore? path safe (name :: pending) =
      (scope.explore? (name :: path) safe (record.references.map (·.text))).bind fun safe =>
        scope.explore? path (name :: safe) pending := by
  have declared : name ∈ scope.tables := by
    simp [Std.TreeMap.mem_iff_isSome_getElem?, found]
  have record_eq : scope.tables[name] = record :=
    Option.some.inj ((Std.TreeMap.getElem?_eq_some_getElem declared).symm.trans found)
  rw [explore?, if_neg fresh, dif_pos declared, dif_neg offPath, record_eq]
  cases scope.explore? (name :: path) safe (record.references.map (·.text)) <;> rfl

/-- Two scopes agree on a name, and if it is a table then one within reach of a root. -/
structure Covered (first second : Scope) (root : Declaration) (name : String) : Prop where
  agree : first.AgreeOn second name
  reached : ∀ table, first.tables[name]? = some table →
    Relation.ReflTransGen (Needs first) root (.table table)

variable {root : Declaration}

theorem Covered.references (agree : first.AgreeFrom second root)
    (covered : Covered first second root name) {record : Record}
    (found : first.tables[name]? = some record) :
    ∀ next ∈ record.references.map (·.text), Covered first second root next := by
  intro next member
  obtain ⟨reference, referred, rfl⟩ := List.mem_map.mp member
  have path := covered.reached record found
  refine ⟨agree _ path reference referred, ?_⟩
  intro table foundNext
  have resolved : first.resolve? reference.text = some (.table table) := by
    simp [resolve?, table?, foundNext]
  exact path.tail (List.mem_filterMap.mpr ⟨reference, referred, resolved⟩)

/-- The path and the names that have been left play no part: what is pending is covered, and so is
whatever it leads to. -/
theorem explore?_eq (agree : first.AgreeFrom second root)
    (covered : ∀ name ∈ pending, Covered first second root name) :
    first.explore? path safe pending = second.explore? path safe pending := by
  fun_induction explore? first path safe pending with
  | case1 => rw [explore?]
  | case2 path safe name pending known inductionHypothesis =>
    rw [explore?, if_pos known]
    exact inductionHypothesis (List.forall_mem_cons.mp covered).2
  | case3 path safe name pending fresh declared onPath =>
    have declaredToo := (List.forall_mem_cons.mp covered).1.agree.mem_tables_iff.mp declared
    rw [explore?, if_neg fresh, dif_pos declaredToo, dif_pos onPath]
  | case4 path safe name pending fresh declared offPath below inductionBelow =>
    obtain ⟨coveredName, coveredRest⟩ := List.forall_mem_cons.mp covered
    have found := Std.TreeMap.getElem?_eq_some_getElem declared
    have foundToo := (coveredName.agree .table).symm.trans found
    rw [explore?_cons_of_table fresh foundToo offPath,
      ← inductionBelow (coveredName.references agree found), below, Option.bind_none]
  | case5 path safe name pending fresh declared offPath safeBelow below inductionBelow
      inductionRest =>
    obtain ⟨coveredName, coveredRest⟩ := List.forall_mem_cons.mp covered
    have found := Std.TreeMap.getElem?_eq_some_getElem declared
    have foundToo := (coveredName.agree .table).symm.trans found
    rw [explore?_cons_of_table fresh foundToo offPath,
      ← inductionBelow (coveredName.references agree found), below, Option.bind_some]
    exact inductionRest coveredRest
  | case6 path safe name pending fresh missing inductionHypothesis =>
    obtain ⟨coveredName, coveredRest⟩ := List.forall_mem_cons.mp covered
    have missingToo := coveredName.agree.mem_tables_iff.not.mp missing
    rw [explore?, if_neg fresh, dif_neg missingToo]
    exact inductionHypothesis coveredRest

/-- Scopes that agree within reach of a root table find the same cycles from it. -/
theorem reachesCycle_eq {table : Record} (found : first.tables[name]? = some table)
    (agreeName : first.AgreeOn second name) (agree : first.AgreeFrom second (.table table)) :
    first.reachesCycle (some name) = second.reachesCycle (some name) := by
  have covered : Covered first second (.table table) name := by
    refine ⟨agreeName, ?_⟩
    intro other foundOther
    rw [Option.some.inj (foundOther.symm.trans found)]
  rw [reachesCycle, reachesCycle, explore?_eq agree (by simpa using covered)]

end Cycle

end Scope

end FlatSchema
