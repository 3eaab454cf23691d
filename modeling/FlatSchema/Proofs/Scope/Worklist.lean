import FlatSchema.Scope.Traversal
import FlatSchema.Proofs.Scope.Keyed
import Mathlib.Logic.Relation

/-!
Emission as a worklist. A machine takes the first pending declaration; it drops the declaration if
its name was emitted before, and otherwise emits it and puts what it references in front of the
rest. The machine has one way to go on, it always comes to an end, and the declarations of a
depth-first visit are what it emits.
-/

namespace FlatSchema

/-- A declaration needs another one beside it. -/
def Declaration.Needs (scope : Scope) (declaration other : Declaration) : Prop :=
  other ∈ declaration.references scope

namespace Scope

/-- What has been emitted, in order, and what is pending. -/
structure Worklist where
  emitted : List Declaration
  pending : List Declaration

namespace Worklist

inductive Step (scope : Scope) : Worklist → Worklist → Prop where
  | drop {emitted pending : List Declaration} {declaration : Declaration} :
      declaration.name ∈ emitted.map (·.name) →
      Step scope ⟨emitted, declaration :: pending⟩ ⟨emitted, pending⟩
  | emit {emitted pending : List Declaration} {declaration : Declaration} :
      declaration.name ∉ emitted.map (·.name) →
      Step scope ⟨emitted, declaration :: pending⟩
        ⟨emitted ++ [declaration], declaration.references scope ++ pending⟩

/-- Some declarations are emitted from the given roots when nothing is pending any more. -/
def Emits (scope : Scope) (roots emitted : List Declaration) : Prop :=
  Relation.ReflTransGen (Step scope) ⟨[], roots⟩ ⟨emitted, []⟩

variable {scope : Scope}

theorem step_unique : Relator.RightUnique (Step scope) := by
  intro before first second firstStep secondStep
  cases firstStep <;> cases secondStep <;> first | rfl | contradiction

theorem not_step_of_done {emitted : List Declaration} {after : Worklist} :
    ¬ Step scope ⟨emitted, []⟩ after :=
  nofun

theorem Emits.unique {roots first second : List Declaration} (firstRun : Emits scope roots first)
    (secondRun : Emits scope roots second) : first = second := by
  rcases Relation.ReflTransGen.total_of_right_unique step_unique firstRun secondRun with run | run
  · rcases run.cases_head with same | ⟨_, step, -⟩
    · exact congrArg emitted same
    · exact absurd step not_step_of_done
  · rcases run.cases_head with same | ⟨_, step, -⟩
    · exact (congrArg emitted same).symm
    · exact absurd step not_step_of_done

/-- What holds at every moment of a run that started at some roots. -/
structure Sound (scope : Scope) (roots : List Declaration) (moment : Worklist) : Prop where
  distinct : (moment.emitted.map (·.name)).Nodup
  reached : ∀ declaration ∈ moment.emitted ++ moment.pending,
    ∃ root ∈ roots, Relation.ReflTransGen (Declaration.Needs scope) root declaration
  rooted : ∀ root ∈ roots, root.name ∈ (moment.emitted ++ moment.pending).map (·.name)
  closed : ∀ declaration ∈ moment.emitted, ∀ other, declaration.Needs scope other →
    other.name ∈ (moment.emitted ++ moment.pending).map (·.name)

variable {roots : List Declaration}

theorem sound_start : Sound scope roots ⟨[], roots⟩ where
  distinct := List.nodup_nil
  reached root member := ⟨root, member, .refl⟩
  rooted _ member := List.mem_map_of_mem member
  closed _ member := absurd member List.not_mem_nil

theorem Sound.step {before after : Worklist} (sound : Sound scope roots before)
    (step : Step scope before after) : Sound scope roots after := by
  obtain ⟨distinct, reached, rooted, closed⟩ := sound
  cases step with
  | @drop emitted pending declaration known =>
    -- The dropped name is among the emitted ones, so no name gets lost.
    have kept {name : String}
        (member : name ∈ (emitted ++ declaration :: pending).map (·.name)) :
        name ∈ (emitted ++ pending).map (·.name) := by
      simp only [List.map_append, List.map_cons, List.mem_append, List.mem_cons] at member ⊢
      rcases member with earlier | rfl | later
      · exact .inl earlier
      · exact .inl known
      · exact .inr later
    refine ⟨distinct, ?_, ?_, ?_⟩
    · intro other member
      rcases List.mem_append.mp member with earlier | later
      · exact reached other (by simp [earlier])
      · exact reached other (by simp [later])
    · intro root member
      exact kept (rooted root member)
    · intro other member needed need
      exact kept (closed other member needed need)
  | @emit emitted pending declaration fresh =>
    have kept {name : String}
        (member : name ∈ (emitted ++ declaration :: pending).map (·.name)) :
        name ∈ (emitted ++ [declaration] ++ (declaration.references scope ++ pending)).map
          (·.name) := by
      simp only [List.map_append, List.map_cons, List.mem_append, List.mem_cons] at member ⊢
      grind
    refine ⟨?_, ?_, ?_, ?_⟩
    · simp only [List.map_append, List.map_cons, List.map_nil]
      exact (List.nodup_cons.mpr ⟨fresh, distinct⟩).perm (List.perm_append_singleton ..).symm
    · intro other member
      have source := reached declaration (by simp)
      simp only [List.mem_append, List.mem_cons, List.not_mem_nil, or_false] at member
      rcases member with (earlier | rfl) | needed | later
      · exact reached other (by simp [earlier])
      · exact source
      · obtain ⟨root, rootMember, path⟩ := source
        exact ⟨root, rootMember, path.tail needed⟩
      · exact reached other (by simp [later])
    · intro root member
      exact kept (rooted root member)
    · intro other member needed need
      rcases List.mem_append.mp member with earlier | here
      · exact kept (closed other earlier needed need)
      · rw [List.mem_singleton.mp here] at need
        exact List.mem_map_of_mem (by simp [show needed ∈ declaration.references scope from need])

theorem Sound.run {before after : Worklist} (sound : Sound scope roots before)
    (run : Relation.ReflTransGen (Step scope) before after) : Sound scope roots after := by
  induction run with
  | refl => exact sound
  | tail _ step inductionHypothesis => exact inductionHypothesis.step step

/-- What has been emitted stays in front. -/
theorem emitted_kept {before after : Worklist}
    (run : Relation.ReflTransGen (Step scope) before after) :
    before.emitted <+: after.emitted := by
  induction run with
  | refl => exact List.prefix_rfl
  | tail _ step inductionHypothesis =>
    refine inductionHypothesis.trans ?_
    cases step with
    | drop => exact List.prefix_rfl
    | emit => exact List.prefix_append _ _

theorem Emits.sound {emitted : List Declaration} (run : Emits scope roots emitted) :
    Sound scope roots ⟨emitted, []⟩ :=
  sound_start.run run

end Worklist

theorem mem_declarations_of_needs {scope : Scope} {declaration other : Declaration}
    (needed : declaration.Needs scope other) : other ∈ scope.declarations := by
  cases declaration with
  | table record =>
    obtain ⟨name, -, found⟩ := List.mem_filterMap.mp needed
    exact mem_declarations_of_resolve? found
  | struct record =>
    obtain ⟨name, -, found⟩ := List.mem_filterMap.mp needed
    exact mem_declarations_iff.mpr ⟨name.text, .inr (.inl found)⟩
  | enumeration enumeration => cases needed
  | union union =>
    obtain ⟨name, -, found⟩ := List.mem_filterMap.mp needed
    exact mem_declarations_iff.mpr ⟨name.text, .inl found⟩

/-- Of what a struct refers to it needs only structs. -/
theorem exists_struct_of_needs {scope : Scope} {holder : Record} {other : Declaration}
    (needed : Declaration.Needs scope (.struct holder) other) :
    ∃ struct, other = .struct struct := by
  obtain ⟨name, -, found⟩ := List.mem_filterMap.mp needed
  obtain ⟨struct, -, rfl⟩ := Option.map_eq_some_iff.mp found
  exact ⟨struct, rfl⟩

/-- Of its cases a union needs only tables. -/
theorem exists_table_of_needs {scope : Scope} {holder : TaggedUnion} {other : Declaration}
    (needed : Declaration.Needs scope (.union holder) other) : ∃ table, other = .table table := by
  obtain ⟨name, -, found⟩ := List.mem_filterMap.mp needed
  obtain ⟨table, -, rfl⟩ := Option.map_eq_some_iff.mp found
  exact ⟨table, rfl⟩

/-- A visit emits what the machine emits until it has worked off the pending declarations. -/
theorem visit_run (scope : Scope) (emitted pending rest : List Declaration)
    (declared : ∀ declaration ∈ pending, declaration ∈ scope.declarations) :
    Relation.ReflTransGen (Worklist.Step scope) ⟨emitted.reverse, pending ++ rest⟩
      ⟨(scope.visit emitted pending).val.reverse, rest⟩ := by
  -- A visit recurses twice where the machine goes on in one list, so the rest has to vary.
  fun_induction visit scope emitted pending generalizing rest with
  | case1 => exact .refl
  | case2 emitted declaration pending fresh known below extension visited result further visitedRest
      inductionBelow inductionRest =>
    have emit : Worklist.Step scope ⟨emitted.reverse, declaration :: (pending ++ rest)⟩
        ⟨(declaration :: emitted).reverse, declaration.references scope ++ (pending ++ rest)⟩ := by
      rw [List.reverse_cons]
      exact .emit (by simpa using fresh)
    have runBelow := inductionBelow (pending ++ rest) fun _ => mem_declarations_of_needs
    have runRest := inductionRest rest fun other member =>
      declared other (List.mem_cons_of_mem _ member)
    rw [visited] at runBelow
    rw [visitedRest] at runRest
    exact .head emit (runBelow.trans runRest)
  | case3 emitted declaration pending fresh unknown inductionHypothesis =>
    have known : declaration.name ∈ scope.names :=
      List.mem_map_of_mem (declared declaration List.mem_cons_self)
    exact absurd known unknown
  | case4 emitted declaration pending known inductionHypothesis =>
    have drop : Worklist.Step scope ⟨emitted.reverse, declaration :: (pending ++ rest)⟩
        ⟨emitted.reverse, pending ++ rest⟩ :=
      .drop (by simpa using known)
    exact .head drop (inductionHypothesis rest fun other member =>
      declared other (List.mem_cons_of_mem _ member))

/-- From declarations of the scope, the machine emits what emission gives and nothing else. -/
theorem emits_iff_eq_emission {scope : Scope} {roots emitted : List Declaration}
    (declared : ∀ root ∈ roots, root ∈ scope.declarations) :
    Worklist.Emits scope roots emitted ↔ emitted = scope.emission roots := by
  have run : Worklist.Emits scope roots (scope.emission roots) := by
    simpa [Worklist.Emits, emission] using visit_run scope [] roots [] declared
  constructor
  · intro other
    exact other.unique run
  · rintro rfl
    exact run

/-- A single root is what is emitted first. -/
theorem exists_emission_eq_cons {scope : Scope} {root : Declaration}
    (declared : root ∈ scope.declarations) : ∃ others, scope.emission [root] = root :: others := by
  have run : Worklist.Emits scope [root] (scope.emission [root]) :=
    (emits_iff_eq_emission (by simpa using declared)).mpr rfl
  rcases run.cases_head with same | ⟨_, step, rest⟩
  · cases congrArg Worklist.pending same
  · cases step with
    | drop known => cases known
    | emit fresh =>
      obtain ⟨others, split⟩ := Worklist.emitted_kept rest
      exact ⟨others, split.symm⟩

end Scope

end FlatSchema
