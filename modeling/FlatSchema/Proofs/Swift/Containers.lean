import FlatSchema.Proofs.Schema.Container
import FlatSchema.Proofs.Swift.Lines

/-!
The containers of some schemas: one for each that their namespaces have. Where no part but the first
begins with an underscore, that is one for each of these namespaces, and namespaces count as one if
their parts are the same up to case.
-/

namespace FlatSchema

open Text

/-- A namespace that stands somewhere in some bytes. -/
def Namespace.Parsed (nameSpace : Namespace) : Prop :=
  ∃ buffer offset stop, Namespace.rule.readAt buffer offset = some (nameSpace, stop)

theorem Namespace.Parsed.wellFormed {nameSpace : Namespace} (parsed : nameSpace.Parsed) :
    nameSpace.WellFormed := by
  obtain ⟨buffer, offset, stop, read⟩ := parsed
  unfold Rule.readAt at read
  split at read
  · cases read
  · next matched =>
    cases read
    obtain ⟨word, written, -⟩ := Namespace.rule_reads.sound matched
    exact written.wellFormed

/-- No part but the first begins with an underscore. -/
def Namespace.Plain (nameSpace : Namespace) : Prop :=
  ∀ part ∈ nameSpace.parts.tail, isUnderscored part.text = false

instance (nameSpace : Namespace) : Decidable nameSpace.Plain :=
  inferInstanceAs (Decidable (∀ part ∈ nameSpace.parts.tail, _ = _))

/-- Whether two namespaces have the same parts up to case. -/
def Namespace.hasSameParts (first second : Namespace) : Bool :=
  (first.parts.map (·.text)).map lowered = (second.parts.map (·.text)).map lowered

theorem Namespace.container_eq_iff_of_plain {first second : Namespace}
    (wellFormed : first.WellFormed) (wellFormed' : second.WellFormed)
    (plain : first.Plain) (plain' : second.Plain) :
    first.container = second.container ↔ first.hasSameParts second = true := by
  rw [container_eq_iff wellFormed wellFormed', words_of_plain plain, words_of_plain plain',
    hasSameParts, decide_eq_true_eq]

/-- The namespaces of some schemas that have parts, in the order of the schemas. -/
def Schema.namespacesOf (schemas : List Schema) : List Namespace :=
  (schemas.filterMap (·.document.nameSpace)).filter (!·.parts.isEmpty)

theorem Schema.wellFormed_of_mem_namespacesOf {schemas : List Schema}
    (wellFormed : ∀ schema ∈ schemas, schema.WellFormed) :
    ∀ nameSpace ∈ Schema.namespacesOf schemas, nameSpace.WellFormed := by
  intro nameSpace member
  obtain ⟨schema, inside, declared⟩ := List.mem_filterMap.mp (List.mem_of_mem_filter member)
  exact (Schema.wellFormed_iff.mp (wellFormed schema inside)).1.nameSpace nameSpace declared

namespace Swift

/-- Images without repetition are the images of what is left where elements with one image count as
one. -/
theorem eraseDups_map {α β : Type} [BEq β] [LawfulBEq β] {image : α → β} {same : α → α → Bool}
    {items : List α}
    (image_eq_iff : ∀ first ∈ items, ∀ second ∈ items,
      image first = image second ↔ same first second = true) :
    (items.map image).eraseDups = (items.eraseDupsBy same).map image := by
  induction counted : items.length using Nat.strongRecOn generalizing items with
  | ind length inductionHypothesis =>
    cases items with
    | nil => rfl
    | cons item items =>
      have kept : items.filter ((fun other => !other == image item) ∘ image) =
          items.filter fun other => decide (same other item = false) := by
        apply List.filter_congr
        intro other member
        have iff := image_eq_iff other (List.mem_cons_of_mem _ member) item (List.mem_cons_self ..)
        by_cases equal : image other = image item
        · simp [equal, iff.mp equal]
        · have different : same other item = false := by
            rw [Bool.eq_false_iff]
            exact fun alike => equal (iff.mpr alike)
          simp [equal, different]
      have shorter : (items.filter fun other => decide (same other item = false)).length < length := by
        rw [← counted]
        exact Nat.lt_succ_of_le (List.length_filter_le _ _)
      rw [List.map_cons, List.eraseDups_cons, List.eraseDupsBy_cons, List.map_cons, List.filter_map,
        kept]
      congr 1
      refine inductionHypothesis _ shorter ?_ rfl
      intro first member second member'
      exact image_eq_iff first (List.mem_cons_of_mem _ (List.mem_of_mem_filter member)) second
        (List.mem_cons_of_mem _ (List.mem_of_mem_filter member'))

theorem filter_containers {schemas : List Schema} (wellFormed : ∀ schema ∈ schemas, schema.WellFormed) :
    (schemas.map (·.container)).filter (!·.isEmpty) =
      (Schema.namespacesOf schemas).map (·.container) := by
  induction schemas with
  | nil => rfl
  | cons schema schemas inductionHypothesis =>
    rw [List.forall_mem_cons] at wellFormed
    have further := inductionHypothesis wellFormed.2
    have own := (Schema.wellFormed_iff.mp wellFormed.1).1
    rw [List.map_cons]
    cases declared : schema.document.nameSpace with
    | none =>
      have skipped : Schema.namespacesOf (schema :: schemas) = Schema.namespacesOf schemas := by
        simp [Schema.namespacesOf, declared]
      rw [Schema.container_of_none declared, skipped, ← further]
      rfl
    | some nameSpace =>
      have iff := (own.nameSpace nameSpace declared).container_eq_empty_iff
      rw [Schema.container_of_some declared]
      by_cases none : nameSpace.parts = []
      · have skipped : Schema.namespacesOf (schema :: schemas) = Schema.namespacesOf schemas := by
          simp [Schema.namespacesOf, declared, none]
        rw [iff.mpr none, skipped, ← further]
        rfl
      · have taken : Schema.namespacesOf (schema :: schemas) =
            nameSpace :: Schema.namespacesOf schemas := by
          simp [Schema.namespacesOf, declared, none]
        have nonempty : nameSpace.container ≠ "" := fun empty => none (iff.mp empty)
        rw [taken, List.map_cons, ← further, List.filter_cons_of_pos (by simpa using nonempty)]

/-- There is one container for each that namespaces with parts have. -/
theorem containers_eq {schemas : List Schema} (wellFormed : ∀ schema ∈ schemas, schema.WellFormed) :
    containers schemas = ((Schema.namespacesOf schemas).map (·.container)).eraseDups := by
  rw [containers, filter_containers wellFormed]

/-- Where no part but the first begins with an underscore, that is one for each namespace that has
other parts than the earlier ones. -/
theorem containers_eq_of_plain {schemas : List Schema}
    (wellFormed : ∀ schema ∈ schemas, schema.WellFormed)
    (plain : ∀ nameSpace ∈ Schema.namespacesOf schemas, nameSpace.Plain) :
    containers schemas =
      ((Schema.namespacesOf schemas).eraseDupsBy Namespace.hasSameParts).map (·.container) := by
  rw [containers_eq wellFormed]
  apply eraseDups_map
  have declared := Schema.wellFormed_of_mem_namespacesOf wellFormed
  intro first member second member'
  exact Namespace.container_eq_iff_of_plain (declared first member) (declared second member')
    (plain first member) (plain second member')

end Swift

end FlatSchema
