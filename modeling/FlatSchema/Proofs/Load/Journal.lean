import FlatSchema.Load.Resolver
import Mathlib.Logic.Relation

/-!
Loading as it can be watched. The loader runs in every state that keeps a resolver: in the resolver
itself, and in a journal that notes each resolver it is given. An action answers with a value if,
from every state, it gives that value, puts the resolver back as it was, and keeps the files being
read distinct at every moment on the way.
-/

namespace FlatSchema.Resolver

/-- States in which a resolver is kept. -/
class KeptIn (State : Type) where
  see : State → Resolver
  put : Resolver → State → State
  see_put : ∀ resolver state, see (put resolver state) = resolver

open KeptIn

instance (priority := low) {State : Type} [KeptIn State] :
    MonadStateOf Resolver (StateM State) where
  get := fun state => (see state, state)
  set resolver := fun state => ((), put resolver state)
  modifyGet change := fun state =>
    ((change (see state)).1, put (change (see state)).2 state)

instance : KeptIn Resolver where
  see resolver := resolver
  put resolver _ := resolver
  see_put _ _ := rfl

/-- A resolver with every resolver that has been in its place, the latest first. -/
structure Journal where
  current : Resolver
  moments : List Resolver

def Journal.start (resolver : Resolver) : Journal :=
  ⟨resolver, [resolver]⟩

instance : KeptIn Journal where
  see := Journal.current
  put resolver journal := ⟨resolver, resolver :: journal.moments⟩
  see_put _ _ := rfl

/-- A resolver is put in place that reads no file twice at once. -/
def Moves (State : Type) [KeptIn State] (before after : State) : Prop :=
  ∃ resolver : Resolver, resolver.loading.Nodup ∧ after = put resolver before

/-- Whenever it starts with a resolver, an action gives a value and leaves the resolver as it was. -/
def Answers {State α : Type} [KeptIn State] (action : StateM State α) (resolver : Resolver)
    (value : α) : Prop :=
  ∀ state : State, see state = resolver → ∃ after, action state = (value, after) ∧
    see after = resolver ∧ Relation.ReflTransGen (Moves State) state after

namespace Answers

variable {State α β : Type} [KeptIn State] {resolver : Resolver}

theorem pure (value : α) : Answers (Pure.pure value : StateM State α) resolver value :=
  fun state seen => ⟨state, rfl, seen, .refl⟩

theorem bind {action : StateM State α} {next : α → StateM State β} {value : α} {result : β}
    (first : Answers action resolver value) (second : Answers (next value) resolver result) :
    Answers (action >>= next) resolver result := by
  intro state seen
  obtain ⟨middle, ran, seenMiddle, moves⟩ := first state seen
  obtain ⟨after, ranNext, seenAfter, furtherMoves⟩ := second middle seenMiddle
  refine ⟨after, ?_, seenAfter, moves.trans furtherMoves⟩
  change next (action state).1 (action state).2 = _
  rw [ran, ranNext]

theorem bind_pure {action : StateM State α} {value : α} {function : α → β} {result : β}
    (answers : Answers action resolver value) (same : function value = result) :
    Answers (action >>= fun value => Pure.pure (function value)) resolver result := by
  rw [← same]
  exact answers.bind (pure _)

theorem get_bind {next : Resolver → StateM State β} {result : β}
    (answers : Answers (next resolver) resolver result) :
    Answers (getThe Resolver >>= next) resolver result := by
  intro state seen
  change ∃ after, next (see state) state = _ ∧ _
  rw [seen]
  exact answers state seen

theorem mapM {action : α → StateM State β} {answer : α → β}
    (answers : ∀ item, Answers (action item) resolver (answer item)) (items : List α) :
    Answers (items.mapM action) resolver (items.map answer) := by
  induction items with
  | nil => exact pure []
  | cons item items inductionHypothesis =>
    rw [List.mapM_cons]
    exact (answers item).bind (inductionHypothesis.bind (pure _))

/-- While a file is read, the action runs with the file on top of those being read. -/
theorem whileLoading {file : Location} {action : StateM State α} {value : α}
    (distinct : (file :: resolver.loading).Nodup)
    (answers : Answers action { resolver with loading := file :: resolver.loading } value) :
    Answers (whileLoading file action) resolver value := by
  intro state seen
  let pushed : State := put { resolver with loading := file :: resolver.loading } state
  obtain ⟨middle, ran, seenMiddle, moves⟩ := answers pushed (see_put _ _)
  refine ⟨put resolver middle, ?_, see_put _ _, ?_⟩
  · change ((action (put { see state with loading := file :: (see state).loading } state)).1,
      put _ (action (put { see state with loading := file :: (see state).loading } state)).2) = _
    rw [seen, ran, seenMiddle]
    rfl
  · have push : Moves State state pushed := ⟨_, distinct, rfl⟩
    have pop : Moves State middle (put resolver middle) := ⟨_, distinct.of_cons, rfl⟩
    exact (moves.head push).tail pop

theorem run {action : StateM Resolver α} {value : α} (answers : Answers action resolver value) :
    action resolver = (value, resolver) := by
  obtain ⟨after, ran, seen, -⟩ := answers resolver rfl
  rw [ran, ← seen]
  rfl

end Answers

theorem Journal.nodup_of_moves {before after : Journal}
    (moves : Relation.ReflTransGen (Moves Journal) before after)
    (distinct : ∀ moment ∈ before.moments, moment.loading.Nodup) :
    ∀ moment ∈ after.moments, moment.loading.Nodup := by
  induction moves with
  | refl => exact distinct
  | tail _ move inductionHypothesis =>
    obtain ⟨resolver, nodup, rfl⟩ := move
    exact List.forall_mem_cons.mpr ⟨nodup, inductionHypothesis⟩

/-- A watched run gives the value of the run, and no moment of it reads a file twice at once. -/
theorem Answers.watch {α : Type} {action : StateM Journal α} {resolver : Resolver} {value : α}
    (answers : Answers action resolver value) (distinct : resolver.loading.Nodup) :
    (action (Journal.start resolver)).1 = value ∧
      ∀ moment ∈ (action (Journal.start resolver)).2.moments, moment.loading.Nodup := by
  obtain ⟨after, ran, -, moves⟩ := answers (Journal.start resolver) rfl
  rw [ran]
  refine ⟨rfl, Journal.nodup_of_moves moves ?_⟩
  intro moment member
  rwa [List.mem_singleton.mp member]

end FlatSchema.Resolver
