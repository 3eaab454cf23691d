import FlatSchema.Proofs.Grammar.Recognition
import FlatSchema.Proofs.Schema.Strict

/-!
What a resolver can do. A resolver may keep a state and may answer as it likes. It is asked for the
paths of the inclusions one after the other, up to the first directive that is repeated, and its
answers become the children; on nothing else does it have an influence.
-/

namespace FlatSchema

namespace Document

open Item

/-- Items that cannot be added have a first one that cannot, and no path behind it is reached. -/
theorem exists_first_of_addAll? {document : Document} {items : List Item}
    (unadded : document.addAll? items = none) :
    ∃ before item after middle, before ++ item :: after = items ∧
      document.addAll? before = some middle ∧ middle.add? item = none ∧
      document.reached items = before.filterMap path? := by
  induction items generalizing document with
  | nil => cases unadded
  | cons first items inductionHypothesis =>
    rw [addAll?_cons] at unadded
    cases added : document.add? first with
    | none =>
      have noPath : first.path? = none := by
        cases first with
        | inclusion path => cases added
        | _ => rfl
      refine ⟨[], first, items, document, rfl, rfl, added, ?_⟩
      rw [reached, added, noPath]
      rfl
    | some next =>
      rw [added, Option.bind_some] at unadded
      obtain ⟨before, item, after, middle, split, addedBefore, unaddedItem, paths⟩ :=
        inductionHypothesis unadded
      refine ⟨first :: before, item, after, middle, by rw [← split]; rfl, ?_, unaddedItem, ?_⟩
      · rw [addAll?_cons, added, Option.bind_some, addedBefore]
      · rw [reached, added, Option.elim_some, paths]
        cases first <;> rfl

/-- Items that repeat a directive have a first one that does, and no path behind it is reached. -/
theorem exists_repeated {items : List Item} (repeats : ¬ Once items) :
    ∃ before item after, before ++ item :: after = items ∧ Once before ∧
      ¬ Once (before ++ [item]) ∧ reached {} items = before.filterMap path? := by
  obtain ⟨before, item, after, middle, split, added, unadded, paths⟩ :=
    exists_first_of_addAll? (addAll?_empty_eq_none_iff.mpr repeats)
  refine ⟨before, item, after, split, (addAll?_empty_eq_some_iff.mp added).1, ?_, paths⟩
  rw [← addAll?_empty_eq_none_iff, addAll?_append, added, Option.bind_some, addAll?_cons, unadded,
    Option.bind_none]

end Document

namespace Schema

/-- A question to a resolver with its answer. -/
abbrev Call := String × Option Schema

/-- The same schema with the answers of some calls for children. -/
def answeredBy (calls : List Call) (schema : Schema) : Schema :=
  { schema with children := calls.filterMap (·.2) }

variable {State : Type}

/-- A resolver that notes its calls, the latest last. -/
def recording (resolve : String → StateM State (Option Schema)) (path : String) :
    StateM (State × List Call) (Option Schema) :=
  fun (state, calls) =>
    let (answer, after) := resolve path state
    (answer, after, calls ++ [(path, answer)])

theorem recording_apply (resolve : String → StateM State (Option Schema)) (path : String)
    (state : State) (calls : List Call) :
    recording resolve path (state, calls) =
      ((resolve path state).1, (resolve path state).2,
        calls ++ [(path, (resolve path state).1)]) := rfl

theorem mapM_cons_apply {α β : Type} (ask : α → StateM State β) (item : α) (items : List α)
    (state : State) :
    (item :: items).mapM ask state =
      ((ask item state).1 :: (items.mapM ask (ask item state).2).1,
        (items.mapM ask (ask item state).2).2) := by
  rw [List.mapM_cons]
  rfl

theorem length_mapM {α β : Type} (ask : α → StateM State β) (items : List α)
    (state : State) : (items.mapM ask state).1.length = items.length := by
  induction items generalizing state with
  | nil => rfl
  | cons item items inductionHypothesis =>
    rw [mapM_cons_apply, List.length_cons, inductionHypothesis, List.length_cons]

/-- Noting calls changes neither the answers nor the state, and every question is noted. -/
theorem mapM_recording (resolve : String → StateM State (Option Schema)) (paths : List String)
    (state : State) (calls : List Call) :
    paths.mapM (recording resolve) (state, calls) =
      ((paths.mapM resolve state).1, (paths.mapM resolve state).2,
        calls ++ paths.zip (paths.mapM resolve state).1) := by
  induction paths generalizing state calls with
  | nil =>
    rw [List.zip_nil_left, List.append_nil]
    rfl
  | cons path paths inductionHypothesis =>
    rw [mapM_cons_apply, mapM_cons_apply, recording_apply, inductionHypothesis, List.zip_cons_cons,
      List.append_assoc, List.singleton_append]

/-- The paths that reading a buffer asks for. -/
def asked (buffer : List UInt8) : List String :=
  Document.reached {} (Item.readAll buffer).1

/-- Up to the first directive that is repeated, every inclusion is asked for in order. -/
theorem asked_eq {buffer rest : List UInt8} {items : List Item}
    (recognised : Item.Recognised buffer items rest) :
    ((parse? buffer).isSome → asked buffer = items.filterMap Item.path?) ∧
      (parse? buffer = none → ∃ before item after, before ++ item :: after = items ∧
        Item.Once before ∧ ¬ Item.Once (before ++ [item]) ∧
        asked buffer = before.filterMap Item.path?) := by
  rw [asked, parse?_eq_map, Item.readAll_eq_iff.mpr recognised, Option.isSome_map,
    Option.map_eq_none_iff, Document.addAll?_empty_eq_none_iff]
  constructor
  · intro added
    obtain ⟨document, added⟩ := Option.isSome_iff_exists.mp added
    exact Document.reached_of_addAll? added
  · exact Document.exists_repeated

/-- A schema that is read has the paths that were asked for as its includes. -/
theorem asked_eq_includes {buffer : List UInt8} {schema : Schema} {stop : Nat}
    (parsed : parse? buffer = some (schema, stop)) : asked buffer = schema.document.includes := by
  rw [parse?_eq_map, Option.map_eq_some_iff] at parsed
  obtain ⟨document, added, same⟩ := parsed
  obtain ⟨rfl, -⟩ := Prod.mk.inj same
  exact Document.reached_eq_includes added

/-- The calls that reading a buffer makes. -/
def callsOf (resolve : String → StateM State (Option Schema)) (start : State)
    (buffer : List UInt8) : List Call :=
  (asked buffer).zip ((asked buffer).mapM resolve start).1

theorem map_fst_callsOf (resolve : String → StateM State (Option Schema)) (start : State)
    (buffer : List UInt8) : (callsOf resolve start buffer).map (·.1) = asked buffer := by
  apply List.map_fst_zip
  exact Nat.le_of_eq (length_mapM resolve (asked buffer) start).symm

theorem filterMap_snd_callsOf (resolve : String → StateM State (Option Schema)) (start : State)
    (buffer : List UInt8) :
    (callsOf resolve start buffer).filterMap (·.2) =
      ((asked buffer).mapM resolve start).1.reduceOption := by
  have answers : (callsOf resolve start buffer).map (·.2) =
      ((asked buffer).mapM resolve start).1 := by
    apply List.map_snd_zip
    exact Nat.le_of_eq (length_mapM resolve (asked buffer) start)
  rw [← answers, List.reduceOption, List.filterMap_map]
  rfl

/-- Reading with a resolver is reading without one, with the answers of the calls for children. -/
theorem parseWith?_apply (resolve : String → StateM State (Option Schema)) (start : State)
    (buffer : List UInt8) :
    parseWith? resolve buffer start =
      ((parse? buffer).map fun (schema, stop) =>
          (schema.answeredBy (callsOf resolve start buffer), stop),
        ((asked buffer).mapM resolve start).2) := by
  rw [parseWith?_eq_mapM, parse?_eq_map, Option.map_map]
  simp only [answeredBy, filterMap_snd_callsOf]
  rfl

theorem callsOf_recording (resolve : String → StateM State (Option Schema)) (start : State)
    (calls : List Call) (buffer : List UInt8) :
    callsOf (recording resolve) (start, calls) buffer = callsOf resolve start buffer := by
  rw [callsOf, mapM_recording, callsOf]

theorem parseWith?_recording_apply (resolve : String → StateM State (Option Schema))
    (start : State) (buffer : List UInt8) :
    parseWith? (recording resolve) buffer (start, []) =
      ((parseWith? resolve buffer start).1, (parseWith? resolve buffer start).2,
        callsOf resolve start buffer) := by
  rw [parseWith?_apply, parseWith?_apply, callsOf_recording, mapM_recording, List.nil_append,
    ← callsOf]

theorem compileWith_apply (resolve : String → StateM State (Option Schema)) (start : State)
    (text : String) :
    compileWith resolve text start =
      ((compile text).map (answeredBy (callsOf resolve start (utf8Bytes text))),
        ((asked (utf8Bytes text)).mapM resolve start).2) := by
  change (finish text (parseWith? resolve (utf8Bytes text) start).1,
    (parseWith? resolve (utf8Bytes text) start).2) = _
  rw [parseWith?_apply, compile, ← finish_map]

theorem compileWith_recording_apply (resolve : String → StateM State (Option Schema))
    (start : State) (text : String) :
    compileWith (recording resolve) text (start, []) =
      ((compileWith resolve text start).1, (compileWith resolve text start).2,
        callsOf resolve start (utf8Bytes text)) := by
  rw [compileWith_apply, compileWith_apply, callsOf_recording, mapM_recording, List.nil_append,
    ← callsOf]

/-- A resolver is asked for each inclusion in order, up to the first directive that is repeated, and
decides on nothing but the children, which are its answers. -/
theorem resolver_decides_children_only (resolve : String → StateM State (Option Schema))
    (start : State) :
    (∀ buffer : List UInt8, ∃ (calls : List Call) (last : State),
      (parseWith? (recording resolve) buffer).run (start, []) =
        ((parse? buffer).map fun (schema, stop) => (schema.answeredBy calls, stop),
          last, calls) ∧
      (parseWith? resolve buffer).run start =
        ((parse? buffer).map fun (schema, stop) => (schema.answeredBy calls, stop), last) ∧
      ∃ items rest, Item.Recognised buffer items rest ∧
        ((parse? buffer).isSome → calls.map (·.1) = items.filterMap Item.path?) ∧
        (parse? buffer = none → ∃ before item after, before ++ item :: after = items ∧
          Item.Once before ∧ ¬ Item.Once (before ++ [item]) ∧
          calls.map (·.1) = before.filterMap Item.path?)) ∧
    ∀ text : String, ∃ (calls : List Call) (last : State),
      (compileWith (recording resolve) text).run (start, []) =
        ((compile text).map (answeredBy calls), last, calls) ∧
      (compileWith resolve text).run start = ((compile text).map (answeredBy calls), last) ∧
      (∀ schema, compile text = .ok schema → calls.map (·.1) = schema.document.includes) ∧
      ∃ items rest, Item.Recognised (utf8Bytes text) items rest ∧
        ((parse? (utf8Bytes text)).isSome → calls.map (·.1) = items.filterMap Item.path?) ∧
        (parse? (utf8Bytes text) = none → ∃ before item after, before ++ item :: after = items ∧
          Item.Once before ∧ ¬ Item.Once (before ++ [item]) ∧
          calls.map (·.1) = before.filterMap Item.path?) := by
  constructor
  · intro buffer
    refine ⟨callsOf resolve start buffer, ((asked buffer).mapM resolve start).2, ?_, ?_, ?_⟩
    · rw [StateT.run, parseWith?_recording_apply, parseWith?_apply]
    · exact parseWith?_apply resolve start buffer
    · rw [map_fst_callsOf]
      exact ⟨_, _, Item.recognised_readAll buffer, asked_eq (Item.recognised_readAll buffer)⟩
  · intro text
    refine ⟨callsOf resolve start (utf8Bytes text), _, ?_, compileWith_apply resolve start text, ?_⟩
    · rw [StateT.run, compileWith_recording_apply, compileWith_apply]
    · rw [map_fst_callsOf]
      refine ⟨?_, _, _, Item.recognised_readAll _, asked_eq (Item.recognised_readAll _)⟩
      intro schema accepted
      obtain ⟨stop, parsed⟩ := exists_of_finish accepted
      exact asked_eq_includes parsed

end Schema

end FlatSchema
