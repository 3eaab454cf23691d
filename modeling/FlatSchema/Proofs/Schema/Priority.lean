import FlatSchema.Proofs.Schema.Resolution
import Mathlib.Data.List.Pairwise

/-!
The order in which the rules for items are tried. Each rule has a keyword of its own, so at most one
of them matches, and reading goes the same way whichever is tried first. Reading and adding items in
turns, with the resolver asked in between, comes to the same as reading all items and adding them
then.
-/

namespace FlatSchema

namespace Rule

variable {α : Type}

theorem isSome_readAt (rule : Rule α) (buffer : List UInt8) (offset : Nat) :
    (rule.readAt buffer offset).isSome = (rule (buffer.drop offset)).isSome := by
  unfold readAt
  split
  · next unmatched => rw [unmatched, Option.isSome_none, Option.isSome_none]
  · next matched => rw [matched, Option.isSome_some, Option.isSome_some]

/-- No two of the rules match the bytes. -/
def Exclusive (rules : List (Rule α)) (bytes : List UInt8) : Prop :=
  rules.Pairwise fun first second => ¬ ((first bytes).isSome ∧ (second bytes).isSome)

/-- Rules of which at most one matches can be tried in any order. -/
theorem firstOf_perm {order rules : List (Rule α)} (perm : order.Perm rules) {bytes : List UInt8}
    (exclusive : Exclusive rules bytes) : firstOf order bytes = firstOf rules bytes := by
  have symmetric : Std.Symm fun first second : Rule α =>
      ¬ ((first bytes).isSome ∧ (second bytes).isSome) :=
    ⟨fun _ _ apart both => apart both.symm⟩
  have alone {rule : Rule α} (member : rule ∈ rules) (matched : (rule bytes).isSome) :
      ∀ other ∈ order, (other bytes).isSome → other = rule := by
    intro other otherMember otherMatched
    by_contra different
    exact exclusive.forall (perm.mem_iff.mp otherMember) member different ⟨otherMatched, matched⟩
  cases found : firstOf rules bytes with
  | none =>
    apply firstOf_eq_none
    intro rule member
    cases matched : rule bytes with
    | none => rfl
    | some result =>
      have first := firstOf_of_match (perm.mem_iff.mp member) matched
        fun other otherMember => alone (perm.mem_iff.mp member) (by simp [matched]) other
          (perm.mem_iff.mpr otherMember)
      rw [found] at first
      cases first
  | some result =>
    obtain ⟨rule, member, matched⟩ := firstOf_eq_some found
    exact firstOf_of_match (perm.mem_iff.mpr member) matched (alone member (by simp [matched]))

end Rule

namespace Item

open Rule

theorem rules_exclusive (bytes : List UInt8) : Exclusive rules bytes := by
  have distinct : (headedRules.map Prod.fst).Nodup := by decide
  rw [Exclusive, rules_eq, List.pairwise_map]
  refine (List.pairwise_map.mp distinct).imp_of_mem ?_
  rintro first second member otherMember different ⟨matched, otherMatched⟩
  exact different (congrArg Prod.fst (headedRules_unique member otherMember matched otherMatched))

theorem readAll_of_match {bytes rest : List UInt8} {item : Item}
    (matched : rule bytes = some (item, rest)) :
    readAll bytes = (item :: (readAll rest).1, (readAll rest).2) :=
  collect_of_match rule_advances matched

end Item

namespace Schema

open Rule

variable {m : Type → Type} [Monad m]

/-- Reads items one by one, adding each and asking the resolver for it before the next is read.
There are not more items than the bound says. -/
def composeWithin (rule : Rule Item) (resolve : String → m (Option Schema)) :
    Nat → Schema → List UInt8 → m (Option (Schema × List UInt8))
  | 0, schema, bytes => return some (schema, bytes)
  | bound + 1, schema, bytes =>
    match rule bytes with
    | none => return some (schema, bytes)
    | some (item, rest) => do
      let child ← childOf resolve item
      match schema.document.add? item with
      | none => return none
      | some document =>
        composeWithin rule resolve bound { document, children := schema.children ++ child.toList }
          rest

/-- Reads a buffer item by item, each by the first of the rules that matches. The result is the
schema and where it ends. -/
def compose (rules : List (Rule Item)) (resolve : String → m (Option Schema))
    (buffer : List UInt8) : m (Option (Schema × Nat)) := do
  let result ← composeWithin (firstOf rules) resolve buffer.length
    { document := {}, children := [] } buffer
  return result.map fun (schema, rest) => (schema, buffer.length - rest.length)

variable [LawfulMonad m]

/-- Taking turns is reading all items first: what is read next does not hang on what has been
added. -/
theorem composeWithin_eq_addAll? (resolve : String → m (Option Schema)) (bound : Nat)
    (schema : Schema) (bytes : List UInt8) (enough : bytes.length ≤ bound) :
    composeWithin Item.rule resolve bound schema bytes = do
      let result ← addAll? resolve schema (Item.readAll bytes).1
      return result.map fun schema => (schema, (Item.readAll bytes).2) := by
  induction bound generalizing schema bytes with
  | zero =>
    obtain rfl := List.eq_nil_of_length_eq_zero (Nat.le_zero.mp enough)
    have unmatched : Item.rule [] = none := Item.rule_eq_none_of_last (.closed .nil)
    simp [composeWithin, Item.readAll_of_no_match unmatched, addAll?]
  | succ bound inductionHypothesis =>
    cases matched : Item.rule bytes with
    | none => simp [composeWithin, matched, Item.readAll_of_no_match matched, addAll?]
    | some result =>
      obtain ⟨item, rest⟩ := result
      have shorter := Item.rule_advances bytes item rest matched
      simp only [composeWithin, matched, Item.readAll_of_match matched, addAll?, bind_assoc]
      refine bind_congr fun child => ?_
      cases schema.document.add? item with
      | none => simp
      | some document => exact inductionHypothesis _ rest (by omega)

theorem compose_eq_parseWith? {order : List (Rule Item)} (perm : order.Perm Item.rules)
    (resolve : String → m (Option Schema)) (buffer : List UInt8) :
    compose order resolve buffer = parseWith? resolve buffer := by
  have same : firstOf order = Item.rule :=
    funext fun bytes => firstOf_perm perm (Item.rules_exclusive bytes)
  rw [compose, same, composeWithin_eq_addAll? resolve _ _ buffer (Nat.le_refl _), parseWith?]
  simp [Function.comp_def]

/-- At each place at most one of the rules for items matches. So rules in any order, tried one after
the other, give the same schema, the same end and the same calls of the resolver. -/
theorem rules_in_any_order :
    (∀ (buffer : List UInt8) (offset : Nat),
      Item.rules.Pairwise fun first second =>
        ¬ ((first.readAt buffer offset).isSome ∧ (second.readAt buffer offset).isSome)) ∧
    ∀ order : List (Rule Item), order.Perm Item.rules →
      (∀ (m : Type → Type) [Monad m] [LawfulMonad m] (resolve : String → m (Option Schema))
        (buffer : List UInt8), compose order resolve buffer = parseWith? resolve buffer) ∧
      ∀ (State : Type) (resolve : String → StateM State (Option Schema)) (start : State)
        (buffer : List UInt8),
        (compose order (recording resolve) buffer).run (start, []) =
          (parseWith? (recording resolve) buffer).run (start, []) := by
  refine ⟨?_, ?_⟩
  · intro buffer offset
    simp only [isSome_readAt]
    exact Item.rules_exclusive (buffer.drop offset)
  · intro order perm
    refine ⟨?_, ?_⟩
    · intro m _ _ resolve buffer
      exact compose_eq_parseWith? perm resolve buffer
    · intro State resolve start buffer
      rw [compose_eq_parseWith? perm]

section Reversed

/-- A resolver that counts its calls and finds nothing. -/
def countingResolver (_ : String) : StateM Nat (Option Schema) := do
  modify (· + 1)
  return none

/-- Items of several kinds with similar keywords, the last of them repeated. -/
def repeatingBuffer : List UInt8 :=
  utf8Bytes ("include \"a\"; file_extension \"x\"; include \"b\"; file_identifier \"id\"; " ++
    "file_extension \"y\"; include \"c\";")

/-- The last inclusion stands behind the repeated directive and is not asked for. -/
theorem rules_in_any_order_reversed :
    Item.rules.reverse.Perm Item.rules ∧
      (compose Item.rules.reverse (recording countingResolver) repeatingBuffer).run (0, []) =
        (none, 2, [("a", none), ("b", none)]) := by
  have perm : Item.rules.reverse.Perm Item.rules := List.reverse_perm Item.rules
  refine ⟨perm, ?_⟩
  rw [(rules_in_any_order.2 _ perm).2 Nat countingResolver 0 repeatingBuffer]
  rfl

end Reversed

end Schema

end FlatSchema
