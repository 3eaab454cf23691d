import FlatSchema.Proofs.Cursor.Checked
import FlatSchema.Proofs.Grammar.Rounds
import Mathlib.Data.List.Forall2

/-!
Cursors: reading by positions in a buffer instead of by the bytes that are left.

A cursor follows a rule if it always has an outcome, never a fault, and stands in the end where the
rule leaves off. The laws of sequence, choice and repetition carry this from tokens to whole files.
-/

namespace FlatSchema

/-- Reads from a position on and moves it, or matches nothing. -/
abbrev Cursor (α : Type) := ReaderT (List UInt8) (StateT UInt64 (OptionT Checked)) α

namespace Cursor

variable {α β : Type}

/-- The outcome of a cursor: none if one of its loops is cut off, and else a fault or an answer,
which is none where nothing matches. -/
def run (cursor : Cursor α) (buffer : List UInt8) (position : UInt64) :
    Checked (Option (α × UInt64)) :=
  cursor buffer position

/-- Goes to a position. -/
def moveTo (position : UInt64) : Cursor Unit :=
  set position

def cutOff : Cursor α :=
  liftM (Checked.cutOff : Checked α)

/-- Gives a loop one round more than there are bytes. -/
def bounded (loop : Nat → Cursor α) : Cursor α := do
  loop ((← read).length + 1)

def manyWithin (item : Cursor α) : Nat → Cursor (List α)
  | 0 => cutOff
  | rounds + 1 => do
    match ← optional item with
    | none => return []
    | some value => return value :: (← manyWithin item rounds)

/-- Repeats a cursor as often as it matches. -/
def many (item : Cursor α) : Cursor (List α) :=
  bounded (manyWithin item)

def listOfWithin (item : Cursor α) (separator : Cursor Unit) : Nat → Cursor (List α)
  | 0 => cutOff
  | rounds + 1 => do
    match ← optional item with
    | none => return []
    | some value =>
      match ← optional separator with
      | none => return [value]
      | some () => return value :: (← listOfWithin item separator rounds)

/-- Items with a separator between them, and perhaps one after the last; there may be none. -/
def listOf (item : Cursor α) (separator : Cursor Unit) : Cursor (List α) :=
  bounded (listOfWithin item separator)

def listOf1Within (item : Cursor α) (separator : Cursor Unit) : Nat → Cursor (List α)
  | 0 => cutOff
  | rounds + 1 => do
    let value ← item
    match ← optional separator with
    | none => return [value]
    | some () => return value :: (← listOf1Within item separator rounds)

/-- One item or more with a separator between them. After a separator there has to be an item. -/
def listOf1 (item : Cursor α) (separator : Cursor Unit) : Cursor (List α) :=
  bounded (listOf1Within item separator)

/-- The first of several cursors that matches. -/
def firstOf : List (Cursor α) → Cursor α
  | [] => failure
  | cursor :: cursors => cursor <|> firstOf cursors

section Outcomes

variable {cursor : Cursor α} {next : α → Cursor β} {buffer : List UInt8}
  {position stop : UInt64} {value : α}

theorem run_pure (value : α) (buffer : List UInt8) (position : UInt64) :
    (pure value : Cursor α).run buffer position = some (.ok (some (value, position))) := rfl

theorem run_failure (buffer : List UInt8) (position : UInt64) :
    (failure : Cursor α).run buffer position = some (.ok none) := rfl

theorem run_bind_of_match
    (matched : cursor.run buffer position = some (.ok (some (value, stop)))) :
    (cursor >>= next).run buffer position = (next value).run buffer stop := by
  change (OptionT.bind (cursor buffer position) fun result => next result.1 buffer result.2) = _
  exact Checked.bind_of_done matched

theorem run_bind_of_no_match (unmatched : cursor.run buffer position = some (.ok none)) :
    (cursor >>= next).run buffer position = some (.ok none) := by
  change (OptionT.bind (cursor buffer position) fun result => next result.1 buffer result.2) = _
  exact Checked.bind_of_done unmatched

theorem run_orElse_of_match {other : Cursor α}
    (matched : cursor.run buffer position = some (.ok (some (value, stop)))) :
    (cursor <|> other).run buffer position = some (.ok (some (value, stop))) := by
  change (OptionT.orElse (cursor buffer position) fun _ => other buffer position) = _
  exact Checked.bind_of_done matched

theorem run_orElse_of_no_match {other : Cursor α}
    (unmatched : cursor.run buffer position = some (.ok none)) :
    (cursor <|> other).run buffer position = other.run buffer position := by
  change (OptionT.orElse (cursor buffer position) fun _ => other buffer position) = _
  exact Checked.bind_of_done unmatched

/-- A checked computation in front of a cursor does not move it. -/
theorem run_bind_of_done {computation : Checked α} (done : computation = pure value) :
    ((liftM computation : Cursor α) >>= next).run buffer position =
      (next value).run buffer position := by
  subst done
  rfl

theorem run_read_bind (next : List UInt8 → Cursor β) :
    ((read : Cursor (List UInt8)) >>= next).run buffer position =
      (next buffer).run buffer position := rfl

theorem run_get_bind (next : UInt64 → Cursor β) :
    ((get : Cursor UInt64) >>= next).run buffer position =
      (next position).run buffer position := rfl

theorem run_moveTo (stop position : UInt64) :
    (moveTo stop).run buffer position = some (.ok (some ((), stop))) := rfl

end Outcomes

theorem run_map_of_no_match {function : α → β} {cursor : Cursor α} {buffer : List UInt8}
    {position : UInt64} (unmatched : cursor.run buffer position = some (.ok none)) :
    (function <$> cursor).run buffer position = some (.ok none) := by
  rw [map_eq_pure_bind, run_bind_of_no_match unmatched]

theorem run_optional_of_no_match {cursor : Cursor α} {buffer : List UInt8} {position : UInt64}
    (unmatched : cursor.run buffer position = some (.ok none)) :
    (optional cursor).run buffer position = some (.ok (some (none, position))) := by
  rw [optional, run_orElse_of_no_match (run_map_of_no_match unmatched), run_pure]

/-- Where a cursor that began at a position may stand with certain bytes ahead of it: inside of the
buffer, or still where it began. -/
structure Stands (buffer : List UInt8) (start position : UInt64) (rest : List UInt8) : Prop where
  ahead : buffer.drop position.toNat = rest
  inside : position.toNat ≤ buffer.length ∨ position = start

theorem Stands.trans {buffer middleRest rest : List UInt8} {start middle position : UInt64}
    (first : Stands buffer start middle middleRest) (second : Stands buffer middle position rest) :
    Stands buffer start position rest where
  ahead := second.ahead
  inside := by
    rcases second.inside with inside | rfl
    · exact .inl inside
    · exact first.inside

/-- A cursor that has read a byte began inside of the buffer, and still is there. -/
theorem Stands.le_length {buffer rest : List UInt8} {start position : UInt64}
    (stands : Stands buffer start position rest)
    (shorter : rest.length < (buffer.drop start.toNat).length) :
    start.toNat < buffer.length ∧ position.toNat ≤ buffer.length := by
  rw [List.length_drop] at shorter
  rcases stands.inside with inside | rfl
  · exact ⟨by omega, inside⟩
  · exact ⟨by omega, by omega⟩

/-- From a position on the cursor has the answer of the rule, and no fault. -/
def FollowsAt (cursor : Cursor α) (rule : Rule α) (buffer : List UInt8) (position : UInt64) :
    Prop :=
  match rule (buffer.drop position.toNat) with
  | none => cursor.run buffer position = some (.ok none)
  | some (value, rest) =>
    ∃ stop, cursor.run buffer position = some (.ok (some (value, stop))) ∧
      Stands buffer position stop rest

/-- The cursor has the answer of the rule in every short buffer and from every position on, also
behind the end. -/
def Follows (cursor : Cursor α) (rule : Rule α) : Prop :=
  ∀ ⦃buffer⦄, Short buffer → ∀ position, FollowsAt cursor rule buffer position

namespace FollowsAt

variable {cursor : Cursor α} {rule : Rule α} {buffer rest : List UInt8} {position : UInt64}
  {value : α}

theorem of_unmatched (unmatched : rule (buffer.drop position.toNat) = none)
    (ran : cursor.run buffer position = some (.ok none)) :
    FollowsAt cursor rule buffer position := by
  rw [FollowsAt, unmatched]
  exact ran

theorem of_matched {stop : UInt64}
    (matched : rule (buffer.drop position.toNat) = some (value, rest))
    (ran : cursor.run buffer position = some (.ok (some (value, stop))))
    (stands : Stands buffer position stop rest) : FollowsAt cursor rule buffer position := by
  rw [FollowsAt, matched]
  exact ⟨stop, ran, stands⟩

theorem unmatched (follows : FollowsAt cursor rule buffer position)
    (unmatched : rule (buffer.drop position.toNat) = none) :
    cursor.run buffer position = some (.ok none) := by
  rwa [FollowsAt, unmatched] at follows

theorem matched (follows : FollowsAt cursor rule buffer position)
    (matched : rule (buffer.drop position.toNat) = some (value, rest)) :
    ∃ stop, cursor.run buffer position = some (.ok (some (value, stop))) ∧
      Stands buffer position stop rest := by
  rwa [FollowsAt, matched] at follows

theorem pure (value : α) : FollowsAt (pure value) (pure value) buffer position :=
  of_matched (Rule.pure_apply value _) (run_pure value buffer position) ⟨rfl, .inr rfl⟩

theorem failure : FollowsAt (failure : Cursor α) failure buffer position :=
  of_unmatched rfl (run_failure buffer position)

theorem bind_of_match {next : α → Cursor β} {nextRule : α → Rule β} {middle : UInt64}
    (found : rule (buffer.drop position.toNat) = some (value, rest))
    (ran : cursor.run buffer position = some (.ok (some (value, middle))))
    (stands : Stands buffer position middle rest)
    (second : FollowsAt (next value) (nextRule value) buffer middle) :
    FollowsAt (cursor >>= next) (rule >>= nextRule) buffer position := by
  obtain rfl := stands.ahead
  cases further : nextRule value (buffer.drop middle.toNat) with
  | none =>
    refine of_unmatched ((Rule.bind_of_match found).trans further) ?_
    rw [run_bind_of_match ran, second.unmatched further]
  | some result =>
    obtain ⟨stop, continued, stopStands⟩ := second.matched further
    refine of_matched ((Rule.bind_of_match found).trans further) ?_ (stands.trans stopStands)
    rw [run_bind_of_match ran, continued]

theorem bind {next : α → Cursor β} {nextRule : α → Rule β}
    (first : FollowsAt cursor rule buffer position)
    (second : ∀ value middle, Stands buffer position middle (buffer.drop middle.toNat) →
      rule (buffer.drop position.toNat) = some (value, buffer.drop middle.toNat) →
        FollowsAt (next value) (nextRule value) buffer middle) :
    FollowsAt (cursor >>= next) (rule >>= nextRule) buffer position := by
  cases found : rule (buffer.drop position.toNat) with
  | none =>
    exact of_unmatched (Rule.bind_of_no_match found) (run_bind_of_no_match (first.unmatched found))
  | some result =>
    obtain ⟨value, rest⟩ := result
    obtain ⟨middle, ran, stands⟩ := first.matched found
    obtain rfl := stands.ahead
    exact bind_of_match found ran stands (second value middle stands found)

theorem map (follows : FollowsAt cursor rule buffer position) (function : α → β) :
    FollowsAt (function <$> cursor) (function <$> rule) buffer position := by
  rw [map_eq_pure_bind, map_eq_pure_bind]
  exact follows.bind fun value _ _ _ => .pure (function value)

theorem orElse {other : Cursor α} {otherRule : Rule α}
    (first : FollowsAt cursor rule buffer position)
    (second : FollowsAt other otherRule buffer position) :
    FollowsAt (cursor <|> other) (rule <|> otherRule) buffer position := by
  cases found : rule (buffer.drop position.toNat) with
  | none =>
    rw [FollowsAt, Rule.orElse_apply, found, Option.none_or,
      run_orElse_of_no_match (first.unmatched found)]
    exact second
  | some result =>
    obtain ⟨stop, ran, stands⟩ := first.matched found
    refine of_matched ?_ (run_orElse_of_match ran) stands
    rw [Rule.orElse_apply, found, Option.some_or]

theorem optional (follows : FollowsAt cursor rule buffer position) :
    FollowsAt (optional cursor) (optional rule) buffer position :=
  (follows.map some).orElse (.pure none)

end FollowsAt

namespace Follows

variable {cursor : Cursor α} {rule : Rule α}

theorem pure (value : α) : Follows (pure value) (pure value) :=
  fun _ _ _ => .pure value

theorem failure : Follows (failure : Cursor α) failure :=
  fun _ _ _ => .failure

theorem bind {next : α → Cursor β} {nextRule : α → Rule β} (first : Follows cursor rule)
    (second : ∀ value, Follows (next value) (nextRule value)) :
    Follows (cursor >>= next) (rule >>= nextRule) :=
  fun _ short position => (first short position).bind fun value middle _ _ =>
    second value short middle

theorem map (follows : Follows cursor rule) (function : α → β) :
    Follows (function <$> cursor) (function <$> rule) :=
  fun _ short position => (follows short position).map function

theorem orElse {other : Cursor α} {otherRule : Rule α} (first : Follows cursor rule)
    (second : Follows other otherRule) : Follows (cursor <|> other) (rule <|> otherRule) :=
  fun _ short position => (first short position).orElse (second short position)

theorem optional (follows : Follows cursor rule) :
    Follows (optional cursor) (optional rule) :=
  fun _ short position => (follows short position).optional

theorem firstOf {cursors : List (Cursor α)} {rules : List (Rule α)}
    (follows : List.Forall₂ Follows cursors rules) :
    Follows (firstOf cursors) (Rule.firstOf rules) := by
  induction follows with
  | nil => exact .failure
  | cons first _ inductionHypothesis => exact first.orElse inductionHypothesis

/-- A loop follows a rule if each round does, given that the rounds with fewer bytes ahead do: there
are rounds enough, as each takes a byte. -/
theorem loop {loop : Nat → Cursor α} (round : ∀ {buffer}, Short buffer → ∀ rounds position,
      (∀ later : UInt64,
        (buffer.drop later.toNat).length < (buffer.drop position.toNat).length →
          FollowsAt (loop rounds) rule buffer later) →
        FollowsAt (loop (rounds + 1)) rule buffer position) :
    Follows (bounded loop) rule := by
  intro buffer short position
  have within (count : Nat) (position : UInt64)
      (enough : (buffer.drop position.toNat).length < count) :
      FollowsAt (loop count) rule buffer position := by
    induction count generalizing position with
    | zero => exact absurd enough (Nat.not_lt_zero _)
    | succ count inductionHypothesis =>
      exact round short count position fun later shorter => inductionHypothesis later (by omega)
  exact within (buffer.length + 1) position (Checked.length_drop_lt buffer position)

section Lists

variable {separator : Cursor Unit} {separatorRule : Rule Unit} (follows : Follows cursor rule)
  (separates : Follows separator separatorRule) (advances : rule.Advances)
  (separatorAdvances : separatorRule.Advances)

include follows advances

theorem many : Follows (many cursor) (Rule.many rule) := by
  refine loop fun {buffer} short rounds position later => ?_
  rw [manyWithin, Rule.many_eq advances]
  refine (follows short position).optional.bind fun value? middle _ found => ?_
  rcases Rule.optional_eq_some found with ⟨value, rfl, matched⟩ | ⟨rfl, -, -⟩
  · have shorter := advances _ _ _ matched
    exact (later middle shorter).bind fun values _ _ _ => .pure (value :: values)
  · exact .pure []

include separates separatorAdvances

theorem listOf : Follows (listOf cursor separator) (Rule.listOf rule separatorRule) := by
  refine loop fun {buffer} short rounds position later => ?_
  rw [listOfWithin, Rule.listOf_eq advances separatorAdvances]
  refine (follows short position).optional.bind fun value? middle _ found => ?_
  rcases Rule.optional_eq_some found with ⟨value, rfl, matched⟩ | ⟨rfl, -, -⟩
  · have shorter := advances _ _ _ matched
    refine (separates short middle).optional.bind fun separated? next _ foundSeparator => ?_
    rcases Rule.optional_eq_some foundSeparator with ⟨_, rfl, separated⟩ | ⟨rfl, -, -⟩
    · have stillShorter := separatorAdvances _ _ _ separated
      exact (later next (by omega)).bind fun values _ _ _ => .pure (value :: values)
    · exact .pure [value]
  · exact .pure []

theorem listOf1 : Follows (listOf1 cursor separator) (Rule.wholeList rule separatorRule) := by
  refine loop fun {buffer} short rounds position later => ?_
  rw [listOf1Within, Rule.wholeList_eq advances separatorAdvances]
  refine (follows short position).bind fun value middle _ matched => ?_
  have shorter := advances _ _ _ matched
  refine (separates short middle).optional.bind fun separated? next _ foundSeparator => ?_
  rcases Rule.optional_eq_some foundSeparator with ⟨_, rfl, separated⟩ | ⟨rfl, -, -⟩
  · have stillShorter := separatorAdvances _ _ _ separated
    exact (later next (by omega)).bind fun values _ _ _ => .pure (value :: values)
  · exact .pure [value]

end Lists

end Follows

end Cursor

end FlatSchema
