import FlatSchema.Proofs.Cursor.Declaration
import FlatSchema.Proofs.Schema.Priority

/-!
Reading by positions is safe. In a buffer of less than 2 ^ 63 bytes and from any position of 64
bits on, also behind the end, every cursor comes to an end before one of its loops is cut off, with
no fault on the way and with the answer of its rule. A match ends inside of the buffer and behind
the place at which it begins, so no more items are read than there are bytes.
-/

namespace FlatSchema

open Rule Token

theorem utf8Bytes_ne_nil {text : String} (nonempty : text ≠ "") : utf8Bytes text ≠ [] := by
  intro empty
  exact nonempty (utf8Bytes_injective empty)

theorem Token.name_advances : name.Advances :=
  name_reads.advances (name_reads.ne_nil (by simp [Grammar.Clear]) rfl)

theorem Token.value_advances : value.Advances :=
  value_reads.advances (value_reads.ne_nil (by simp [Grammar.Clear]) rfl)

theorem Token.stringLiteral_advances : stringLiteral.Advances :=
  stringLiteral_reads.advances (stringLiteral_reads.ne_nil trivial rfl)

namespace Cursor

variable {α : Type} {cursor : Cursor α} {rule : Rule α} {buffer : List UInt8} {position : UInt64}

/-- The cursor comes to an end without a fault and before a loop is cut off, and its answer is the
one of the rule. -/
def Safe (cursor : Cursor α) (rule : Rule α) (buffer : List UInt8) (position : UInt64) : Prop :=
  ∃ answer, cursor.run buffer position = some (.ok answer) ∧
    rule.readAt buffer position.toNat = answer.map fun (value, stop) => (value, stop.toNat)

/-- A match ends inside of the buffer, and behind the place at which it begins. -/
def Progresses (cursor : Cursor α) (buffer : List UInt8) (position : UInt64) : Prop :=
  ∀ value stop, cursor.run buffer position = some (.ok (some (value, stop))) →
    min position.toNat buffer.length < stop.toNat ∧ stop.toNat ≤ buffer.length

theorem FollowsAt.safe (follows : FollowsAt cursor rule buffer position)
    (inside : ∀ value stop, cursor.run buffer position = some (.ok (some (value, stop))) →
      stop.toNat ≤ buffer.length) : Safe cursor rule buffer position := by
  cases found : rule (buffer.drop position.toNat) with
  | none =>
    refine ⟨none, follows.unmatched found, ?_⟩
    rw [readAt, found]
    rfl
  | some result =>
    obtain ⟨value, rest⟩ := result
    obtain ⟨stop, ran, stands⟩ := follows.matched found
    refine ⟨some (value, stop), ran, ?_⟩
    have length := congrArg List.length stands.ahead
    rw [List.length_drop] at length
    have before := inside value stop ran
    rw [readAt, found, Option.map_some]
    simp only [Option.some.injEq, Prod.mk.injEq, true_and]
    omega

theorem FollowsAt.progresses (follows : FollowsAt cursor rule buffer position)
    (advances : rule.Advances) : Progresses cursor buffer position := by
  intro value stop ran
  cases found : rule (buffer.drop position.toNat) with
  | none =>
    rw [follows.unmatched found] at ran
    cases ran
  | some result =>
    obtain ⟨_, rest⟩ := result
    obtain ⟨_, foundRan, stands⟩ := follows.matched found
    rw [foundRan] at ran
    cases ran
    have shorter := advances _ _ _ found
    obtain ⟨startInside, inside⟩ := stands.le_length shorter
    have length := congrArg List.length stands.ahead
    rw [List.length_drop] at length shorter
    omega

/-- A cursor that follows an advancing rule is safe and makes progress. -/
theorem Follows.safe_and_progresses (follows : Follows cursor rule) (advances : rule.Advances)
    (short : Short buffer) (position : UInt64) :
    Safe cursor rule buffer position ∧ Progresses cursor buffer position := by
  have progresses := (follows short position).progresses advances
  exact ⟨(follows short position).safe fun value stop ran => (progresses value stop ran).2,
    progresses⟩

/-- Comments are skipped up to where they end; behind the end of the buffer there are none. -/
theorem skipComments_run (short : Short buffer) (position : UInt64) :
    ∃ stop, skipComments.run buffer position = some (.ok (some ((), stop))) ∧
      stop.toNat = commentsEnd buffer position.toNat ∧
      (position.toNat ≤ buffer.length →
        position.toNat ≤ stop.toNat ∧ stop.toNat ≤ buffer.length) ∧
      (buffer.length < position.toNat → stop = position) := by
  obtain ⟨rest, skipped⟩ := skipComments_total (buffer.drop position.toNat)
  obtain ⟨trivia, whole, -, -⟩ := skipComments_sound skipped
  obtain ⟨stop, ran, stands⟩ := (skipComments_follows short position).matched skipped
  have length := congrArg List.length stands.ahead
  have total := congrArg List.length whole
  rw [List.length_drop] at length
  rw [List.length_append, List.length_drop] at total
  have within : position.toNat ≤ buffer.length →
      position.toNat ≤ stop.toNat ∧ stop.toNat ≤ buffer.length := by
    intro begun
    rcases stands.inside with inside | rfl <;> omega
  have behind : buffer.length < position.toNat → stop = position := by
    intro beyond
    have noComment : Token.comment (buffer.drop position.toNat) = none := by
      rw [List.drop_eq_nil_of_le (Nat.le_of_lt beyond)]
      exact comment_eq_none (by simp [Grammar.lead?])
    have ended := run_optional_of_no_match ((comment_follows short position).unmatched noComment)
    rw [skipComments, bounded, run_read_bind, skipCommentsWithin, run_bind_of_match ended] at ran
    cases ran
    rfl
  refine ⟨stop, ran, ?_, within, behind⟩
  simp only [commentsEnd, readAt, skipped]
  by_cases begun : position.toNat ≤ buffer.length
  · have inside := within begun
    omega
  · rw [behind (by omega)]
    omega

/-- Also a symbol without bytes ends inside of the buffer. -/
theorem symbol_le_length (short : Short buffer) {text : String} {stop : UInt64}
    (ran : (symbol text).run buffer position = some (.ok (some ((), stop)))) :
    stop.toNat ≤ buffer.length := by
  obtain ⟨start, blanksRan, -, inside, -⟩ := skipBlanks_run short position
  rw [symbol, run_bind_of_match blanksRan, run_read_bind, run_get_bind] at ran
  cases sum : Checked.add? start (size (utf8Bytes text)) with
  | none =>
    rw [sum] at ran
    cases ran
  | some last =>
    have toNat_last := Checked.toNat_of_add? sum
    rw [sum] at ran
    by_cases fits : last ≤ size buffer
    · have lastInside : last.toNat ≤ buffer.length := by
        rwa [UInt64.le_iff_toNat_le, short.toNat_size] at fits
      simp only [if_pos fits] at ran
      rw [run_bind_of_done (Checked.slice_eq_pure short (by omega) lastInside)] at ran
      split at ran
      · cases ran
        exact lastInside
      · cases ran
    · simp only [if_neg fits] at ran
      cases ran

theorem keyword_le_length (short : Short buffer) {word : String} {stop : UInt64}
    (length : (utf8Bytes word).length < 2 ^ 64)
    (ran : (keyword word).run buffer position = some (.ok (some ((), stop)))) :
    stop.toNat ≤ buffer.length := by
  have follows := symbol_follows length short position
  cases found : Token.symbol word (buffer.drop position.toNat) with
  | none =>
    rw [keyword, run_bind_of_no_match (follows.unmatched found)] at ran
    cases ran
  | some result =>
    obtain ⟨last, symbolRan, -⟩ := follows.matched found
    have inside := symbol_le_length short symbolRan
    rw [keyword, run_bind_of_match symbolRan, run_read_bind, run_get_bind] at ran
    split at ran
    · cases ran
    · cases ran
      exact inside

theorem symbol_safe (short : Short buffer) (position : UInt64) {text : String}
    (length : (utf8Bytes text).length < 2 ^ 64) :
    Safe (symbol text) (Token.symbol text) buffer position ∧
      (text ≠ "" → Progresses (symbol text) buffer position) := by
  have follows := symbol_follows length short position
  refine ⟨follows.safe fun _ _ => symbol_le_length short, fun nonempty => ?_⟩
  exact follows.progresses (symbol_advances (utf8Bytes_ne_nil nonempty))

theorem keyword_safe (short : Short buffer) (position : UInt64) {word : String}
    (length : (utf8Bytes word).length < 2 ^ 64) :
    Safe (keyword word) (Token.keyword word) buffer position ∧
      (word ≠ "" → Progresses (keyword word) buffer position) := by
  have follows := keyword_follows length short position
  refine ⟨follows.safe fun _ _ => keyword_le_length short length, fun nonempty => ?_⟩
  exact follows.progresses (keyword_advances (utf8Bytes_ne_nil nonempty))

end Cursor

namespace Schema

open Checked

/-- The state of a schema that is put together from a buffer: what there is of it, unless a
directive is repeated, the number of items that have been read, and the position behind them. -/
structure Composition where
  schema? : Option Schema
  count : Nat
  position : UInt64

variable {State : Type}

/-- Asks the resolver, which does not know about positions. -/
def asking {α : Type} (computation : StateM State α) : StateT State Checked α :=
  fun state => pure (computation.run state)

/-- Reads items from a position on, adding each and asking the resolver for it before the next is
read. -/
def composeFrom (resolve : String → StateM State (Option Schema)) (buffer : List UInt8) :
    Nat → Schema → Nat → UInt64 → StateT State Checked Composition
  | 0, _, _, _ => liftM (cutOff : Checked Composition)
  | rounds + 1, schema, count, position => do
    match ← Cursor.item.run buffer position with
    | none => return { schema? := some schema, count, position }
    | some (item, next) =>
      let child ← asking (childOf resolve item)
      match schema.document.add? item with
      | none => return { schema? := none, count := count + 1, position := next }
      | some document =>
        composeFrom resolve buffer rounds
          { document, children := schema.children ++ child.toList } (count + 1) next

/-- Reads a buffer item by item. In the end the bytes that are left are counted. -/
def composeAt (resolve : String → StateM State (Option Schema)) (buffer : List UInt8) :
    StateT State Checked Composition := do
  let composition ←
    composeFrom resolve buffer (buffer.length + 1) { document := {}, children := [] } 0 0
  if composition.schema?.isSome then
    let _ ← subtract (size buffer) composition.position
    return composition
  else
    return composition

section Runs

variable {α β : Type} {state middle : State} {value : α}

theorem run_bind_of_done {computation : StateT State Checked α}
    {next : α → StateT State Checked β} (done : computation.run state = pure (value, middle)) :
    (computation >>= next).run state = (next value).run middle :=
  bind_of_done done

theorem run_liftM {computation : Checked α} (done : computation = pure value) :
    (liftM computation : StateT State Checked α).run state = pure (value, state) := by
  subst done
  rfl

theorem run_asking_bind (computation : StateM State α) (next : α → StateT State Checked β) :
    (asking computation >>= next).run state =
      (next (computation.run state).1).run (computation.run state).2 := rfl

end Runs

theorem run_addAll?_cons (resolve : String → StateM State (Option Schema)) (schema : Schema)
    (item : Item) (items : List Item) (state : State) :
    (addAll? resolve schema (item :: items)).run state =
      (match schema.document.add? item with
        | none => return none
        | some document =>
          addAll? resolve { document, children :=
            schema.children ++ ((childOf resolve item).run state).1.toList } items).run
        ((childOf resolve item).run state).2 := rfl

/-- There are no more items than bytes ahead, so the rounds are enough. -/
theorem composeFrom_run {buffer : List UInt8} (short : Short buffer)
    (resolve : String → StateM State (Option Schema)) {rounds : Nat} (schema : Schema)
    (count : Nat) (position : UInt64) (inside : position.toNat ≤ buffer.length)
    (enough : (buffer.drop position.toNat).length < rounds) (state : State) :
    ∃ composition final,
      (composeFrom resolve buffer rounds schema count position).run state =
        pure (composition, final) ∧
      (addAll? resolve schema (Item.readAll (buffer.drop position.toNat)).1).run state =
        (composition.schema?, final) ∧
      composition.position.toNat ≤ buffer.length ∧
      composition.count + (buffer.length - composition.position.toNat) ≤
        count + (buffer.length - position.toNat) ∧
      (composition.schema?.isSome → buffer.drop composition.position.toNat =
        (Item.readAll (buffer.drop position.toNat)).2) := by
  induction rounds generalizing schema count position state with
  | zero => exact absurd enough (Nat.not_lt_zero _)
  | succ rounds inductionHypothesis =>
    have follows := Cursor.item_follows short position
    rw [composeFrom]
    cases found : Item.rule (buffer.drop position.toNat) with
    | none =>
      refine ⟨{ schema? := some schema, count, position }, state, ?_, ?_, inside, ?_, ?_⟩
      · rw [run_bind_of_done (run_liftM (follows.unmatched found))]
        rfl
      · rw [Item.readAll_of_no_match found]
        rfl
      · exact Nat.le_refl _
      · rw [Item.readAll_of_no_match found]
        exact fun _ => rfl
    | some result =>
      obtain ⟨item, rest⟩ := result
      obtain ⟨next, ran, stands⟩ := follows.matched found
      have shorter := Item.rule_advances _ _ _ found
      have nextInside := (stands.le_length shorter).2
      obtain rfl := stands.ahead
      rw [List.length_drop] at enough
      rw [List.length_drop, List.length_drop] at shorter
      rw [run_bind_of_done (run_liftM ran), run_asking_bind, Item.readAll_of_match found,
        run_addAll?_cons]
      cases added : schema.document.add? item with
      | none =>
        refine ⟨{ schema? := none, count := count + 1, position := next }, _, rfl, rfl,
          nextInside, ?_, nofun⟩
        simp only
        omega
      | some document =>
        obtain ⟨composition, final, composed, addedAll, ended, counted, ahead⟩ :=
          inductionHypothesis
            { document, children :=
              schema.children ++ ((childOf resolve item).run state).1.toList }
            (count + 1) next nextInside (by rw [List.length_drop]; omega)
            ((childOf resolve item).run state).2
        exact ⟨composition, final, composed, addedAll, ended, by omega, ahead⟩

/-- What the checked composer comes to is what is read from the buffer as a whole. -/
theorem composeAt_run {buffer : List UInt8} (short : Short buffer)
    (resolve : String → StateM State (Option Schema)) (state : State) :
    ∃ composition final,
      (composeAt resolve buffer).run state = some (.ok (composition, final)) ∧
      (parseWith? resolve buffer).run state =
        (composition.schema?.map fun schema => (schema, composition.position.toNat), final) ∧
      composition.count ≤ buffer.length ∧ composition.position.toNat ≤ buffer.length := by
  obtain ⟨composition, final, composed, addedAll, ended, counted, ahead⟩ :=
    composeFrom_run short resolve { document := {}, children := [] } 0 0 (Nat.zero_le _)
      (length_drop_lt buffer 0) state
  have counted : composition.count + (buffer.length - composition.position.toNat) ≤
      buffer.length := by simpa using counted
  change (addAll? resolve _ (Item.readAll buffer).1).run state = _ at addedAll
  change composition.schema?.isSome → _ = (Item.readAll buffer).2 at ahead
  refine ⟨composition, final, ?_, ?_, by omega, ended⟩
  · rw [composeAt, run_bind_of_done composed]
    split
    · have order : composition.position ≤ size buffer := by
        rwa [UInt64.le_iff_toNat_le, short.toNat_size]
      exact run_bind_of_done (run_liftM (if_pos order))
    · rfl
  · have parsed : (parseWith? resolve buffer).run state =
        (((addAll? resolve { document := {}, children := [] } (Item.readAll buffer).1).run
            state).1.map fun schema => (schema, buffer.length - (Item.readAll buffer).2.length),
          ((addAll? resolve { document := {}, children := [] } (Item.readAll buffer).1).run
            state).2) := rfl
    rw [parsed, addedAll]
    cases present : composition.schema? with
    | none => rfl
    | some schema =>
      have length := congrArg List.length (ahead (by rw [present]; rfl))
      rw [List.length_drop] at length
      have stop : buffer.length - (Item.readAll buffer).2.length =
          composition.position.toNat := by omega
      rw [Option.map_some, Option.map_some, stop]

end Schema

namespace Cursor

/-- In a buffer of less than 2 ^ 63 bytes every rule, token and loop of the reader, begun at any
position, comes to an end without a fault, with no loop cut off and with the answer of the grammar.
Matches make progress and stay inside of the buffer, and no more items are read than there are
bytes. -/
theorem cursors_stay_in_bounds (buffer : List UInt8) (short : buffer.length < 2 ^ 63) :
    (∀ position : UInt64,
      (∀ nonterminal : Nonterminal,
        Safe nonterminal.cursor nonterminal.rule buffer position ∧
          Progresses nonterminal.cursor buffer position) ∧
      (Safe comment Token.comment buffer position ∧ Progresses comment buffer position) ∧
      (∀ text : String, (utf8Bytes text).length < 2 ^ 64 →
        Safe (symbol text) (Token.symbol text) buffer position ∧
          (text ≠ "" → Progresses (symbol text) buffer position)) ∧
      (∀ word : String, (utf8Bytes word).length < 2 ^ 64 →
        Safe (keyword word) (Token.keyword word) buffer position ∧
          (word ≠ "" → Progresses (keyword word) buffer position)) ∧
      (Safe name Token.name buffer position ∧ Progresses name buffer position) ∧
      (Safe value Token.value buffer position ∧ Progresses value buffer position) ∧
      (Safe stringLiteral Token.stringLiteral buffer position ∧
        Progresses stringLiteral buffer position) ∧
      (∃ stop, skipBlanks.run buffer position = some (.ok (some ((), stop))) ∧
        min position.toNat buffer.length ≤ stop.toNat ∧ stop.toNat ≤ buffer.length ∧
        buffer.drop stop.toNat = (buffer.drop position.toNat).dropWhile Byte.isBlank) ∧
      ∃ stop, skipComments.run buffer position = some (.ok (some ((), stop))) ∧
        stop.toNat = commentsEnd buffer position.toNat ∧
        (position.toNat ≤ buffer.length →
          position.toNat ≤ stop.toNat ∧ stop.toNat ≤ buffer.length) ∧
        (buffer.length < position.toNat → stop = position)) ∧
    ∀ (State : Type) (resolve : String → StateM State (Option Schema)) (state : State),
      ∃ composition final,
        (Schema.composeAt resolve buffer).run state = some (.ok (composition, final)) ∧
        (Schema.parseWith? resolve buffer).run state =
          (composition.schema?.map fun schema => (schema, composition.position.toNat), final) ∧
        composition.count ≤ buffer.length ∧ composition.position.toNat ≤ buffer.length := by
  refine ⟨fun position => ⟨?_, ?_, ?_, ?_, ?_, ?_, ?_, ?_, ?_⟩, ?_⟩
  · intro nonterminal
    exact nonterminal.cursor_follows.safe_and_progresses nonterminal.rule_advances short position
  · exact comment_follows.safe_and_progresses comment_advances short position
  · intro text length
    exact symbol_safe short position length
  · intro word length
    exact keyword_safe short position length
  · exact name_follows.safe_and_progresses name_advances short position
  · exact value_follows.safe_and_progresses value_advances short position
  · exact stringLiteral_follows.safe_and_progresses stringLiteral_advances short position
  · exact skipBlanks_run short position
  · exact skipComments_run short position
  · intro State resolve state
    exact Schema.composeAt_run short resolve state

section Escaping

/-- A table, and a string literal that is cut short behind a backslash. -/
def escapingBuffer : List UInt8 :=
  utf8Bytes "table T \x7b x: T; \x7d \"\\"

/-- The table is read up to its brace. The search for the end of the literal leaps over the end of
the buffer, and a position far behind the end stays as it is. -/
theorem cursors_stay_in_bounds_escaping :
    escapingBuffer.length < 2 ^ 63 ∧
      (record "table").run escapingBuffer 0 =
        some (.ok (some (⟨⟨"T"⟩, [⟨⟨"x"⟩, ⟨.reference ⟨"T"⟩, false⟩, none, {}⟩], {}⟩, 17))) ∧
      stringLiteral.run escapingBuffer 17 = some (.ok none) ∧
      skipComments.run escapingBuffer 18446744073709551615 =
        some (.ok (some ((), 18446744073709551615))) := by
  have short : escapingBuffer.length < 2 ^ 63 := by decide
  obtain ⟨rules, -⟩ := cursors_stay_in_bounds escapingBuffer short
  refine ⟨short, ?_, ?_, ?_⟩
  · obtain ⟨answer, ran, read⟩ := ((rules 0).1 .table).1
    have expected : (Record.rule "table").readAt escapingBuffer 0 =
        some (⟨⟨"T"⟩, [⟨⟨"x"⟩, ⟨.reference ⟨"T"⟩, false⟩, none, {}⟩], {}⟩, 17) := by
      decide +kernel
    obtain ⟨⟨_, stop⟩, rfl, same⟩ := Option.map_eq_some_iff.mp (read.symm.trans expected)
    obtain ⟨rfl, toNat_stop⟩ := Prod.mk.inj same
    obtain rfl : stop = 17 := UInt64.toNat_inj.mp toNat_stop
    exact ran
  · obtain ⟨-, -, -, -, -, -, ⟨⟨answer, ran, read⟩, -⟩, -⟩ := rules 17
    have expected : Token.stringLiteral.readAt escapingBuffer 17 = none := by decide +kernel
    obtain rfl := Option.map_eq_none_iff.mp (read.symm.trans expected)
    exact ran
  · obtain ⟨-, -, -, -, -, -, -, -, stop, ran, -, -, behind⟩ := rules 18446744073709551615
    rw [ran, behind (by decide)]

end Escaping

end Cursor

end FlatSchema
