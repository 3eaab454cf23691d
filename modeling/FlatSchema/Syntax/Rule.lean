import FlatSchema.Text.Byte

/-!
Grammar rules over bytes. A rule looks at the bytes that remain, and either reads a value off
their front and leaves the rest, or matches nothing. Rules are sequenced with `do`; `<|>` tries
its right side where its left side matched nothing, from the same bytes.
-/

namespace FlatSchema

abbrev Rule (α : Type) := StateT (List UInt8) Option α

namespace Rule

variable {α : Type}

/-- Applies a rule at a byte offset; with the value it gives the offset just past what was read.
An offset past the end stands for the end. -/
def readAt (rule : Rule α) (buffer : List UInt8) (offset : Nat) : Option (α × Nat) :=
  match rule (buffer.drop offset) with
  | none => none
  | some (value, rest) => some (value, buffer.length - rest.length)

/-- Reads exactly the given bytes. -/
def exactly : List UInt8 → Rule Unit
  | [], bytes => some ((), bytes)
  | _ :: _, [] => none
  | expected :: more, byte :: bytes => if byte = expected then exactly more bytes else none

/-- Reads one byte of a class. -/
def byteOf (isMember : UInt8 → Bool) : Rule UInt8
  | [] => none
  | byte :: bytes => if isMember byte then some (byte, bytes) else none

/-- Reads as many bytes of a class as there are. -/
def bytesOf (isMember : UInt8 → Bool) : Rule (List UInt8) :=
  fun bytes => some (bytes.takeWhile isMember, bytes.dropWhile isMember)

/-- Matches, without reading, where the next byte is not in a class; the end of input matches. -/
def notBefore (isMember : UInt8 → Bool) : Rule Unit
  | [] => some ((), [])
  | byte :: bytes => if isMember byte then none else some ((), byte :: bytes)

/-- Applies a rule again and again until it matches nothing, but not more often than the bound
says. The result has the values read and the bytes left. -/
def collectWithin (rule : Rule α) : Nat → List UInt8 → List α × List UInt8
  | 0, bytes => ([], bytes)
  | bound + 1, bytes =>
    match rule bytes with
    | none => ([], bytes)
    | some (value, rest) =>
      let (values, last) := collectWithin rule bound rest
      (value :: values, last)

/-- The values that a rule reads one after the other until it matches nothing, and what is left.
After the first match there are no more matches than bytes if every match reads a byte, so the
number of bytes is bound enough. -/
def collect (rule : Rule α) (bytes : List UInt8) : List α × List UInt8 :=
  match rule bytes with
  | none => ([], bytes)
  | some (value, rest) =>
    let (values, last) := collectWithin rule rest.length rest
    (value :: values, last)

/-- Every match reads at least one byte. -/
def Advances (rule : Rule α) : Prop :=
  ∀ bytes value rest, rule bytes = some (value, rest) → rest.length < bytes.length

/-- A bound that is at least the number of bytes makes no difference. -/
theorem collectWithin_eq_of_le {rule : Rule α} (advances : rule.Advances) (bound : Nat)
    (bytes : List UInt8) (enough : bytes.length ≤ bound) :
    collectWithin rule bound bytes = collect rule bytes := by
  induction bound using Nat.strongRecOn generalizing bytes with
  | ind bound inductionHypothesis =>
    cases bound with
    | zero =>
      cases matched : rule bytes with
      | none => simp [collectWithin, collect, matched]
      | some result =>
        have shorter := advances bytes result.1 result.2 matched
        omega
    | succ bound =>
      cases matched : rule bytes with
      | none => simp [collectWithin, collect, matched]
      | some result =>
        have shorter := advances bytes result.1 result.2 matched
        have left := inductionHypothesis bound (by omega) result.2 (by omega)
        have right := inductionHypothesis result.2.length (by omega) result.2 (by omega)
        simp only [collectWithin, collect, matched, left, right]

/-- Repetition takes one match and goes on from what it leaves. -/
theorem collect_of_match {rule : Rule α} (advances : rule.Advances) {bytes rest : List UInt8}
    {value : α} (matched : rule bytes = some (value, rest)) :
    collect rule bytes = (value :: (collect rule rest).1, (collect rule rest).2) := by
  simp [collect, matched, collectWithin_eq_of_le advances rest.length rest (Nat.le_refl _)]

/-- Repetition reads nothing where the rule does not match. -/
theorem collect_of_no_match {rule : Rule α} {bytes : List UInt8} (unmatched : rule bytes = none) :
    collect rule bytes = ([], bytes) := by
  simp [collect, unmatched]

/-- Repeats a rule as often as it matches, which may be never. -/
def many (rule : Rule α) : Rule (List α) :=
  fun bytes => some (collect rule bytes)

/-- Items with a separator between them, and perhaps one after the last; there may be none. -/
def listOf (item : Rule α) (separator : Rule Unit) : Rule (List α) := do
  let separated ← many (item <* separator)
  let last ← optional item
  return separated ++ last.toList

/-- One item or more with a separator between them, and none after the last. -/
def listOf1 (item : Rule α) (separator : Rule Unit) : Rule (List α) := do
  let first ← item
  let others ← many (separator *> item)
  return first :: others

/-- The first of several rules that matches. -/
def firstOf : List (Rule α) → Rule α
  | [] => failure
  | rule :: rules => rule <|> firstOf rules

end Rule

end FlatSchema
