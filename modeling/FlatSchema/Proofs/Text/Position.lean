import FlatSchema.Text.Position

/-!
Lines and columns against offsets. A position inside a buffer says how many newlines stand before it
and how many bytes stand after the last of them, and no two offsets have the same position.
-/

namespace FlatSchema.Position

/-- A position is that of an offset: the line counts the newlines before the offset, and the column
the bytes behind the last of them. -/
structure IsAt (position : Position) (buffer : List UInt8) (offset : Nat) : Prop where
  inside : offset ≤ buffer.length
  line : position.line = (buffer.take offset).count Byte.newline + 1
  column : ∃ lines last, lines ++ last = buffer.take offset ∧
    (∀ byte ∈ lines.getLast?, byte = Byte.newline) ∧ Byte.newline ∉ last ∧
    position.column = last.length + 1

/-- The bytes behind the last newline. -/
def lastLine (bytes : List UInt8) : List UInt8 :=
  (bytes.reverse.takeWhile (· ≠ Byte.newline)).reverse

theorem ofOffset_eq (buffer : List UInt8) (offset : Nat) :
    ofOffset buffer offset =
      { line := (buffer.take offset).count Byte.newline + 1
        column := (lastLine (buffer.take offset)).length + 1 } := by
  rw [ofOffset, lastLine, List.length_reverse]

theorem lastLine_append {last : List UInt8} (oneLine : Byte.newline ∉ last)
    (bytes : List UInt8) : lastLine (bytes ++ last) = lastLine bytes ++ last := by
  have inside : ∀ byte ∈ last.reverse, decide (byte ≠ Byte.newline) = true := by
    intro byte membership
    rw [decide_eq_true_eq]
    rintro rfl
    exact oneLine (List.mem_reverse.mp membership)
  rw [lastLine, List.reverse_append, List.takeWhile_append_of_pos inside, List.reverse_append,
    List.reverse_reverse, lastLine]

theorem lastLine_eq_nil {lines : List UInt8}
    (ended : ∀ byte ∈ lines.getLast?, byte = Byte.newline) : lastLine lines = [] := by
  rw [← List.head?_reverse] at ended
  rw [lastLine, List.reverse_eq_nil_iff]
  cases backwards : lines.reverse with
  | nil => rfl
  | cons byte others =>
    rw [backwards] at ended
    rw [ended byte rfl]
    rfl

theorem not_mem_lastLine (bytes : List UInt8) : Byte.newline ∉ lastLine bytes := by
  intro membership
  have inside :=
    List.all_eq_true.mp List.all_takeWhile Byte.newline (List.mem_reverse.mp membership)
  simp at inside

/-- Bytes are ended lines with the last line behind them. -/
theorem exists_append_lastLine (bytes : List UInt8) :
    ∃ lines, lines ++ lastLine bytes = bytes ∧
      ∀ byte ∈ lines.getLast?, byte = Byte.newline := by
  refine ⟨(bytes.reverse.dropWhile (· ≠ Byte.newline)).reverse, ?_, ?_⟩
  · rw [lastLine, ← List.reverse_append, List.takeWhile_append_dropWhile, List.reverse_reverse]
  · intro byte membership
    rw [List.getLast?_reverse, Option.mem_def] at membership
    have stopped := List.head?_dropWhile_not (· ≠ Byte.newline) bytes.reverse
    rw [membership] at stopped
    simpa using stopped

/-- A position is that of an offset exactly if it is the one that is computed. -/
theorem isAt_iff {position : Position} {buffer : List UInt8} {offset : Nat} :
    position.IsAt buffer offset ↔ offset ≤ buffer.length ∧ ofOffset buffer offset = position := by
  rw [ofOffset_eq]
  constructor
  · rintro ⟨inside, line, lines, last, split, ended, oneLine, column⟩
    refine ⟨inside, ?_⟩
    rw [← split, lastLine_append oneLine, lastLine_eq_nil ended, List.nil_append, split, ← line,
      ← column]
  · rintro ⟨inside, rfl⟩
    obtain ⟨lines, split, ended⟩ := exists_append_lastLine (buffer.take offset)
    exact ⟨inside, rfl, lines, _, split, ended, not_mem_lastLine _, rfl⟩

/-- A later offset is on a later line or in a later column. -/
theorem ofOffset_ne {buffer : List UInt8} {offset later : Nat} (order : offset < later)
    (inside : later ≤ buffer.length) : ofOffset buffer offset ≠ ofOffset buffer later := by
  obtain ⟨between, split⟩ : buffer.take offset <+: buffer.take later :=
    List.take_prefix_take_left (Nat.le_of_lt order)
  have length : between.length = later - offset := by
    have lengths := congrArg List.length split
    rw [List.length_append, List.length_take, List.length_take] at lengths
    omega
  rw [ofOffset_eq, ofOffset_eq, ← split, List.count_append]
  intro equal
  obtain ⟨line, column⟩ := Position.mk.inj equal
  have oneLine : Byte.newline ∉ between := List.count_eq_zero.mp (by omega)
  rw [lastLine_append oneLine, List.length_append] at column
  omega

/-- A position is that of one offset only. -/
theorem isAt_ofOffset_iff {buffer : List UInt8} {offset other : Nat}
    (inside : offset ≤ buffer.length) :
    (ofOffset buffer offset).IsAt buffer other ↔ other = offset := by
  rw [isAt_iff]
  constructor
  · rintro ⟨otherInside, equal⟩
    rcases Nat.lt_trichotomy other offset with before | same | after
    · exact absurd equal (ofOffset_ne before inside)
    · exact same
    · exact absurd equal.symm (ofOffset_ne after otherInside)
  · rintro rfl
    exact ⟨inside, rfl⟩

end FlatSchema.Position
