import FlatSchema.Text.Lines

/-!
Lines put together and taken apart. A text that was made of lines with a line end after each has these
lines, so that indenting it indents them one by one.
-/

namespace FlatSchema.Text

/-- A text with no part of a line end in it. -/
def OneLine (text : String) : Prop :=
  ∀ character ∈ text.toList, character ≠ '\n' ∧ character ≠ '\r'

instance : DecidablePred OneLine :=
  fun text => decidable_of_iff (text.toList.all fun character =>
    character ≠ '\n' && character ≠ '\r') (by simp [OneLine])

theorem OneLine.append {first second : String} (oneLine : OneLine first) (oneLine' : OneLine second) :
    OneLine (first ++ second) := by
  unfold OneLine
  rw [String.toList_append, List.forall_mem_append]
  exact ⟨oneLine, oneLine'⟩

theorem oneLine_join {texts : List String} (each : ∀ text ∈ texts, OneLine text) :
    OneLine (String.join texts) := by
  unfold OneLine
  rw [String.toList_join, List.forall_mem_flatMap]
  exact each

theorem closeLine_of_plain {reversed : List Char} (plain : '\r' ∉ reversed) :
    closeLine reversed = reversed.reverse := by
  unfold closeLine
  split
  · simp at plain
  · rfl

theorem linesFrom_append {line : List Char}
    (plain : ∀ character ∈ line, character ≠ '\n' ∧ character ≠ '\r') {reversed : List Char}
    (plainBefore : '\r' ∉ reversed) (rest : List Char) :
    linesFrom reversed (line ++ '\n' :: rest) = (reversed.reverse ++ line) :: linesFrom [] rest := by
  induction line generalizing reversed with
  | nil => rw [List.nil_append, linesFrom, closeLine_of_plain plainBefore, List.append_nil]
  | cons character line inductionHypothesis =>
    obtain ⟨here, further⟩ := List.forall_mem_cons.mp plain
    have plainHere : '\r' ∉ character :: reversed := by
      simpa [plainBefore] using here.2.symm
    rw [List.cons_append, linesFrom.eq_3 _ _ _ here.1, inductionHypothesis further plainHere]
    simp

theorem lines_join {lines : List String} (oneLine : ∀ line ∈ lines, OneLine line) :
    Text.lines (String.join (lines.map (· ++ "\n"))) = lines := by
  have characters : linesFrom [] (String.join (lines.map (· ++ "\n"))).toList =
      lines.map String.toList := by
    induction lines with
    | nil => rfl
    | cons line lines inductionHypothesis =>
      obtain ⟨here, further⟩ := List.forall_mem_cons.mp oneLine
      have text : (String.join ((line :: lines).map (· ++ "\n"))).toList =
          line.toList ++ '\n' :: (String.join (lines.map (· ++ "\n"))).toList := by
        simp [String.join_cons]
      rw [text, linesFrom_append here List.not_mem_nil, inductionHypothesis further]
      rfl
  rw [Text.lines, characters, List.map_map]
  exact List.map_id'' (fun _ => String.ofList_toList) lines

theorem indent_join {lines : List String} (oneLine : ∀ line ∈ lines, OneLine line) :
    indent (String.join (lines.map (· ++ "\n"))) = "\n".intercalate (lines.map indentLine) := by
  rw [indent, lines_join oneLine]

end FlatSchema.Text
