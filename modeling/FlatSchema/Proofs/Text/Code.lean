import FlatSchema.Proofs.Text.Brackets
import FlatSchema.Proofs.Text.Spelling
import FlatSchema.Text.Lines

/-!
Pieces of code. A piece that has no literals is described by the brackets that it closes and those
that it opens; pieces fit together where the second of one are the first of the next. Names and
values do nothing to brackets, and neither does indentation.
-/

namespace FlatSchema.Text

/-- The brackets that are open behind code without literals. -/
def openAfter? (opened : List Bracket) (code : List UInt8) : Option (List Bracket) :=
  code.foldlM Bracket.shift? opened

theorem openAfter?_cons (opened : List Bracket) (byte : UInt8) (bytes : List UInt8) :
    openAfter? opened (byte :: bytes) =
      (Bracket.shift? opened byte).bind (openAfter? · bytes) := rfl

theorem openAfter?_append (opened : List Bracket) (first second : List UInt8) :
    openAfter? opened (first ++ second) = (openAfter? opened first).bind (openAfter? · second) :=
  List.foldlM_append

/-- Brackets further out play no part. -/
theorem openAfter?_outer {opened after : List Bracket} {bytes : List UInt8}
    (leads : openAfter? opened bytes = some after) (outer : List Bracket) :
    openAfter? (opened ++ outer) bytes = some (after ++ outer) := by
  induction bytes generalizing opened with
  | nil =>
    cases leads
    rfl
  | cons byte bytes inductionHypothesis =>
    rw [openAfter?_cons, Option.bind_eq_some_iff] at leads
    obtain ⟨middle, shifted, leads⟩ := leads
    have shift := (Bracket.shift?_eq_some_iff.mp shifted).append outer
    rw [openAfter?_cons, Bracket.shift?_eq_some_iff.mpr shift, Option.bind_some]
    exact inductionHypothesis leads

theorem openAfter?_filter (opened : List Bracket) (bytes : List UInt8) :
    openAfter? opened (bytes.filter isMark) = openAfter? opened bytes := by
  induction bytes generalizing opened with
  | nil => rfl
  | cons byte bytes inductionHypothesis =>
    rw [List.filter_cons]
    split
    · rw [openAfter?_cons, openAfter?_cons]
      exact congrArg _ (funext inductionHypothesis)
    · next plain =>
      rw [openAfter?_cons, Bracket.shift?_of_no_mark (by simpa using plain), Option.bind_some]
      exact inductionHypothesis opened

theorem over?_of_openAfter? {opened after : List Bracket} {bytes : List UInt8}
    (leads : openAfter? opened bytes = some after) :
    Scan.over? ⟨.code, opened⟩ bytes = some ⟨.code, after⟩ := by
  induction bytes generalizing opened with
  | nil =>
    cases leads
    rfl
  | cons byte bytes inductionHypothesis =>
    rw [openAfter?_cons, Option.bind_eq_some_iff] at leads
    obtain ⟨middle, shifted, leads⟩ := leads
    rw [Scan.over?_cons, Scan.next?_of_shift (Bracket.shift?_eq_some_iff.mp shifted),
      Option.bind_some]
    exact inductionHypothesis leads

/-- Code without literals that closes some brackets and opens others, whatever is open around
them. -/
def Fits (code : String) (before after : List Bracket) : Prop :=
  ∀ outer, openAfter? (before ++ outer) (utf8Bytes code) = some (after ++ outer)

/-- Code without literals that closes what it opens. -/
def Level (code : String) : Prop :=
  Fits code [] []

theorem fits_iff {code : String} {before after : List Bracket} :
    Fits code before after ↔ openAfter? before (utf8Bytes code) = some after := by
  constructor
  · intro fits
    simpa using fits []
  · intro leads outer
    exact openAfter?_outer leads outer

instance (code : String) (before after : List Bracket) : Decidable (Fits code before after) :=
  decidable_of_iff _ fits_iff.symm

instance (code : String) : Decidable (Level code) :=
  inferInstanceAs (Decidable (Fits code [] []))

variable {code first second : String} {before middle after : List Bracket}

theorem Fits.append (fits : Fits first before middle) (next : Fits second middle after) :
    Fits (first ++ second) before after := by
  intro outer
  rw [utf8Bytes_append, openAfter?_append, fits outer, Option.bind_some, next outer]

theorem Level.append (level : Level first) (next : Level second) : Level (first ++ second) :=
  Fits.append level next

/-- Level code fits everywhere. -/
theorem Level.fits (level : Level code) (opened : List Bracket) : Fits code opened opened :=
  fun outer => level (opened ++ outer)

theorem Level.between (level : Level code) (front : Fits first before middle)
    (back : Fits second middle after) : Fits (first ++ code ++ second) before after :=
  (front.append (level.fits middle)).append back

theorem Level.nested (level : Level code) : Nested (utf8Bytes code) := by
  rw [← Scan.over?_eq_some_iff_nested]
  exact over?_of_openAfter? (fits_iff.mp level)

/-- A nested text, which may have literals, can stand between pieces of code. -/
theorem Nested.between {opened : List Bracket} (nested : Nested (utf8Bytes code))
    (front : Fits first [] opened) (back : Fits second opened []) :
    Nested (utf8Bytes (first ++ code ++ second)) := by
  rw [← Scan.over?_eq_some_iff_nested, utf8Bytes_append, utf8Bytes_append, Scan.over?_append,
    Scan.over?_append, over?_of_openAfter? (fits_iff.mp front), Option.bind_some,
    Scan.over?_of_nested nested, Option.bind_some]
  exact over?_of_openAfter? (fits_iff.mp back)

theorem level_of_isValueChar
    (spelled : ∀ character ∈ code.toList, isValueChar character = true) : Level code := by
  have unmarked : (utf8Bytes code).filter isMark = [] := by
    rw [List.filter_eq_nil_iff]
    intro byte member
    have valueByte := isValueByte_of_isValueChar spelled byte member
    have apart : ∀ number < 256, Byte.isValueByte (.ofNat number) = true →
        ¬ isMark (.ofNat number) = true := by
      decide +kernel
    have inside := apart byte.toNat byte.toNat_lt
    rw [UInt8.ofNat_toNat] at inside
    exact inside valueByte
  intro outer
  rw [← openAfter?_filter, unmarked]
  rfl

theorem level_join {texts : List String} (each : ∀ text ∈ texts, Level text) :
    Level (String.join texts) := by
  induction texts with
  | nil => decide
  | cons text texts inductionHypothesis =>
    rw [List.forall_mem_cons] at each
    rw [String.join_cons]
    exact each.1.append (inductionHypothesis each.2)

theorem level_intercalate {separator : String} (level : Level separator) {texts : List String}
    (each : ∀ text ∈ texts, Level text) : Level (separator.intercalate texts) := by
  induction texts with
  | nil =>
    rw [String.intercalate_nil]
    decide
  | cons text texts inductionHypothesis =>
    rw [List.forall_mem_cons] at each
    cases texts with
    | nil =>
      rw [String.intercalate_singleton]
      exact each.1
    | cons next texts =>
      rw [String.intercalate_cons_cons]
      exact (each.1.append level).append (inductionHypothesis each.2)

section Lines

variable {line : String} {lines furtherLines : List String}

/-- Lines that fit, each with a line end. -/
def LinesFit (lines : List String) (before after : List Bracket) : Prop :=
  Fits (String.join (lines.map (· ++ "\n"))) before after

instance (lines : List String) (before after : List Bracket) :
    Decidable (LinesFit lines before after) :=
  inferInstanceAs (Decidable (Fits _ before after))

theorem LinesFit.cons (fits : Fits line before middle) (below : LinesFit lines middle after) :
    LinesFit (line :: lines) before after := by
  have ended : Level "\n" := by decide
  unfold LinesFit
  rw [List.map_cons, String.join_cons]
  exact (fits.append (ended.fits middle)).append below

theorem LinesFit.singleton (fits : Fits line before after) : LinesFit [line] before after :=
  .cons fits (Level.fits (by decide) after)

theorem LinesFit.append (above : LinesFit lines before middle)
    (below : LinesFit furtherLines middle after) : LinesFit (lines ++ furtherLines) before after := by
  unfold LinesFit
  rw [List.map_append, String.join_append]
  exact Fits.append above below

/-- One line of level code for each item of a list. -/
theorem linesFit_map {α : Type} {items : List α} {lineOf : α → String} {opened : List Bracket}
    (each : ∀ item ∈ items, Level (lineOf item)) : LinesFit (items.map lineOf) opened opened := by
  induction items with
  | nil =>
    have empty : Level "" := by decide
    exact empty.fits opened
  | cons item items inductionHypothesis =>
    rw [List.forall_mem_cons] at each
    exact .cons (each.1.fits opened) (inductionHypothesis each.2)

end Lines

section Indent

/-- The quotes and brackets among characters. -/
def marks (characters : List Char) : List UInt8 :=
  characters.flatMap fun character => (String.utf8EncodeChar character).filter isMark

theorem marks_append (first second : List Char) :
    marks (first ++ second) = marks first ++ marks second :=
  List.flatMap_append

theorem filter_isMark_utf8Bytes (text : String) :
    (utf8Bytes text).filter isMark = marks text.toList := by
  rw [utf8Bytes_eq_flatMap, List.filter_flatMap]
  rfl

theorem marks_closeLine (reversed : List Char) :
    marks (closeLine reversed) = marks reversed.reverse := by
  unfold closeLine
  split
  · rw [List.reverse_cons, marks_append]
    exact (List.append_nil _).symm
  · rfl

theorem flatMap_marks_linesFrom (reversed characters : List Char) :
    (linesFrom reversed characters).flatMap marks = marks (reversed.reverse ++ characters) := by
  fun_induction linesFrom reversed characters with
  | case1 reversed empty =>
    rw [List.isEmpty_iff.mp empty]
    rfl
  | case2 reversed nonempty => simp
  | case3 reversed rest inductionHypothesis =>
    rw [List.flatMap_cons, inductionHypothesis, marks_closeLine, marks_append reversed.reverse]
    rfl
  | case4 reversed character rest noNewline inductionHypothesis =>
    rw [inductionHypothesis, List.reverse_cons, List.append_assoc]
    rfl

theorem marks_indentLine (line : String) : marks (indentLine line).toList = marks line.toList := by
  unfold indentLine
  split
  · rfl
  · rw [String.toList_append, marks_append]
    rfl

theorem marks_intercalate_newline (texts : List String) :
    marks ("\n".intercalate texts).toList = texts.flatMap fun text => marks text.toList := by
  induction texts with
  | nil => rfl
  | cons text texts inductionHypothesis =>
    cases texts with
    | nil => simp [String.intercalate_singleton]
    | cons next texts =>
      rw [String.intercalate_cons_cons, String.toList_append, String.toList_append, marks_append,
        marks_append, inductionHypothesis, List.flatMap_cons]
      exact congrArg (· ++ _) (List.append_nil _)

/-- Spaces in front of lines and the ends of lines are no marks, so all that indentation adds and
takes away goes unseen. -/
theorem marks_indent (text : String) : marks (indent text).toList = marks text.toList := by
  unfold indent lines
  rw [marks_intercalate_newline, List.flatMap_map, List.flatMap_map]
  simp only [marks_indentLine, String.toList_ofList]
  exact flatMap_marks_linesFrom [] text.toList

theorem Fits.indent (fits : Fits code before after) : Fits (indent code) before after := by
  intro outer
  rw [← openAfter?_filter, filter_isMark_utf8Bytes, marks_indent, ← filter_isMark_utf8Bytes,
    openAfter?_filter, fits outer]

end Indent

end FlatSchema.Text
