import FlatSchema.Proofs.Text.Lines

/-!
Texts that can be taken apart again. A run of characters of one class ends where a character of
another class stands, so a text that is put together from runs with separators between them tells
the runs, and a text that is put together from lines tells the lines.
-/

namespace FlatSchema.Text

section Lists

variable {α β : Type}

/-- Where a run ends is told by what follows it, if that is of another class. -/
theorem append_inj_of_runs {kept : α → Bool} {run run' rest rest' : List α}
    (each : ∀ item ∈ run, kept item = true) (each' : ∀ item ∈ run', kept item = true)
    (stops : ∀ item ∈ rest.head?, kept item = false)
    (stops' : ∀ item ∈ rest'.head?, kept item = false) (same : run ++ rest = run' ++ rest') :
    run = run' ∧ rest = rest' := by
  induction run generalizing run' with
  | nil =>
    cases run' with
    | nil => exact ⟨rfl, same⟩
    | cons item run' =>
      rw [List.nil_append, List.cons_append] at same
      have stopped : kept item = false := stops item (by rw [same, List.head?_cons]; rfl)
      exact absurd ((each' item List.mem_cons_self).symm.trans stopped) (by decide)
  | cons item run inductionHypothesis =>
    rw [List.forall_mem_cons] at each
    cases run' with
    | nil =>
      rw [List.nil_append, List.cons_append] at same
      have stopped : kept item = false := stops' item (by rw [← same, List.head?_cons]; rfl)
      exact absurd (each.1.symm.trans stopped) (by decide)
    | cons item' run' =>
      rw [List.forall_mem_cons] at each'
      obtain ⟨rfl, further⟩ := List.cons.inj same
      obtain ⟨rfl, rfl⟩ := inductionHypothesis each.2 each'.2 further
      exact ⟨rfl, rfl⟩

/-- Items of which each can be told from its image can be told from the list of images. -/
theorem map_inj_of_each {condition : α → Prop} {image : α → β} {items items' : List α}
    (tells : ∀ item item', condition item → condition item' → image item = image item' →
      item = item')
    (each : ∀ item ∈ items, condition item) (each' : ∀ item ∈ items', condition item)
    (same : items.map image = items'.map image) : items = items' := by
  induction items generalizing items' with
  | nil => exact (List.map_eq_nil_iff.mp same.symm).symm
  | cons item items inductionHypothesis =>
    cases items' with
    | nil => cases same
    | cons item' items' =>
      rw [List.forall_mem_cons] at each each'
      obtain ⟨first, further⟩ := List.cons.inj same
      rw [tells item item' each.1 each'.1 first, inductionHypothesis each.2 each'.2 further]

end Lists

section Runs

variable {kept : Char → Bool}

/-- A text whose characters are all of one class. -/
def Run (kept : Char → Bool) (text : String) : Prop :=
  ∀ character ∈ text.toList, kept character = true

/-- A text that does not go on with a character of a class. -/
def Stops (kept : Char → Bool) (text : String) : Prop :=
  ∀ character ∈ text.toList.head?, kept character = false

instance (text : String) : Decidable (Run kept text) :=
  decidable_of_iff (text.toList.all kept = true) List.all_eq_true

instance (text : String) : Decidable (Stops kept text) :=
  decidable_of_iff (text.toList.head?.all (!kept ·) = true) (by simp [Stops, Option.all_eq_true])

theorem Run.append {first second : String} (run : Run kept first) (run' : Run kept second) :
    Run kept (first ++ second) := by
  unfold Run
  rw [String.toList_append, List.forall_mem_append]
  exact ⟨run, run'⟩

theorem Run.mono {wider : Char → Bool} {text : String} (run : Run kept text)
    (included : ∀ character, kept character = true → wider character = true) : Run wider text :=
  fun character member => included character (run character member)

theorem Stops.append {lead : String} (stops : Stops kept lead) (written : lead ≠ "")
    (rest : String) : Stops kept (lead ++ rest) := by
  have inked : lead.toList ≠ [] := by simpa using written
  obtain ⟨character, characters, spelled⟩ := List.exists_cons_of_ne_nil inked
  unfold Stops at stops ⊢
  rw [String.toList_append, spelled]
  rwa [spelled] at stops

theorem Run.append_inj {run run' rest rest' : String} (isRun : Run kept run)
    (isRun' : Run kept run') (stops : Stops kept rest) (stops' : Stops kept rest')
    (same : run ++ rest = run' ++ rest') : run = run' ∧ rest = rest' := by
  have characters : run.toList ++ rest.toList = run'.toList ++ rest'.toList := by
    rw [← String.toList_append, ← String.toList_append, same]
  obtain ⟨runs, rests⟩ := append_inj_of_runs isRun isRun' stops stops' characters
  exact ⟨String.toList_inj.mp runs, String.toList_inj.mp rests⟩

end Runs

section Separated

/-- A list with separators, from the second item on. -/
def further (separator : String) (items : List String) : String :=
  String.join (items.map (separator ++ ·))

theorem intercalate_cons (separator item : String) (items : List String) :
    separator.intercalate (item :: items) = item ++ further separator items := by
  induction items generalizing item with
  | nil => simp [further]
  | cons next items inductionHypothesis =>
    rw [String.intercalate_cons_cons, inductionHypothesis, further, further, List.map_cons,
      String.join_cons]
    simp only [String.append_assoc]

variable {kept : Char → Bool} {separator : String}

section

variable (stops : Stops kept separator) (written : separator ≠ "")

include stops written

theorem stops_further (items : List String) : Stops kept (further separator items) := by
  cases items with
  | nil => exact fun character member => absurd member (by simp [further])
  | cons item items =>
    rw [further, List.map_cons, String.join_cons, String.append_assoc]
    exact stops.append written _

theorem further_inj {items items' : List String} (each : ∀ item ∈ items, Run kept item)
    (each' : ∀ item ∈ items', Run kept item)
    (same : further separator items = further separator items') : items = items' := by
  induction items generalizing items' with
  | nil =>
    cases items' with
    | nil => rfl
    | cons item items' => simp [further, String.join_cons, written] at same
  | cons item items inductionHypothesis =>
    cases items' with
    | nil => simp [further, String.join_cons, written] at same
    | cons item' items' =>
      rw [List.forall_mem_cons] at each each'
      simp only [further, List.map_cons, String.join_cons, String.append_assoc,
        String.append_right_inj] at same
      obtain ⟨rfl, rest⟩ := each.1.append_inj each'.1 (stops_further stops written items)
        (stops_further stops written items') same
      rw [inductionHypothesis each.2 each'.2 rest]

/-- Items without the separator can be told from the separated list, if there are any. -/
theorem intercalate_inj {items items' : List String} (nonempty : items ≠ [])
    (nonempty' : items' ≠ []) (each : ∀ item ∈ items, Run kept item)
    (each' : ∀ item ∈ items', Run kept item)
    (same : separator.intercalate items = separator.intercalate items') : items = items' := by
  obtain ⟨item, items, rfl⟩ := List.exists_cons_of_ne_nil nonempty
  obtain ⟨item', items', rfl⟩ := List.exists_cons_of_ne_nil nonempty'
  rw [intercalate_cons, intercalate_cons] at same
  rw [List.forall_mem_cons] at each each'
  obtain ⟨rfl, rest⟩ := each.1.append_inj each'.1 (stops_further stops written items)
    (stops_further stops written items') same
  rw [further_inj stops written each.2 each'.2 rest]

/-- Where no item is empty, it can also be told whether there are any. -/
theorem intercalate_inj_of_inked {items items' : List String}
    (each : ∀ item ∈ items, Run kept item) (each' : ∀ item ∈ items', Run kept item)
    (inked : ∀ item ∈ items, item ≠ "") (inked' : ∀ item ∈ items', item ≠ "")
    (same : separator.intercalate items = separator.intercalate items') : items = items' := by
  cases items with
  | nil =>
    cases items' with
    | nil => rfl
    | cons item items' =>
      rw [intercalate_cons, String.intercalate_nil] at same
      exact absurd (String.append_eq_empty_iff.mp same.symm).1 (inked' item List.mem_cons_self)
  | cons item items =>
    cases items' with
    | nil =>
      rw [intercalate_cons, String.intercalate_nil] at same
      exact absurd (String.append_eq_empty_iff.mp same).1 (inked item List.mem_cons_self)
    | cons item' items' =>
      exact intercalate_inj stops written (List.cons_ne_nil _ _) (List.cons_ne_nil _ _) each each'
        same

end

end Separated

section Lines

theorem oneLine_intercalate {separator : String} {items : List String} (between : OneLine separator)
    (each : ∀ item ∈ items, OneLine item) : OneLine (separator.intercalate items) := by
  cases items with
  | nil =>
    rw [String.intercalate_nil]
    decide
  | cons item items =>
    rw [List.forall_mem_cons] at each
    rw [intercalate_cons]
    apply each.1.append
    apply oneLine_join
    rw [List.forall_mem_map]
    exact fun item member => between.append (each.2 item member)

theorem indentLine_injective : Function.Injective indentLine := by
  intro line line' same
  unfold indentLine at same
  split at same
  · next empty =>
    split at same
    · exact same
    · simp [String.isEmpty_iff.mp empty] at same
  · split at same
    · next empty => simp [String.isEmpty_iff.mp empty] at same
    · exact (String.append_right_inj _).mp same

theorem OneLine.indentLine {line : String} (oneLine : OneLine line) :
    OneLine (indentLine line) := by
  unfold Text.indentLine
  split
  · exact oneLine
  · exact OneLine.append (by decide) oneLine

/-- Lines can be told from the text that they form. -/
theorem intercalate_newline_inj {lines lines' : List String} (nonempty : lines ≠ [])
    (nonempty' : lines' ≠ []) (oneLine : ∀ line ∈ lines, OneLine line)
    (oneLine' : ∀ line ∈ lines', OneLine line)
    (same : "\n".intercalate lines = "\n".intercalate lines') : lines = lines' := by
  have run {line : String} (oneLine : OneLine line) : Run (· ≠ '\n') line :=
    fun character member => decide_eq_true (oneLine character member).1
  exact intercalate_inj (by decide) (by decide) nonempty nonempty'
    (fun line member => run (oneLine line member)) (fun line member => run (oneLine' line member))
    same

theorem linesFrom_of_plain {line : List Char}
    (plain : ∀ character ∈ line, character ≠ '\n' ∧ character ≠ '\r') {reversed : List Char}
    (inked : reversed ≠ [] ∨ line ≠ []) : linesFrom reversed line = [reversed.reverse ++ line] := by
  induction line generalizing reversed with
  | nil =>
    have begun : reversed ≠ [] := by simpa using inked
    simp [linesFrom, begun]
  | cons character line inductionHypothesis =>
    obtain ⟨here, further⟩ := List.forall_mem_cons.mp plain
    rw [linesFrom.eq_3 _ _ _ here.1, inductionHypothesis further (.inl (List.cons_ne_nil _ _))]
    simp

/-- Lines that are not empty come back from the text that they form, without a line end behind
them. -/
theorem lines_intercalate {lines : List String} (oneLine : ∀ line ∈ lines, OneLine line)
    (inked : ∀ line ∈ lines, line ≠ "") : Text.lines ("\n".intercalate lines) = lines := by
  have characters : linesFrom [] ("\n".intercalate lines).toList = lines.map String.toList := by
    induction lines with
    | nil => rfl
    | cons line lines inductionHypothesis =>
      obtain ⟨here, further⟩ := List.forall_mem_cons.mp oneLine
      obtain ⟨inkedHere, inkedFurther⟩ := List.forall_mem_cons.mp inked
      cases lines with
      | nil =>
        rw [String.intercalate_singleton, linesFrom_of_plain here (.inr (by simpa using inkedHere))]
        rfl
      | cons next lines =>
        have text : ("\n".intercalate (line :: next :: lines)).toList =
            line.toList ++ '\n' :: ("\n".intercalate (next :: lines)).toList := by
          simp [String.intercalate_cons_cons]
        rw [text, linesFrom_append here List.not_mem_nil, inductionHypothesis further inkedFurther]
        rfl
  rw [Text.lines, characters, List.map_map]
  exact List.map_id'' (fun _ => String.ofList_toList) lines

end Lines

end FlatSchema.Text
