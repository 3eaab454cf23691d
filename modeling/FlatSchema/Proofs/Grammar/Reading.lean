import FlatSchema.Proofs.Grammar.Language

/-!
What it means that a rule reads a phrase. Whatever the rule reads is a word of the phrase with its
value, and wherever a word of the phrase stands in front of bytes that cannot prolong it, the rule
reads this word and nothing more. The laws of sequence, choice and repetition carry this from
tokens to whole files.
-/

namespace FlatSchema.Rule

open Grammar

variable {α β : Type}

theorem bind_apply (rule : Rule α) (next : α → Rule β) (bytes : List UInt8) :
    (rule >>= next) bytes = (rule bytes).bind fun (value, rest) => next value rest := rfl

theorem bind_of_match {rule : Rule α} {next : α → Rule β} {bytes rest : List UInt8} {value : α}
    (matched : rule bytes = some (value, rest)) :
    (rule >>= next) bytes = next value rest := by
  rw [bind_apply, matched]
  rfl

theorem bind_of_no_match {rule : Rule α} {next : α → Rule β} {bytes : List UInt8}
    (unmatched : rule bytes = none) :
    (rule >>= next) bytes = none := by
  rw [bind_apply, unmatched]
  rfl

/-- A sequence reads what its parts read one after the other. -/
theorem bind_eq_some_iff {rule : Rule α} {next : α → Rule β} {bytes rest : List UInt8}
    {value : β} :
    (rule >>= next) bytes = some (value, rest) ↔
      ∃ first middle, rule bytes = some (first, middle) ∧
        next first middle = some (value, rest) := by
  rw [bind_apply, Option.bind_eq_some_iff]
  exact ⟨fun ⟨⟨first, middle⟩, found⟩ => ⟨first, middle, found⟩,
    fun ⟨first, middle, found⟩ => ⟨(first, middle), found⟩⟩

theorem pure_apply (value : α) (bytes : List UInt8) :
    (pure value : Rule α) bytes = some (value, bytes) := rfl

theorem pure_eq_some_iff {result value : α} {bytes rest : List UInt8} :
    (pure result : Rule α) bytes = some (value, rest) ↔ result = value ∧ bytes = rest := by
  simp [pure_apply]

theorem map_apply (function : α → β) (rule : Rule α) (bytes : List UInt8) :
    (function <$> rule) bytes =
      (rule bytes).map fun (value, rest) => (function value, rest) := by
  cases matched : rule bytes <;> simp [Functor.map, StateT.map, matched]

theorem seqRight_apply (first : Rule α) (second : Rule β) (bytes : List UInt8) :
    (first *> second) bytes = (first >>= fun _ => second) bytes := rfl

theorem seqLeft_apply (first : Rule α) (second : Rule β) (bytes : List UInt8) :
    (first <* second) bytes =
      (first >>= fun value => second >>= fun _ => pure value) bytes := rfl

theorem orElse_apply (first second : Rule α) (bytes : List UInt8) :
    (first <|> second) bytes = (first bytes).or (second bytes) := by
  change (first bytes).orElse (fun _ => second bytes) = _
  exact Option.orElse_eq_or

theorem optional_of_match {rule : Rule α} {bytes rest : List UInt8} {value : α}
    (matched : rule bytes = some (value, rest)) :
    optional rule bytes = some (some value, rest) := by
  simp [optional, orElse_apply, map_apply, matched]

theorem optional_of_no_match {rule : Rule α} {bytes : List UInt8}
    (unmatched : rule bytes = none) :
    optional rule bytes = some (none, bytes) := by
  simp [optional, orElse_apply, map_apply, unmatched, pure_apply]

/-- An optional rule reads what the rule reads, or nothing where the rule does not match. -/
theorem optional_eq_some {rule : Rule α} {bytes rest : List UInt8} {value? : Option α}
    (matched : optional rule bytes = some (value?, rest)) :
    (∃ value, value? = some value ∧ rule bytes = some (value, rest)) ∨
      (value? = none ∧ rule bytes = none ∧ bytes = rest) := by
  cases found : rule bytes with
  | none =>
    rw [optional_of_no_match found] at matched
    cases matched
    exact .inr ⟨rfl, rfl, rfl⟩
  | some result =>
    obtain ⟨value, left⟩ := result
    rw [optional_of_match found] at matched
    cases matched
    exact .inl ⟨value, rfl, rfl⟩

/-- The rule reads exactly the words of the phrase. Bytes that do not follow may prolong a word. -/
structure Reads (rule : Rule α) (phrase : Phrase α) (follows : List UInt8 → Prop) : Prop where
  sound {bytes rest : List UInt8} {value : α} :
    rule bytes = some (value, rest) → ∃ word, phrase word value ∧ word ++ rest = bytes
  complete {word rest : List UInt8} {value : α} :
    phrase word value → follows rest → rule (word ++ rest) = some (value, rest)

/-- For words that end by themselves. -/
def Anything (_ : List UInt8) : Prop :=
  True

/-- A rule that reads words of at least one byte advances. -/
theorem Reads.advances {rule : Rule α} {phrase : Phrase α} {follows : List UInt8 → Prop}
    (reads : rule.Reads phrase follows)
    (nonempty : ∀ {word value}, phrase word value → word ≠ []) :
    rule.Advances := by
  intro bytes value rest matched
  obtain ⟨word, written, rfl⟩ := reads.sound matched
  have positive := List.length_pos_iff.mpr (nonempty written)
  simp only [List.length_append]
  omega

theorem Reads.map {rule : Rule α} {phrase : Phrase α} {image : Phrase β}
    {follows : List UInt8 → Prop} {function : α → β} (reads : rule.Reads phrase follows)
    (image_iff : ∀ {word value}, image word value ↔
      ∃ source, phrase word source ∧ function source = value) :
    (function <$> rule : Rule β).Reads image follows where
  sound matched := by
    rw [map_apply, Option.map_eq_some_iff] at matched
    obtain ⟨⟨source, rest⟩, found, equality⟩ := matched
    cases equality
    obtain ⟨word, written, split⟩ := reads.sound found
    exact ⟨word, image_iff.mpr ⟨source, written, rfl⟩, split⟩
  complete written follow := by
    obtain ⟨source, sourceWritten, rfl⟩ := image_iff.mp written
    rw [map_apply, reads.complete sourceWritten follow]
    rfl

/-- Repetition reads words one after the other and stops where the rule does not match. -/
theorem collect_sound {rule : Rule α} {phrase : Phrase α} {follows : List UInt8 → Prop}
    (reads : rule.Reads phrase follows) (advances : rule.Advances) {bytes rest : List UInt8}
    {values : List α} (collected : collect rule bytes = (values, rest)) :
    (∃ word, Repeated phrase word values ∧ word ++ rest = bytes) ∧ rule rest = none := by
  induction length : bytes.length using Nat.strongRecOn generalizing bytes values with
  | ind length inductionHypothesis =>
    cases matched : rule bytes with
    | none =>
      rw [collect_of_no_match matched] at collected
      cases collected
      exact ⟨⟨[], .nil, rfl⟩, matched⟩
    | some result =>
      obtain ⟨value, middle⟩ := result
      have shorter := advances bytes value middle matched
      rw [collect_of_match advances matched] at collected
      rcases further : collect rule middle with ⟨tail, last⟩
      rw [further] at collected
      cases collected
      obtain ⟨⟨others, repeated, rfl⟩, stopped⟩ :=
        inductionHypothesis middle.length (by omega) further rfl
      obtain ⟨word, written, rfl⟩ := reads.sound matched
      exact ⟨⟨word ++ others, .cons written repeated, List.append_assoc ..⟩, stopped⟩

/-- Repetition reads all of several words if each of them may follow the one before. -/
theorem collect_complete {rule : Rule α} {phrase : Phrase α} {follows : List UInt8 → Prop}
    (reads : rule.Reads phrase follows) (advances : rule.Advances)
    (continues : ∀ {word value rest}, phrase word value → follows rest → follows (word ++ rest))
    {word rest : List UInt8} {values : List α} (repeated : Repeated phrase word values)
    (follow : follows rest) (stops : rule rest = none) :
    collect rule (word ++ rest) = (values, rest) ∧ follows (word ++ rest) := by
  induction repeated with
  | nil => exact ⟨collect_of_no_match stops, follow⟩
  | @cons word others value values written _ inductionHypothesis =>
    obtain ⟨collected, next⟩ := inductionHypothesis
    rw [List.append_assoc]
    refine ⟨?_, continues written next⟩
    rw [collect_of_match advances (reads.complete written next), collected]

/-- A word with a separator after it. -/
def Closed (phrase : Phrase α) (separator : List UInt8 → Prop) : Phrase α :=
  fun whole value => ∃ word mark, phrase word value ∧ separator mark ∧ word ++ mark = whole

/-- A word with a separator in front of it. -/
def Opened (phrase : Phrase α) (separator : List UInt8 → Prop) : Phrase α :=
  fun whole value => ∃ word mark, phrase word value ∧ separator mark ∧ mark ++ word = whole

section Lists

variable {phrase : Phrase α} {separator : List UInt8 → Prop}

theorem listed_cons {word mark rest : List UInt8} {value : α} {values : List α}
    (written : phrase word value) (markWritten : separator mark)
    (listed : Listed phrase separator rest values) :
    Listed phrase separator (word ++ (mark ++ rest)) (value :: values) := by
  cases listed with
  | empty => simpa using Listed.trailing (.last written) markWritten
  | plain separated => exact .plain (.cons written markWritten separated)
  | trailing separated trailing =>
    simpa using Listed.trailing (.cons written markWritten separated) trailing

theorem listed_of_repeated {closed last : List UInt8} {values : List α} {last? : Option α}
    (repeated : Repeated (Closed phrase separator) closed values)
    (final : Perhaps phrase last last?) :
    Listed phrase separator (closed ++ last) (values ++ last?.toList) := by
  induction repeated with
  | nil =>
    cases final with
    | missing => exact .empty
    | present written => exact .plain (.last written)
  | @cons whole others value values written _ inductionHypothesis =>
    obtain ⟨word, mark, wordWritten, markWritten, rfl⟩ := written
    simp only [List.append_assoc, List.cons_append]
    exact listed_cons wordWritten markWritten inductionHypothesis

theorem repeated_of_separated {word : List UInt8} {values : List α}
    (separated : Separated phrase separator word values) :
    ∃ closed last others final, Repeated (Closed phrase separator) closed others ∧
      phrase last final ∧ closed ++ last = word ∧ others ++ [final] = values := by
  induction separated with
  | @last word value written => exact ⟨[], word, [], value, .nil, written, rfl, rfl⟩
  | @cons word mark rest value values written markWritten _ inductionHypothesis =>
    obtain ⟨closed, last, others, final, repeated, lastWritten, rfl, rfl⟩ := inductionHypothesis
    refine ⟨(word ++ mark) ++ closed, last, value :: others, final, ?_, lastWritten, ?_, rfl⟩
    · exact .cons ⟨word, mark, written, markWritten, rfl⟩ repeated
    · simp only [List.append_assoc]

theorem repeated_append {first second : List UInt8} {values others : List α}
    (repeated : Repeated phrase first values) (further : Repeated phrase second others) :
    Repeated phrase (first ++ second) (values ++ others) := by
  induction repeated with
  | nil => exact further
  | cons written _ inductionHypothesis =>
    rw [List.append_assoc, List.cons_append]
    exact .cons written inductionHypothesis

/-- A list is a repetition of words with separators and perhaps a last word without one. -/
theorem listed_iff_repeated {word : List UInt8} {values : List α} :
    Listed phrase separator word values ↔
      ∃ closed last others last?, Repeated (Closed phrase separator) closed others ∧
        Perhaps phrase last last? ∧ closed ++ last = word ∧ others ++ last?.toList = values := by
  constructor
  · intro listed
    cases listed with
    | empty => exact ⟨[], [], [], none, .nil, .missing, rfl, rfl⟩
    | plain separated =>
      obtain ⟨closed, last, others, final, repeated, written, rfl, rfl⟩ :=
        repeated_of_separated separated
      exact ⟨closed, last, others, some final, repeated, .present written, rfl, rfl⟩
    | @trailing _ mark _ separated markWritten =>
      obtain ⟨closed, last, others, final, repeated, written, rfl, rfl⟩ :=
        repeated_of_separated separated
      have whole : Repeated (Closed phrase separator) (last ++ mark) [final] := by
        simpa using Repeated.cons ⟨last, mark, written, markWritten, rfl⟩ .nil
      refine ⟨closed ++ (last ++ mark), [], others ++ [final], none,
        repeated_append repeated whole, .missing, ?_, ?_⟩
      · simp only [List.append_assoc, List.append_nil]
      · simp only [Option.toList_none, List.append_nil]
  · rintro ⟨closed, last, others, last?, repeated, final, rfl, rfl⟩
    exact listed_of_repeated repeated final

theorem separated_iff_repeated {word : List UInt8} {values : List α} :
    Separated phrase separator word values ↔
      ∃ first opened value others, phrase first value ∧
        Repeated (Opened phrase separator) opened others ∧ first ++ opened = word ∧
        value :: others = values := by
  constructor
  · intro separated
    induction separated with
    | @last word value written =>
      exact ⟨word, [], value, [], written, .nil, List.append_nil word, rfl⟩
    | @cons word mark rest value values written markWritten _ inductionHypothesis =>
      obtain ⟨first, opened, second, others, firstWritten, repeated, rfl, rfl⟩ :=
        inductionHypothesis
      refine ⟨word, (mark ++ first) ++ opened, value, second :: others, written, ?_, ?_, rfl⟩
      · exact .cons ⟨first, mark, firstWritten, markWritten, rfl⟩ repeated
      · simp only [List.append_assoc]
  · rintro ⟨first, opened, value, others, written, repeated, rfl, rfl⟩
    induction repeated generalizing first value with
    | nil => simpa using Separated.last written
    | cons openedWritten _ inductionHypothesis =>
      obtain ⟨second, mark, secondWritten, markWritten, rfl⟩ := openedWritten
      rw [List.append_assoc]
      exact .cons written markWritten (inductionHypothesis second _ secondWritten)

variable {item : Rule α} {mark : Rule Unit} {follows : List UInt8 → Prop}

theorem closed_reads (reads : item.Reads phrase follows)
    (markReads : mark.Reads (fun word _ => separator word) Anything)
    (delimits : ∀ {word rest}, separator word → follows (word ++ rest)) :
    (item <* mark : Rule α).Reads (Closed phrase separator) Anything where
  sound matched := by
    rw [seqLeft_apply, bind_eq_some_iff] at matched
    obtain ⟨value, middle, itemMatched, matched⟩ := matched
    rw [bind_eq_some_iff] at matched
    obtain ⟨_, _, markMatched, matched⟩ := matched
    rw [pure_eq_some_iff] at matched
    obtain ⟨rfl, rfl⟩ := matched
    obtain ⟨word, written, rfl⟩ := reads.sound itemMatched
    obtain ⟨separatorWord, markWritten, rfl⟩ := markReads.sound markMatched
    exact ⟨word ++ separatorWord, ⟨word, separatorWord, written, markWritten, rfl⟩,
      List.append_assoc ..⟩
  complete written _ := by
    obtain ⟨word, separatorWord, written, markWritten, rfl⟩ := written
    have markRead (rest : List UInt8) : mark (separatorWord ++ rest) = some ((), rest) :=
      markReads.complete markWritten trivial
    rw [seqLeft_apply, List.append_assoc,
      bind_of_match (reads.complete written (delimits markWritten)),
      bind_of_match (markRead _), pure_apply]

theorem opened_reads (reads : item.Reads phrase follows)
    (markReads : mark.Reads (fun word _ => separator word) Anything) :
    (mark *> item : Rule α).Reads (Opened phrase separator) follows where
  sound matched := by
    rw [seqRight_apply, bind_eq_some_iff] at matched
    obtain ⟨_, middle, markMatched, itemMatched⟩ := matched
    obtain ⟨separatorWord, markWritten, rfl⟩ := markReads.sound markMatched
    obtain ⟨word, written, rfl⟩ := reads.sound itemMatched
    exact ⟨separatorWord ++ word, ⟨word, separatorWord, written, markWritten, rfl⟩,
      List.append_assoc ..⟩
  complete written follow := by
    obtain ⟨word, separatorWord, written, markWritten, rfl⟩ := written
    have markRead (rest : List UInt8) : mark (separatorWord ++ rest) = some ((), rest) :=
      markReads.complete markWritten trivial
    rw [seqRight_apply, List.append_assoc, bind_of_match (markRead _)]
    exact reads.complete written follow

/-- A list is read up to bytes at which neither an item nor a separator stands. -/
theorem listOf_reads (reads : item.Reads phrase follows)
    (markReads : mark.Reads (fun word _ => separator word) Anything)
    (delimits : ∀ {word rest}, separator word → follows (word ++ rest))
    (nonempty : ∀ {word value}, phrase word value → word ≠ []) :
    (listOf item mark).Reads (Listed phrase separator)
      (fun rest => follows rest ∧ item rest = none ∧ mark rest = none) := by
  have closedReads := closed_reads reads markReads delimits
  have advances : (item <* mark : Rule α).Advances := by
    apply closedReads.advances
    rintro whole value ⟨word, separatorWord, written, -, rfl⟩ empty
    exact nonempty written (List.append_eq_nil_iff.mp empty).1
  constructor
  · intro bytes rest values matched
    simp only [listOf] at matched
    rw [bind_eq_some_iff] at matched
    obtain ⟨_, middle, collected, matched⟩ := matched
    rw [bind_eq_some_iff] at matched
    obtain ⟨last?, left, lastMatched, matched⟩ := matched
    rw [pure_eq_some_iff] at matched
    obtain ⟨rfl, rfl⟩ := matched
    obtain ⟨⟨closed, repeated, rfl⟩, -⟩ :=
      collect_sound closedReads advances (Option.some.inj collected)
    obtain ⟨last, final, rfl⟩ : ∃ last, Perhaps phrase last last? ∧ last ++ left = middle := by
      rcases optional_eq_some lastMatched with ⟨value, rfl, found⟩ | ⟨rfl, -, rfl⟩
      · obtain ⟨word, written, split⟩ := reads.sound found
        exact ⟨word, .present written, split⟩
      · exact ⟨[], .missing, rfl⟩
    exact ⟨closed ++ last, listed_of_repeated repeated final, List.append_assoc ..⟩
  · rintro word rest values listed ⟨follow, noItem, noMark⟩
    obtain ⟨closed, last, others, last?, repeated, final, rfl, rfl⟩ :=
      listed_iff_repeated.mp listed
    have unclosed : (item <* mark : Rule α) (last ++ rest) = none := by
      rw [seqLeft_apply]
      cases final with
      | missing => exact bind_of_no_match noItem
      | present written =>
        rw [bind_of_match (reads.complete written follow)]
        exact bind_of_no_match noMark
    have lastRead : optional item (last ++ rest) = some (last?, rest) := by
      cases final with
      | missing => exact optional_of_no_match noItem
      | present written => exact optional_of_match (reads.complete written follow)
    obtain ⟨collected, -⟩ := collect_complete closedReads advances (fun _ _ => trivial)
      repeated trivial unclosed
    have separatedRead : many (item <* mark) ((closed ++ last) ++ rest) =
        some (others, last ++ rest) := by
      rw [List.append_assoc, many, collected]
    rw [listOf, bind_of_match separatedRead, bind_of_match lastRead, pure_apply]

/-- One item or more are read up to bytes at which no separator stands. -/
theorem listOf1_reads (reads : item.Reads phrase follows)
    (markReads : mark.Reads (fun word _ => separator word) Anything)
    (delimits : ∀ {word rest}, separator word → follows (word ++ rest))
    (nonempty : ∀ {word}, separator word → word ≠ []) :
    (listOf1 item mark).Reads (Separated phrase separator)
      (fun rest => follows rest ∧ mark rest = none) := by
  have openedReads := opened_reads reads markReads
  have advances : (mark *> item : Rule α).Advances := by
    apply openedReads.advances
    rintro whole value ⟨word, separatorWord, -, markWritten, rfl⟩ empty
    exact nonempty markWritten (List.append_eq_nil_iff.mp empty).1
  have continues : ∀ {word value rest}, Opened phrase separator word value → follows rest →
      follows (word ++ rest) := by
    rintro whole value rest ⟨word, separatorWord, -, markWritten, rfl⟩ -
    rw [List.append_assoc]
    exact delimits markWritten
  constructor
  · intro bytes rest values matched
    simp only [listOf1] at matched
    rw [bind_eq_some_iff] at matched
    obtain ⟨first, middle, firstMatched, matched⟩ := matched
    rw [bind_eq_some_iff] at matched
    obtain ⟨_, _, collected, matched⟩ := matched
    rw [pure_eq_some_iff] at matched
    obtain ⟨rfl, rfl⟩ := matched
    obtain ⟨word, written, rfl⟩ := reads.sound firstMatched
    obtain ⟨⟨opened, repeated, rfl⟩, -⟩ :=
      collect_sound openedReads advances (Option.some.inj collected)
    exact ⟨word ++ opened, separated_iff_repeated.mpr
      ⟨word, opened, first, _, written, repeated, rfl, rfl⟩, List.append_assoc ..⟩
  · rintro word rest values separated ⟨follow, noMark⟩
    obtain ⟨first, opened, value, others, written, repeated, rfl, rfl⟩ :=
      separated_iff_repeated.mp separated
    have stops : (mark *> item : Rule α) rest = none := by
      rw [seqRight_apply]
      exact bind_of_no_match noMark
    obtain ⟨collected, next⟩ := collect_complete openedReads advances continues repeated
      follow stops
    have othersRead : many (mark *> item) (opened ++ rest) = some (others, rest) := by
      rw [many, collected]
    rw [List.append_assoc, listOf1, bind_of_match (reads.complete written next),
      bind_of_match othersRead, pure_apply]

end Lists

end FlatSchema.Rule
