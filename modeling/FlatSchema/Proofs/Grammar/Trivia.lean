import FlatSchema.Proofs.Grammar.Token

/-!
Comments and trivia as they are read. Skipping comments and the blanks after them leads past any
trivia to what follows it, and leaves nothing exactly where nothing but trivia was there. What it
leaves starts with something else, and cutting that short makes no trivia of it.
-/

namespace FlatSchema

namespace Grammar

theorem Trivia.append {first second : List UInt8} (before : Trivia first)
    (after : Trivia second) : Trivia (first ++ second) := by
  induction before with
  | nil => exact after
  | blank isBlank _ inductionHypothesis => exact .blank isBlank inductionHypothesis
  | comment written _ inductionHypothesis =>
    rw [List.append_assoc]
    exact .comment written inductionHypothesis

theorem Trivia.of_blanks {blanks : List UInt8} (blank : Blanks blanks) : Trivia blanks := by
  induction blanks with
  | nil => exact .nil
  | cons byte blanks inductionHypothesis =>
    exact .blank (blank byte (by simp))
      (inductionHypothesis fun other membership => blank other (by simp [membership]))

theorem LastTrivia.append {first second : List UInt8} (before : Trivia first)
    (last : LastTrivia second) : LastTrivia (first ++ second) := by
  cases last with
  | closed after => exact .closed (before.append after)
  | openLine after oneLine =>
    rw [← List.append_assoc]
    exact .openLine (before.append after) oneLine

end Grammar

namespace Token

open Grammar Rule

theorem dropWhile_line {body : List UInt8} (oneLine : Byte.newline ∉ body)
    (rest : List UInt8) :
    (body ++ rest).dropWhile (· ≠ Byte.newline) = rest.dropWhile (· ≠ Byte.newline) := by
  apply List.dropWhile_append_of_pos
  intro byte membership
  have different : byte ≠ Byte.newline := fun equal => oneLine (equal ▸ membership)
  simpa using different

theorem afterNewline_append {body : List UInt8} (oneLine : Byte.newline ∉ body)
    (rest : List UInt8) : afterNewline (body ++ Byte.newline :: rest) = rest := by
  rw [afterNewline, dropWhile_line oneLine]
  simp

theorem afterNewline_eq_nil {body : List UInt8} (oneLine : Byte.newline ∉ body) :
    afterNewline body = [] := by
  have dropped := dropWhile_line oneLine []
  rw [List.append_nil] at dropped
  rw [afterNewline, dropped]
  rfl

/-- A line ends in a newline, or the bytes end in it. -/
theorem afterNewline_split (bytes : List UInt8) :
    (∃ body, Byte.newline ∉ body ∧ body ++ Byte.newline :: afterNewline bytes = bytes) ∨
      (Byte.newline ∉ bytes ∧ afterNewline bytes = []) := by
  by_cases found : Byte.newline ∈ bytes
  · obtain ⟨body, rest, rfl, oneLine⟩ := List.eq_append_cons_of_mem found
    exact .inl ⟨body, oneLine, by rw [afterNewline_append oneLine]⟩
  · exact .inr ⟨found, afterNewline_eq_nil found⟩

theorem afterCommentEnd?_sound {bytes rest : List UInt8}
    (found : afterCommentEnd? bytes = some rest) :
    ∃ body, ¬ [Byte.star, Byte.slash] <:+: body ++ [Byte.star] ∧
      body ++ [Byte.star, Byte.slash] ++ rest = bytes := by
  fun_induction afterCommentEnd? bytes with
  | case1 => cases found
  | case2 => cases found
  | case3 first second rest both =>
    cases found
    obtain ⟨rfl, rfl⟩ := both
    exact ⟨[], by decide, rfl⟩
  | case4 first second rest other inductionHypothesis =>
    obtain ⟨body, fresh, split⟩ := inductionHypothesis found
    refine ⟨first :: body, ?_, by simp [← split]⟩
    rw [List.cons_append, List.infix_cons_iff]
    rintro (front | inside)
    · -- The body goes on with `second`, or it is over and `second` is the star.
      rw [List.cons_prefix_cons] at front
      obtain ⟨rfl, next⟩ := front
      cases body with
      | nil => simp [Byte.star, Byte.slash] at next
      | cons byte body =>
        rw [List.cons_append, List.cons_prefix_cons] at next
        rw [List.cons_append, List.cons_append, List.cons.injEq] at split
        exact other ⟨rfl, split.1 ▸ next.1.symm⟩
    · exact fresh inside

theorem afterCommentEnd?_complete {body : List UInt8}
    (fresh : ¬ [Byte.star, Byte.slash] <:+: body ++ [Byte.star]) (rest : List UInt8) :
    afterCommentEnd? (body ++ [Byte.star, Byte.slash] ++ rest) = some rest := by
  induction body with
  | nil => simp [afterCommentEnd?]
  | cons first body inductionHypothesis =>
    rw [List.cons_append, List.infix_cons_iff, not_or] at fresh
    have later := inductionHypothesis fresh.2
    cases body with
    | nil =>
      have unequal : Byte.star ≠ Byte.slash := by decide
      simp only [List.nil_append, List.cons_append] at later ⊢
      rw [afterCommentEnd?, if_neg (fun both => unequal both.2), later]
    | cons second body =>
      have notBoth : ¬ (first = Byte.star ∧ second = Byte.slash) := by
        rintro ⟨rfl, rfl⟩
        exact fresh.1 (by simp)
      simp only [List.cons_append] at later ⊢
      rw [afterCommentEnd?, if_neg notBoth, later]

theorem comment_ignoresBlanks : comment.IgnoresBlanks :=
  skipBlanks_ignoresBlanks _

theorem comment_eq_none {bytes : List UInt8} (different : lead? bytes ≠ some Byte.slash) :
    comment bytes = none := by
  have noLine : exactly [Byte.slash, Byte.slash] (bytes.dropWhile Byte.isBlank) = none :=
    exactly_of_head_ne different
  have noBlock : exactly [Byte.slash, Byte.star] (bytes.dropWhile Byte.isBlank) = none :=
    exactly_of_head_ne different
  rw [comment, skipBlanks_bind_apply, orElse_apply, lineComment, bind_of_no_match noLine,
    blockComment, bind_of_no_match noBlock]
  rfl

/-- What is read as a comment is one, unless the bytes end before the line does. -/
theorem comment_sound {bytes rest : List UInt8} (matched : comment bytes = some ((), rest)) :
    ∃ blanks word, Blanks blanks ∧ blanks ++ word ++ rest = bytes ∧
      (Comment word ∨ rest = [] ∧ ∃ body, Byte.newline ∉ body ∧
        [Byte.slash, Byte.slash] ++ body = word) := by
  have whole : bytes.takeWhile Byte.isBlank ++ bytes.dropWhile Byte.isBlank = bytes :=
    List.takeWhile_append_dropWhile
  refine ⟨bytes.takeWhile Byte.isBlank, ?_⟩
  rw [comment, skipBlanks_bind_apply, orElse_apply, Option.or_eq_some_iff] at matched
  rcases matched with line | ⟨-, block⟩
  · rw [lineComment, bind_eq_some_iff] at line
    obtain ⟨_, body, opened, closed⟩ := line
    obtain ⟨_, rfl, split⟩ := (exactly_reads _).sound opened
    obtain rfl : afterNewline body = rest := by
      cases closed
      rfl
    rcases afterNewline_split body with ⟨inside, oneLine, ended⟩ | ⟨oneLine, ended⟩
    · refine ⟨_, blanks_takeWhile bytes, ?_, .inl (.line oneLine)⟩
      rw [← split, ← ended] at whole
      simpa [List.append_assoc] using whole
    · refine ⟨_, blanks_takeWhile bytes, ?_, .inr ⟨ended, body, oneLine, rfl⟩⟩
      rw [ended, List.append_nil, split, whole]
  · rw [blockComment, bind_eq_some_iff] at block
    obtain ⟨_, body, opened, closed⟩ := block
    obtain ⟨_, rfl, split⟩ := (exactly_reads _).sound opened
    obtain ⟨_, found, equality⟩ := Option.map_eq_some_iff.mp closed
    cases equality
    obtain ⟨inside, fresh, rfl⟩ := afterCommentEnd?_sound found
    refine ⟨_, blanks_takeWhile bytes, ?_, .inl (.block fresh)⟩
    rw [← split] at whole
    simpa [List.append_assoc] using whole

theorem comment_slashes (body : List UInt8) :
    comment ([Byte.slash, Byte.slash] ++ body) = some ((), afterNewline body) := by
  have opened : exactly [Byte.slash, Byte.slash] ([Byte.slash, Byte.slash] ++ body) =
      some ((), body) :=
    (exactly_reads _).complete rfl trivial
  have solid : ¬ Byte.isBlank Byte.slash = true := by decide
  simp only [List.cons_append, List.nil_append] at opened ⊢
  rw [comment, skipBlanks_bind_apply, List.dropWhile_cons_of_neg solid, orElse_apply,
    lineComment, bind_of_match opened]
  rfl

theorem comment_slashStar (body : List UInt8) :
    comment ([Byte.slash, Byte.star] ++ body) =
      (afterCommentEnd? body).map fun rest => ((), rest) := by
  have noLine : exactly [Byte.slash, Byte.slash] (Byte.slash :: Byte.star :: body) = none := by
    simp [exactly, Byte.star, Byte.slash]
  have opened : exactly [Byte.slash, Byte.star] ([Byte.slash, Byte.star] ++ body) =
      some ((), body) :=
    (exactly_reads _).complete rfl trivial
  have solid : ¬ Byte.isBlank Byte.slash = true := by decide
  simp only [List.cons_append, List.nil_append] at opened ⊢
  rw [comment, skipBlanks_bind_apply, List.dropWhile_cons_of_neg solid, orElse_apply,
    lineComment, bind_of_no_match noLine, Option.none_or, blockComment, bind_of_match opened]

theorem comment_complete {word : List UInt8} (written : Comment word) (rest : List UInt8) :
    comment (word ++ rest) = some ((), rest) := by
  cases written with
  | line oneLine =>
    rw [List.append_assoc, List.append_assoc, comment_slashes, List.singleton_append,
      afterNewline_append oneLine]
  | block fresh =>
    rw [List.append_assoc, List.append_assoc, comment_slashStar, ← List.append_assoc,
      afterCommentEnd?_complete fresh]
    rfl

theorem comment_advances : comment.Advances := by
  intro bytes _ rest matched
  obtain ⟨blanks, word, -, rfl, isComment⟩ := comment_sound matched
  have positive : 0 < word.length := by
    rcases isComment with written | ⟨-, body, -, rfl⟩
    · cases written <;> simp
    · simp
  simp only [List.length_append]
  omega

theorem skipComments_of_comment {bytes rest : List UInt8}
    (matched : comment bytes = some ((), rest)) : skipComments bytes = skipComments rest := by
  rw [skipComments, bind_apply, bind_apply, many, many, collect_of_match comment_advances matched]
  rfl

theorem skipComments_of_no_comment {bytes : List UInt8} (unmatched : comment bytes = none) :
    skipComments bytes = some ((), bytes) := by
  rw [skipComments, bind_apply, many, collect_of_no_match unmatched]
  rfl

theorem skipComments_sound {bytes rest : List UInt8}
    (skipped : skipComments bytes = some ((), rest)) :
    ∃ trivia, trivia ++ rest = bytes ∧ LastTrivia trivia ∧ (rest ≠ [] → Trivia trivia) := by
  induction length : bytes.length using Nat.strongRecOn generalizing bytes with
  | ind length inductionHypothesis =>
    cases matched : comment bytes with
    | none =>
      rw [skipComments_of_no_comment matched] at skipped
      cases skipped
      exact ⟨[], rfl, .closed .nil, fun _ => .nil⟩
    | some result =>
      obtain ⟨_, middle⟩ := result
      have shorter := comment_advances bytes () middle matched
      rw [skipComments_of_comment matched] at skipped
      obtain ⟨trivia, rfl, last, closed⟩ :=
        inductionHypothesis middle.length (by omega) skipped rfl
      obtain ⟨blanks, word, blank, rfl, written | ⟨ended, body, oneLine, rfl⟩⟩ :=
        comment_sound matched
      · have before : Trivia (blanks ++ word) := by
          simpa using (Trivia.of_blanks blank).append (.comment written .nil)
        refine ⟨blanks ++ word ++ trivia, by simp, last.append before, ?_⟩
        intro nonempty
        exact before.append (closed nonempty)
      · obtain ⟨rfl, rfl⟩ := List.append_eq_nil_iff.mp ended
        refine ⟨blanks ++ ([Byte.slash, Byte.slash] ++ body), by simp,
          .openLine (.of_blanks blank) oneLine, ?_⟩
        intro nonempty
        exact absurd rfl nonempty

theorem skipComments_total (bytes : List UInt8) :
    ∃ rest, skipComments bytes = some ((), rest) :=
  ⟨_, rfl⟩

theorem skipTrivia_of_no_comment {bytes : List UInt8} (unmatched : comment bytes = none) :
    skipTrivia bytes = some ((), bytes.dropWhile Byte.isBlank) := by
  rw [skipTrivia, bind_of_match (skipComments_of_no_comment unmatched), skipBlanks]

theorem skipTrivia_of_comment {bytes rest : List UInt8}
    (matched : comment bytes = some ((), rest)) : skipTrivia bytes = skipTrivia rest := by
  rw [skipTrivia, bind_apply, bind_apply, skipComments_of_comment matched]

theorem skipTrivia_blank {byte : UInt8} (blank : Byte.isBlank byte = true)
    (bytes : List UInt8) : skipTrivia (byte :: bytes) = skipTrivia bytes := by
  have same : comment (byte :: bytes) = comment bytes := by
    rw [← comment_ignoresBlanks (byte :: bytes), List.dropWhile_cons_of_pos blank,
      comment_ignoresBlanks]
  cases matched : comment bytes with
  | none =>
    rw [skipTrivia_of_no_comment matched, skipTrivia_of_no_comment (same.trans matched),
      List.dropWhile_cons_of_pos blank]
  | some result =>
    rw [skipTrivia_of_comment matched, skipTrivia_of_comment (same.trans matched)]

/-- Trivia in front is skipped, whatever follows it. -/
theorem skipTrivia_append {trivia : List UInt8} (before : Trivia trivia) (rest : List UInt8) :
    skipTrivia (trivia ++ rest) = skipTrivia rest := by
  induction before with
  | nil => rfl
  | blank blank _ inductionHypothesis =>
    rw [List.cons_append, skipTrivia_blank blank, inductionHypothesis]
  | comment written _ inductionHypothesis =>
    rw [List.append_assoc, skipTrivia_of_comment (comment_complete written _),
      inductionHypothesis]

theorem skipTrivia_last {last : List UInt8} (trivia : LastTrivia last) :
    skipTrivia last = some ((), []) := by
  have ended : skipTrivia [] = some ((), []) :=
    skipTrivia_of_no_comment (comment_eq_none (by simp [lead?]))
  cases trivia with
  | closed before =>
    rw [← List.append_nil last, skipTrivia_append before, ended]
  | openLine before oneLine =>
    rw [skipTrivia_append before, skipTrivia_of_comment (comment_slashes _),
      afterNewline_eq_nil oneLine, ended]

/-- Where skipping trivia leaves nothing, nothing but trivia was there. -/
theorem lastTrivia_of_skipTrivia {bytes : List UInt8}
    (skipped : skipTrivia bytes = some ((), [])) : LastTrivia bytes := by
  obtain ⟨rest, commentsSkipped⟩ := skipComments_total bytes
  rw [skipTrivia, bind_of_match commentsSkipped, skipBlanks] at skipped
  obtain ⟨trivia, rfl, last, closed⟩ := skipComments_sound commentsSkipped
  cases rest with
  | nil => rwa [List.append_nil]
  | cons byte rest =>
    have blank : Blanks (byte :: rest) := by
      have whole : (byte :: rest).takeWhile Byte.isBlank ++
          (byte :: rest).dropWhile Byte.isBlank = byte :: rest :=
        List.takeWhile_append_dropWhile
      rw [(Prod.mk.inj (Option.some.inj skipped)).2, List.append_nil] at whole
      rw [← whole]
      exact blanks_takeWhile _
    exact .closed ((closed (List.cons_ne_nil _ _)).append (.of_blanks blank))

theorem skipTrivia_suffix (bytes : List UInt8) :
    ∃ rest, skipTrivia bytes = some ((), rest) ∧ rest <:+ bytes := by
  obtain ⟨rest, skipped⟩ := skipComments_total bytes
  obtain ⟨trivia, rfl, -, -⟩ := skipComments_sound skipped
  refine ⟨rest.dropWhile Byte.isBlank, ?_, ?_⟩
  · rw [skipTrivia, bind_of_match skipped, skipBlanks]
  · exact (List.dropWhile_suffix _).trans (List.suffix_append _ _)

/-- A comment that is there is still there when more follows. -/
theorem comment_eq_none_of_append {bytes more : List UInt8}
    (unmatched : comment (bytes ++ more) = none) : comment bytes = none := by
  cases matched : comment bytes with
  | none => rfl
  | some result =>
    obtain ⟨_, rest⟩ := result
    obtain ⟨blanks, word, blank, rfl, isComment⟩ := comment_sound matched
    rw [List.append_assoc, List.append_assoc, ← comment_ignoresBlanks,
      dropWhile_append_of_blanks blank, comment_ignoresBlanks] at unmatched
    rcases isComment with written | ⟨-, body, -, rfl⟩
    · rw [comment_complete written] at unmatched
      cases unmatched
    · rw [List.append_assoc, comment_slashes] at unmatched
      cases unmatched

/-- No comment stands where skipping trivia ends. -/
theorem comment_of_skipTrivia {bytes rest : List UInt8}
    (skipped : skipTrivia bytes = some ((), rest)) : comment rest = none := by
  induction length : bytes.length using Nat.strongRecOn generalizing bytes with
  | ind length inductionHypothesis =>
    cases matched : comment bytes with
    | none =>
      rw [skipTrivia_of_no_comment matched] at skipped
      cases skipped
      rw [comment_ignoresBlanks, matched]
    | some result =>
      have shorter := comment_advances bytes () result.2 matched
      rw [skipTrivia_of_comment matched] at skipped
      exact inductionHypothesis result.2.length (by omega) skipped rfl

theorem clear_of_skipTrivia {bytes rest : List UInt8}
    (skipped : skipTrivia bytes = some ((), rest)) : Clear Byte.isBlank rest := by
  obtain ⟨left, commentsSkipped⟩ := skipComments_total bytes
  rw [skipTrivia, bind_of_match commentsSkipped, skipBlanks] at skipped
  cases skipped
  exact clear_dropWhile _ _

/-- Where skipping trivia leaves something, what it skips is trivia that ends by itself. -/
theorem trivia_of_skipTrivia {bytes rest : List UInt8}
    (skipped : skipTrivia bytes = some ((), rest)) (nonempty : rest ≠ []) :
    ∃ trivia, Trivia trivia ∧ trivia ++ rest = bytes := by
  obtain ⟨left, commentsSkipped⟩ := skipComments_total bytes
  rw [skipTrivia, bind_of_match commentsSkipped, skipBlanks] at skipped
  cases skipped
  obtain ⟨comments, rfl, -, closed⟩ := skipComments_sound commentsSkipped
  have leftNonempty : left ≠ [] := by
    rintro rfl
    exact nonempty rfl
  refine ⟨comments ++ left.takeWhile Byte.isBlank,
    (closed leftNonempty).append (.of_blanks (blanks_takeWhile left)), ?_⟩
  rw [List.append_assoc, List.takeWhile_append_dropWhile]

/-- What skipping trivia leaves has no trivia in front, and neither has it where it is cut short. -/
theorem skipTrivia_of_rest {bytes front back : List UInt8}
    (skipped : skipTrivia bytes = some ((), front ++ back)) :
    skipTrivia front = some ((), front) := by
  have clear : Clear Byte.isBlank front := by
    intro byte first
    apply clear_of_skipTrivia skipped byte
    rw [List.head?_append, Option.mem_def.mp first, Option.some_or]
    rfl
  rw [skipTrivia_of_no_comment (comment_eq_none_of_append (comment_of_skipTrivia skipped)),
    dropWhile_of_clear clear]

section After

variable {α : Type} {next : Rule α}

/-- In front of a token it does not matter whether blanks after comments are skipped. -/
theorem skipComments_bind (ignores : next.IgnoresBlanks) (bytes : List UInt8) :
    (skipComments >>= fun _ => next) bytes = (skipTrivia >>= fun _ => next) bytes := by
  obtain ⟨rest, skipped⟩ := skipComments_total bytes
  have further : skipTrivia bytes = some ((), rest.dropWhile Byte.isBlank) := by
    rw [skipTrivia, bind_of_match skipped, skipBlanks]
  rw [bind_of_match skipped, bind_of_match further, ignores]

/-- After trivia a rule is applied to what follows. -/
theorem skipComments_bind_append (ignores : next.IgnoresBlanks) {trivia rest : List UInt8}
    (before : Trivia trivia) (noComment : lead? rest ≠ some Byte.slash) :
    (skipComments >>= fun _ => next) (trivia ++ rest) = next rest := by
  have skipped : skipTrivia (trivia ++ rest) = some ((), rest.dropWhile Byte.isBlank) := by
    rw [skipTrivia_append before, skipTrivia_of_no_comment (comment_eq_none noComment)]
  rw [skipComments_bind ignores, bind_of_match skipped, ignores]

theorem skipComments_bind_last (ignores : next.IgnoresBlanks) {last : List UInt8}
    (trivia : LastTrivia last) : (skipComments >>= fun _ => next) last = next [] := by
  rw [skipComments_bind ignores, bind_of_match (skipTrivia_last trivia)]

end After

end Token

end FlatSchema
