import FlatSchema.Proofs.Grammar.Token

/-!
Brackets and string literals in a text. A nested text is made of bytes that are neither quotes nor
brackets, of literals with a closing quote, and of nested texts in brackets. A scan decides this from
left to right: it skips literals, where a backslash protects the byte behind it, and keeps the
brackets that are open.
-/

namespace FlatSchema.Text

open Grammar

inductive Bracket where
  | round
  | square
  | curly
  deriving DecidableEq, Repr

namespace Bracket

def left : Bracket → UInt8
  | round => 40
  | square => 91
  | curly => 123

def right : Bracket → UInt8
  | round => 41
  | square => 93
  | curly => 125

def ofLeft? (byte : UInt8) : Option Bracket :=
  [round, square, curly].find? (·.left = byte)

def ofRight? (byte : UInt8) : Option Bracket :=
  [round, square, curly].find? (·.right = byte)

end Bracket

/-- Quotes and brackets, the bytes that a scan does not pass over. -/
def isMark (byte : UInt8) : Bool :=
  byte = Byte.quote || (Bracket.ofLeft? byte).isSome || (Bracket.ofRight? byte).isSome

/-- Every literal has its closing quote, and outside of literals every bracket has its partner. -/
inductive Nested : List UInt8 → Prop where
  | nil : Nested []
  | other {byte : UInt8} {rest : List UInt8} :
      isMark byte = false → Nested rest → Nested (byte :: rest)
  | literal {inside rest : List UInt8} :
      Quotable inside → Nested rest → Nested (Byte.quote :: (inside ++ Byte.quote :: rest))
  | group {bracket : Bracket} {inside rest : List UInt8} :
      Nested inside → Nested rest → Nested (bracket.left :: (inside ++ bracket.right :: rest))

namespace Bracket

/-- The brackets that are open behind a byte of code, the innermost first. There is no such state
behind a quote, which is no code, and behind a bracket that closes another than the innermost. -/
def shift? (opened : List Bracket) (byte : UInt8) : Option (List Bracket) :=
  if byte = Byte.quote then
    none
  else
    match ofLeft? byte, ofRight? byte with
    | some bracket, _ => some (bracket :: opened)
    | none, some bracket => if opened.head? = some bracket then some opened.tail else none
    | none, none => some opened

/-- What a byte of code does to the brackets that are open. -/
inductive Shift : List Bracket → UInt8 → List Bracket → Prop where
  | pass {opened : List Bracket} {byte : UInt8} : isMark byte = false → Shift opened byte opened
  | enter {opened : List Bracket} {bracket : Bracket} :
      Shift opened bracket.left (bracket :: opened)
  | leave {opened : List Bracket} {bracket : Bracket} :
      Shift (bracket :: opened) bracket.right opened

theorem shift?_left (opened : List Bracket) (bracket : Bracket) :
    shift? opened bracket.left = some (bracket :: opened) := by
  cases bracket <;> rfl

theorem shift?_right (opened : List Bracket) (bracket : Bracket) :
    shift? opened bracket.right = if opened.head? = some bracket then some opened.tail else none := by
  cases bracket <;> rfl

theorem shift?_of_no_mark {byte : UInt8} (plain : isMark byte = false) (opened : List Bracket) :
    shift? opened byte = some opened := by
  simp only [isMark, Bool.or_eq_false_iff, decide_eq_false_iff_not, Option.isSome_eq_false_iff,
    Option.isNone_iff_eq_none] at plain
  obtain ⟨⟨noQuote, noLeft⟩, noRight⟩ := plain
  rw [shift?, if_neg noQuote, noLeft, noRight]

theorem shift?_eq_some_iff {opened after : List Bracket} {byte : UInt8} :
    shift? opened byte = some after ↔ Shift opened byte after := by
  constructor
  · intro shifted
    by_cases quote : byte = Byte.quote
    · rw [shift?, if_pos quote] at shifted
      cases shifted
    · cases isLeft : ofLeft? byte with
      | some bracket =>
        have spelled : bracket.left = byte := by simpa using List.find?_some isLeft
        subst spelled
        rw [shift?_left] at shifted
        cases shifted
        exact .enter
      | none =>
        cases isRight : ofRight? byte with
        | some bracket =>
          have spelled : bracket.right = byte := by simpa using List.find?_some isRight
          subst spelled
          rw [shift?_right] at shifted
          split at shifted
          · next innermost =>
            cases shifted
            obtain ⟨rest, rfl⟩ := List.head?_eq_some_iff.mp innermost
            exact .leave
          · cases shifted
        | none =>
          have plain : isMark byte = false := by simp [isMark, quote, isLeft, isRight]
          rw [shift?_of_no_mark plain] at shifted
          cases shifted
          exact .pass plain
  · intro shift
    cases shift with
    | pass plain => exact shift?_of_no_mark plain _
    | enter => exact shift?_left _ _
    | leave => simp [shift?_right]

/-- Brackets further out play no part. -/
theorem Shift.append {opened after : List Bracket} {byte : UInt8} (shift : Shift opened byte after)
    (outer : List Bracket) : Shift (opened ++ outer) byte (after ++ outer) := by
  cases shift with
  | pass plain => exact .pass plain
  | enter => exact .enter
  | leave => exact .leave

end Bracket

/-- Whether a scan is in code, in a literal, or behind a backslash in a literal. -/
inductive Mode where
  | code
  | literal
  | escape
  deriving DecidableEq, Repr

structure Scan where
  mode : Mode := .code
  opened : List Bracket := []
  deriving DecidableEq, Repr

namespace Scan

def next? (scan : Scan) (byte : UInt8) : Option Scan :=
  match scan.mode with
  | .code =>
    if byte = Byte.quote then some { scan with mode := .literal }
    else (Bracket.shift? scan.opened byte).map fun opened => { scan with opened }
  | .literal =>
    if byte = Byte.quote then some { scan with mode := .code }
    else if byte = Byte.backslash then some { scan with mode := .escape }
    else some scan
  | .escape => some { scan with mode := .literal }

def over? (scan : Scan) (bytes : List UInt8) : Option Scan :=
  bytes.foldlM next? scan

theorem over?_cons (scan : Scan) (byte : UInt8) (bytes : List UInt8) :
    scan.over? (byte :: bytes) = (scan.next? byte).bind (·.over? bytes) := rfl

theorem over?_append (scan : Scan) (first second : List UInt8) :
    scan.over? (first ++ second) = (scan.over? first).bind (·.over? second) :=
  List.foldlM_append

variable {opened after : List Bracket}

theorem next?_quote : next? ⟨.code, opened⟩ Byte.quote = some ⟨.literal, opened⟩ := rfl

theorem next?_of_shift {byte : UInt8} (shift : Bracket.Shift opened byte after) :
    next? ⟨.code, opened⟩ byte = some ⟨.code, after⟩ := by
  have shifted := Bracket.shift?_eq_some_iff.mpr shift
  have code : byte ≠ Byte.quote := by
    rintro rfl
    cases shifted
  simp [next?, code, shifted]

/-- A literal leads back to where it began. -/
theorem over?_literal {inside : List UInt8} (quotable : Quotable inside) (rest : List UInt8) :
    over? ⟨.literal, opened⟩ (inside ++ Byte.quote :: rest) = over? ⟨.code, opened⟩ rest := by
  induction quotable with
  | nil => rfl
  | plain noQuote noBackslash _ inductionHypothesis =>
    rw [List.cons_append, over?_cons]
    simp only [next?, noQuote, noBackslash, if_false, Option.bind_some]
    exact inductionHypothesis
  | escaped _ inductionHypothesis => exact inductionHypothesis

theorem over?_of_nested {bytes : List UInt8} (nested : Nested bytes) :
    over? ⟨.code, opened⟩ bytes = some ⟨.code, opened⟩ := by
  induction nested generalizing opened with
  | nil => rfl
  | other plain _ inductionHypothesis =>
    rw [over?_cons, next?_of_shift (.pass plain), Option.bind_some, inductionHypothesis]
  | literal quotable _ inductionHypothesis =>
    rw [over?_cons, next?_quote, Option.bind_some, over?_literal quotable, inductionHypothesis]
  | group _ _ inductionInside inductionRest =>
    rw [over?_cons, next?_of_shift .enter, Option.bind_some, over?_append, inductionInside,
      Option.bind_some, over?_cons, next?_of_shift .leave, Option.bind_some, inductionRest]

/-- A scan that comes out of a literal has met its closing quote. -/
theorem exists_of_over?_literal {bytes : List UInt8}
    (scanned : over? ⟨.literal, opened⟩ bytes = some ⟨.code, after⟩) :
    ∃ inside rest, Quotable inside ∧ inside ++ Byte.quote :: rest = bytes ∧
      over? ⟨.code, opened⟩ rest = some ⟨.code, after⟩ := by
  -- A scan goes through a literal as a reader does that splits it off.
  fun_induction Token.splitAtQuote? bytes with
  | case1 => cases scanned
  | case2 bytes => exact ⟨[], bytes, .nil, rfl, scanned⟩
  | case3 => cases scanned
  | case4 escaped bytes _ inductionHypothesis =>
    obtain ⟨inside, rest, quotable, split, scannedRest⟩ := inductionHypothesis scanned
    refine ⟨Byte.backslash :: escaped :: inside, rest, .escaped quotable, ?_, scannedRest⟩
    rw [← split]
    rfl
  | case5 byte bytes noQuote noBackslash inductionHypothesis =>
    rw [over?_cons] at scanned
    simp only [next?, noQuote, noBackslash, if_false, Option.bind_some] at scanned
    obtain ⟨inside, rest, quotable, split, scannedRest⟩ := inductionHypothesis scanned
    refine ⟨byte :: inside, rest, .plain noQuote noBackslash quotable, ?_, scannedRest⟩
    rw [← split]
    rfl

/-- Some brackets are open, and bytes close them one after the other. -/
def Closing : List Bracket → List UInt8 → Prop
  | [], bytes => Nested bytes
  | bracket :: opened, bytes =>
    ∃ inside rest, Nested inside ∧ inside ++ bracket.right :: rest = bytes ∧ Closing opened rest

/-- What can stand in front of every nested text can stand in front of closing brackets. -/
theorem Closing.prepend {bytes : List UInt8} (closing : Closing opened bytes) (front : List UInt8)
    (nests : ∀ rest, Nested rest → Nested (front ++ rest)) : Closing opened (front ++ bytes) := by
  cases opened with
  | nil => exact nests bytes closing
  | cons bracket opened =>
    obtain ⟨inside, rest, nested, rfl, closing⟩ := closing
    exact ⟨front ++ inside, rest, nests inside nested, List.append_assoc .., closing⟩

theorem Closing.shift {byte : UInt8} {bytes : List UInt8} (closing : Closing after bytes)
    (shift : Bracket.Shift opened byte after) : Closing opened (byte :: bytes) := by
  cases shift with
  | pass plain => exact closing.prepend [byte] fun rest nested => .other plain nested
  | @enter _ bracket =>
    obtain ⟨inside, rest, nested, rfl, closing⟩ := closing
    have grouped := closing.prepend (bracket.left :: (inside ++ [bracket.right])) (by
      intro more nestedMore
      simpa using Nested.group nested nestedMore)
    simpa using grouped
  | leave => exact ⟨[], bytes, .nil, rfl, closing⟩

theorem closing_of_over? {bytes : List UInt8}
    (scanned : over? ⟨.code, opened⟩ bytes = some {}) : Closing opened bytes := by
  induction sized : bytes.length using Nat.strongRecOn generalizing bytes opened with
  | ind size inductionHypothesis =>
    cases bytes with
    | nil =>
      cases scanned
      exact Nested.nil
    | cons byte bytes =>
      rw [over?_cons] at scanned
      by_cases quote : byte = Byte.quote
      · -- The literal is left behind as a whole, and the scan goes on behind it.
        subst quote
        obtain ⟨inside, rest, quotable, rfl, scannedRest⟩ := exists_of_over?_literal scanned
        have shorter : rest.length < size := by
          simp only [← sized, List.length_cons, List.length_append]
          omega
        have closing := inductionHypothesis rest.length shorter scannedRest rfl
        have prepended := closing.prepend (Byte.quote :: (inside ++ [Byte.quote])) (by
          intro more nested
          simpa using Nested.literal quotable nested)
        simpa using prepended
      · simp only [next?, quote, if_false, Option.bind_map] at scanned
        obtain ⟨after, shifted, scanned⟩ := Option.bind_eq_some_iff.mp scanned
        have shorter : bytes.length < size := by
          simp only [← sized, List.length_cons]
          omega
        have closing := inductionHypothesis bytes.length shorter scanned rfl
        exact closing.shift (Bracket.shift?_eq_some_iff.mp shifted)

/-- A text is nested exactly if a scan of it ends in code with no bracket open. -/
theorem over?_eq_some_iff_nested {bytes : List UInt8} : over? {} bytes = some {} ↔ Nested bytes := by
  constructor
  · intro scanned
    exact closing_of_over? scanned
  · intro nested
    exact over?_of_nested nested

end Scan

instance (bytes : List UInt8) : Decidable (Nested bytes) :=
  decidable_of_iff (Scan.over? {} bytes = some {}) Scan.over?_eq_some_iff_nested

example : Nested (utf8Bytes "f(\"a\\\")\")[0]") ∧ ¬ Nested (utf8Bytes "([)]") := by decide

theorem Nested.append {first second : List UInt8} (nested : Nested first)
    (nestedSecond : Nested second) : Nested (first ++ second) := by
  rw [← Scan.over?_eq_some_iff_nested, Scan.over?_append, Scan.over?_of_nested nested,
    Option.bind_some, Scan.over?_of_nested nestedSecond]

end FlatSchema.Text
