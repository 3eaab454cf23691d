import FlatSchema.Proofs.Grammar.Trivia
import Mathlib.Algebra.Group.Nat.Defs

/-!
Positions in a buffer as words of 64 bits. Every addition, every byte taken out of the buffer and
every slice of it is checked when it is made, so that one that goes wrong is a fault and shows in
the outcome. A loop has one round more than the buffer has bytes, and one that is not over by then
is cut off and has no outcome. In a buffer of less than 2 ^ 63 bytes none of this happens, and each
search comes to the place at which the bytes that are left say it should.
-/

namespace FlatSchema

/-- What can go wrong with a position. -/
inductive Checked.Fault where
  | outOfBounds
  | overflow
  deriving DecidableEq, Repr

/-- A computation that may fail with a fault, or be cut off before it is over. -/
abbrev Checked (α : Type) := ExceptT Checked.Fault Option α

/-- The length of a buffer as a position. -/
def size (bytes : List UInt8) : UInt64 :=
  UInt64.ofNat bytes.length

namespace Checked

/-- The outcome of a loop that is not over after its rounds. -/
def cutOff {α : Type} : Checked α :=
  ExceptT.mk none

def add (first second : UInt64) : Checked UInt64 :=
  if first.toNat + second.toNat < 2 ^ 64 then return first + second else throw .overflow

def subtract (first second : UInt64) : Checked UInt64 :=
  if second ≤ first then return first - second else throw .overflow

def byteAt (bytes : List UInt8) (position : UInt64) : Checked UInt8 :=
  match bytes[position.toNat]? with
  | some byte => return byte
  | none => throw .outOfBounds

/-- The bytes from one position up to another. -/
def slice (bytes : List UInt8) (start stop : UInt64) : Checked (List UInt8) :=
  if start ≤ stop ∧ stop ≤ size bytes then
    return (bytes.drop start.toNat).take (stop.toNat - start.toNat)
  else
    throw .outOfBounds

end Checked

/-- A length of which twice is still a position. -/
def Short (buffer : List UInt8) : Prop :=
  buffer.length < 2 ^ 63

instance (buffer : List UInt8) : Decidable (Short buffer) :=
  inferInstanceAs (Decidable (_ < _))

theorem Short.toNat_size {buffer : List UInt8} (short : Short buffer) :
    (size buffer).toNat = buffer.length := by
  rw [size, UInt64.toNat_ofNat']
  unfold Short at short
  omega

namespace Checked

/-- The sum, if there is one. -/
def add? (first second : UInt64) : Option UInt64 :=
  if first.toNat + second.toNat < 2 ^ 64 then some (first + second) else none

def scanWithin (isMember : UInt8 → Bool) (bytes : List UInt8) : Nat → UInt64 → Checked UInt64
  | 0, _ => cutOff
  | rounds + 1, position => do
    if position < size bytes then
      if isMember (← byteAt bytes position) then
        scanWithin isMember bytes rounds (← add position 1)
      else
        return position
    else
      return position

/-- The first position from here on with a byte outside of a class, or the end. -/
def scan (isMember : UInt8 → Bool) (bytes : List UInt8) (position : UInt64) : Checked UInt64 :=
  scanWithin isMember bytes (bytes.length + 1) position

def closingQuoteWithin (bytes : List UInt8) : Nat → UInt64 → Checked (Option UInt64)
  | 0, _ => cutOff
  | rounds + 1, position => do
    if position < size bytes then
      let byte ← byteAt bytes position
      if byte = Byte.quote then return some position
      else if byte = Byte.backslash then closingQuoteWithin bytes rounds (← add position 2)
      else closingQuoteWithin bytes rounds (← add position 1)
    else
      return none

/-- The position of the first quote that no backslash protects. -/
def closingQuote (bytes : List UInt8) (position : UInt64) : Checked (Option UInt64) :=
  closingQuoteWithin bytes (bytes.length + 1) position

/-- Where a star with a slash after it stands first. -/
def closingStar? : List UInt8 → Option Nat
  | [] => none
  | [_] => none
  | first :: second :: rest =>
    if first = Byte.star ∧ second = Byte.slash then some 0
    else (closingStar? (second :: rest)).map (· + 1)

/-- The position behind a comment that runs to the end of its line. -/
def lineEnd (start : UInt64) (rest : List UInt8) : Checked UInt64 := do
  match rest.findIdx? (· = Byte.newline) with
  | some index => add start (← add (UInt64.ofNat index) 1)
  | none => add start (size rest)

/-- The position behind a comment that ends by a star and a slash. -/
def blockEnd (start : UInt64) (rest : List UInt8) : Checked (Option UInt64) := do
  match closingStar? (← slice rest 2 (size rest)) with
  | some index => return some (← add (← add (← add start 2) (UInt64.ofNat index)) 2)
  | none => return none

theorem bind_of_done {α β : Type} {computation : Checked α} {next : α → Checked β} {value : α}
    (done : computation = pure value) : computation >>= next = next value := by
  rw [done, pure_bind]

theorem add_eq_pure (first second : UInt64) {total : Nat}
    (sum : first.toNat + second.toNat = total) (small : total < 2 ^ 64) :
    ∃ position, add first second = pure position ∧ position.toNat = total := by
  refine ⟨first + second, if_pos (by omega), ?_⟩
  rw [UInt64.toNat_add]
  omega

theorem getElem?_of_cons {bytes rest : List UInt8} {position : UInt64} {byte : UInt8}
    (ahead : bytes.drop position.toNat = byte :: rest) : bytes[position.toNat]? = some byte := by
  rw [← List.head?_drop, ahead, List.head?_cons]

theorem byteAt_eq_pure {bytes rest : List UInt8} {position : UInt64} {byte : UInt8}
    (ahead : bytes.drop position.toNat = byte :: rest) :
    byteAt bytes position = pure byte := by
  rw [byteAt, getElem?_of_cons ahead]

theorem slice_eq_pure {buffer : List UInt8} (short : Short buffer) {start stop : UInt64}
    (ordered : start.toNat ≤ stop.toNat) (inside : stop.toNat ≤ buffer.length) :
    slice buffer start stop =
      pure ((buffer.drop start.toNat).take (stop.toNat - start.toNat)) := by
  apply if_pos
  rw [UInt64.le_iff_toNat_le, UInt64.le_iff_toNat_le, short.toNat_size]
  exact ⟨ordered, inside⟩

section Positions

variable {buffer rest : List UInt8} {position : UInt64}

theorem lt_size_of_cons (short : Short buffer) {byte : UInt8}
    (ahead : buffer.drop position.toNat = byte :: rest) :
    position.toNat < buffer.length ∧ position < size buffer := by
  have length := congrArg List.length ahead
  simp only [List.length_drop, List.length_cons] at length
  rw [UInt64.lt_iff_toNat_lt, short.toNat_size]
  omega

theorem not_lt_size_of_nil (short : Short buffer) (ahead : buffer.drop position.toNat = []) :
    ¬ position < size buffer := by
  rw [UInt64.lt_iff_toNat_lt, short.toNat_size, Nat.not_lt]
  exact List.drop_eq_nil_iff.mp ahead

theorem drop_of_toNat {next : UInt64} {skipped : List UInt8}
    (ahead : buffer.drop position.toNat = skipped ++ rest)
    (toNat_next : next.toNat = position.toNat + skipped.length) :
    buffer.drop next.toNat = rest := by
  rw [toNat_next, ← List.drop_drop, ahead, List.drop_left]

/-- A step over the byte ahead. -/
theorem add_one_eq_pure (short : Short buffer) {byte : UInt8}
    (ahead : buffer.drop position.toNat = byte :: rest) :
    ∃ next, add position 1 = pure next ∧ next.toNat = position.toNat + 1 ∧
      buffer.drop next.toNat = rest := by
  have before := (lt_size_of_cons short ahead).1
  have small : buffer.length < 2 ^ 63 := short
  obtain ⟨next, sum, toNat_next⟩ :=
    add_eq_pure position 1 (rfl : _ = position.toNat + 1) (by omega)
  exact ⟨next, sum, toNat_next,
    drop_of_toNat (show _ = [byte] ++ rest from ahead) toNat_next⟩

/-- A loop that reads a byte in each round has rounds enough. -/
theorem length_drop_lt (buffer : List UInt8) (position : UInt64) :
    (buffer.drop position.toNat).length < buffer.length + 1 := by
  rw [List.length_drop]
  omega

theorem scanWithin_eq_pure (isMember : UInt8 → Bool) (short : Short buffer) (position : UInt64)
    {rounds : Nat} (enough : (buffer.drop position.toNat).length < rounds) :
    ∃ stop, scanWithin isMember buffer rounds position = pure stop ∧
      stop.toNat = position.toNat + ((buffer.drop position.toNat).takeWhile isMember).length ∧
      buffer.drop stop.toNat = (buffer.drop position.toNat).dropWhile isMember := by
  induction ahead : buffer.drop position.toNat generalizing position rounds with
  | nil =>
    obtain ⟨rounds, rfl⟩ := Nat.exists_eq_add_one_of_ne_zero (Nat.ne_zero_of_lt enough)
    refine ⟨position, ?_, rfl, ahead⟩
    rw [scanWithin, if_neg (not_lt_size_of_nil short ahead)]
  | cons byte bytes inductionHypothesis =>
    obtain ⟨rounds, rfl⟩ := Nat.exists_eq_add_one_of_ne_zero (Nat.ne_zero_of_lt enough)
    rw [scanWithin, if_pos (lt_size_of_cons short ahead).2, bind_of_done (byteAt_eq_pure ahead)]
    by_cases member : isMember byte = true
    · obtain ⟨next, sum, toNat_next, nextAhead⟩ := add_one_eq_pure short ahead
      have fewer : (buffer.drop next.toNat).length < rounds := by
        rw [ahead, List.length_cons] at enough
        rw [nextAhead]
        omega
      obtain ⟨stop, scanned, toNat_stop, stopAhead⟩ := inductionHypothesis next fewer nextAhead
      refine ⟨stop, ?_, ?_, ?_⟩
      · rw [if_pos member, bind_of_done sum, scanned]
      · rw [List.takeWhile_cons_of_pos member, List.length_cons, toNat_stop, toNat_next]
        omega
      · rw [List.dropWhile_cons_of_pos member, stopAhead]
    · refine ⟨position, if_neg member, ?_, ?_⟩
      · rw [List.takeWhile_cons_of_neg member, List.length_nil, Nat.add_zero]
      · rw [List.dropWhile_cons_of_neg member, ahead]

theorem scan_eq_pure (isMember : UInt8 → Bool) (short : Short buffer) (position : UInt64) :
    ∃ stop, scan isMember buffer position = pure stop ∧
      stop.toNat = position.toNat + ((buffer.drop position.toNat).takeWhile isMember).length ∧
      buffer.drop stop.toNat = (buffer.drop position.toNat).dropWhile isMember :=
  scanWithin_eq_pure isMember short position (length_drop_lt buffer position)

/-- A scan does not leave the buffer. -/
theorem scan_le_length {isMember : UInt8 → Bool} {stop : UInt64}
    (inside : position.toNat ≤ buffer.length)
    (toNat_stop : stop.toNat =
      position.toNat + ((buffer.drop position.toNat).takeWhile isMember).length) :
    position.toNat ≤ stop.toNat ∧ stop.toNat ≤ buffer.length := by
  have fewer := (List.takeWhile_prefix (l := buffer.drop position.toNat) isMember).length_le
  rw [List.length_drop] at fewer
  omega

theorem toNat_of_add? {first second sum : UInt64} (found : add? first second = some sum) :
    sum.toNat = first.toNat + second.toNat := by
  unfold add? at found
  split at found
  · cases found
    rw [UInt64.toNat_add]
    omega
  · cases found

theorem le_of_add? {first second : UInt64} (missing : add? first second = none) :
    2 ^ 64 ≤ first.toNat + second.toNat := by
  unfold add? at missing
  split at missing
  · cases missing
  · omega

theorem closingQuoteWithin_of_nil (short : Short buffer) (rounds : Nat)
    (ahead : buffer.drop position.toNat = []) :
    closingQuoteWithin buffer (rounds + 1) position = pure none := by
  rw [closingQuoteWithin, if_neg (not_lt_size_of_nil short ahead)]

/-- A step over a backslash and the byte behind it, which may be missing. -/
theorem closingQuoteWithin_of_backslash (short : Short buffer) (rounds : Nat)
    (ahead : buffer.drop position.toNat = Byte.backslash :: rest) :
    ∃ next,
      closingQuoteWithin buffer (rounds + 1) position = closingQuoteWithin buffer rounds next ∧
      next.toNat = position.toNat + 2 ∧ buffer.drop next.toNat = rest.drop 1 := by
  have before := lt_size_of_cons short ahead
  have small : buffer.length < 2 ^ 63 := short
  have noQuote : Byte.backslash ≠ Byte.quote := by decide
  obtain ⟨next, sum, toNat_next⟩ :=
    add_eq_pure position 2 (rfl : _ = position.toNat + 2) (by omega)
  refine ⟨next, ?_, toNat_next, ?_⟩
  · rw [closingQuoteWithin, if_pos before.2, bind_of_done (byteAt_eq_pure ahead), if_neg noQuote,
      if_pos rfl, bind_of_done sum]
  · rw [toNat_next, ← List.drop_drop, ahead, List.drop_succ_cons]

/-- The search for a quote ends where the rule splits the bytes, or nowhere. -/
theorem closingQuoteWithin_eq_pure (short : Short buffer) (position : UInt64) {rounds : Nat}
    (enough : (buffer.drop position.toNat).length < rounds) :
    ∃ found, closingQuoteWithin buffer rounds position = pure found ∧
      found.map UInt64.toNat = (Token.splitAtQuote? (buffer.drop position.toNat)).map
        fun (inside, _) => position.toNat + inside.length := by
  obtain ⟨rounds, rfl⟩ := Nat.exists_eq_add_one_of_ne_zero (Nat.ne_zero_of_lt enough)
  induction ahead : buffer.drop position.toNat using Token.splitAtQuote?.induct
    generalizing position rounds with
  | case1 => exact ⟨none, closingQuoteWithin_of_nil short rounds ahead, rfl⟩
  | case2 bytes =>
    refine ⟨some position, ?_, ?_⟩
    · rw [closingQuoteWithin, if_pos (lt_size_of_cons short ahead).2,
        bind_of_done (byteAt_eq_pure ahead), if_pos rfl]
    · rw [Token.splitAtQuote?.eq_def]
      simp
  | case3 =>
    -- The next round is behind the end, and there has to be one.
    obtain ⟨next, stepped, -, nextAhead⟩ := closingQuoteWithin_of_backslash short rounds ahead
    rw [ahead, List.length_singleton] at enough
    obtain ⟨rounds, rfl⟩ := Nat.exists_eq_add_one_of_ne_zero (show rounds ≠ 0 by omega)
    refine ⟨none, ?_, rfl⟩
    rw [stepped, closingQuoteWithin_of_nil short rounds nextAhead]
  | case4 escaped bytes noQuote inductionHypothesis =>
    obtain ⟨next, stepped, toNat_next, nextAhead⟩ :=
      closingQuoteWithin_of_backslash short rounds ahead
    rw [ahead, List.length_cons, List.length_cons] at enough
    obtain ⟨rounds, rfl⟩ := Nat.exists_eq_add_one_of_ne_zero (show rounds ≠ 0 by omega)
    obtain ⟨found, searched, toNat_found⟩ := inductionHypothesis next rounds
      (by rw [nextAhead, List.drop_succ_cons, List.drop_zero]; omega) nextAhead
    refine ⟨found, stepped.trans searched, ?_⟩
    rw [toNat_found, toNat_next, Token.splitAtQuote?.eq_def (Byte.backslash :: _)]
    simp only [if_neg noQuote, if_true, Option.map_map]
    refine congrArg (Option.map · _) (funext fun result => ?_)
    simp only [Function.comp_apply, List.length_cons]
    omega
  | case5 byte bytes noQuote noBackslash inductionHypothesis =>
    obtain ⟨next, sum, toNat_next, nextAhead⟩ := add_one_eq_pure short ahead
    rw [ahead, List.length_cons] at enough
    obtain ⟨rounds, rfl⟩ := Nat.exists_eq_add_one_of_ne_zero (show rounds ≠ 0 by omega)
    obtain ⟨found, searched, toNat_found⟩ := inductionHypothesis next rounds
      (by rw [nextAhead]; omega) nextAhead
    refine ⟨found, ?_, ?_⟩
    · rw [closingQuoteWithin, if_pos (lt_size_of_cons short ahead).2,
        bind_of_done (byteAt_eq_pure ahead), if_neg noQuote, if_neg noBackslash,
        bind_of_done sum, searched]
    · rw [toNat_found, toNat_next, Token.splitAtQuote?.eq_def (byte :: _)]
      simp only [if_neg noQuote, if_neg noBackslash, Option.map_map]
      refine congrArg (Option.map · _) (funext fun result => ?_)
      simp only [Function.comp_apply, List.length_cons]
      omega

theorem closingQuote_eq_pure (short : Short buffer) (position : UInt64) :
    ∃ found, closingQuote buffer position = pure found ∧
      found.map UInt64.toNat = (Token.splitAtQuote? (buffer.drop position.toNat)).map
        fun (inside, _) => position.toNat + inside.length :=
  closingQuoteWithin_eq_pure short position (length_drop_lt buffer position)

theorem afterNewline_of_findIdx? {bytes : List UInt8} {index : Nat}
    (found : bytes.findIdx? (· = Byte.newline) = some index) :
    Token.afterNewline bytes = bytes.drop (index + 1) ∧ index < bytes.length := by
  obtain ⟨before, first⟩ := List.findIdx?_eq_some_iff_findIdx_eq.mp found
  refine ⟨?_, before⟩
  rw [Token.afterNewline, List.dropWhile_eq_drop_findIdx_not, List.drop_drop]
  simp only [ne_eq, decide_not, Bool.not_not, first]

theorem afterNewline_of_findIdx?_eq_none {bytes : List UInt8}
    (missing : bytes.findIdx? (· = Byte.newline) = none) : Token.afterNewline bytes = [] := by
  apply Token.afterNewline_eq_nil
  intro member
  have different := List.findIdx?_eq_none_iff.mp missing _ member
  simp at different

theorem lineEnd_eq_pure (short : Short buffer) (inside : position.toNat ≤ buffer.length)
    (ahead : buffer.drop position.toNat = rest) :
    ∃ stop, lineEnd position rest = pure stop ∧ stop.toNat ≤ buffer.length ∧
      buffer.drop stop.toNat = Token.afterNewline rest := by
  have small : buffer.length < 2 ^ 63 := short
  have length := congrArg List.length ahead
  rw [List.length_drop] at length
  cases found : rest.findIdx? (· = Byte.newline) with
  | none =>
    have toNat_length : (size rest).toNat = rest.length :=
      Short.toNat_size (show rest.length < 2 ^ 63 by omega)
    obtain ⟨stop, sum, toNat_stop⟩ :=
      add_eq_pure position (size rest) (congrArg _ toNat_length) (by omega)
    refine ⟨stop, ?_, by omega, ?_⟩
    · rw [lineEnd, found]
      exact sum
    · rw [afterNewline_of_findIdx?_eq_none found, List.drop_eq_nil_iff]
      omega
  | some index =>
    obtain ⟨after, before⟩ := afterNewline_of_findIdx? found
    have toNat_index : (UInt64.ofNat index).toNat = index := by
      rw [UInt64.toNat_ofNat']
      omega
    obtain ⟨count, countSum, toNat_count⟩ :=
      add_eq_pure (UInt64.ofNat index) 1 (congrArg (· + 1) toNat_index) (by omega)
    obtain ⟨stop, sum, toNat_stop⟩ :=
      add_eq_pure position count (congrArg _ toNat_count) (by omega)
    refine ⟨stop, ?_, by omega, ?_⟩
    · rw [lineEnd, found]
      simp only [bind_of_done countSum, sum]
    · rw [after, toNat_stop, ← List.drop_drop, ahead]

theorem afterCommentEnd?_eq_map (bytes : List UInt8) :
    Token.afterCommentEnd? bytes =
      (closingStar? bytes).map fun index => bytes.drop (index + 2) := by
  fun_induction closingStar? bytes with
  | case1 => rfl
  | case2 => rfl
  | case3 first second rest both =>
    rw [Token.afterCommentEnd?, if_pos both]
    rfl
  | case4 first second rest other inductionHypothesis =>
    rw [Token.afterCommentEnd?, if_neg other, inductionHypothesis, Option.map_map]
    rfl

theorem closingStar?_le {bytes : List UInt8} {index : Nat}
    (found : closingStar? bytes = some index) : index + 2 ≤ bytes.length := by
  fun_induction closingStar? bytes generalizing index with
  | case1 => cases found
  | case2 => cases found
  | case3 first second rest both =>
    cases found
    simp
  | case4 first second rest other inductionHypothesis =>
    obtain ⟨earlier, foundEarlier, rfl⟩ := Option.map_eq_some_iff.mp found
    have inside := inductionHypothesis foundEarlier
    rw [List.length_cons]
    omega

theorem blockEnd_eq_pure (short : Short buffer) {first second : UInt8} {body : List UInt8}
    (ahead : buffer.drop position.toNat = first :: second :: body) :
    ∃ found, blockEnd position (first :: second :: body) = pure found ∧
      (∀ stop ∈ found, stop.toNat ≤ buffer.length) ∧
      found.map (fun stop => buffer.drop stop.toNat) = Token.afterCommentEnd? body := by
  have small : buffer.length < 2 ^ 63 := short
  have length := congrArg List.length ahead
  simp only [List.length_drop, List.length_cons] at length
  have restShort : Short (first :: second :: body) := by
    rw [Short, List.length_cons, List.length_cons]
    omega
  have toNat_length := restShort.toNat_size
  simp only [List.length_cons] at toNat_length
  have sliced : slice (first :: second :: body) 2 (size (first :: second :: body)) =
      pure body := by
    have ordered : (2 : UInt64).toNat ≤ (size (first :: second :: body)).toNat := by
      rw [toNat_length]
      exact Nat.le_add_left 2 _
    rw [slice_eq_pure restShort ordered (Nat.le_of_eq toNat_length), toNat_length]
    exact congrArg pure List.take_length
  cases closed : closingStar? body with
  | none =>
    refine ⟨none, ?_, by simp, ?_⟩
    · rw [blockEnd, bind_of_done sliced, closed]
    · rw [afterCommentEnd?_eq_map, closed]
      rfl
  | some index =>
    have inside := closingStar?_le closed
    have toNat_index : (UInt64.ofNat index).toNat = index := by
      rw [UInt64.toNat_ofNat']
      omega
    obtain ⟨opened, openedSum, toNat_opened⟩ :=
      add_eq_pure position 2 (rfl : _ = position.toNat + 2) (by omega)
    obtain ⟨middle, middleSum, toNat_middle⟩ :=
      add_eq_pure opened (UInt64.ofNat index) (congrArg _ toNat_index) (by omega)
    obtain ⟨stop, sum, toNat_stop⟩ :=
      add_eq_pure middle 2 (rfl : _ = middle.toNat + 2) (by omega)
    refine ⟨some stop, ?_, ?_, ?_⟩
    · rw [blockEnd, bind_of_done sliced, closed]
      simp only [bind_of_done openedSum, bind_of_done middleSum, bind_of_done sum]
    · rintro _ ⟨⟩
      omega
    · rw [afterCommentEnd?_eq_map, closed, Option.map_some, Option.map_some, toNat_stop,
        toNat_middle, toNat_opened, Nat.add_assoc, Nat.add_assoc, ← List.drop_drop, ahead,
        Nat.add_comm 2, List.drop_succ_cons, List.drop_succ_cons]

end Positions

end Checked

end FlatSchema
