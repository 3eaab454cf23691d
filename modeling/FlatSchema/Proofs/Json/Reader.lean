import FlatSchema.Json.Basic
import Mathlib.Data.List.Basic

/-!
A reader for JSON texts without numbers. It allows blanks between any two tokens and every escape
but those for halves of a pair. The main statement is that it takes back whatever was written, so a
text has one value only.
-/

namespace FlatSchema.Json

/-- Takes a value off the front of some characters, or fails. -/
abbrev Reader (α : Type) : Type :=
  StateT (List Char) Option α

namespace Reader

def isBlank (character : Char) : Bool :=
  character = ' ' || character = '\n' || character = '\r' || character = '\t'

/-- The next character that is not blank. -/
def next : Reader Char := fun text =>
  match text.dropWhile isBlank with
  | [] => none
  | character :: rest => some (character, rest)

/-- Some characters, and nothing else. -/
def exactly (word : List Char) : Reader Unit := fun text =>
  if word.isPrefixOf text then some ((), text.drop word.length) else none

/-- The digit that a character stands for in base sixteen, in either case. -/
def hexDigit? (character : Char) : Option Nat :=
  (List.range 16).find? fun digit => Nat.digitChar digit = character.toLower

/-- The character with a code that is given by its digits. -/
def ofHexDigits? (digits : List Char) : Option Char := do
  let code := (← digits.mapM hexDigit?).foldl (fun code digit => 16 * code + digit) 0
  if code.isValidChar then some (Char.ofNat code) else none

/-- The character that a mark after a backslash stands for. -/
def unescape? : Char → Option Char
  | '"' => some '"'
  | '\\' => some '\\'
  | '/' => some '/'
  | 'b' => some '\x08'
  | 'f' => some '\x0c'
  | 'n' => some '\n'
  | 'r' => some '\r'
  | 't' => some '\t'
  | _ => none

/-- The characters of a string up to the quote that ends it. -/
def untilQuote : List Char → Option (List Char × List Char)
  | [] => none
  | '"' :: rest => some ([], rest)
  | '\\' :: 'u' :: first :: second :: third :: fourth :: rest => do
    let character ← ofHexDigits? [first, second, third, fourth]
    let (others, rest) ← untilQuote rest
    return (character :: others, rest)
  | '\\' :: mark :: rest => do
    let character ← unescape? mark
    let (others, rest) ← untilQuote rest
    return (character :: others, rest)
  | character :: rest =>
    if character.toNat < 32 then
      none
    else do
      let (others, rest) ← untilQuote rest
      return (character :: others, rest)

/-- A string whose first quote is taken already. -/
def stringBody : Reader String := do
  let characters ← (untilQuote : Reader (List Char))
  return String.ofList characters

section Lists

variable {α : Type} (close : Char) (element : Char → Reader α)

/-- What follows an element: the mark that closes the list, or a comma and the next element. The
bound is on the number of elements. -/
def further : Nat → Reader (List α)
  | 0 => failure
  | bound + 1 => do
    let mark ← next
    if mark = close then
      return []
    else if mark = ',' then
      let item ← element (← next)
      return item :: (← further bound)
    else
      failure

/-- A list whose first mark is taken already. -/
def listed (bound : Nat) : Reader (List α) := do
  let lead ← next
  if lead = close then
    return []
  else
    let item ← element lead
    return item :: (← further close element bound)

end Lists

/-- A member of an object that begins with a character. -/
def memberFrom (value : Char → Reader Json) (lead : Char) : Reader (String × Json) := do
  guard (lead = '"')
  let key ← stringBody
  guard ((← next) = ':')
  return (key, ← value (← next))

/-- A value that begins with a character. The bound is on the levels of nesting and on the number of
elements in each of them. -/
def valueFrom : Nat → Char → Reader Json
  | 0, _ => failure
  | bound + 1, lead =>
    match lead with
    | '"' => string <$> stringBody
    | '[' => array <$> listed ']' (valueFrom bound) bound
    | '\x7b' => object <$> listed '\x7d' (memberFrom (valueFrom bound)) bound
    | 'n' => do exactly "ull".toList; return null
    | 't' => do exactly "rue".toList; return bool true
    | 'f' => do exactly "alse".toList; return bool false
    | _ => failure

/-- A reader takes exactly some text, whatever follows it. -/
def Reads {α : Type} (reader : Reader α) (text : List Char) (value : α) : Prop :=
  ∀ rest, reader.run (text ++ rest) = some (value, rest)

section Reads

variable {α β : Type} {reader : Reader α} {text text' : List Char} {value : α}

theorem Reads.pure : Reads (Pure.pure value) [] value :=
  fun _ => rfl

theorem Reads.bind {further : α → Reader β} {result : β} (first : Reads reader text value)
    (second : Reads (further value) text' result) :
    Reads (reader >>= further) (text ++ text') result := by
  intro rest
  rw [List.append_assoc, StateT.run_bind, first]
  exact second rest

theorem Reads.bind_pure (reads : Reads reader text value) (function : α → β) :
    Reads (reader >>= fun value => Pure.pure (function value)) text (function value) := by
  intro rest
  rw [StateT.run_bind, reads]
  rfl

theorem Reads.map (reads : Reads reader text value) (function : α → β) :
    Reads (function <$> reader) text (function value) := by
  rw [← bind_pure_comp]
  exact reads.bind_pure function

theorem Reads.guarded {condition : Prop} [Decidable condition] (holds : condition)
    (reads : Reads reader text value) : Reads (guard condition >>= fun _ => reader) text value := by
  intro rest
  rw [guard, if_pos holds]
  exact reads rest

theorem reads_exactly (word : List Char) : Reads (exactly word) word () := by
  intro rest
  have leads : word.isPrefixOf (word ++ rest) = true := by simp
  simp [exactly, StateT.run, leads]

/-- Blanks before a token are passed over. -/
theorem reads_next {blanks : List Char} {lead : Char}
    (blank : ∀ character ∈ blanks, isBlank character = true) (solid : isBlank lead = false) :
    Reads next (blanks ++ [lead]) lead := by
  intro rest
  have passed : (blanks ++ [lead] ++ rest).dropWhile isBlank = lead :: rest := by
    rw [List.append_assoc, List.dropWhile_append_of_pos blank]
    simp [solid]
  rw [StateT.run, next, passed]

end Reads

section Strings

theorem ofHexDigits?_control :
    ∀ code < 32, ofHexDigits? ['0', '0', Nat.digitChar (code / 16), Nat.digitChar (code % 16)] =
      some (Char.ofNat code) := by
  decide

theorem untilQuote_escapeChar (character : Char) (rest : List Char) :
    untilQuote (escapeChar character ++ rest) =
      (untilQuote rest).bind fun (others, rest) => some (character :: others, rest) := by
  unfold escapeChar
  split
  case h_8 noQuote noBackslash _ _ _ _ _ =>
    split
    · next control =>
      have decoded := ofHexDigits?_control character.toNat control
      rw [Char.ofNat_toNat] at decoded
      simp [untilQuote, decoded]
    · next printed =>
      rw [List.singleton_append, untilQuote]
      · simp [printed]
      all_goals simp_all
  all_goals simp [untilQuote, unescape?]

theorem untilQuote_flatMap_escapeChar (text rest : List Char) :
    untilQuote (text.flatMap escapeChar ++ '"' :: rest) = some (text, rest) := by
  induction text with
  | nil => rfl
  | cons character text inductionHypothesis =>
    rw [List.flatMap_cons, List.append_assoc, untilQuote_escapeChar, inductionHypothesis]
    rfl

theorem reads_stringBody (text : String) :
    Reads stringBody (text.toList.flatMap escapeChar ++ ['"']) text := by
  intro rest
  rw [List.append_assoc, List.singleton_append, stringBody, StateT.run_bind, StateT.run,
    untilQuote_flatMap_escapeChar]
  simp

end Strings

section Elements

variable {α : Type}

/-- Elements are read from their first character on, which is not blank and closes no list. -/
def ReadsFrom (close : Char) (element : Char → Reader α) (text : List Char) (value : α) : Prop :=
  ∃ lead body, text = lead :: body ∧ isBlank lead = false ∧ lead ≠ close ∧
    Reads (element lead) body value

/-- What stands after the first mark of a list whose elements are on lines of their own. -/
def listBody (close : Char) (before after : List Char) (write : α → List Char) :
    List α → List Char
  | [] => [close]
  | item :: items =>
    before ++ (write item ++ (items.flatMap (fun item => ',' :: (before ++ write item)) ++
      (after ++ [close])))

variable {close : Char} {element : Char → Reader α} {before after : List Char}
  {write : α → List Char}

theorem length_le_length_listBody (items : List α) :
    items.length ≤ (listBody close before after write items).length := by
  have further (items : List α) :
      items.length ≤ (items.flatMap fun item => ',' :: (before ++ write item)).length := by
    induction items with
    | nil => simp
    | cons item items inductionHypothesis =>
      simp only [List.flatMap_cons, List.length_append, List.length_cons]
      omega
  cases items with
  | nil => simp
  | cons item items =>
    have counted := further items
    simp only [listBody, List.length_append, List.length_cons]
    omega

theorem length_write_le {items : List α} {item : α} (member : item ∈ items) :
    (write item).length ≤ (listBody close before after write items).length := by
  have further {items : List α} {item : α} (member : item ∈ items) :
      (write item).length ≤ (items.flatMap fun item => ',' :: (before ++ write item)).length := by
    have sublist := List.sublist_flatten_of_mem
      (List.mem_map_of_mem (f := fun item => ',' :: (before ++ write item)) member)
    have shorter := sublist.length_le
    simp only [List.length_append, List.length_cons, ← List.flatMap_def] at shorter
    omega
  cases items with
  | nil => cases member
  | cons first items =>
    simp only [listBody, List.length_append]
    cases member with
    | head => omega
    | tail _ member =>
      have counted := further member
      omega

section Lists

variable (blankBefore : ∀ character ∈ before, isBlank character = true)
  (blankAfter : ∀ character ∈ after, isBlank character = true)
  (solid : isBlank close = false) (noComma : close ≠ ',')

include blankBefore blankAfter solid noComma

theorem reads_further {items : List α} {bound : Nat}
    (each : ∀ item ∈ items, ReadsFrom close element (write item) item)
    (enough : items.length < bound) :
    Reads (further close element bound)
      (items.flatMap (fun item => ',' :: (before ++ write item)) ++ (after ++ [close])) items := by
  induction items generalizing bound with
  | nil =>
    obtain ⟨bound, rfl⟩ := Nat.exists_eq_add_one_of_ne_zero (Nat.ne_zero_of_lt enough)
    rw [further, List.flatMap_nil, List.nil_append, ← List.append_nil (after ++ [close])]
    refine (reads_next blankAfter solid).bind ?_
    rw [if_pos rfl]
    exact .pure
  | cons item items inductionHypothesis =>
    obtain ⟨bound, rfl⟩ := Nat.exists_eq_add_one_of_ne_zero (Nat.ne_zero_of_lt enough)
    rw [List.forall_mem_cons] at each
    obtain ⟨lead, body, shape, solidLead, -, reads⟩ := each.1
    have others := inductionHypothesis each.2 (Nat.lt_of_succ_lt_succ enough)
    have comma : Reads next [','] ',' := reads_next (List.forall_mem_nil _) rfl
    have split : (item :: items).flatMap (fun item => ',' :: (before ++ write item)) ++
        (after ++ [close]) = [','] ++ ((before ++ [lead]) ++ (body ++
          (items.flatMap (fun item => ',' :: (before ++ write item)) ++ (after ++ [close])))) := by
      simp [shape]
    rw [split, further]
    refine comma.bind ?_
    rw [if_neg noComma.symm, if_pos rfl]
    refine (reads_next blankBefore solidLead).bind ?_
    refine reads.bind ?_
    exact others.bind_pure _

theorem reads_listed {items : List α} {bound : Nat}
    (each : ∀ item ∈ items, ReadsFrom close element (write item) item)
    (enough : items.length ≤ bound) :
    Reads (listed close element bound) (listBody close before after write items) items := by
  cases items with
  | nil =>
    have closing : Reads next [close] close := reads_next (List.forall_mem_nil _) solid
    rw [listed, listBody, ← List.append_nil [close]]
    refine closing.bind ?_
    rw [if_pos rfl]
    exact .pure
  | cons item items =>
    rw [List.forall_mem_cons] at each
    obtain ⟨lead, body, shape, solidLead, noClose, reads⟩ := each.1
    have others := reads_further blankBefore blankAfter solid noComma each.2
      (Nat.lt_of_succ_le enough)
    have split : listBody close before after write (item :: items) =
        (before ++ [lead]) ++ (body ++
          (items.flatMap (fun item => ',' :: (before ++ write item)) ++ (after ++ [close]))) := by
      simp [listBody, shape]
    rw [split, listed]
    refine (reads_next blankBefore solidLead).bind ?_
    rw [if_neg noClose]
    refine reads.bind ?_
    exact others.bind_pure _

end Lists

end Elements

end Reader

/-- The value of a text that holds one value and nothing after it but blanks. No text has more levels
or elements than characters. -/
def read? (text : String) : Option Json := do
  let (value, rest) ← (Reader.next >>= Reader.valueFrom text.length).run text.toList
  guard (rest.all Reader.isBlank)
  return value

section Written

open Reader

theorem isBlank_newline (depth : Nat) :
    ∀ character ∈ (newline depth).toList, isBlank character = true := by
  intro character member
  simp only [newline, String.toList_append, String.toList_ofList, List.mem_append,
    List.mem_replicate] at member
  obtain lineEnd | ⟨-, rfl⟩ := member
  · rw [List.mem_singleton.mp lineEnd]
    rfl
  · rfl

theorem toList_renderString (text : String) :
    (renderString text).toList = '"' :: (text.toList.flatMap escapeChar ++ ['"']) := by
  simp [renderString]

theorem toList_renderItems (depth : Nat) (items : List Json) :
    (renderItems depth items).toList =
      items.flatMap fun item => ',' :: ((newline depth).toList ++ (renderAt depth item).toList) := by
  induction items with
  | nil => rfl
  | cons item items inductionHypothesis => simp [renderItems, inductionHypothesis]

theorem toList_renderAt_array (depth : Nat) (items : List Json) :
    (renderAt depth (array items)).toList =
      '[' :: listBody ']' (newline (depth + 1)).toList (newline depth).toList
        (fun item => (renderAt (depth + 1) item).toList) items := by
  cases items with
  | nil => simp [renderAt, listBody]
  | cons item items => simp [renderAt, listBody, toList_renderItems]

/-- The text of a member. -/
def writeMember (depth : Nat) (member : String × Json) : List Char :=
  (renderString member.1).toList ++ (": ".toList ++ (renderAt depth member.2).toList)

theorem toList_renderMembers (depth : Nat) (members : List (String × Json)) :
    (renderMembers depth members).toList =
      members.flatMap fun member => ',' :: ((newline depth).toList ++ writeMember depth member) := by
  induction members with
  | nil => rfl
  | cons member members inductionHypothesis =>
    simp [renderMembers, inductionHypothesis, writeMember]

theorem toList_renderAt_object (depth : Nat) (members : List (String × Json)) :
    (renderAt depth (object members)).toList =
      '\x7b' :: listBody '\x7d' (newline (depth + 1)).toList (newline depth).toList
        (writeMember (depth + 1)) members := by
  cases members with
  | nil => simp [renderAt, listBody]
  | cons member members => simp [renderAt, listBody, toList_renderMembers, writeMember]

/-- Values are built from the values inside them. -/
theorem induction {motive : Json → Prop} (null : motive null) (bool : ∀ value, motive (bool value))
    (string : ∀ text, motive (string text))
    (array : ∀ items, (∀ item ∈ items, motive item) → motive (array items))
    (object : ∀ members, (∀ member ∈ members, motive member.2) → motive (object members)) :
    ∀ value, motive value
  | .null => null
  | .bool value => bool value
  | .string text => string text
  | .array items => array items fun item _ => induction null bool string array object item
  | .object members => object members fun member _ =>
    induction null bool string array object member.2
termination_by value => sizeOf value
decreasing_by
  · have smaller := List.sizeOf_lt_of_mem ‹item ∈ items›
    simp only [Json.array.sizeOf_spec]
    omega
  · have smaller := List.sizeOf_lt_of_mem ‹member ∈ members›
    obtain ⟨key, value⟩ := member
    simp only [Json.object.sizeOf_spec, Prod.mk.sizeOf_spec] at smaller ⊢
    omega

theorem readsFrom_member {value : Char → Reader Json} {depth : Nat} {member : String × Json}
    (reads : ReadsFrom ']' value (renderAt depth member.2).toList member.2) :
    ReadsFrom '\x7d' (memberFrom value) (writeMember depth member) member := by
  obtain ⟨lead, body, shape, solid, -, reads⟩ := reads
  have colon : Reads next [':'] ':' := reads_next (List.forall_mem_nil _) rfl
  have blank : Reads next ([' '] ++ [lead]) lead :=
    reads_next (List.forall_mem_singleton.mpr rfl) solid
  have split : writeMember depth member = '"' :: ((member.1.toList.flatMap escapeChar ++ ['"']) ++
      ([':'] ++ (([' '] ++ [lead]) ++ body))) := by
    simp [writeMember, toList_renderString, shape]
  refine ⟨'"', _, split, rfl, by decide, ?_⟩
  rw [memberFrom]
  refine .guarded rfl ?_
  refine (reads_stringBody member.1).bind ?_
  refine colon.bind ?_
  refine .guarded rfl ?_
  refine blank.bind ?_
  exact reads.bind_pure _

/-- The first character of a text pays for one step, and the bound that is left is enough for the
rest of it. -/
theorem readsFrom_of_cons {text body : List Char} {lead : Char} {value : Json} {bound : Nat}
    (shape : text = lead :: body) (enough : text.length ≤ bound) (solid : isBlank lead = false)
    (noClose : lead ≠ ']')
    (reads : ∀ bound, body.length ≤ bound → Reads (valueFrom (bound + 1) lead) body value) :
    ReadsFrom ']' (valueFrom bound) text value := by
  rw [shape, List.length_cons] at enough
  obtain ⟨bound, rfl⟩ := Nat.exists_eq_add_one_of_ne_zero (Nat.ne_zero_of_lt enough)
  exact ⟨lead, body, shape, solid, noClose, reads bound (Nat.le_of_succ_le_succ enough)⟩

theorem readsFrom_value (value : Json) (depth : Nat) {bound : Nat}
    (enough : (renderAt depth value).toList.length ≤ bound) :
    ReadsFrom ']' (valueFrom bound) (renderAt depth value).toList value := by
  induction value using induction generalizing depth bound with
  | null =>
    have shape : (renderAt depth null).toList = 'n' :: "ull".toList := by simp [renderAt]
    exact readsFrom_of_cons shape enough rfl (by decide) fun _ _ => (reads_exactly _).bind_pure _
  | bool value =>
    cases value with
    | true =>
      have shape : (renderAt depth (bool true)).toList = 't' :: "rue".toList := by simp [renderAt]
      exact readsFrom_of_cons shape enough rfl (by decide) fun _ _ => (reads_exactly _).bind_pure _
    | false =>
      have shape : (renderAt depth (bool false)).toList = 'f' :: "alse".toList := by
        simp [renderAt]
      exact readsFrom_of_cons shape enough rfl (by decide) fun _ _ => (reads_exactly _).bind_pure _
  | string text =>
    have shape : (renderAt depth (string text)).toList =
        '"' :: (text.toList.flatMap escapeChar ++ ['"']) := by
      rw [renderAt, toList_renderString]
    exact readsFrom_of_cons shape enough rfl (by decide) fun _ _ => (reads_stringBody text).map _
  | array items inductionHypothesis =>
    refine readsFrom_of_cons (toList_renderAt_array depth items) enough rfl (by decide) ?_
    intro bound enough
    apply Reads.map
    apply reads_listed (isBlank_newline _) (isBlank_newline _) rfl (by decide)
    · intro item member
      have fits := Nat.le_trans (length_write_le member) enough
      exact inductionHypothesis item member _ fits
    · exact Nat.le_trans (length_le_length_listBody items) enough
  | object members inductionHypothesis =>
    refine readsFrom_of_cons (toList_renderAt_object depth members) enough rfl (by decide) ?_
    intro bound enough
    apply Reads.map
    apply reads_listed (isBlank_newline _) (isBlank_newline _) rfl (by decide)
    · intro member inside
      apply readsFrom_member
      apply inductionHypothesis member inside
      have whole := Nat.le_trans (length_write_le inside) enough
      simp only [writeMember, List.length_append] at whole
      omega
    · exact Nat.le_trans (length_le_length_listBody members) enough

/-- What was written is read back. -/
theorem read?_render (value : Json) : read? value.render = some value := by
  obtain ⟨lead, body, shape, solid, -, reads⟩ :=
    readsFrom_value value 0 (Nat.le_of_eq String.length_toList)
  have whole : Reads (next >>= valueFrom (renderAt 0 value).length) ([lead] ++ body) value :=
    (reads_next (List.forall_mem_nil _) solid).bind reads
  have taken := whole []
  rw [List.append_nil, List.singleton_append, ← shape] at taken
  rw [read?, render, taken]
  rfl

end Written

end FlatSchema.Json
