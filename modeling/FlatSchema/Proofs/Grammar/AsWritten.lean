import FlatSchema.Proofs.Grammar.Reading
import FlatSchema.Proofs.Schema.WellFormed

/-!
Declarations as they are written. The rules for declarations are read once more with another rule
for the names that they declare, which leaves these names as they stand in the text. Changing the
names afterwards or while reading comes to the same, so what a schema stores is what is written,
with the stored form of each name in its place.
-/

namespace FlatSchema

open Grammar Rule Token

namespace Rule

variable {α β : Type} (function : α → β) (rule : Rule α)

theorem collectWithin_map (bound : Nat) (bytes : List UInt8) :
    collectWithin (function <$> rule) bound bytes =
      ((collectWithin rule bound bytes).1.map function, (collectWithin rule bound bytes).2) := by
  induction bound generalizing bytes with
  | zero => rfl
  | succ bound inductionHypothesis =>
    rw [collectWithin, collectWithin, map_apply]
    cases rule bytes with
    | none => rfl
    | some result => simp [inductionHypothesis]

theorem collect_map (bytes : List UInt8) :
    collect (function <$> rule) bytes =
      ((collect rule bytes).1.map function, (collect rule bytes).2) := by
  rw [collect, collect, map_apply]
  cases rule bytes with
  | none => rfl
  | some result => simp [collectWithin_map]

theorem many_map : many (function <$> rule) = List.map function <$> many rule := by
  funext bytes
  rw [many, map_apply, many, collect_map]
  rfl

theorem listOf_map (separator : Rule Unit) :
    listOf (function <$> rule) separator = List.map function <$> listOf rule separator := by
  have separated : (function <$> rule) <* separator = function <$> (rule <* separator) := by
    simp only [seqLeft_eq_bind, map_bind, bind_map_left, map_pure]
  have last : optional (function <$> rule) = Option.map function <$> optional rule := by
    funext bytes
    simp only [optional, orElse_apply, map_apply]
    cases rule bytes <;> rfl
  rw [listOf, listOf, separated, many_map, last]
  simp only [map_bind, bind_map_left, map_pure, List.map_append, Option.toList_map]

theorem firstOf_map (rules : List (Rule α)) :
    firstOf (rules.map (function <$> ·)) = function <$> firstOf rules := by
  induction rules with
  | nil => rfl
  | cons first rules inductionHypothesis =>
    funext bytes
    rw [List.map_cons, firstOf, firstOf, inductionHypothesis, orElse_apply, map_apply, map_apply,
      map_apply, orElse_apply]
    cases first bytes <;> rfl

end Rule

section Renaming

variable (change : Ident → Ident)

/-- The field under a changed name. -/
def Field.rename (field : Field) : Field :=
  { field with name := change field.name }

/-- The table or struct with its name and the names of its fields changed. -/
def Record.rename (record : Record) : Record :=
  { record with name := change record.name, fields := record.fields.map (Field.rename change) }

def EnumCase.rename (enumCase : EnumCase) : EnumCase :=
  { enumCase with name := change enumCase.name }

def Enumeration.rename (enumeration : Enumeration) : Enumeration :=
  { enumeration with
    name := change enumeration.name
    cases := enumeration.cases.map (EnumCase.rename change) }

def TaggedUnion.rename (union : TaggedUnion) : TaggedUnion :=
  { union with name := change union.name, cases := union.cases.map change }

/-- Directives declare no names. -/
def Item.rename : Item → Item
  | .table record => .table (record.rename change)
  | .struct record => .struct (record.rename change)
  | .enumeration declared => .enumeration (declared.rename change)
  | .union declared => .union (declared.rename change)
  | item => item

variable (ident : Rule Ident)

/-- The rule for fields with another rule for their names. -/
def Field.ruleWith : Rule Field := do
  skipComments
  let name ← ident
  symbol ":"
  let type ← FieldType.rule
  let default ← assignedValue
  let metadata ← Metadata.optionalRule
  symbol ";"
  return { name, type, default, metadata }

def Record.ruleWith (word : String) : Rule Record := do
  skipComments
  keyword word
  let name ← ident
  let metadata ← Metadata.optionalRule
  symbol "\x7b"
  let fields ← many (Field.ruleWith ident)
  skipComments
  symbol "\x7d"
  return { name, fields, metadata }

def EnumCase.ruleWith : Rule EnumCase := do
  let name ← ident
  let value ← assignedValue
  return { name, value }

def Enumeration.ruleWith : Rule Enumeration := do
  skipComments
  keyword "enum"
  let name ← ident
  symbol ":"
  let base ← Token.name
  match Scalar.ofName? base with
  | none => failure
  | some base =>
    let metadata ← Metadata.optionalRule
    let cases ← caseList (EnumCase.ruleWith ident)
    return { name, base, cases, metadata }

def TaggedUnion.ruleWith : Rule TaggedUnion := do
  skipComments
  keyword "union"
  let name ← ident
  let metadata ← Metadata.optionalRule
  let cases ← caseList ident
  return { name, cases, metadata }

def Item.rulesWith : List (Rule Item) :=
  [inclusion <$> directive "include",
   nameSpace <$> Namespace.rule,
   rootType <$> rootTypeRule,
   fileIdentifier <$> directive "file_identifier",
   fileExtension <$> directive "file_extension",
   userAttribute <$> directive "attribute",
   table <$> Record.ruleWith ident "table",
   struct <$> Record.ruleWith ident "struct",
   enumeration <$> Enumeration.ruleWith ident,
   union <$> TaggedUnion.ruleWith ident]

theorem Field.ruleWith_map :
    Field.ruleWith (change <$> ident) = Field.rename change <$> Field.ruleWith ident := by
  simp only [ruleWith, map_bind, bind_map_left, map_pure, rename]

theorem Record.ruleWith_map (word : String) :
    Record.ruleWith (change <$> ident) word =
      Record.rename change <$> Record.ruleWith ident word := by
  simp only [ruleWith, Field.ruleWith_map, many_map, map_bind, bind_map_left, map_pure, rename]

theorem caseList_map {α β : Type} (function : α → β) (item : Rule α) :
    caseList (function <$> item) = List.map function <$> caseList item := by
  have commented : skipComments *> (function <$> item) = function <$> (skipComments *> item) := by
    simp only [seqRight_eq_bind, map_bind]
  simp only [caseList, commented, listOf_map, map_bind, bind_map_left, map_pure]

theorem EnumCase.ruleWith_map :
    EnumCase.ruleWith (change <$> ident) = EnumCase.rename change <$> EnumCase.ruleWith ident := by
  simp only [ruleWith, map_bind, bind_map_left, map_pure, rename]

theorem Enumeration.ruleWith_map :
    Enumeration.ruleWith (change <$> ident) =
      Enumeration.rename change <$> Enumeration.ruleWith ident := by
  simp only [ruleWith, EnumCase.ruleWith_map, caseList_map, map_bind, bind_map_left]
  refine bind_congr fun _ => bind_congr fun _ => bind_congr fun name => bind_congr fun _ =>
    bind_congr fun base => ?_
  cases Scalar.ofName? base with
  | none => rfl
  | some base => simp only [map_bind, map_pure, rename]

theorem TaggedUnion.ruleWith_map :
    TaggedUnion.ruleWith (change <$> ident) =
      TaggedUnion.rename change <$> TaggedUnion.ruleWith ident := by
  simp only [ruleWith, caseList_map, map_bind, bind_map_left, map_pure, rename]

/-- Names can be changed after reading as well as while reading. -/
theorem Item.rulesWith_map :
    Item.rulesWith (change <$> ident) =
      (Item.rulesWith ident).map (Item.rename change <$> ·) := by
  simp only [rulesWith, Record.ruleWith_map, Enumeration.ruleWith_map, TaggedUnion.ruleWith_map,
    List.map_cons, List.map_nil, Functor.map_map]
  rfl

end Renaming

namespace Ident

/-- A name as it stands in the text. -/
def asWritten : Rule Ident :=
  Ident.mk <$> name

/-- The stored form of a name that stands in the text. -/
def stored (name : Ident) : Ident :=
  ofSource name.text

theorem rule_eq_map : rule = stored <$> asWritten := by
  rw [asWritten, Functor.map_map]
  rfl

end Ident

namespace Item

/-- The items at the start of a buffer, with the names that they declare as they are written. -/
def writtenIn (buffer : List UInt8) : List Item :=
  (collect (firstOf (rulesWith Ident.asWritten)) buffer).1

theorem readAll_eq_map (buffer : List UInt8) :
    (readAll buffer).1 = (writtenIn buffer).map (Item.rename Ident.stored) := by
  have rules : Item.rules = (rulesWith Ident.asWritten).map (Item.rename Ident.stored <$> ·) := by
    rw [← rulesWith_map, ← Ident.rule_eq_map]
    rfl
  rw [readAll, rule, rules, firstOf_map, collect_map, writtenIn]

end Item

end FlatSchema
