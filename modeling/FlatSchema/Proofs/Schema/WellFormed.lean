import FlatSchema.Proofs.Schema.Resolution
import FlatSchema.Proofs.Scope.Precedence
import FlatSchema.Proofs.Text.Spelling

/-!
What every schema that was read has in common, whatever the bytes it was read from. Names are spelled
as names, and Swift takes them as they are stored; references are not built-in types; values, keys
and literals hold only the characters that their rules let through.
-/

namespace FlatSchema

open Grammar Text

/-- A text that can stand between double quotes: its bytes are plain ones, and backslashes each with
the byte that it protects. -/
def Text.IsLiteral (text : String) : Prop :=
  Quotable (utf8Bytes text)

structure Ident.WellFormed (name : Ident) : Prop where
  spelled : IsName name.text
  unreserved : name.text ∉ Ident.reservedWords

/-- The names of the built-in types. -/
def BaseType.builtIn : List String :=
  "string" :: Scalar.spellings.map (·.1)

def BaseType.WellFormed : BaseType → Prop
  | .reference name => name.WellFormed ∧ name.text ∉ builtIn
  | _ => True

structure MetadataEntry.WellFormed (entry : MetadataEntry) : Prop where
  key : IsName entry.key
  value : ∀ value ∈ entry.value, IsValue value ∨ IsLiteral value

def Metadata.WellFormed (metadata : Metadata) : Prop :=
  ∀ entry ∈ metadata.entries, entry.WellFormed

structure Field.WellFormed (field : Field) : Prop where
  name : field.name.WellFormed
  type : field.type.base.WellFormed
  default : ∀ value ∈ field.default, IsValue value
  metadata : field.metadata.WellFormed

structure Record.WellFormed (record : Record) : Prop where
  name : record.name.WellFormed
  fields : ∀ field ∈ record.fields, field.WellFormed
  metadata : record.metadata.WellFormed

structure EnumCase.WellFormed (enumCase : EnumCase) : Prop where
  name : enumCase.name.WellFormed
  value : ∀ value ∈ enumCase.value, IsValue value

structure Enumeration.WellFormed (enumeration : Enumeration) : Prop where
  name : enumeration.name.WellFormed
  cases : ∀ enumCase ∈ enumeration.cases, enumCase.WellFormed
  metadata : enumeration.metadata.WellFormed

structure TaggedUnion.WellFormed (union : TaggedUnion) : Prop where
  name : union.name.WellFormed
  cases : ∀ name ∈ union.cases, name.WellFormed
  metadata : union.metadata.WellFormed

def Namespace.WellFormed (nameSpace : Namespace) : Prop :=
  ∀ part ∈ nameSpace.parts, part.WellFormed

structure Document.WellFormed (document : Document) : Prop where
  includes : ∀ path ∈ document.includes, IsLiteral path
  nameSpace : ∀ nameSpace ∈ document.nameSpace, nameSpace.WellFormed
  rootType : ∀ name ∈ document.rootType, name.WellFormed
  fileIdentifier : ∀ text ∈ document.fileIdentifier, IsLiteral text
  fileExtension : ∀ text ∈ document.fileExtension, IsLiteral text
  attributes : ∀ text ∈ document.attributes, IsLiteral text
  tables : ∀ table ∈ document.tables, table.WellFormed
  structs : ∀ struct ∈ document.structs, struct.WellFormed
  enums : ∀ enumeration ∈ document.enums, enumeration.WellFormed
  unions : ∀ union ∈ document.unions, union.WellFormed

/-- Every document of the tree is well formed. -/
def Schema.WellFormed (schema : Schema) : Prop :=
  ∀ document ∈ schema.documents, document.WellFormed

def Item.WellFormed : Item → Prop
  | .inclusion path => IsLiteral path
  | .nameSpace declared => declared.WellFormed
  | .rootType name => name.WellFormed
  | .fileIdentifier text => IsLiteral text
  | .fileExtension text => IsLiteral text
  | .userAttribute text => IsLiteral text
  | .table record => record.WellFormed
  | .struct record => record.WellFormed
  | .enumeration declared => declared.WellFormed
  | .union declared => declared.WellFormed

section Names

theorem isName_of_name {word : List UInt8} {text : String} (written : Name word text) :
    IsName text := by
  cases written with
  | spelled _ spelled => exact isName_of_spellsName spelled

theorem isValue_of_value {word : List UInt8} {text : String} (written : Value word text) :
    IsValue text := by
  cases written with
  | spelled _ spelled => exact isValue_of_spellsValue spelled

theorem isLiteral_of_literal {word : List UInt8} {text : String} (written : Literal word text) :
    IsLiteral text := by
  cases written with
  | quoted _ quotable => exact quotable

/-- An underscore in front leads out of a list of words that do not begin with one. -/
theorem underscore_append_not_mem {words : List String}
    (plain : ∀ word ∈ words, word.toList.head? ≠ some '_') (word : String) :
    "_" ++ word ∉ words := by
  intro member
  apply plain _ member
  simp [String.toList_append]

theorem isName_underscore_append {word : String} (spelled : IsName word) : IsName ("_" ++ word) := by
  have characters : ("_" ++ word).toList = '_' :: word.toList := String.toList_append
  unfold IsName
  rw [characters, List.forall_mem_cons]
  exact ⟨rfl, rfl, spelled.2⟩

/-- The stored form of a name is a name that is not reserved. -/
theorem Ident.wellFormed_ofSource {word : String} (spelled : IsName word) :
    (Ident.ofSource word).WellFormed := by
  unfold Ident.ofSource
  by_cases reserved : Ident.isReserved word = true
  · rw [if_pos reserved]
    refine ⟨isName_underscore_append spelled, ?_⟩
    apply underscore_append_not_mem
    decide +kernel
  · rw [if_neg reserved]
    refine ⟨spelled, ?_⟩
    simpa [Ident.isReserved] using reserved

theorem Ident.ofSource_not_builtIn {word : String} (foreign : word ∉ BaseType.builtIn) :
    (Ident.ofSource word).text ∉ BaseType.builtIn := by
  unfold Ident.ofSource
  by_cases reserved : Ident.isReserved word = true
  · rw [if_pos reserved]
    apply underscore_append_not_mem
    decide +kernel
  · rw [if_neg reserved]
    exact foreign

theorem Ident.wellFormed_of_identifier {word : List UInt8} {name : Ident}
    (written : Identifier word name) : name.WellFormed := by
  cases written with
  | stored written => exact Ident.wellFormed_ofSource (isName_of_name written)

end Names

section Lists

variable {α : Type} {phrase : Phrase α} {separator : List UInt8 → Prop} {condition : α → Prop}

/-- What holds of each word holds of all words of a list. -/
theorem Grammar.Repeated.forall {word : List UInt8} {values : List α}
    (repeated : Repeated phrase word values)
    (each : ∀ word value, phrase word value → condition value) :
    ∀ value ∈ values, condition value := by
  induction repeated with
  | nil => exact List.forall_mem_nil _
  | cons written _ inductionHypothesis =>
    exact List.forall_mem_cons.mpr ⟨each _ _ written, inductionHypothesis⟩

theorem Grammar.Separated.forall {word : List UInt8} {values : List α}
    (separated : Separated phrase separator word values)
    (each : ∀ word value, phrase word value → condition value) :
    ∀ value ∈ values, condition value := by
  induction separated with
  | last written => exact List.forall_mem_singleton.mpr (each _ _ written)
  | cons written _ _ inductionHypothesis =>
    exact List.forall_mem_cons.mpr ⟨each _ _ written, inductionHypothesis⟩

theorem Grammar.Listed.forall {word : List UInt8} {values : List α}
    (listed : Listed phrase separator word values)
    (each : ∀ word value, phrase word value → condition value) :
    ∀ value ∈ values, condition value := by
  cases listed with
  | empty => exact List.forall_mem_nil _
  | plain separated => exact separated.forall each
  | trailing separated _ => exact separated.forall each

theorem Grammar.Cases.forall {word : List UInt8} {values : List α}
    (cases : Cases phrase word values)
    (each : ∀ word value, phrase word value → condition value) :
    ∀ value ∈ values, condition value := by
  obtain ⟨-, listed, -, -⟩ := cases
  refine listed.forall ?_
  intro word value commented
  obtain ⟨-, written⟩ := commented
  exact each _ _ written

theorem Grammar.Perhaps.forall {word : List UInt8} {value? : Option α}
    (perhaps : Perhaps phrase word value?)
    (each : ∀ word value, phrase word value → condition value) :
    ∀ value ∈ value?, condition value := by
  cases perhaps with
  | missing => exact nofun
  | present written =>
    rintro value ⟨⟩
    exact each _ _ written

end Lists

section Declarations

theorem isValue_of_assignment {word : List UInt8} {value : String}
    (written : Assignment word value) : IsValue value := by
  cases written with
  | assigned _ written => exact isValue_of_value written

theorem MetadataEntry.Written.wellFormed {word : List UInt8} {entry : MetadataEntry}
    (written : MetadataEntry.Written word entry) : entry.WellFormed := by
  cases written with
  | key key => exact ⟨isName_of_name key, nofun⟩
  | literal key _ literal =>
    refine ⟨isName_of_name key, ?_⟩
    rintro value ⟨⟩
    exact .inr (isLiteral_of_literal literal)
  | bare key _ bare =>
    refine ⟨isName_of_name key, ?_⟩
    rintro value ⟨⟩
    exact .inl (isValue_of_value bare)

theorem Metadata.Written.wellFormed {word : List UInt8} {metadata : Metadata}
    (written : Metadata.Written word metadata) : metadata.WellFormed := by
  cases written with
  | parenthesized _ separated _ =>
    exact separated.forall fun _ _ entry => entry.wellFormed

theorem Metadata.WrittenPerhaps.wellFormed {word : List UInt8} {metadata : Metadata}
    (written : Metadata.WrittenPerhaps word metadata) : metadata.WellFormed := by
  obtain ⟨perhaps⟩ := written
  cases perhaps with
  | missing => exact nofun
  | present written => exact written.wellFormed

theorem BaseType.Written.wellFormed {word : List UInt8} {base : BaseType}
    (written : BaseType.Written word base) : base.WellFormed := by
  cases written with
  | string => trivial
  | scalar => trivial
  | @reference _ name written notString notScalar =>
    refine ⟨Ident.wellFormed_ofSource (isName_of_name written), ?_⟩
    apply Ident.ofSource_not_builtIn
    intro member
    rcases List.mem_cons.mp member with isString | isScalar
    · exact notString isString
    · obtain ⟨⟨_, known⟩, listed, rfl⟩ := List.mem_map.mp isScalar
      exact notScalar known listed

theorem FieldType.Written.wellFormed {word : List UInt8} {type : FieldType}
    (written : FieldType.Written word type) : type.base.WellFormed := by
  cases written with
  | single base => exact base.wellFormed
  | vector _ base _ => exact base.wellFormed

theorem Field.Written.wellFormed {word : List UInt8} {field : Field}
    (written : Field.Written word field) : field.WellFormed := by
  obtain ⟨-, name, -, type, assigned, notes, -⟩ := written
  exact ⟨Ident.wellFormed_of_identifier name, type.wellFormed,
    assigned.forall fun _ _ => isValue_of_assignment, notes.wellFormed⟩

theorem Record.Written.wellFormed {keyword : String} {word : List UInt8} {record : Record}
    (written : Record.Written keyword word record) : record.WellFormed := by
  obtain ⟨-, -, -, name, notes, -, fields, -, -⟩ := written
  exact ⟨Ident.wellFormed_of_identifier name, fields.forall fun _ _ field => field.wellFormed,
    notes.wellFormed⟩

theorem EnumCase.Written.wellFormed {word : List UInt8} {enumCase : EnumCase}
    (written : EnumCase.Written word enumCase) : enumCase.WellFormed := by
  obtain ⟨name, assigned⟩ := written
  exact ⟨Ident.wellFormed_of_identifier name, assigned.forall fun _ _ => isValue_of_assignment⟩

theorem Enumeration.Written.wellFormed {word : List UInt8} {enumeration : Enumeration}
    (written : Enumeration.Written word enumeration) : enumeration.WellFormed := by
  obtain ⟨-, -, -, name, -, -, -, notes, cases⟩ := written
  exact ⟨Ident.wellFormed_of_identifier name, cases.forall fun _ _ enumCase => enumCase.wellFormed,
    notes.wellFormed⟩

theorem TaggedUnion.Written.wellFormed {word : List UInt8} {union : TaggedUnion}
    (written : TaggedUnion.Written word union) : union.WellFormed := by
  obtain ⟨-, -, -, name, notes, cases⟩ := written
  exact ⟨Ident.wellFormed_of_identifier name,
    cases.forall fun _ _ => Ident.wellFormed_of_identifier, notes.wellFormed⟩

theorem Namespace.Written.wellFormed {word : List UInt8} {nameSpace : Namespace}
    (written : Namespace.Written word nameSpace) : nameSpace.WellFormed := by
  obtain ⟨-, -, -, listed, -⟩ := written
  exact listed.forall fun _ _ => Ident.wellFormed_of_identifier

theorem isLiteral_of_directive {keyword : String} {word : List UInt8} {text : String}
    (written : Directive keyword word text) : IsLiteral text := by
  obtain ⟨-, -, literal, -⟩ := written
  exact isLiteral_of_literal literal

theorem Item.Written.wellFormed {word : List UInt8} {item : Item}
    (written : Item.Written word item) : item.WellFormed := by
  cases written with
  | inclusion directive => exact isLiteral_of_directive directive
  | nameSpace written => exact written.wellFormed
  | rootType written =>
    obtain ⟨-, -, -, name, -⟩ := written
    exact Ident.wellFormed_of_identifier name
  | fileIdentifier directive => exact isLiteral_of_directive directive
  | fileExtension directive => exact isLiteral_of_directive directive
  | userAttribute directive => exact isLiteral_of_directive directive
  | table written => exact written.wellFormed
  | struct written => exact written.wellFormed
  | enumeration written => exact written.wellFormed
  | union written => exact written.wellFormed

end Declarations

/-- A document says what its items say, so it is well formed if they are. -/
theorem Document.wellFormed_ofItems {items : List Item} (each : ∀ item ∈ items, item.WellFormed) :
    (Document.ofItems items).WellFormed := by
  have picked {α : Type} {pick : Item → Option α} {condition : α → Prop}
      (means : ∀ item value, pick item = some value → item.WellFormed → condition value) :
      ∀ value ∈ items.filterMap pick, condition value := by
    intro value member
    obtain ⟨item, inside, found⟩ := List.mem_filterMap.mp member
    exact means item value found (each item inside)
  have first {α : Type} {pick : Item → Option α} {condition : α → Prop}
      (means : ∀ item value, pick item = some value → item.WellFormed → condition value) :
      ∀ value ∈ (items.filterMap pick).head?, condition value := by
    intro value member
    exact picked means value (List.mem_of_mem_head? member)
  refine ⟨picked ?_, first ?_, first ?_, first ?_, first ?_, picked ?_, picked ?_, picked ?_,
    picked ?_, picked ?_⟩
  all_goals
    intro item value found wellFormed
    cases item <;> cases found
    exact wellFormed

namespace Schema

theorem wellFormed_readAll (buffer : List UInt8) :
    ∀ item ∈ (Item.readAll buffer).1, item.WellFormed := by
  obtain ⟨body, repeated, -⟩ := (Item.recognised_readAll buffer).front
  exact repeated.forall fun _ _ written => written.wellFormed

theorem wellFormed_document_of_parse? {buffer : List UInt8} {schema : Schema} {stop : Nat}
    (parsed : parse? buffer = some (schema, stop)) : schema.document.WellFormed := by
  rw [parse?_eq_map, Option.map_eq_some_iff] at parsed
  obtain ⟨document, added, withStop⟩ := parsed
  cases withStop
  obtain ⟨-, rfl⟩ := Document.addAll?_empty_eq_some_iff.mp added
  exact Document.wellFormed_ofItems (wellFormed_readAll buffer)

theorem wellFormed_iff {schema : Schema} :
    schema.WellFormed ↔
      schema.document.WellFormed ∧ ∀ child ∈ schema.children, child.WellFormed := by
  obtain ⟨document, children⟩ := schema
  simp only [WellFormed, documents, List.forall_mem_cons, List.mem_flatMap, forall_exists_index,
    and_imp]
  constructor
  · rintro ⟨own, below⟩
    exact ⟨own, fun child member document inside => below document child member inside⟩
  · rintro ⟨own, below⟩
    exact ⟨own, fun document child member inside => below child member document inside⟩

variable {State : Type}

/-- A resolver that finds only schemas of a certain kind, whatever it is asked and in whatever
state. -/
def FindsOnly (condition : Schema → Prop) (resolve : String → StateM State (Option Schema)) : Prop :=
  ∀ path state, ∀ schema ∈ (resolve path state).1, condition schema

theorem FindsOnly.mono {condition weaker : Schema → Prop}
    {resolve : String → StateM State (Option Schema)} (finds : FindsOnly condition resolve)
    (weakens : ∀ schema, condition schema → weaker schema) : FindsOnly weaker resolve :=
  fun path state schema found => weakens schema (finds path state schema found)

/-- Every answer of a run is an answer in some state. -/
theorem FindsOnly.mapM {condition : Schema → Prop}
    {resolve : String → StateM State (Option Schema)} (finds : FindsOnly condition resolve)
    (paths : List String) (start : State) :
    ∀ answer ∈ (paths.mapM resolve start).1, ∀ schema ∈ answer, condition schema := by
  induction paths generalizing start with
  | nil => exact List.forall_mem_nil _
  | cons path paths inductionHypothesis =>
    rw [mapM_cons_apply, List.forall_mem_cons]
    exact ⟨finds path start, inductionHypothesis _⟩

theorem FindsOnly.children {condition : Schema → Prop}
    {resolve : String → StateM State (Option Schema)} (finds : FindsOnly condition resolve)
    (start : State) (buffer : List UInt8) (schema : Schema) :
    ∀ child ∈ (schema.answeredBy (callsOf resolve start buffer)).children, condition child := by
  intro child member
  rw [answeredBy, filterMap_snd_callsOf, List.reduceOption_mem_iff] at member
  exact finds.mapM _ start _ member child rfl

/-- A schema that was read is well formed if the schemas that its includes were resolved to are. -/
theorem wellFormed_of_parseWith? {resolve : String → StateM State (Option Schema)}
    (finds : FindsOnly WellFormed resolve) {start : State} {buffer : List UInt8} {schema : Schema}
    {stop : Nat} (parsed : (parseWith? resolve buffer start).1 = some (schema, stop)) :
    schema.WellFormed := by
  rw [parseWith?_apply, Option.map_eq_some_iff] at parsed
  obtain ⟨⟨read, _⟩, parsed, answered⟩ := parsed
  cases answered
  have own : read.document.WellFormed := wellFormed_document_of_parse? parsed
  rw [wellFormed_iff]
  exact ⟨own, finds.children start buffer read⟩

theorem wellFormed_of_parse? {buffer : List UInt8} {schema : Schema} {stop : Nat}
    (parsed : parse? buffer = some (schema, stop)) : schema.WellFormed := by
  have own := wellFormed_document_of_parse? parsed
  rw [parse?_eq_map, Option.map_eq_some_iff] at parsed
  obtain ⟨document, -, withStop⟩ := parsed
  cases withStop
  rw [wellFormed_iff]
  exact ⟨own, List.forall_mem_nil _⟩

/-- A schema that was read from some buffer, with its includes left alone or resolved to schemas that
were read themselves. -/
inductive Parsed : Schema → Prop where
  | alone {buffer : List UInt8} {schema : Schema} {stop : Nat} :
      parse? buffer = some (schema, stop) → Parsed schema
  | resolved {State : Type} {resolve : String → StateM State (Option Schema)} {start : State}
      {buffer : List UInt8} {schema : Schema} {stop : Nat} :
      (∀ path state found, (resolve path state).1 = some found → Parsed found) →
      (parseWith? resolve buffer start).1 = some (schema, stop) → Parsed schema

theorem Parsed.wellFormed {schema : Schema} (parsed : schema.Parsed) : schema.WellFormed := by
  induction parsed with
  | alone parsed => exact wellFormed_of_parse? parsed
  | resolved _ parsed inductionHypothesis => exact wellFormed_of_parseWith? inductionHypothesis parsed

theorem Parsed.of_compile {text : String} {schema : Schema} (accepted : compile text = .ok schema) :
    schema.Parsed := by
  obtain ⟨stop, parsed⟩ := exists_of_finish accepted
  exact .alone parsed

theorem Parsed.of_compileWith {resolve : String → StateM State (Option Schema)}
    (finds : FindsOnly Parsed resolve) {start : State} {text : String} {schema : Schema}
    (accepted : (compileWith resolve text start).1 = .ok schema) : schema.Parsed := by
  obtain ⟨stop, parsed⟩ := exists_of_finish accepted
  exact .resolved finds parsed

/-- Whatever bytes a schema was read from, it is well formed throughout, if its includes were left
alone or were resolved to schemas that are. -/
theorem parsed_schema_wellFormed (buffer : List UInt8) :
    (∀ schema stop, parse? buffer = some (schema, stop) → schema.WellFormed) ∧
      ∀ (State : Type) (resolve : String → StateM State (Option Schema)) (start : State),
        FindsOnly WellFormed resolve →
        ∀ schema stop, ((parseWith? resolve buffer).run start).1 = some (schema, stop) →
          schema.WellFormed := by
  constructor
  · intro schema stop parsed
    exact wellFormed_of_parse? parsed
  · intro State resolve start finds schema stop parsed
    exact wellFormed_of_parseWith? finds parsed

section Library

/-- A buffer with an include, with names that Swift reserves, and with a byte behind the items that
no text has. -/
def libraryBuffer : List UInt8 :=
  utf8Bytes ("include \"item\"; table class \x7b self: [Item] = +1.5 (key: \"a\\\"b\"); \x7d " ++
    "root_type class;") ++ [255]

def itemBuffer : List UInt8 :=
  utf8Bytes "struct Item \x7b in: byte; \x7d"

/-- A resolver that counts its calls and always finds what one buffer says. -/
def itemResolver (_ : String) : StateM Nat (Option Schema) := do
  modify (· + 1)
  return (parse? itemBuffer).map (·.1)

def library : Schema :=
  { document :=
      { includes := ["item"]
        rootType := some ⟨"_class"⟩
        tables := [⟨⟨"_class"⟩, [⟨⟨"_self"⟩, ⟨.reference ⟨"Item"⟩, true⟩, some "+1.5",
          ⟨[⟨"key", some "a\\\"b"⟩]⟩⟩], {}⟩] }
    children := [⟨{ structs := [⟨⟨"Item"⟩, [⟨⟨"_in"⟩, ⟨.scalar .int8, false⟩, none, {}⟩], {}⟩] }, []⟩] }

theorem findsOnly_itemResolver : FindsOnly Parsed itemResolver := by
  intro path state schema found
  change (parse? itemBuffer).map (·.1) = some schema at found
  obtain ⟨⟨_, stop⟩, parsed, rfl⟩ := Option.map_eq_some_iff.mp found
  exact .alone parsed

theorem parsed_schema_wellFormed_library :
    FindsOnly WellFormed itemResolver ∧
      ((parseWith? itemResolver libraryBuffer).run 0).1 = some (library, 83) ∧
      library.WellFormed := by
  have finds : FindsOnly WellFormed itemResolver :=
    findsOnly_itemResolver.mono fun _ parsed => parsed.wellFormed
  have parsed : ((parseWith? itemResolver libraryBuffer).run 0).1 = some (library, 83) := by rfl
  exact ⟨finds, parsed,
    (parsed_schema_wellFormed libraryBuffer).2 Nat itemResolver 0 finds _ _ parsed⟩

end Library

end Schema

end FlatSchema
