import FlatSchema.Proofs.Scope.Agreement
import FlatSchema.Proofs.Swift.Emission

/-!
Declarations that the root table does not reach. Declarations are put into the documents of a tree,
anywhere and of any kind, under names that are neither that of the root nor occur in a declaration
within its reach. The source of the tree and its recursion stay what they were.
-/

namespace FlatSchema

open Declaration

/-- A list with further elements put in anywhere. -/
inductive Added {α : Type} (new : α → Prop) : List α → List α → Prop where
  | nil : Added new [] []
  | keep {element : α} {list grown : List α} :
      Added new list grown → Added new (element :: list) (element :: grown)
  | add {element : α} {list grown : List α} :
      new element → Added new list grown → Added new list (element :: grown)

theorem Added.filter_eq {α : Type} {new : α → Prop} {list grown : List α}
    (added : Added new list grown) {keep : α → Bool}
    (dropped : ∀ element, new element → keep element = false) :
    list.filter keep = grown.filter keep := by
  induction added with
  | nil => rfl
  | keep _ inductionHypothesis => rw [List.filter_cons, List.filter_cons, inductionHypothesis]
  | @add element list grown isNew _ inductionHypothesis =>
    rw [List.filter_cons_of_neg (by simp [dropped element isNew]), inductionHypothesis]

/-- A document with further declarations, whose names meet a condition. -/
structure Document.Grows (new : String → Prop) (document grown : Document) : Prop where
  others : grown = { document with
    tables := grown.tables, structs := grown.structs, enums := grown.enums, unions := grown.unions }
  declarations : ∀ kind : Kind,
    Added (fun content => new (kind.name content).text) (kind.listed document) (kind.listed grown)

theorem Document.Grows.declaring_eq {new : String → Prop} {document grown : Document}
    (grows : Document.Grows new document grown) {name : String} (old : ¬ new name) (kind : Kind) :
    document.declaring kind name = grown.declaring kind name := by
  apply (grows.declarations kind).filter_eq
  intro content isNew
  simp only [decide_eq_false_iff_not]
  rintro rfl
  exact old isNew

namespace Swift

open Scope

section Render

variable {context : Context} {scope : Scope}

theorem propertyText_eq {field : Field}
    (agree : ∀ name, field.type.reference? = some name → context.scope.AgreeOn scope name.text) :
    context.propertyText field = { context with scope }.propertyText field := by
  rw [Context.propertyText, Context.propertyText]
  cases base : field.type.base with
  | scalar => rfl
  | string => rfl
  | reference name =>
    have reference : field.type.reference? = some name := by rw [FieldType.reference?, base]
    simp only [(agree name reference).resolve?_eq]
    rfl

/-- The block of a declaration depends on the names in it alone. -/
theorem render_congr (document : Document) {declaration : Declaration}
    (agree : ∀ name ∈ declaration.mentions, context.scope.AgreeOn scope name.text) :
    render context document declaration = render { context with scope } document declaration := by
  cases declaration with
  | table declared =>
    have properties : ∀ field ∈ declared.fields.filter (!·.isDeprecated),
        "    " ++ context.property field = "    " ++ { context with scope }.property field := by
      intro field member
      have text : context.propertyText field = { context with scope }.propertyText field := by
        apply propertyText_eq
        intro name reference
        exact agree name (List.mem_filterMap.mpr ⟨field, List.mem_of_mem_filter member, reference⟩)
      rw [Context.property, Context.property, text]
    have lines : context.tableLines declared = { context with scope }.tableLines declared := by
      rw [Context.tableLines, Context.tableLines, List.map_congr_left properties]
    rw [render, render, Context.table, Context.table, lines]
    rfl
  | struct declared => rfl
  | enumeration declared => rfl
  | union declared => rfl

end Render

/-- A name that neither is that of the root nor occurs in a declaration within its reach. -/
def Unmentioned (scope : Scope) (root : Record) (name : String) : Prop :=
  name ≠ root.name.text ∧ ∀ declaration,
    Relation.ReflTransGen (Needs scope) (.table root) declaration →
      ∀ mention ∈ declaration.mentions, name ≠ mention.text

/-- A schema with a root table, and the schema with declarations put in that the root does not come
to. -/
structure Growth (schema grown : Schema) (name : Ident) (root : Record) : Prop where
  rooted : schema.document.rootType = some name
  found : schema.scope.tables[name.text]? = some root
  grows : schema.Alike (Document.Grows (Unmentioned schema.scope root)) grown

namespace Growth

variable {schema grown : Schema} {name : Ident} {root : Record}
  (growth : Growth schema grown name root)

include growth

theorem agreeOn {known : String} (mentioned : ¬ Unmentioned schema.scope root known) :
    schema.scope.AgreeOn grown.scope known := by
  apply agreeOn_of_alike growth.grows
  intro document document' pair kind
  exact pair.declaring_eq mentioned kind

theorem agreeOn_root : schema.scope.AgreeOn grown.scope name.text := by
  apply growth.agreeOn
  intro unmentioned
  exact unmentioned.1 (schema.scope_keyed.tables name.text root growth.found).symm

theorem agreeFrom_root : schema.scope.AgreeFrom grown.scope (.table root) := by
  intro declaration path mention member
  apply growth.agreeOn
  intro unmentioned
  exact unmentioned.2 declaration path mention member rfl

theorem foundGrown : grown.scope.tables[name.text]? = some root :=
  (growth.agreeOn_root .table).symm.trans growth.found

theorem exists_document_eq : ∃ tables structs enums unions,
    grown.document = { schema.document with tables, structs, enums, unions } := by
  cases growth.grows with
  | mk head _ => exact ⟨_, _, _, _, head.others⟩

theorem rootedGrown : grown.document.rootType = some name := by
  obtain ⟨_, _, _, _, document⟩ := growth.exists_document_eq
  rw [document]
  exact growth.rooted

theorem emittedBy_eq : emittedBy schema = emittedBy grown := by
  rw [emittedBy, emittedBy, roots_of_found growth.rooted growth.found,
    roots_of_found growth.rootedGrown growth.foundGrown]
  exact emission_eq growth.agreeFrom_root (mem_declarations_of_found growth.found)
    (mem_declarations_of_found growth.foundGrown)

theorem isRecursive_eq : schema.isRecursive = grown.isRecursive := by
  rw [Schema.isRecursive, Schema.isRecursive, growth.rootedGrown, growth.rooted]
  exact reachesCycle_eq growth.found growth.agreeOn_root growth.agreeFrom_root

theorem contextOf_eq : contextOf grown = { contextOf schema with scope := grown.scope } := by
  obtain ⟨_, _, _, _, document⟩ := growth.exists_document_eq
  have container : grown.container = schema.container := by
    rw [Schema.container, Schema.container, document]
  rw [contextOf, contextOf, ← growth.isRecursive_eq, container]

theorem render_eq {declaration : Declaration} (member : declaration ∈ emittedBy schema) :
    render (contextOf schema) schema.document declaration =
      render (contextOf grown) grown.document declaration := by
  have path := reached_of_emittedBy growth.rooted growth.found member
  obtain ⟨_, _, _, _, document⟩ := growth.exists_document_eq
  -- First the scopes are exchanged; the documents then differ in what no block reads.
  rw [render_congr schema.document (growth.agreeFrom_root declaration path), growth.contextOf_eq,
    document]
  cases declaration <;> rfl

end Growth

/-- Declarations under names that the root table does not come to leave the source and the recursion
of a schema as they were. -/
theorem source_ignores_unreachable {schema grown : Schema} {name : Ident} {root : Record}
    (rooted : schema.document.rootType = some name)
    (found : schema.scope.tables[name.text]? = some root)
    (grows : schema.Alike (Document.Grows (Unmentioned schema.scope root)) grown) :
    (∀ withImport, source grown withImport = source schema withImport) ∧
      grown.isRecursive = schema.isRecursive := by
  have growth : Growth schema grown name root := ⟨rooted, found, grows⟩
  refine ⟨?_, growth.isRecursive_eq.symm⟩
  intro withImport
  have blocks : (emittedBy schema).map (fun declaration =>
        render (contextOf schema) schema.document declaration ++ "\n") =
      (emittedBy grown).map (fun declaration =>
        render (contextOf grown) grown.document declaration ++ "\n") := by
    rw [← growth.emittedBy_eq]
    exact List.map_congr_left fun declaration member => by rw [growth.render_eq member]
  rw [source, source, ← blocks, growth.contextOf_eq]

section Monster

/-- A table with a field of an enumeration and one of its own type. -/
def monster : Record :=
  { name := ⟨"Monster"⟩
    fields :=
      [⟨⟨"color"⟩, ⟨.reference ⟨"Color"⟩, false⟩, some "Red", {}⟩,
       ⟨⟨"friends"⟩, ⟨.reference ⟨"Monster"⟩, true⟩, none, {}⟩]
    metadata := {} }

def color : Enumeration :=
  { name := ⟨"Color"⟩, base := .int8, cases := [⟨⟨"Red"⟩, none⟩], metadata := {} }

/-- A root table whose enumeration is included, with a struct that it does not come to. -/
def monsters : Schema :=
  { document := { includes := ["color"], rootType := some ⟨"Monster"⟩, tables := [monster] }
    children := [⟨{ enums := [color], structs := [⟨⟨"Spare"⟩, [], {}⟩] }, []⟩] }

/-- The same with a table in front that names the root, and with two more declarations of the name
that stood for a struct. -/
def moreMonsters : Schema :=
  { document :=
      { includes := ["color"]
        rootType := some ⟨"Monster"⟩
        tables :=
          [⟨⟨"Cave"⟩, [⟨⟨"guard"⟩, ⟨.reference ⟨"Monster"⟩, false⟩, none, {}⟩], {}⟩, monster]
        unions := [⟨⟨"Spare"⟩, [⟨"Monster"⟩], {}⟩] }
    children :=
      [⟨{ enums := [color]
          structs := [⟨⟨"Spare"⟩, [], {}⟩, ⟨⟨"Spare"⟩, [], ⟨[⟨"fixed", none⟩]⟩⟩] }, []⟩] }

theorem reached_from_monster {declaration : Declaration}
    (path : Relation.ReflTransGen (Needs monsters.scope) (.table monster) declaration) :
    declaration = .table monster ∨ declaration = .enumeration color := by
  induction path with
  | refl => exact .inl rfl
  | @tail holder _ _ needed inductionHypothesis =>
    rcases inductionHypothesis with rfl | rfl
    · have references : (Declaration.table monster).references monsters.scope =
          [.enumeration color, .table monster] := by
        decide
      rw [Needs, references] at needed
      simpa [or_comm] using needed
    · cases needed

theorem unmentioned_by_monster (name : String) (notMonster : name ≠ "Monster")
    (notColor : name ≠ "Color") : Unmentioned monsters.scope monster name := by
  refine ⟨notMonster, ?_⟩
  intro declaration path mention member
  rcases reached_from_monster path with rfl | rfl
  · have mentions : (Declaration.table monster).mentions = [⟨"Color"⟩, ⟨"Monster"⟩] := rfl
    rw [mentions] at member
    rcases List.mem_pair.mp member with rfl | rfl
    · exact notColor
    · exact notMonster
  · cases member

theorem source_ignores_unreachable_monsters :
    monsters.document.rootType = some ⟨"Monster"⟩ ∧
      monsters.scope.tables["Monster"]? = some monster ∧
      monsters.Alike (Document.Grows (Unmentioned monsters.scope monster)) moreMonsters ∧
      (∀ withImport, source moreMonsters withImport = source monsters withImport) ∧
      moreMonsters.isRecursive = monsters.isRecursive := by
  have found : monsters.scope.tables["Monster"]? = some monster := by decide
  have cave := unmentioned_by_monster "Cave" (by decide) (by decide)
  have spare := unmentioned_by_monster "Spare" (by decide) (by decide)
  have grows : monsters.Alike (Document.Grows (Unmentioned monsters.scope monster))
      moreMonsters := by
    refine .mk ⟨rfl, ?_⟩ (.cons (.mk ⟨rfl, ?_⟩ .nil) .nil)
    · intro kind
      cases kind with
      | table => exact .add cave (.keep .nil)
      | struct => exact .nil
      | enumeration => exact .nil
      | union => exact .add spare .nil
    · intro kind
      cases kind with
      | table => exact .nil
      | struct => exact .keep (.add spare .nil)
      | enumeration => exact .keep .nil
      | union => exact .nil
  exact ⟨rfl, found, grows, source_ignores_unreachable rfl found grows⟩

end Monster

end Swift

end FlatSchema
