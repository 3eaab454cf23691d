import FlatSchema.Proofs.Grammar.Recognition
import FlatSchema.Proofs.Schema.Assembly

/-!
Buffers one after the other. Where items fill a buffer, the items of another one behind it are added
to the document as if they had been read alone, so reading both is reading each and joining the
documents. The order of items matters only within a kind that may be repeated.
-/

namespace FlatSchema

namespace Item

inductive Kind where
  | inclusion
  | nameSpace
  | rootType
  | fileIdentifier
  | fileExtension
  | userAttribute
  | table
  | struct
  | enumeration
  | union
  deriving DecidableEq, Repr

def kind : Item → Kind
  | inclusion _ => .inclusion
  | nameSpace _ => .nameSpace
  | rootType _ => .rootType
  | fileIdentifier _ => .fileIdentifier
  | fileExtension _ => .fileExtension
  | userAttribute _ => .userAttribute
  | table _ => .table
  | struct _ => .struct
  | enumeration _ => .enumeration
  | union _ => .union

/-- Items of the other kinds are collected in lists. -/
def Kind.standsOnce : Kind → Bool
  | nameSpace | rootType | fileIdentifier | fileExtension => true
  | _ => false

end Item

namespace Document

open Item

/-- Both documents have one of the directives that may stand once. -/
def Clashes (first second : Document) : Prop :=
  first.nameSpace.isSome ∧ second.nameSpace.isSome ∨
    first.rootType.isSome ∧ second.rootType.isSome ∨
    first.fileIdentifier.isSome ∧ second.fileIdentifier.isSome ∨
    first.fileExtension.isSome ∧ second.fileExtension.isSome

instance (first second : Document) : Decidable (first.Clashes second) :=
  inferInstanceAs (Decidable (_ ∨ _))

/-- The lists of the second document behind those of the first, and each directive from the side
that has it. -/
def append (first second : Document) : Document where
  includes := first.includes ++ second.includes
  nameSpace := first.nameSpace.or second.nameSpace
  rootType := first.rootType.or second.rootType
  fileIdentifier := first.fileIdentifier.or second.fileIdentifier
  fileExtension := first.fileExtension.or second.fileExtension
  attributes := first.attributes ++ second.attributes
  tables := first.tables ++ second.tables
  structs := first.structs ++ second.structs
  enums := first.enums ++ second.enums
  unions := first.unions ++ second.unions

/-- A slot takes further values if there is at most one of them and either the slot is empty or
there is none. -/
theorem toList_eq_append_iff {α : Type} {value? slot : Option α} {values : List α} :
    value?.toList = slot.toList ++ values ↔
      values.length ≤ 1 ∧ ¬ (slot.isSome ∧ values.head?.isSome) ∧
        value? = slot.or values.head? := by
  cases slot with
  | none => simp [toList_eq_iff]
  | some filled =>
    cases values with
    | nil => simp [toList_eq_iff]
    | cons first rest => simp [toList_eq_cons_cons]

theorem extends_iff_append {document result : Document} {items : List Item} :
    document.Extends items result ↔
      Once items ∧ ¬ document.Clashes (ofItems items) ∧
        result = document.append (ofItems items) := by
  rw [extends_iff]
  simp only [toList_eq_append_iff]
  constructor
  · rintro ⟨includes, ⟨nameSpaceOnce, nameSpaceFree, nameSpace⟩,
      ⟨rootTypeOnce, rootTypeFree, rootType⟩,
      ⟨fileIdentifierOnce, fileIdentifierFree, fileIdentifier⟩,
      ⟨fileExtensionOnce, fileExtensionFree, fileExtension⟩, attributes, tables, structs, enums,
      unions⟩
    refine ⟨⟨nameSpaceOnce, rootTypeOnce, fileIdentifierOnce, fileExtensionOnce⟩, ?_, ?_⟩
    · rintro (both | both | both | both)
      · exact nameSpaceFree both
      · exact rootTypeFree both
      · exact fileIdentifierFree both
      · exact fileExtensionFree both
    · simp only [append, ofItems, ← includes, ← nameSpace, ← rootType, ← fileIdentifier,
        ← fileExtension, ← attributes, ← tables, ← structs, ← enums, ← unions]
  · rintro ⟨once, free, rfl⟩
    simp only [Clashes, not_or] at free
    obtain ⟨nameSpaceFree, rootTypeFree, fileIdentifierFree, fileExtensionFree⟩ := free
    exact ⟨rfl, ⟨once.nameSpace, nameSpaceFree, rfl⟩, ⟨once.rootType, rootTypeFree, rfl⟩,
      ⟨once.fileIdentifier, fileIdentifierFree, rfl⟩, ⟨once.fileExtension, fileExtensionFree, rfl⟩,
      rfl, rfl, rfl, rfl, rfl⟩

/-- Adding items to a document is joining it with the document that they form alone. -/
theorem addAll?_eq_bind (document : Document) (items : List Item) :
    document.addAll? items = (addAll? {} items).bind fun added =>
      if document.Clashes added then none else some (document.append added) := by
  apply Option.ext
  intro result
  rw [addAll?_eq_some_iff, extends_iff_append, Option.bind_eq_some_iff]
  simp only [addAll?_empty_eq_some_iff]
  constructor
  · rintro ⟨once, free, rfl⟩
    exact ⟨ofItems items, ⟨once, rfl⟩, if_neg free⟩
  · rintro ⟨added, ⟨once, rfl⟩, joined⟩
    by_cases clash : document.Clashes (ofItems items)
    · rw [if_pos clash] at joined
      cases joined
    · rw [if_neg clash] at joined
      exact ⟨once, clash, (Option.some.inj joined).symm⟩

end Document

namespace Item

/-- Bytes that are one item, with the comments and blanks in front of it. -/
structure Piece where
  bytes : List UInt8
  item : Item
  reads : rule bytes = some (item, [])

namespace Piece

/-- Pieces as they stand in a buffer. -/
def text (pieces : List Piece) : List UInt8 :=
  pieces.flatMap bytes

/-- The same pieces, those of a kind that may be repeated in the same order. -/
structure Interleaved (pieces others : List Piece) : Prop where
  perm : pieces.Perm others
  order : ∀ kind : Kind, kind.standsOnce = false →
    pieces.filter (·.item.kind = kind) = others.filter (·.item.kind = kind)

theorem repeated_written (pieces : List Piece) :
    Grammar.Repeated Written (text pieces) (pieces.map item) := by
  induction pieces with
  | nil => exact .nil
  | cons piece pieces inductionHypothesis =>
    obtain ⟨word, written, split⟩ := rule_reads.sound piece.reads
    rw [List.append_nil] at split
    rw [split] at written
    exact .cons written inductionHypothesis

theorem exists_text_eq {body : List UInt8} {items : List Item}
    (repeated : Grammar.Repeated Written body items) : ∃ pieces, text pieces = body := by
  induction repeated with
  | nil => exact ⟨[], rfl⟩
  | @cons word others item items written _ inductionHypothesis =>
    obtain ⟨pieces, rfl⟩ := inductionHypothesis
    have reads : rule (word ++ []) = some (item, []) := rule_reads.complete written trivial
    rw [List.append_nil] at reads
    exact ⟨⟨word, item, reads⟩ :: pieces, rfl⟩

/-- Every buffer is made of pieces up to where no item stands. -/
theorem exists_text_append (buffer : List UInt8) :
    ∃ pieces rest, text pieces ++ rest = buffer ∧ rule rest = none := by
  rcases collected : readAll buffer with ⟨items, rest⟩
  obtain ⟨⟨body, repeated, rfl⟩, stops⟩ := readAll_eq_iff.mp collected
  obtain ⟨pieces, rfl⟩ := exists_text_eq repeated
  exact ⟨pieces, rest, rfl, rule_eq_none_iff.mpr stops⟩

namespace Interleaved

variable {pieces others : List Piece} {α : Type}

theorem filterMap_perm (interleaved : Interleaved pieces others) (select : Item → Option α) :
    ((pieces.map item).filterMap select).Perm ((others.map item).filterMap select) :=
  (interleaved.perm.map item).filterMap select

/-- What is selected from one kind that may be repeated is the same, in the same order. -/
theorem filterMap_eq (interleaved : Interleaved pieces others) (select : Item → Option α)
    (kind : Kind) (repeatable : kind.standsOnce = false)
    (selects : ∀ item : Item, item.kind ≠ kind → select item = none) :
    (pieces.map item).filterMap select = (others.map item).filterMap select := by
  have ofKind (list : List Piece) : (list.map item).filterMap select =
      (list.filter (·.item.kind = kind)).filterMap (fun piece => select piece.item) := by
    rw [List.filterMap_map, List.filterMap_filter]
    apply List.filterMap_congr
    intro piece _
    by_cases same : piece.item.kind = kind
    · simp [same]
    · simp [same, selects piece.item same]
  rw [ofKind, ofKind, interleaved.order kind repeatable]

theorem head?_filterMap_eq (interleaved : Interleaved pieces others) {select : Item → Option α}
    (atMost : ((pieces.map item).filterMap select).length ≤ 1) :
    ((pieces.map item).filterMap select).head? = ((others.map item).filterMap select).head? := by
  have perm := interleaved.filterMap_perm select
  cases values : (pieces.map item).filterMap select with
  | nil =>
    rw [values] at perm
    rw [perm.nil_eq]
  | cons value rest =>
    rw [values] at perm atMost
    cases rest with
    | nil => rw [List.singleton_perm.mp perm]
    | cons second rest => simp at atMost

theorem symm (interleaved : Interleaved pieces others) : Interleaved others pieces :=
  ⟨interleaved.perm.symm, fun kind repeatable => (interleaved.order kind repeatable).symm⟩

theorem once (interleaved : Interleaved pieces others) (once : Once (pieces.map item)) :
    Once (others.map item) where
  nameSpace := (interleaved.filterMap_perm nameSpace?).length_eq ▸ once.nameSpace
  rootType := (interleaved.filterMap_perm rootType?).length_eq ▸ once.rootType
  fileIdentifier := (interleaved.filterMap_perm fileIdentifier?).length_eq ▸ once.fileIdentifier
  fileExtension := (interleaved.filterMap_perm fileExtension?).length_eq ▸ once.fileExtension

/-- Interleaved items say the same if no directive is repeated. -/
theorem ofItems_eq (interleaved : Interleaved pieces others) (once : Once (pieces.map item)) :
    Document.ofItems (pieces.map item) = Document.ofItems (others.map item) := by
  have includes := interleaved.filterMap_eq path? .inclusion rfl (by rintro ⟨⟩ <;> simp [kind])
  have attributes := interleaved.filterMap_eq userAttribute? .userAttribute rfl
    (by rintro ⟨⟩ <;> simp [kind])
  have tables := interleaved.filterMap_eq table? .table rfl (by rintro ⟨⟩ <;> simp [kind])
  have structs := interleaved.filterMap_eq struct? .struct rfl (by rintro ⟨⟩ <;> simp [kind])
  have enums := interleaved.filterMap_eq enumeration? .enumeration rfl
    (by rintro ⟨⟩ <;> simp [kind])
  have unions := interleaved.filterMap_eq union? .union rfl (by rintro ⟨⟩ <;> simp [kind])
  simp only [Document.ofItems, includes, attributes, tables, structs, enums, unions,
    interleaved.head?_filterMap_eq once.nameSpace, interleaved.head?_filterMap_eq once.rootType,
    interleaved.head?_filterMap_eq once.fileIdentifier,
    interleaved.head?_filterMap_eq once.fileExtension]

end Interleaved

end Piece

end Item

namespace Document

open Item

theorem addAll?_of_interleaved {pieces others : List Piece} {document result : Document}
    (interleaved : Piece.Interleaved pieces others)
    (added : document.addAll? (pieces.map Piece.item) = some result) :
    document.addAll? (others.map Piece.item) = some result := by
  rw [addAll?_eq_some_iff, extends_iff_append] at added ⊢
  obtain ⟨once, free, rfl⟩ := added
  rw [← interleaved.ofItems_eq once]
  exact ⟨interleaved.once once, free, rfl⟩

theorem addAll?_eq_of_interleaved {pieces others : List Piece} (document : Document)
    (interleaved : Piece.Interleaved pieces others) :
    document.addAll? (pieces.map Piece.item) = document.addAll? (others.map Piece.item) := by
  apply Option.ext
  intro result
  exact ⟨addAll?_of_interleaved interleaved, addAll?_of_interleaved interleaved.symm⟩

end Document

namespace Schema

open Item

/-- A buffer that is filled by items and another one behind it. -/
theorem parse?_append {front : List UInt8} {first : Schema}
    (filled : parse? front = some (first, front.length)) (back : List UInt8) :
    parse? (front ++ back) = (parse? back).bind fun (second, stop) =>
      if first.document.Clashes second.document then none
      else some ({ document := first.document.append second.document, children := [] },
        front.length + stop) := by
  rcases collected : readAll front with ⟨items, rest⟩
  obtain ⟨⟨body, repeated, split⟩, -⟩ := readAll_eq_iff.mp collected
  rw [parse?_eq_map, collected, Option.map_eq_some_iff] at filled
  obtain ⟨document, added, stopped⟩ := filled
  rw [withStop, collected, Prod.mk.injEq] at stopped
  obtain ⟨rfl, stopped⟩ := stopped
  -- Reading stopped at the end of the buffer, so there is nothing but items in it.
  obtain rfl : rest = [] := by
    have length := congrArg List.length split
    rw [List.length_append] at length
    apply List.eq_nil_of_length_eq_zero
    simp only at stopped
    omega
  obtain rfl : body = front := by rw [← split, List.append_nil]
  have shorter := (readAll_suffix back).length_le
  rw [parse?_eq_map, parse?_eq_map, readAll_append repeated, Document.addAll?_append, added,
    Option.bind_some, Document.addAll?_eq_bind]
  cases Document.addAll? {} (readAll back).1 with
  | none => rfl
  | some second =>
    simp only [Option.bind_some, Option.map_some]
    by_cases clash : document.Clashes second
    · simp [clash, withStop]
    · simp [clash, withStop, readAll_append repeated]
      omega

theorem parse?_interleaved {pieces others : List Piece}
    (interleaved : Piece.Interleaved pieces others) (rest : List UInt8) :
    parse? (Piece.text pieces ++ rest) = parse? (Piece.text others ++ rest) := by
  have length : (Piece.text pieces).length = (Piece.text others).length :=
    (interleaved.perm.flatMap_right Piece.bytes).length_eq
  have collected := readAll_append (Piece.repeated_written pieces) rest
  have otherCollected := readAll_append (Piece.repeated_written others) rest
  rw [parse?_eq_map, parse?_eq_map, collected, otherCollected, Document.addAll?_append,
    Document.addAll?_append, Document.addAll?_eq_of_interleaved _ interleaved]
  simp only [withStop, collected, otherCollected, List.length_append, length]

/-- Reading a concatenation is joining what is read from its parts, and so items may be interleaved
in any order that keeps each list as it is. -/
theorem parse?_concatenation :
    (∀ (front back : List UInt8) (first : Schema), parse? front = some (first, front.length) →
      (parse? back = none → parse? (front ++ back) = none) ∧
      ∀ (second : Schema) (stop : Nat), parse? back = some (second, stop) →
        (first.document.Clashes second.document → parse? (front ++ back) = none) ∧
        (¬ first.document.Clashes second.document →
          parse? (front ++ back) =
            some ({ document := first.document.append second.document, children := [] },
              front.length + stop))) ∧
    (∀ buffer : List UInt8, ∃ pieces rest,
      Piece.text pieces ++ rest = buffer ∧ Item.rule rest = none) ∧
    ∀ (pieces others : List Piece) (rest : List UInt8), Piece.Interleaved pieces others →
      parse? (Piece.text others ++ rest) = parse? (Piece.text pieces ++ rest) := by
  refine ⟨?_, Piece.exists_text_append, ?_⟩
  · intro front back first filled
    rw [parse?_append filled]
    constructor
    · intro unread
      rw [unread, Option.bind_none]
    · intro second stop read
      rw [read, Option.bind_some]
      exact ⟨fun clash => if_pos clash, fun free => if_neg free⟩
  · intro pieces others rest interleaved
    exact parse?_interleaved interleaved.symm rest

theorem parse?_concatenation_table_root :
    parse? (utf8Bytes "table A \x7b\x7d" ++ utf8Bytes " root_type A; ?") =
        some ({ document := { tables := [⟨⟨"A"⟩, [], {}⟩], rootType := some ⟨"A"⟩ },
                children := [] }, 23) ∧
      parse? (Piece.text
          [⟨utf8Bytes " root_type A;", .rootType ⟨"A"⟩, by decide⟩,
           ⟨utf8Bytes "table A \x7b\x7d", .table ⟨⟨"A"⟩, [], {}⟩, by decide⟩] ++ []) =
        parse? (Piece.text
          [⟨utf8Bytes "table A \x7b\x7d", .table ⟨⟨"A"⟩, [], {}⟩, by decide⟩,
           ⟨utf8Bytes " root_type A;", .rootType ⟨"A"⟩, by decide⟩] ++ []) :=
  ⟨((parse?_concatenation.1 (utf8Bytes "table A \x7b\x7d") (utf8Bytes " root_type A; ?")
      { document := { tables := [⟨⟨"A"⟩, [], {}⟩] }, children := [] } (by decide)).2
      { document := { rootType := some ⟨"A"⟩ }, children := [] } 13 (by decide)).2 (by decide),
    parse?_concatenation.2.2 _ _ []
      ⟨.swap _ _ [], fun kind _ => by cases kind <;> rfl⟩⟩

end Schema

end FlatSchema
