import FlatSchema.Proofs.Swift.DeclaredNames
import FlatSchema.Proofs.Swift.Qualification

/-!
How containers keep namespaces apart. A source puts the blocks of all declarations that it emits,
those of included schemas among them, into extensions of the container of its own schema. The root
extension and the helper behind the blocks stand at file scope. So the blocks of two schemas never
share a container unless their namespaces do, and which namespaces do is told by their parts.
-/

namespace FlatSchema

open Text

/-- What the containers of two namespaces tell of them. -/
structure Namespace.ToldApart (first second : Namespace) : Prop where
  words : first.container = second.container ↔
    first.words.map lowered = second.words.map lowered
  sameParts : (first.parts.map (·.text)).map lowered = (second.parts.map (·.text)).map lowered →
    first.container = second.container
  plain : (∀ part ∈ first.parts.tail, isUnderscored part.text = false) →
    (∀ part ∈ second.parts.tail, isUnderscored part.text = false) →
    (first.container = second.container ↔
      (first.parts.map (·.text)).map lowered = (second.parts.map (·.text)).map lowered)

theorem Namespace.WellFormed.toldApart {first second : Namespace} (wellFormed : first.WellFormed)
    (wellFormed' : second.WellFormed) : first.ToldApart second where
  words := container_eq_iff wellFormed wellFormed'
  sameParts := container_eq_of_parts wellFormed wellFormed'
  plain := by
    intro plain plain'
    rw [container_eq_iff_of_plain wellFormed wellFormed' plain plain', hasSameParts,
      decide_eq_true_eq]

namespace Swift

/-- An extension of a container around some lines. -/
def extensionOf (container : String) (lines : List String) : String :=
  "extension " ++ container ++ " \x7b\n" ++ Text.indent (block lines) ++ "\n\x7d\n"

theorem lines_extensionOf {schema : Schema} (wellFormed : schema.WellFormed)
    (named : schema.container ≠ "") {declaration : Declaration}
    (emitted : declaration ∈ emittedBy schema) :
    Text.lines (extensionOf schema.container (ownLines (contextOf schema) declaration)) =
      ("extension " ++ schema.container ++ " \x7b") ::
        (ownLines (contextOf schema) declaration).map indentLine ++ ["\x7d"] := by
  have written : ¬ (contextOf schema).container.isEmpty = true := by
    rw [String.isEmpty_iff]
    exact named
  have nested := lines_nest_ownLines wellFormed emitted
  rw [Context.nest, if_neg written, Context.nestLines, if_neg written] at nested
  exact nested

theorem containerSource_eq_of_plain {schemas : List Schema}
    (wellFormed : ∀ schema ∈ schemas, schema.WellFormed)
    (plain : ∀ nameSpace ∈ Schema.namespacesOf schemas, nameSpace.Plain) :
    containerSource schemas =
      "\n".intercalate (((Schema.namespacesOf schemas).eraseDupsBy Namespace.hasSameParts).map
        fun nameSpace => "public enum " ++ nameSpace.container ++ " \x7b\x7d") := by
  rw [containerSource, containers_eq_of_plain wellFormed plain, List.map_map]
  rfl

/-- What containers tell of namespaces. Two namespaces have one container exactly if their words are
alike: if their parts are, and only then where no part but the first begins with an underscore. Some
schemas get one line for each container, so in that case one for each namespace with other parts
than the earlier ones. The source of a schema whose namespace has parts puts the block of each
declaration into an extension of the container, and the blocks of two schemas are opened by the same
line exactly if their namespaces have one container. -/
theorem containers_tell_words :
    (∀ first second : Namespace, first.Parsed → second.Parsed → first.ToldApart second) ∧
    (∀ schemas : List Schema, (∀ schema ∈ schemas, schema.Parsed) →
      containerSource schemas =
        "\n".intercalate (((Schema.namespacesOf schemas).map (·.container)).eraseDups.map
          fun container => "public enum " ++ container ++ " \x7b\x7d") ∧
      Text.lines (containerSource schemas) =
        ((Schema.namespacesOf schemas).map (·.container)).eraseDups.map
          (fun container => "public enum " ++ container ++ " \x7b\x7d") ∧
      ((∀ nameSpace ∈ Schema.namespacesOf schemas, nameSpace.Plain) →
        containerSource schemas =
          "\n".intercalate (((Schema.namespacesOf schemas).eraseDupsBy Namespace.hasSameParts).map
            fun nameSpace => "public enum " ++ nameSpace.container ++ " \x7b\x7d"))) ∧
    ∀ schema : Schema, schema.Parsed →
      ∀ nameSpace ∈ schema.document.nameSpace, nameSpace.parts ≠ [] →
        (∀ withImport, source schema withImport =
          assembled schema withImport fun declaration =>
            extensionOf nameSpace.container (ownLines (contextOf schema) declaration)) ∧
        (∀ declaration ∈ emittedBy schema,
          Text.lines
              (extensionOf nameSpace.container (ownLines (contextOf schema) declaration)) =
            ("extension " ++ nameSpace.container ++ " \x7b") ::
              (ownLines (contextOf schema) declaration).map indentLine ++ ["\x7d"]) ∧
        ∀ other : Schema, other.Parsed →
          ∀ otherSpace ∈ other.document.nameSpace, otherSpace.parts ≠ [] →
            nameSpace.ToldApart otherSpace ∧
            ∀ declaration ∈ emittedBy schema, ∀ otherDeclaration ∈ emittedBy other,
              ((Text.lines (extensionOf nameSpace.container
                    (ownLines (contextOf schema) declaration))).head? =
                (Text.lines (extensionOf otherSpace.container
                    (ownLines (contextOf other) otherDeclaration))).head? ↔
                nameSpace.container = otherSpace.container) := by
  have opened {schema : Schema} (parsed : schema.Parsed) {nameSpace : Namespace}
      (declared : nameSpace ∈ schema.document.nameSpace) (nonempty : nameSpace.parts ≠ []) :
      schema.container = nameSpace.container ∧ schema.container ≠ "" ∧ nameSpace.WellFormed := by
    have own := (Schema.wellFormed_iff.mp parsed.wellFormed).1.nameSpace nameSpace declared
    have container := Schema.container_of_some declared
    refine ⟨container, ?_, own⟩
    rw [container, ne_eq, own.container_eq_empty_iff]
    exact nonempty
  refine ⟨?_, ?_, ?_⟩
  · intro first second parsed parsed'
    exact parsed.wellFormed.toldApart parsed'.wellFormed
  · intro schemas parsed
    have wellFormed (schema : Schema) (among : schema ∈ schemas) : schema.WellFormed :=
      (parsed schema among).wellFormed
    refine ⟨?_, ?_, containerSource_eq_of_plain wellFormed⟩
    · rw [containerSource, containers_eq wellFormed]
    · rw [lines_containerSource wellFormed, containers_eq wellFormed]
      rfl
  · intro schema parsed nameSpace declared nonempty
    obtain ⟨container, named, own⟩ := opened parsed declared nonempty
    have linesOf (declaration : Declaration) (emitted : declaration ∈ emittedBy schema) :=
      lines_extensionOf parsed.wellFormed named emitted
    rw [container] at linesOf
    refine ⟨?_, linesOf, ?_⟩
    · intro withImport
      rw [source_eq_assembled_of_container named, container]
      rfl
    · intro other parsed' otherSpace declared' nonempty'
      obtain ⟨container', named', own'⟩ := opened parsed' declared' nonempty'
      refine ⟨own.toldApart own', ?_⟩
      intro declaration emitted otherDeclaration emitted'
      have linesOf' := lines_extensionOf parsed'.wellFormed named' emitted'
      rw [container'] at linesOf'
      rw [linesOf declaration emitted, linesOf']
      simp

section Games

def gameText : String :=
  "namespace my_game.Sample; table T \x7b\x7d"

def game : Schema :=
  { document := { nameSpace := some ⟨[⟨"my_game"⟩, ⟨"Sample"⟩]⟩, tables := [⟨⟨"T"⟩, [], {}⟩] }
    children := [] }

def otherGameText : String :=
  "namespace my_gamesample; table T \x7b\x7d"

def otherGame : Schema :=
  { document := { nameSpace := some ⟨[⟨"my_gamesample"⟩]⟩, tables := [⟨⟨"T"⟩, [], {}⟩] }
    children := [] }

theorem containers_tell_words_game :
    Schema.compile gameText = .ok game ∧ Schema.compile otherGameText = .ok otherGame ∧
      Namespace.container ⟨[⟨"my_game"⟩, ⟨"Sample"⟩]⟩ ≠ Namespace.container ⟨[⟨"my_gamesample"⟩]⟩ ∧
      containerSource [game, otherGame] =
        "public enum My_gameSample \x7b\x7d\npublic enum My_gamesample \x7b\x7d" ∧
      (source game false = assembled game false fun declaration =>
        extensionOf "My_gameSample" (ownLines (contextOf game) declaration)) ∧
      ∀ declaration ∈ emittedBy game, ∀ otherDeclaration ∈ emittedBy otherGame,
        (Text.lines (extensionOf "My_gameSample"
            (ownLines (contextOf game) declaration))).head? ≠
          (Text.lines (extensionOf "My_gamesample"
            (ownLines (contextOf otherGame) otherDeclaration))).head? := by
  have accepted : Schema.compile gameText = .ok game := by decide +kernel
  have accepted' : Schema.compile otherGameText = .ok otherGame := by decide +kernel
  have parsed : Namespace.Parsed ⟨[⟨"my_game"⟩, ⟨"Sample"⟩]⟩ :=
    ⟨utf8Bytes gameText, 0, 25, by decide +kernel⟩
  have parsed' : Namespace.Parsed ⟨[⟨"my_gamesample"⟩]⟩ :=
    ⟨utf8Bytes otherGameText, 0, 24, by decide +kernel⟩
  have container : Namespace.container ⟨[⟨"my_game"⟩, ⟨"Sample"⟩]⟩ = "My_gameSample" := by
    decide +kernel
  have container' : Namespace.container ⟨[⟨"my_gamesample"⟩]⟩ = "My_gamesample" := by
    decide +kernel
  obtain ⟨namespaces, schemas, sources⟩ := containers_tell_words
  have apart : Namespace.container ⟨[⟨"my_game"⟩, ⟨"Sample"⟩]⟩ ≠
      Namespace.container ⟨[⟨"my_gamesample"⟩]⟩ := by
    rw [ne_eq, (namespaces _ _ parsed parsed').plain (by decide) (by decide)]
    decide
  obtain ⟨-, -, listed⟩ := schemas [game, otherGame] (by
    simp only [List.forall_mem_cons, List.not_mem_nil, false_imp_iff, implies_true, and_true]
    exact ⟨.of_compile accepted, .of_compile accepted'⟩)
  have listed := listed (by decide)
  obtain ⟨held, -, others⟩ := sources game (.of_compile accepted) _ rfl (by decide)
  have differ := (others otherGame (.of_compile accepted') _ rfl (by decide)).2
  rw [container] at held
  refine ⟨accepted, accepted', apart, listed.trans (by decide +kernel), held false, ?_⟩
  intro declaration emitted otherDeclaration emitted'
  rw [ne_eq, ← container, ← container', differ declaration emitted otherDeclaration emitted']
  exact apart

end Games

section Hidden

/-- A schema with a namespace that includes one with another namespace. -/
def visited : Schema :=
  { document := { includes := ["b"], nameSpace := some ⟨[⟨"a"⟩]⟩, tables := [⟨⟨"T"⟩, [], {}⟩] }
    children :=
      [⟨{ nameSpace := some ⟨[⟨"b"⟩]⟩, tables := [⟨⟨"U"⟩, [], {}⟩] }, []⟩] }

/-- Namespaces with different parts may have one container, which then has one line, and a table of
one namespace stands in the container of another where it was included. -/
theorem container_hides_parts :
    Namespace.rule.readAt (utf8Bytes "namespace a_b;") 0 = some (⟨[⟨"a_b"⟩]⟩, 14) ∧
      Namespace.rule.readAt (utf8Bytes "namespace a._b;") 0 = some (⟨[⟨"a"⟩, ⟨"_b"⟩]⟩, 15) ∧
      Namespace.container ⟨[⟨"a_b"⟩]⟩ = Namespace.container ⟨[⟨"a"⟩, ⟨"_b"⟩]⟩ ∧
      containerSource [⟨{ nameSpace := some ⟨[⟨"a_b"⟩]⟩ }, []⟩,
        ⟨{ nameSpace := some ⟨[⟨"a"⟩, ⟨"_b"⟩]⟩ }, []⟩] = "public enum A_b \x7b\x7d" ∧
      Schema.compileWith (m := Id)
        (fun _ => (Schema.compile "namespace b; table U \x7b\x7d").toOption)
        "include \"b\"; namespace a; table T \x7b\x7d" = .ok visited ∧
      source visited false =
        "import Foundation\n\n" ++
          "extension A \x7b\n    public final class T \x7b\n        public init() \x7b\x7d\n" ++
          "    \x7d\n\x7d\n\n" ++
          "extension A \x7b\n    public final class U \x7b\n        public init() \x7b\x7d\n" ++
          "    \x7d\n\x7d\n\n" := by
  have emitted : emittedBy visited = [.table ⟨⟨"T"⟩, [], {}⟩, .table ⟨⟨"U"⟩, [], {}⟩] := by cbv
  have early : (contextOf visited).lateBinding = false := rfl
  refine ⟨by decide +kernel, by decide +kernel, by decide +kernel, by decide +kernel, rfl, ?_⟩
  simp only [source, emitted, early]
  decide +kernel

end Hidden

end Swift

end FlatSchema
