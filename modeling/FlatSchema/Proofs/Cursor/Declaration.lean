import FlatSchema.Proofs.Cursor.Token
import FlatSchema.Proofs.Grammar.Locality

/-!
Declarations, directives and their parts by positions. In two places a cursor goes on where the
rule would try something else, behind an opening bracket and behind a comma between metadata
entries; there nothing else can match.
-/

namespace FlatSchema

namespace Cursor

def ident : Cursor Ident :=
  Ident.ofSource <$> name

def metadataEntry : Cursor MetadataEntry := do
  let key ← name
  match ← optional (symbol ":") with
  | none => return { key, value := none }
  | some () => return { key, value := some (← stringLiteral <|> value) }

def metadata : Cursor Metadata := do
  symbol "("
  let entries ← listOf1 metadataEntry (symbol ",")
  symbol ")"
  return { entries }

def optionalMetadata : Cursor Metadata := do
  return (← optional metadata).getD {}

def baseType : Cursor BaseType :=
  BaseType.ofName <$> name

def fieldType : Cursor FieldType := do
  match ← optional (symbol "[") with
  | some () =>
    let base ← baseType
    symbol "]"
    return { base, isVector := true }
  | none => return { base := ← baseType, isVector := false }

def assignedValue : Cursor (Option String) := do
  match ← optional (symbol "=") with
  | none => return none
  | some () => return some (← value)

def field : Cursor Field := do
  skipComments
  let name ← ident
  symbol ":"
  let type ← fieldType
  let default ← assignedValue
  let metadata ← optionalMetadata
  symbol ";"
  return { name, type, default, metadata }

def record (word : String) : Cursor Record := do
  skipComments
  keyword word
  let name ← ident
  let metadata ← optionalMetadata
  symbol "\x7b"
  let fields ← many field
  skipComments
  symbol "\x7d"
  return { name, fields, metadata }

def caseList {α : Type} (item : Cursor α) : Cursor (List α) := do
  symbol "\x7b"
  let cases ← listOf (do skipComments; item) (symbol ",")
  skipComments
  symbol "\x7d"
  return cases

def enumCase : Cursor EnumCase := do
  let name ← ident
  let value ← assignedValue
  return { name, value }

def enumeration : Cursor Enumeration := do
  skipComments
  keyword "enum"
  let name ← ident
  symbol ":"
  let base ← Cursor.name
  match Scalar.ofName? base with
  | none => failure
  | some base =>
    let metadata ← optionalMetadata
    let cases ← caseList enumCase
    return { name, base, cases, metadata }

def union : Cursor TaggedUnion := do
  skipComments
  keyword "union"
  let name ← ident
  let metadata ← optionalMetadata
  let cases ← caseList ident
  return { name, cases, metadata }

def directive (word : String) : Cursor String := do
  skipComments
  keyword word
  let text ← stringLiteral
  symbol ";"
  return text

def nameSpace : Cursor Namespace := do
  skipComments
  keyword "namespace"
  let parts ← listOf ident (symbol ".")
  symbol ";"
  return { parts }

def rootType : Cursor Ident := do
  skipComments
  keyword "root_type"
  let name ← ident
  symbol ";"
  return name

/-- One cursor for each kind of item, in the order in which they are tried. -/
def items : List (Cursor Item) :=
  [.inclusion <$> directive "include",
   .nameSpace <$> nameSpace,
   .rootType <$> rootType,
   .fileIdentifier <$> directive "file_identifier",
   .fileExtension <$> directive "file_extension",
   .userAttribute <$> directive "attribute",
   .table <$> record "table",
   .struct <$> record "struct",
   .enumeration <$> enumeration,
   .union <$> union]

def item : Cursor Item :=
  firstOf items

end Cursor

def Nonterminal.cursor : (nonterminal : Nonterminal) → Cursor nonterminal.Node
  | ident => Cursor.ident
  | inclusion => Cursor.directive "include"
  | userAttribute => Cursor.directive "attribute"
  | fileExtension => Cursor.directive "file_extension"
  | fileIdentifier => Cursor.directive "file_identifier"
  | nameSpace => Cursor.nameSpace
  | rootType => Cursor.rootType
  | metadataEntry => Cursor.metadataEntry
  | metadata => Cursor.metadata
  | fieldType => Cursor.fieldType
  | field => Cursor.field
  | table => Cursor.record "table"
  | struct => Cursor.record "struct"
  | enumCase => Cursor.enumCase
  | enumeration => Cursor.enumeration
  | unionCase => Cursor.ident
  | union => Cursor.union

theorem Nonterminal.rule_advances (nonterminal : Nonterminal) : nonterminal.rule.Advances := by
  obtain ⟨phrase, follows, reads, ended, -⟩ := nonterminal.exists_reads
  exact reads.advances (reads.ne_nil ended nonterminal.rule_nil)

open Rule Token

/-- A list of entries is over where a parenthesis is closed. -/
theorem Metadata.rule_eq :
    rule = do
      symbol "("
      let entries ← wholeList MetadataEntry.rule (symbol ",")
      symbol ")"
      return { entries } := by
  have comma : Solid "," 44 := by decide
  have right : Solid ")" 41 := by decide
  rw [rule]
  refine bind_congr fun _ => listOf1_bind_eq fun entries bytes separated => ?_
  apply bind_of_no_match
  apply symbol_eq_none right
  intro leads
  apply separated
  apply symbol_eq_none comma
  rw [leads]
  decide

/-- What begins with a bracket is a vector or nothing. -/
theorem FieldType.rule_eq :
    rule = do
      match ← optional (symbol "[") with
      | some () =>
        let base ← BaseType.rule
        symbol "]"
        return { base, isVector := true }
      | none => return { base := ← BaseType.rule, isVector := false } := by
  have bracket : Solid "[" 91 := by decide
  funext bytes
  rw [rule, orElse_apply, vectorRule]
  cases opened : symbol "[" bytes with
  | none =>
    rw [bind_of_no_match opened, Option.none_or, bind_of_match (optional_of_no_match opened)]
  | some result =>
    have leads : Grammar.lead? bytes = some 91 := by
      by_contra different
      rw [symbol_eq_none bracket different] at opened
      cases opened
    have noName : BaseType.rule bytes = none := by
      rw [BaseType.rule, map_apply, name_eq_none (.of_lead leads (by decide))]
      rfl
    rw [bind_of_match opened, bind_of_match (optional_of_match opened),
      bind_of_no_match noName, Option.or_none]

namespace Cursor

theorem ident_follows : Follows ident Ident.rule :=
  name_follows.map _

theorem metadataEntry_follows : Follows metadataEntry MetadataEntry.rule := by
  refine name_follows.bind fun key => ?_
  refine (symbol_follows (by decide)).optional.bind fun mark? => ?_
  cases mark? with
  | none => exact .pure _
  | some => exact (stringLiteral_follows.orElse value_follows).bind fun _ => .pure _

theorem metadata_follows : Follows metadata Metadata.rule := by
  have entries := metadataEntry_follows.listOf1 (symbol_follows (by decide))
    (Nonterminal.rule_advances .metadataEntry) (symbol_advances (by decide : utf8Bytes "," ≠ []))
  rw [Metadata.rule_eq]
  refine (symbol_follows (by decide)).bind fun _ => ?_
  refine entries.bind fun _ => ?_
  exact (symbol_follows (by decide)).bind fun _ => .pure _

theorem optionalMetadata_follows : Follows optionalMetadata Metadata.optionalRule :=
  metadata_follows.optional.bind fun _ => .pure _

theorem baseType_follows : Follows baseType BaseType.rule :=
  name_follows.map _

theorem fieldType_follows : Follows fieldType FieldType.rule := by
  rw [FieldType.rule_eq]
  refine (symbol_follows (by decide)).optional.bind fun bracket? => ?_
  cases bracket? with
  | none => exact baseType_follows.bind fun _ => .pure _
  | some =>
    refine baseType_follows.bind fun _ => ?_
    exact (symbol_follows (by decide)).bind fun _ => .pure _

theorem assignedValue_follows : Follows assignedValue FlatSchema.assignedValue := by
  refine (symbol_follows (by decide)).optional.bind fun mark? => ?_
  cases mark? with
  | none => exact .pure _
  | some => exact value_follows.bind fun _ => .pure _

theorem field_follows : Follows field Field.rule := by
  refine skipComments_follows.bind fun _ => ?_
  refine ident_follows.bind fun _ => ?_
  refine (symbol_follows (by decide)).bind fun _ => ?_
  refine fieldType_follows.bind fun _ => ?_
  refine assignedValue_follows.bind fun _ => ?_
  refine optionalMetadata_follows.bind fun _ => ?_
  exact (symbol_follows (by decide)).bind fun _ => .pure _

theorem record_follows {word : String} (length : (utf8Bytes word).length < 2 ^ 64) :
    Follows (record word) (Record.rule word) := by
  refine skipComments_follows.bind fun _ => ?_
  refine (keyword_follows length).bind fun _ => ?_
  refine ident_follows.bind fun _ => ?_
  refine optionalMetadata_follows.bind fun _ => ?_
  refine (symbol_follows (by decide)).bind fun _ => ?_
  refine (field_follows.many Field.rule_advances).bind fun _ => ?_
  refine skipComments_follows.bind fun _ => ?_
  exact (symbol_follows (by decide)).bind fun _ => .pure _

theorem caseList_follows {α : Type} {item : Cursor α} {rule : Rule α} (follows : Follows item rule)
    (advances : rule.Advances) : Follows (caseList item) (FlatSchema.caseList rule) := by
  have commented : Follows (do skipComments; item) (Token.skipComments *> rule) :=
    skipComments_follows.bind fun _ => follows
  have cases := commented.listOf (symbol_follows (by decide))
    (skipComments_seqRight_advances advances)
    (symbol_advances (by decide : utf8Bytes "," ≠ []))
  refine (symbol_follows (by decide)).bind fun _ => ?_
  refine cases.bind fun _ => ?_
  refine skipComments_follows.bind fun _ => ?_
  exact (symbol_follows (by decide)).bind fun _ => .pure _

theorem enumCase_follows : Follows enumCase EnumCase.rule := by
  refine ident_follows.bind fun _ => ?_
  exact assignedValue_follows.bind fun _ => .pure _

theorem enumeration_follows : Follows enumeration Enumeration.rule := by
  refine skipComments_follows.bind fun _ => ?_
  refine (keyword_follows (by decide)).bind fun _ => ?_
  refine ident_follows.bind fun _ => ?_
  refine (symbol_follows (by decide)).bind fun _ => ?_
  refine name_follows.bind fun base => ?_
  cases Scalar.ofName? base with
  | none => exact .failure
  | some base =>
    refine optionalMetadata_follows.bind fun _ => ?_
    exact (caseList_follows enumCase_follows (Nonterminal.rule_advances .enumCase)).bind
      fun _ => .pure _

theorem union_follows : Follows union TaggedUnion.rule := by
  refine skipComments_follows.bind fun _ => ?_
  refine (keyword_follows (by decide)).bind fun _ => ?_
  refine ident_follows.bind fun _ => ?_
  refine optionalMetadata_follows.bind fun _ => ?_
  exact (caseList_follows ident_follows (Nonterminal.rule_advances .ident)).bind fun _ => .pure _

theorem directive_follows {word : String} (length : (utf8Bytes word).length < 2 ^ 64) :
    Follows (directive word) (FlatSchema.directive word) := by
  refine skipComments_follows.bind fun _ => ?_
  refine (keyword_follows length).bind fun _ => ?_
  refine stringLiteral_follows.bind fun _ => ?_
  exact (symbol_follows (by decide)).bind fun _ => .pure _

theorem nameSpace_follows : Follows nameSpace Namespace.rule := by
  have parts := ident_follows.listOf (symbol_follows (by decide)) (Nonterminal.rule_advances .ident)
    (symbol_advances (by decide : utf8Bytes "." ≠ []))
  refine skipComments_follows.bind fun _ => ?_
  refine (keyword_follows (by decide)).bind fun _ => ?_
  refine parts.bind fun _ => ?_
  exact (symbol_follows (by decide)).bind fun _ => .pure _

theorem rootType_follows : Follows rootType rootTypeRule := by
  refine skipComments_follows.bind fun _ => ?_
  refine (keyword_follows (by decide)).bind fun _ => ?_
  refine ident_follows.bind fun _ => ?_
  exact (symbol_follows (by decide)).bind fun _ => .pure _

theorem item_follows : Follows item Item.rule := by
  refine .firstOf ?_
  refine .cons ((directive_follows (by decide)).map _) ?_
  refine .cons (nameSpace_follows.map _) ?_
  refine .cons (rootType_follows.map _) ?_
  refine .cons ((directive_follows (by decide)).map _) ?_
  refine .cons ((directive_follows (by decide)).map _) ?_
  refine .cons ((directive_follows (by decide)).map _) ?_
  refine .cons ((record_follows (by decide)).map _) ?_
  refine .cons ((record_follows (by decide)).map _) ?_
  exact .cons (enumeration_follows.map _) (.cons (union_follows.map _) .nil)

end Cursor

theorem Nonterminal.cursor_follows (nonterminal : Nonterminal) :
    Cursor.Follows nonterminal.cursor nonterminal.rule := by
  cases nonterminal with
  | ident | unionCase => exact Cursor.ident_follows
  | inclusion | userAttribute | fileExtension | fileIdentifier =>
    exact Cursor.directive_follows (by decide)
  | nameSpace => exact Cursor.nameSpace_follows
  | rootType => exact Cursor.rootType_follows
  | metadataEntry => exact Cursor.metadataEntry_follows
  | metadata => exact Cursor.metadata_follows
  | fieldType => exact Cursor.fieldType_follows
  | field => exact Cursor.field_follows
  | table | struct => exact Cursor.record_follows (by decide)
  | enumCase => exact Cursor.enumCase_follows
  | enumeration => exact Cursor.enumeration_follows
  | union => exact Cursor.union_follows

end FlatSchema
