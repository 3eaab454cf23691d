import FlatSchema.Command.Arguments
import FlatSchema.Command.Run
import FlatSchema.Disk.Basic
import FlatSchema.Disk.FileSystem
import FlatSchema.Disk.Path
import FlatSchema.Json.Basic
import FlatSchema.Json.Dump
import FlatSchema.Load.Failure
import FlatSchema.Load.Resolver
import FlatSchema.Main
import FlatSchema.Schema.Assembly
import FlatSchema.Schema.Basic
import FlatSchema.Schema.Compile
import FlatSchema.Schema.Ident
import FlatSchema.Schema.Scalar
import FlatSchema.Scope.Basic
import FlatSchema.Scope.Cycle
import FlatSchema.Scope.Traversal
import FlatSchema.Swift.Block
import FlatSchema.Swift.Source
import FlatSchema.Syntax.Declaration
import FlatSchema.Syntax.Item
import FlatSchema.Syntax.Rule
import FlatSchema.Syntax.Token
import FlatSchema.Text.Byte
import FlatSchema.Text.CaseMapping
import FlatSchema.Text.Cased
import FlatSchema.Text.GraphemeExtend
import FlatSchema.Text.Lines
import FlatSchema.Text.Position
import FlatSchema.Text.Quoted
import FlatSchema.Text.RangeTable
import FlatSchema.Text.Title
import FlatSchema.Text.Unprintable
import FlatSchema.Proofs.Text.Utf8
import FlatSchema.Proofs.Text.Position
import FlatSchema.Proofs.Text.Spelling
import FlatSchema.Proofs.Text.Title
import FlatSchema.Proofs.Text.Brackets
import FlatSchema.Proofs.Text.Code
import FlatSchema.Proofs.Grammar.Language
import FlatSchema.Proofs.Grammar.Ending
import FlatSchema.Proofs.Grammar.Reading
import FlatSchema.Proofs.Grammar.Token
import FlatSchema.Proofs.Grammar.Trivia
import FlatSchema.Proofs.Grammar.Follow
import FlatSchema.Proofs.Grammar.Field
import FlatSchema.Proofs.Grammar.Declaration
import FlatSchema.Proofs.Grammar.Item
import FlatSchema.Proofs.Grammar.Recognition
import FlatSchema.Proofs.Grammar.Lists
import FlatSchema.Proofs.Grammar.Locality
import FlatSchema.Proofs.Grammar.Rounds
import FlatSchema.Proofs.Grammar.AsWritten
import FlatSchema.Proofs.Schema.Assembly
import FlatSchema.Proofs.Schema.Concatenation
import FlatSchema.Proofs.Schema.Priority
import FlatSchema.Proofs.Schema.Strict
import FlatSchema.Proofs.Schema.LongestPrefix
import FlatSchema.Proofs.Schema.Resolution
import FlatSchema.Proofs.Schema.WellFormed
import FlatSchema.Proofs.Scope.Keyed
import FlatSchema.Proofs.Scope.Precedence
import FlatSchema.Proofs.Scope.KindPriority
import FlatSchema.Proofs.Scope.Worklist
import FlatSchema.Proofs.Scope.Cycle
import FlatSchema.Proofs.Scope.Agreement
import FlatSchema.Proofs.Text.Order
import FlatSchema.Proofs.Scope.Building
import FlatSchema.Proofs.Text.Runs
import FlatSchema.Proofs.Text.Literals
import FlatSchema.Proofs.Swift.Emission
import FlatSchema.Proofs.Swift.Lines
import FlatSchema.Proofs.Swift.SelfContained
import FlatSchema.Proofs.Swift.Unreachable
import FlatSchema.Proofs.Swift.Reordering
import FlatSchema.Proofs.Load.Journal
import FlatSchema.Proofs.Load.Tree
import FlatSchema.Proofs.Load.Cycles
import FlatSchema.Proofs.Load.Session
import FlatSchema.Proofs.Swift.Brackets
import FlatSchema.Proofs.Schema.Container
import FlatSchema.Proofs.Swift.Containers
import FlatSchema.Proofs.Swift.Names
import FlatSchema.Proofs.Swift.Shapes
import FlatSchema.Proofs.Swift.Readback
import FlatSchema.Proofs.Swift.Qualification
import FlatSchema.Proofs.Swift.DeclaredNames
import FlatSchema.Proofs.Swift.Separation
import FlatSchema.Proofs.Swift.CodeLines
import FlatSchema.Proofs.Swift.LateBinding
import FlatSchema.Proofs.Swift.Escaping
import FlatSchema.Proofs.Cursor.Checked
import FlatSchema.Proofs.Cursor.Basic
import FlatSchema.Proofs.Cursor.Token
import FlatSchema.Proofs.Cursor.Declaration
import FlatSchema.Proofs.Cursor.Safety
import FlatSchema.Proofs.Json.Decode
import FlatSchema.Proofs.Command.Machine
import FlatSchema.Proofs.Command.Options
import FlatSchema.Proofs.Command.Run
