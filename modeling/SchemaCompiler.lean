import SchemaCompiler.Builder.Basic
import SchemaCompiler.Builder.Block
import SchemaCompiler.CommandLine.Action
import SchemaCompiler.CommandLine.Command
import SchemaCompiler.CommandLine.Grammar
import SchemaCompiler.CommandLine.Preview
import SchemaCompiler.CommandLine.Run
import SchemaCompiler.Fault
import SchemaCompiler.FileSize
import SchemaCompiler.FileTree.Basic
import SchemaCompiler.FileTree.Write
import SchemaCompiler.Json.Error
import SchemaCompiler.Json.Reader
import SchemaCompiler.Json.Writer
import SchemaCompiler.Main
import SchemaCompiler.Migration.Document
import SchemaCompiler.Migration.File
import SchemaCompiler.Migration.Statement
import SchemaCompiler.Migration.Time
import SchemaCompiler.Number.Binary64
import SchemaCompiler.Number.Decimal
import SchemaCompiler.Number.Quantity
import SchemaCompiler.Number.Shortest
import SchemaCompiler.Proofs.Builder.Agreement
import SchemaCompiler.Proofs.Builder.History
import SchemaCompiler.Proofs.Builder.Invariant
import SchemaCompiler.Proofs.Builder.Program
import SchemaCompiler.Proofs.CommandLine.Commands
import SchemaCompiler.Proofs.CommandLine.Effects
import SchemaCompiler.Proofs.CommandLine.Words
import SchemaCompiler.Proofs.FileTree.View
import SchemaCompiler.Proofs.FileTree.Writing
import SchemaCompiler.Proofs.FrontEnds
import SchemaCompiler.Proofs.Json.RoundTrip
import SchemaCompiler.Proofs.Migration.Calendar
import SchemaCompiler.Proofs.Migration.Compilation
import SchemaCompiler.Proofs.Migration.Creation
import SchemaCompiler.Proofs.Migration.Document
import SchemaCompiler.Proofs.Migration.Faults
import SchemaCompiler.Proofs.Migration.Layout
import SchemaCompiler.Proofs.Migration.Listing
import SchemaCompiler.Proofs.Migration.Rendering
import SchemaCompiler.Proofs.Migration.Stamp
import SchemaCompiler.Proofs.Migration.Texts
import SchemaCompiler.Proofs.Migration.TriggerBinding
import SchemaCompiler.Proofs.Outcome
import SchemaCompiler.Proofs.RowSecurity.BucketScope
import SchemaCompiler.Proofs.RowSecurity.Database
import SchemaCompiler.Proofs.RowSecurity.FirstOccurrence
import SchemaCompiler.Proofs.RowSecurity.FromNothing
import SchemaCompiler.Proofs.RowSecurity.Minimality
import SchemaCompiler.Proofs.RowSecurity.Reconciliation
import SchemaCompiler.Proofs.RowSecurity.RuleMap
import SchemaCompiler.Proofs.Schema.Acceptance
import SchemaCompiler.Proofs.Schema.Definition
import SchemaCompiler.Proofs.Schema.Distinct
import SchemaCompiler.Proofs.Schema.Reading
import SchemaCompiler.Proofs.Schema.Soundness
import SchemaCompiler.Proofs.Service.Answers
import SchemaCompiler.Proofs.Source
import SchemaCompiler.Proofs.Sql.ClosedText
import SchemaCompiler.Proofs.Sql.Composition
import SchemaCompiler.Proofs.Sql.Condition
import SchemaCompiler.Proofs.Sql.Default
import SchemaCompiler.Proofs.Sql.Generation
import SchemaCompiler.Proofs.Sql.Numeral
import SchemaCompiler.Proofs.Sql.Reshaping
import SchemaCompiler.Proofs.Sql.Scanner
import SchemaCompiler.Proofs.Value.Equality
import SchemaCompiler.Proofs.Value.Equivalence
import SchemaCompiler.RowSecurity.Changes
import SchemaCompiler.RowSecurity.Name
import SchemaCompiler.RowSecurity.Statement
import SchemaCompiler.RowSecurity.Template
import SchemaCompiler.Schema.Basic
import SchemaCompiler.Schema.Construct
import SchemaCompiler.Schema.CustomType
import SchemaCompiler.Schema.Function
import SchemaCompiler.Schema.Options
import SchemaCompiler.Schema.Policy
import SchemaCompiler.Schema.StorageBucket
import SchemaCompiler.Schema.Table
import SchemaCompiler.Schema.Vocabulary
import SchemaCompiler.Service.Framework
import SchemaCompiler.Service.Handler
import SchemaCompiler.Service.Request
import SchemaCompiler.Service.Response
import SchemaCompiler.Settings
import SchemaCompiler.Source
import SchemaCompiler.Sql.Literal
import SchemaCompiler.Sql.Object
import SchemaCompiler.Sql.Table
import SchemaCompiler.Sql.TypeName
import SchemaCompiler.Text.Blank
import SchemaCompiler.Text.Case
import SchemaCompiler.Text.Digit
import SchemaCompiler.Text.Line
import SchemaCompiler.Text.Printable
import SchemaCompiler.Text.Quoted
import SchemaCompiler.Trace
import SchemaCompiler.Value.Basic
import SchemaCompiler.Value.Equality
import SchemaCompiler.Value.Parameter
import SchemaCompiler.Value.Reading
import SchemaCompiler.Proofs.RowSecurity.Repetition
import SchemaCompiler.Proofs.Value.Settings
import SchemaCompiler.Proofs.RowSecurity.Arrangement
import SchemaCompiler.Proofs.RowSecurity.Unchanged
import SchemaCompiler.Proofs.Text.Occurrence
import SchemaCompiler.Proofs.Sql.PrimaryKey
import SchemaCompiler.Proofs.Sql.LiteralList
import SchemaCompiler.Proofs.Migration.Header
import SchemaCompiler.Proofs.RowSecurity.PolicyText
import SchemaCompiler.Proofs.Sql.ColumnText
import SchemaCompiler.Proofs.Sql.CommentText
import SchemaCompiler.Proofs.Sql.TableText
import SchemaCompiler.Proofs.FileSize.Whole
import SchemaCompiler.Proofs.RowSecurity.NameText
import SchemaCompiler.Proofs.Builder.Failure
import SchemaCompiler.Proofs.Json.Steps
import SchemaCompiler.Proofs.Json.Spacing
import SchemaCompiler.Proofs.SourceForms
import SchemaCompiler.Proofs.Migration.Instants
import SchemaCompiler.Proofs.Schema.Origins
import SchemaCompiler.Proofs.Schema.KeyOrder
import SchemaCompiler.Proofs.CommandLine.Preview
import SchemaCompiler.Proofs.Schema.Construction
import SchemaCompiler.Proofs.Schema.Normalization
