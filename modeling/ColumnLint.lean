import ColumnLint.Command.Options
import ColumnLint.Command.Run
import ColumnLint.Command.Tree
import ColumnLint.Config
import ColumnLint.Issue
import ColumnLint.Json.Basic
import ColumnLint.Json.Printer
import ColumnLint.Json.Reader
import ColumnLint.Linter
import ColumnLint.Main
import ColumnLint.Policy
import ColumnLint.Report
import ColumnLint.Request
import ColumnLint.Rounding
import ColumnLint.Rule.Name
import ColumnLint.Rule.References
import ColumnLint.Scope.Basic
import ColumnLint.Scope.Forest
import ColumnLint.Scope.Reference
import ColumnLint.Sql.Dialect
import ColumnLint.Sql.Extent
import ColumnLint.Sql.Grammar.Alias
import ColumnLint.Sql.Grammar.Basic
import ColumnLint.Sql.Grammar.Call
import ColumnLint.Sql.Grammar.Change
import ColumnLint.Sql.Grammar.Constraint
import ColumnLint.Sql.Grammar.DataType
import ColumnLint.Sql.Grammar.Definition
import ColumnLint.Sql.Grammar.Expression
import ColumnLint.Sql.Grammar.Interval
import ColumnLint.Sql.Grammar.Literal
import ColumnLint.Sql.Grammar.Name
import ColumnLint.Sql.Grammar.Operand
import ColumnLint.Sql.Grammar.Path
import ColumnLint.Sql.Grammar.Phrase
import ColumnLint.Sql.Grammar.Precedence
import ColumnLint.Sql.Grammar.Property
import ColumnLint.Sql.Grammar.Query
import ColumnLint.Sql.Grammar.Removal
import ColumnLint.Sql.Grammar.Select
import ColumnLint.Sql.Grammar.Source
import ColumnLint.Sql.Grammar.Statement
import ColumnLint.Sql.Grammar.Storage
import ColumnLint.Sql.Grammar.Table
import ColumnLint.Sql.Keyword
import ColumnLint.Sql.Parse
import ColumnLint.Sql.Printer
import ColumnLint.Sql.Reserved
import ColumnLint.Sql.Syntax
import ColumnLint.Sql.Token
import ColumnLint.Sql.Token.Alphabet
import ColumnLint.Sql.Token.Lexer
import ColumnLint.Suppression
import ColumnLint.Text.Blank
import ColumnLint.Text.Case
import ColumnLint.Text.Digit
import ColumnLint.Text.Letter
import ColumnLint.Text.Location
import ColumnLint.Text.Quoted
import ColumnLint.Text.Range
import ColumnLint.Text.Search
import ColumnLint.Wire
import ColumnLint.Proofs.Boundary
import ColumnLint.Proofs.NormalForm
import ColumnLint.Proofs.Offender
import ColumnLint.Proofs.Verdict
import ColumnLint.Proofs.Listing
import ColumnLint.Proofs.FaithfulSpan
import ColumnLint.Proofs.Occurrence
import ColumnLint.Proofs.WrittenOrder
import ColumnLint.Proofs.Nesting
import ColumnLint.Proofs.SelectPlaces
import ColumnLint.Proofs.Ancestry
import ColumnLint.Proofs.Interference
import ColumnLint.Proofs.Statementwise
import ColumnLint.Proofs.Canonical
import ColumnLint.Proofs.Scanning
import ColumnLint.Proofs.Cutting
import ColumnLint.Proofs.SharedPieces
import ColumnLint.Proofs.SharedSigns
import ColumnLint.Proofs.SharedCuts
import ColumnLint.Proofs.Fallback
import ColumnLint.Proofs.OptionLookup
import ColumnLint.Proofs.PolicyChoice
import ColumnLint.Proofs.RuleReference
import ColumnLint.Proofs.ResultShape
import ColumnLint.Proofs.FileTree
import ColumnLint.Proofs.RunOutcome
import ColumnLint.Proofs.WrittenLocation
import ColumnLint.Proofs.ReportAgreement
import ColumnLint.Proofs.IndependentFiles
import ColumnLint.Proofs.WireRoundTrip
import ColumnLint.Proofs.ExactViolations
import ColumnLint.Proofs.DirectiveMeaning
import ColumnLint.Proofs.JsonText
import ColumnLint.Proofs.JsonReading
import ColumnLint.Proofs.FaithfulReport
import ColumnLint.Proofs.Coordinates
import ColumnLint.Proofs.ShownLine
import ColumnLint.Proofs.OptionPriority
import ColumnLint.Proofs.RuleLanguage
import ColumnLint.Proofs.QuotedText
import ColumnLint.Proofs.PolicyAgreement
import ColumnLint.Proofs.ChildScopes
import ColumnLint.Proofs.TableLeaves
import ColumnLint.Proofs.ColouredTable
import ColumnLint.Proofs.DirectoryListing
import ColumnLint.Proofs.PendingArguments
import ColumnLint.Proofs.MixedArguments
import ColumnLint.Proofs.ExcludedRules
