import SchemaLint.Ancestry
import SchemaLint.Ancestry.Calls
import SchemaLint.Ancestry.Inquiry
import SchemaLint.Balance
import SchemaLint.ClassSource
import SchemaLint.ClassSource.Comment
import SchemaLint.ClassSource.Declaration
import SchemaLint.ClassSource.TypeName
import SchemaLint.Command
import SchemaLint.Command.Arguments
import SchemaLint.Command.Reader
import SchemaLint.Config
import SchemaLint.Config.Document
import SchemaLint.Config.File
import SchemaLint.Console
import SchemaLint.Diagnostic
import SchemaLint.Dialect
import SchemaLint.Field
import SchemaLint.File.Path
import SchemaLint.File.System
import SchemaLint.File.Tree
import SchemaLint.Footprint
import SchemaLint.Form
import SchemaLint.Host
import SchemaLint.Identifier
import SchemaLint.Json.Reader
import SchemaLint.Json.Record
import SchemaLint.Json.Value
import SchemaLint.Json.Writer
import SchemaLint.Keyword
import SchemaLint.Listing
import SchemaLint.Main
import SchemaLint.Mapping
import SchemaLint.Nesting
import SchemaLint.Pattern
import SchemaLint.Pattern.CharSet
import SchemaLint.Pattern.Class
import SchemaLint.Pattern.Expr
import SchemaLint.Pattern.Place
import SchemaLint.Pattern.Program
import SchemaLint.Pattern.Property
import SchemaLint.Pattern.Reader
import SchemaLint.Pattern.Regular
import SchemaLint.Pattern.Search
import SchemaLint.Program
import SchemaLint.Program.Failure
import SchemaLint.Program.Locator
import SchemaLint.Proofs.Ancestry
import SchemaLint.Proofs.Ancestry.Declaration
import SchemaLint.Proofs.Ancestry.Declared
import SchemaLint.Proofs.Ancestry.Header
import SchemaLint.Proofs.Ancestry.Inheritance
import SchemaLint.Proofs.Balance
import SchemaLint.Proofs.Balance.Cut
import SchemaLint.Proofs.Balance.Partner
import SchemaLint.Proofs.Balance.Report
import SchemaLint.Proofs.ClassSource.Body
import SchemaLint.Proofs.ClassSource.Comment
import SchemaLint.Proofs.ClassSource.Field
import SchemaLint.Proofs.ClassSource.Temporal
import SchemaLint.Proofs.ClassSource.TypeName
import SchemaLint.Proofs.File.Map
import SchemaLint.Proofs.Footprint
import SchemaLint.Proofs.Footprint.WellFormed
import SchemaLint.Proofs.Form
import SchemaLint.Proofs.Form.Sequence
import SchemaLint.Proofs.Form.Stop
import SchemaLint.Proofs.Json.Lexeme
import SchemaLint.Proofs.Json.RoundTrip
import SchemaLint.Proofs.Keeps
import SchemaLint.Proofs.Keyword
import SchemaLint.Proofs.Mapping
import SchemaLint.Proofs.Nesting.Balanced
import SchemaLint.Proofs.Nesting.Cut
import SchemaLint.Proofs.Nesting.Matching
import SchemaLint.Proofs.Nesting.Place
import SchemaLint.Proofs.Nesting.Segments
import SchemaLint.Proofs.Pattern.Leads
import SchemaLint.Proofs.Pattern.Overlay
import SchemaLint.Proofs.Pattern.Requirement
import SchemaLint.Proofs.Pattern.Search
import SchemaLint.Proofs.Pattern.Step
import SchemaLint.Proofs.Pattern.Walk
import SchemaLint.Proofs.Pattern.Words
import SchemaLint.Proofs.Program.Failure
import SchemaLint.Proofs.Program.Reading
import SchemaLint.Proofs.Range
import SchemaLint.Proofs.Report
import SchemaLint.Proofs.Rule.Compiled
import SchemaLint.Proofs.Rule.Document
import SchemaLint.Proofs.Rule.Number
import SchemaLint.Proofs.Rule.Where
import SchemaLint.Proofs.Scattered
import SchemaLint.Proofs.Schema.Document
import SchemaLint.Proofs.Schema.Field
import SchemaLint.Proofs.Shape
import SchemaLint.Proofs.Shell.Balance
import SchemaLint.Proofs.Shell.Call
import SchemaLint.Proofs.Shell.Document
import SchemaLint.Proofs.Shell.Head
import SchemaLint.Proofs.Shell.InPlace
import SchemaLint.Proofs.Shell.Insertion
import SchemaLint.Proofs.Shell.Query
import SchemaLint.Proofs.Shell.Update
import SchemaLint.Proofs.Shell.Values
import SchemaLint.Proofs.Skip
import SchemaLint.Proofs.Slicing
import SchemaLint.Proofs.Slicing.Scan
import SchemaLint.Proofs.Slicing.Shell
import SchemaLint.Proofs.Slicing.Sql
import SchemaLint.Proofs.Sql.Backquoted
import SchemaLint.Proofs.Sql.Backquoted.Line
import SchemaLint.Proofs.Sql.Between
import SchemaLint.Proofs.Sql.Change
import SchemaLint.Proofs.Sql.Change.Tail
import SchemaLint.Proofs.Sql.Clause
import SchemaLint.Proofs.Sql.Column
import SchemaLint.Proofs.Sql.Condition
import SchemaLint.Proofs.Sql.Group
import SchemaLint.Proofs.Sql.Head
import SchemaLint.Proofs.Sql.Insertion
import SchemaLint.Proofs.Sql.Insertion.Tail
import SchemaLint.Proofs.Sql.Joined
import SchemaLint.Proofs.Sql.Literal
import SchemaLint.Proofs.Sql.Name
import SchemaLint.Proofs.Sql.Named
import SchemaLint.Proofs.Sql.Numeral
import SchemaLint.Proofs.Sql.Occurrence
import SchemaLint.Proofs.Sql.Selection
import SchemaLint.Proofs.Sql.Selection.Columns
import SchemaLint.Proofs.Sql.Selection.Joins
import SchemaLint.Proofs.Sql.Selection.Shape
import SchemaLint.Proofs.Sql.Statement
import SchemaLint.Proofs.Sql.Tail
import SchemaLint.Proofs.Sql.Token
import SchemaLint.Proofs.Sql.Values
import SchemaLint.Proofs.Statement
import SchemaLint.Proofs.Store.Directory
import SchemaLint.Proofs.Store.Kept
import SchemaLint.Proofs.Store.Session
import SchemaLint.Proofs.Text
import SchemaLint.Proofs.Text.Slice
import SchemaLint.Proofs.Unicode.CodePoints
import SchemaLint.Proofs.Unicode.Fold
import SchemaLint.Proofs.Validator
import SchemaLint.Proofs.Validator.Addition
import SchemaLint.Proofs.Validator.Comment
import SchemaLint.Proofs.Validator.Path
import SchemaLint.Proofs.Validator.Script
import SchemaLint.Proofs.Validator.Skipped
import SchemaLint.Report
import SchemaLint.Report.Document
import SchemaLint.Rule
import SchemaLint.Rule.Builtin
import SchemaLint.Rule.Compiled
import SchemaLint.Rule.Document
import SchemaLint.Rule.Store
import SchemaLint.Rule.Table
import SchemaLint.Schema
import SchemaLint.Schema.Document
import SchemaLint.Schema.Store
import SchemaLint.Schema.Table
import SchemaLint.Script
import SchemaLint.Shape
import SchemaLint.Shell.Call
import SchemaLint.Shell.Footprint
import SchemaLint.Shell.Shape
import SchemaLint.Shell.Value
import SchemaLint.Sql.Condition
import SchemaLint.Sql.Footprint
import SchemaLint.Sql.Form
import SchemaLint.Sql.Shape
import SchemaLint.Statement
import SchemaLint.Store.Backend
import SchemaLint.Store.Directory
import SchemaLint.Store.Document
import SchemaLint.Store.Memory
import SchemaLint.Text.Ascii
import SchemaLint.Text.Blank
import SchemaLint.Text.Instant
import SchemaLint.Toml.Blank
import SchemaLint.Toml.Number
import SchemaLint.Toml.Quoted
import SchemaLint.Toml.Reader
import SchemaLint.Toml.Table
import SchemaLint.Toml.Value
import SchemaLint.Toml.Writer
import SchemaLint.Unicode.Binary
import SchemaLint.Unicode.Category
import SchemaLint.Unicode.CodePoints
import SchemaLint.Unicode.Fold
import SchemaLint.Unicode.Script
import SchemaLint.Unicode.Word
import SchemaLint.Validator
import SchemaLint.ValueKind
