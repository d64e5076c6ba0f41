import BoundSql.Binary64.Basic
import BoundSql.Binary64.Layout
import BoundSql.Binary64.Nearest
import BoundSql.Binary64.Shortest
import BoundSql.Command.Arguments
import BoundSql.Command.Error
import BoundSql.Command.Files
import BoundSql.Command.Operation
import BoundSql.Command.Program
import BoundSql.Command.Request
import BoundSql.Config.Basic
import BoundSql.Config.Error
import BoundSql.Config.File
import BoundSql.Database.Connection
import BoundSql.Database.Executor
import BoundSql.Database.Script
import BoundSql.Database.Session
import BoundSql.Database.Transaction
import BoundSql.Dialect
import BoundSql.Filter.Basic
import BoundSql.Filter.Json
import BoundSql.Filter.Operator
import BoundSql.Filter.Predicate
import BoundSql.Json.Basic
import BoundSql.Json.Reader
import BoundSql.Json.Writer
import BoundSql.Main
import BoundSql.Options.Basic
import BoundSql.Options.Logged
import BoundSql.Options.Override
import BoundSql.Outcome.Inserted
import BoundSql.Outcome.Row
import BoundSql.Query.Delete
import BoundSql.Query.Error
import BoundSql.Query.Insert
import BoundSql.Query.Order
import BoundSql.Query.Page
import BoundSql.Query.Select
import BoundSql.Query.Update
import BoundSql.Query.Where
import BoundSql.Query.Whitelist
import BoundSql.Report
import BoundSql.Sql.Fragment
import BoundSql.Sql.Identifier
import BoundSql.Sql.Word
import BoundSql.Store.Compare
import BoundSql.Store.Connection
import BoundSql.Store.Execute
import BoundSql.Store.Number
import BoundSql.Store.Reader
import BoundSql.Store.Snapshot
import BoundSql.Store.Syntax
import BoundSql.Store.Table
import BoundSql.Text.Blank
import BoundSql.Text.Case
import BoundSql.Text.Lines
import BoundSql.Text.Printable
import BoundSql.Text.Quoted
import BoundSql.Text.Repeat
import BoundSql.Toml.Annotation
import BoundSql.Toml.Basic
import BoundSql.Toml.Document
import BoundSql.Toml.Outline
import BoundSql.Toml.Quoted
import BoundSql.Toml.Reader
import BoundSql.Toml.Scalar
import BoundSql.Toml.Statement
import BoundSql.Toml.Writer
import BoundSql.Trace.Event
import BoundSql.Trace.Line
import BoundSql.Trace.Log
import BoundSql.Trace.Traced
import BoundSql.Value
import BoundSql.Proofs.Sql.Name
import BoundSql.Proofs.Sql.Lexer
import BoundSql.Proofs.Sql.Vocabulary
import BoundSql.Proofs.Filter.Denotation
import BoundSql.Proofs.Query.Clauses
import BoundSql.Proofs.Insert.Text
import BoundSql.Proofs.Insert.Plan
import BoundSql.Proofs.Query.Statement
import BoundSql.Proofs.Query.LexicalSafety
import BoundSql.Proofs.Filter.ReadBack
import BoundSql.Proofs.Insert.Partition
import BoundSql.Proofs.Insert.Batching
import BoundSql.Proofs.Trace.Agreement
import BoundSql.Proofs.Query.Noninterference
import BoundSql.Proofs.Database.Report
import BoundSql.Proofs.Insert.Execution
import BoundSql.Proofs.Query.Diagnostics
import BoundSql.Proofs.Database.Refinement
import BoundSql.Proofs.Database.Routine
import BoundSql.Proofs.Database.Bracketing
import BoundSql.Proofs.Database.Atomicity
import BoundSql.Proofs.Query.Whitelisting
import BoundSql.Proofs.Query.Restriction
import BoundSql.Proofs.Command.Preview
import BoundSql.Proofs.Filter.Grammar
import BoundSql.Proofs.Filter.Buildable
import BoundSql.Proofs.Filter.Entries
import BoundSql.Proofs.Filter.Calls
import BoundSql.Proofs.Filter.Document
import BoundSql.Proofs.Filter.NullChecks
import BoundSql.Proofs.Sql.Quotation
import BoundSql.Proofs.Insert.Guarded
import BoundSql.Proofs.Options.RoundTrip
import BoundSql.Proofs.Config.Resolution
import BoundSql.Proofs.Config.Naming
import BoundSql.Proofs.Insert.Acceptance
import BoundSql.Proofs.Insert.Optimality
import BoundSql.Proofs.Insert.Single
import BoundSql.Proofs.Options.Reconfiguration
import BoundSql.Proofs.Sql.Number
import BoundSql.Proofs.Query.Pagination
import BoundSql.Proofs.Query.Ordering
import BoundSql.Proofs.Options.Fusion
import BoundSql.Proofs.Query.Selection
import BoundSql.Proofs.Insert.Bookkeeping
import BoundSql.Proofs.Toml.Quoted
import BoundSql.Proofs.Toml.Value
import BoundSql.Proofs.Toml.Document
import BoundSql.Proofs.Toml.Annotation
import BoundSql.Proofs.Toml.Tree
import BoundSql.Proofs.Toml.Outline
import BoundSql.Proofs.Config.Writing
import BoundSql.Proofs.Store.Lexing
import BoundSql.Proofs.Store.Reading
import BoundSql.Proofs.Store.Connection
import BoundSql.Proofs.Insert.Rowids
import BoundSql.Proofs.Store.Keyed
import BoundSql.Proofs.Store.Intake
import BoundSql.Proofs.Insert.Learning
