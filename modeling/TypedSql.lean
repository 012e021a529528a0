import TypedSql.Calendar.Iso
import TypedSql.Column.Check
import TypedSql.Column.Definition
import TypedSql.Column.TypeText
import TypedSql.Condition.Clause
import TypedSql.Format.Address
import TypedSql.Format.Url
import TypedSql.Json.Reader
import TypedSql.Kind
import TypedSql.Network.Address
import TypedSql.Number.Shortest
import TypedSql.Rule
import TypedSql.Runtime
import TypedSql.Session.Client
import TypedSql.Session.Reading
import TypedSql.Session.Writing
import TypedSql.Statement.Query
import TypedSql.Table.Ddl
import TypedSql.Table.Derive
import TypedSql.Table.Draft
import TypedSql.Table.Record
import TypedSql.Text.Pattern.Reader
import TypedSql.Text.Quoted
import TypedSql.Text.Upper
import TypedSql.Uuid
import TypedSql.Value.Display
import TypedSql.Wire.Accept
import TypedSql.Wire.Decode
import TypedSql.Wire.Encode
import TypedSql.Wire.Named
import TypedSql.Proofs.Model.Placeholder
import TypedSql.Proofs.Model.Guard
import TypedSql.Proofs.Column.Valid
import TypedSql.Proofs.Identifier.Grammar
import TypedSql.Proofs.Value.Keyed
import TypedSql.Proofs.Table.Valid
import TypedSql.Proofs.Table.Ddl
import TypedSql.Proofs.Table.Reachable
import TypedSql.Proofs.Condition.Skeleton
import TypedSql.Proofs.Sql.Lexeme
import TypedSql.Proofs.Sql.Nesting
import TypedSql.Proofs.Sql.Expression
import TypedSql.Proofs.Sql.Splitting
import TypedSql.Proofs.Condition.Raw
import TypedSql.Proofs.Json.Number
import TypedSql.Proofs.Json.Document
import TypedSql.Proofs.Wire.Document
import TypedSql.Proofs.Calendar.Date
import TypedSql.Proofs.Calendar.Moment
import TypedSql.Proofs.Calendar.Iso
import TypedSql.Proofs.Wire.Moment
import TypedSql.Proofs.Column.Restored
import TypedSql.Proofs.Table.Restored
import TypedSql.Proofs.Number.Overflow
import TypedSql.Proofs.Number.Reading
import TypedSql.Proofs.Number.Shortest
import TypedSql.Proofs.Number.Power
import TypedSql.Proofs.Json.Writable
import TypedSql.Proofs.Wire.Sendable
import TypedSql.Proofs.Model.Insertion
import TypedSql.Proofs.Text.Classes
import TypedSql.Proofs.Value.Display
import TypedSql.Proofs.Session.Run
import TypedSql.Proofs.Session.Command
import TypedSql.Proofs.Session.Batch
import TypedSql.Proofs.Session.Preparation
import TypedSql.Proofs.Session.Creation
import TypedSql.Proofs.Session.Update
import TypedSql.Proofs.Session.BulkInsertion
import TypedSql.Proofs.Wire.Null
import TypedSql.Proofs.Session.NullParameter
import TypedSql.Proofs.Table.Required
import TypedSql.Proofs.Model.Chain
import TypedSql.Proofs.Condition.Conjunction
import TypedSql.Proofs.Model.Conjunction
import TypedSql.Proofs.Sql.Cutting
import TypedSql.Proofs.Model.Selection
import TypedSql.Proofs.Statement.Cutting
import TypedSql.Proofs.Model.Determinacy
import TypedSql.Proofs.Condition.Progress
import TypedSql.Proofs.Condition.Spelling
import TypedSql.Proofs.Condition.Shift
import TypedSql.Proofs.Session.Failure
import TypedSql.Proofs.Session.Issuing
import TypedSql.Proofs.Session.Registry
import TypedSql.Proofs.Statement.Attempt
import TypedSql.Proofs.Statement.Acceptance
import TypedSql.Proofs.Statement.Script
import TypedSql.Proofs.Statement.Numbered
import TypedSql.Proofs.Table.Verdict
import TypedSql.Proofs.Column.Merged
import TypedSql.Proofs.Table.Derived
import TypedSql.Proofs.Column.Enumeration
import TypedSql.Proofs.Column.Decoding
import TypedSql.Proofs.Text.Literal
import TypedSql.Proofs.Table.Literal
import TypedSql.Proofs.Calendar.Range
import TypedSql.Proofs.Wire.Breach
import TypedSql.Proofs.Wire.Fixed
import TypedSql.Proofs.Wire.Again
import TypedSql.Proofs.Wire.Inference
import TypedSql.Proofs.Condition.SingleKey
import TypedSql.Proofs.Session.KeyLookup
import TypedSql.Proofs.Text.Pattern
import TypedSql.Proofs.Text.Spelling
import TypedSql.Proofs.Format.Whole
import TypedSql.Proofs.Format.Colons
import TypedSql.Proofs.Format.Dots
