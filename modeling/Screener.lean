import Screener.Catalog
import Screener.Condition
import Screener.Digest
import Screener.Field
import Screener.Http.MediaType
import Screener.Http.Message
import Screener.Http.Origins
import Screener.Http.Reply
import Screener.Http.Server
import Screener.Json.Codec
import Screener.Json.Error
import Screener.Json.Printer
import Screener.Json.Reader
import Screener.Json.Skip
import Screener.Json.Value
import Screener.Literal
import Screener.Logging
import Screener.Market.Fixture
import Screener.Market.Quote
import Screener.Market.Template
import Screener.Market.Url
import Screener.Metrics
import Screener.Model.Completion
import Screener.Model.Prompt
import Screener.Model.Reply
import Screener.Number.Binary
import Screener.Number.Decimal
import Screener.Operator
import Screener.Proofs.Answer
import Screener.Proofs.Catalog.Batches
import Screener.Proofs.Catalog.Filling
import Screener.Proofs.Catalog.Insert
import Screener.Proofs.Catalog.Interleaving
import Screener.Proofs.Catalog.Lookup
import Screener.Proofs.Catalog.Runs
import Screener.Proofs.Catalog.Seeding
import Screener.Proofs.Catalog.Stored
import Screener.Proofs.Compiling
import Screener.Proofs.Digest
import Screener.Proofs.Http.Bodies
import Screener.Proofs.Http.Counting
import Screener.Proofs.Json.Coverage
import Screener.Proofs.Json.Documents
import Screener.Proofs.Json.Lexemes
import Screener.Proofs.Json.Lookup
import Screener.Proofs.Json.Numbers
import Screener.Proofs.Json.Reading
import Screener.Proofs.Json.Spelling
import Screener.Proofs.Json.Strings
import Screener.Proofs.Json.Values
import Screener.Proofs.Market.Addresses
import Screener.Proofs.Market.Fixtures
import Screener.Proofs.Market.Quotes
import Screener.Proofs.Market.Rereading
import Screener.Proofs.Metrics
import Screener.Proofs.Number.Exact
import Screener.Proofs.Number.Numeral
import Screener.Proofs.Number.ReadBack
import Screener.Proofs.Number.Rounding
import Screener.Proofs.Number.Whole
import Screener.Proofs.Operators
import Screener.Proofs.Query.CanonicalText
import Screener.Proofs.Query.Conjunction
import Screener.Proofs.Query.Fitting
import Screener.Proofs.Query.Formatting
import Screener.Proofs.Query.Limits
import Screener.Proofs.Query.NumberText
import Screener.Proofs.Query.Readers
import Screener.Proofs.Query.Volumes
import Screener.Proofs.Record
import Screener.Proofs.Service
import Screener.Proofs.Settings.Faults
import Screener.Proofs.Settings.Keys
import Screener.Proofs.Settings.Precedence
import Screener.Proofs.Sql.Agreement
import Screener.Proofs.Sql.Drafting
import Screener.Proofs.Sql.Lexing
import Screener.Proofs.Sql.Marks
import Screener.Proofs.Sql.Matching
import Screener.Proofs.Sql.Pieces
import Screener.Proofs.Sql.Placeholders
import Screener.Proofs.Sql.Reading
import Screener.Proofs.Sql.Scanning
import Screener.Proofs.Sql.Shape
import Screener.Proofs.Sql.Typing
import Screener.Proofs.Sql.Unambiguous
import Screener.Proofs.Sql.Wildcards
import Screener.Proofs.Timestamp
import Screener.Query
import Screener.Record
import Screener.Seed
import Screener.Service
import Screener.Settings
import Screener.Sql.Audit
import Screener.Sql.Draft
import Screener.Sql.Engine
import Screener.Sql.Native
import Screener.Sql.Pattern
import Screener.Sql.Row
import Screener.Sql.Select
import Screener.Sql.Statement
import Screener.Sql.Token
import Screener.Sql.Transaction
import Screener.Text.Blank
import Screener.Text.Lower
import Screener.Text.Shown
import Screener.Timestamp
import Screener.Yaml.Node
import Screener.Yaml.Reader
import Screener.Yaml.Scalar
