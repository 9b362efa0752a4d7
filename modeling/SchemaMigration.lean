import SchemaMigration.CommandLine.Arguments
import SchemaMigration.CommandLine.Run
import SchemaMigration.Ddl.Alteration
import SchemaMigration.Ddl.Clause
import SchemaMigration.Ddl.ClickHouse.Alter
import SchemaMigration.Ddl.ClickHouse.Create
import SchemaMigration.Ddl.Generator
import SchemaMigration.Ddl.MsSql.Alter
import SchemaMigration.Ddl.MsSql.Create
import SchemaMigration.Ddl.Postgres.Alter
import SchemaMigration.Ddl.Postgres.Create
import SchemaMigration.Decimal.Shortest
import SchemaMigration.Dialect.Basic
import SchemaMigration.Dialect.Identifier
import SchemaMigration.Difference.Elements
import SchemaMigration.Difference.Tree
import SchemaMigration.Digest
import SchemaMigration.Error
import SchemaMigration.Files.Access
import SchemaMigration.Files.Tree
import SchemaMigration.Graph.Components
import SchemaMigration.Graph.TopologicalOrder
import SchemaMigration.Json.Basic
import SchemaMigration.Json.Codec
import SchemaMigration.Json.Printer
import SchemaMigration.Json.Reader
import SchemaMigration.Main
import SchemaMigration.Migration.Basic
import SchemaMigration.Migration.Inputs
import SchemaMigration.Migration.Script
import SchemaMigration.Object.Definition
import SchemaMigration.Object.DefinitionDocument
import SchemaMigration.Object.Id
import SchemaMigration.Object.Kind
import SchemaMigration.Plan.Basic
import SchemaMigration.Plan.Cycle
import SchemaMigration.Plan.Expansion
import SchemaMigration.Plan.ExtraDependencies
import SchemaMigration.Plan.Precedence
import SchemaMigration.Plan.Step
import SchemaMigration.Plan.Treatment
import SchemaMigration.Proofs.Difference.Elements
import SchemaMigration.Proofs.Difference.Tree
import SchemaMigration.Proofs.Graph.TopologicalOrder
import SchemaMigration.Proofs.Migration.Actions
import SchemaMigration.Proofs.Migration.Dependents
import SchemaMigration.Proofs.Migration.Effects
import SchemaMigration.Proofs.Migration.Execution
import SchemaMigration.Proofs.Migration.InPlace
import SchemaMigration.Proofs.Migration.RemovalOrder
import SchemaMigration.Proofs.Plan.Coverage
import SchemaMigration.Proofs.Plan.Edit
import SchemaMigration.Proofs.Plan.Entries
import SchemaMigration.Proofs.Plan.Expansion
import SchemaMigration.Proofs.Plan.Precedence
import SchemaMigration.Proofs.Plan.Selection
import SchemaMigration.Proofs.Plan.Steps
import SchemaMigration.Proofs.Snapshot.Analysis
import SchemaMigration.Proofs.Snapshot.Builder
import SchemaMigration.Proofs.Snapshot.Calls
import SchemaMigration.Proofs.Snapshot.Sides
import SchemaMigration.Proofs.Snapshot.Tree
import SchemaMigration.Proofs.Success
import SchemaMigration.Script.Buffer
import SchemaMigration.Selection.Filter
import SchemaMigration.Selection.Regex
import SchemaMigration.Selection.Settings
import SchemaMigration.Selection.Wildcard
import SchemaMigration.Snapshot.Basic
import SchemaMigration.Snapshot.Builder
import SchemaMigration.Snapshot.Dependency
import SchemaMigration.Snapshot.Document
import SchemaMigration.Snapshot.Fingerprint
import SchemaMigration.Snapshot.NameLookup
import SchemaMigration.Snapshot.Statement
import SchemaMigration.Sql.Grammar.Basic
import SchemaMigration.Sql.Grammar.Change
import SchemaMigration.Sql.Grammar.DataType
import SchemaMigration.Sql.Grammar.Definition
import SchemaMigration.Sql.Grammar.Expression
import SchemaMigration.Sql.Grammar.Object
import SchemaMigration.Sql.Grammar.Query
import SchemaMigration.Sql.Grammar.Select
import SchemaMigration.Sql.Grammar.Session
import SchemaMigration.Sql.Grammar.Source
import SchemaMigration.Sql.Grammar.Statement
import SchemaMigration.Sql.Lexer
import SchemaMigration.Sql.Reader
import SchemaMigration.Sql.References
import SchemaMigration.Sql.SequenceUse
import SchemaMigration.Sql.Token
import SchemaMigration.Sql.Tree
import SchemaMigration.Text.Alphabetic
import SchemaMigration.Text.AsciiCase
import SchemaMigration.Text.Blank
import SchemaMigration.Text.CaseFold
import SchemaMigration.Text.Numeric
import SchemaMigration.Text.Segment
import SchemaMigration.Proofs.Graph.Components
import SchemaMigration.Proofs.Plan.StepGraph
import SchemaMigration.Proofs.Plan.Web
import SchemaMigration.Proofs.Plan.Breaking
import SchemaMigration.Proofs.Plan.Detachment
import SchemaMigration.Proofs.Migration.Cycles
import SchemaMigration.Proofs.Migration.CreationOrder
import SchemaMigration.Proofs.Dialect.Identifier
import SchemaMigration.Proofs.Ddl.Table
import SchemaMigration.Proofs.Ddl.Postgres
import SchemaMigration.Proofs.Plan.Alteration
import SchemaMigration.Proofs.Migration.Constraints
import SchemaMigration.Proofs.Migration.Realisation
import SchemaMigration.Proofs.Migration.Restoration
import SchemaMigration.Proofs.Migration.Departures
import SchemaMigration.Proofs.Ddl.MsSql
import SchemaMigration.Proofs.Migration.Refreshes
import SchemaMigration.Proofs.Migration.Provenance
import SchemaMigration.Proofs.Difference.Comparison
import SchemaMigration.Proofs.Migration.Faults
import SchemaMigration.Proofs.Snapshot.Fingerprint
import SchemaMigration.Proofs.Difference.Exactness
import SchemaMigration.Proofs.Json.Printer
import SchemaMigration.Proofs.Json.Codec
import SchemaMigration.Proofs.Object.RoundTrip
import SchemaMigration.Proofs.Sql.Scope
import SchemaMigration.Proofs.Object.DefinitionDocument
import SchemaMigration.Proofs.Snapshot.FingerprintBytes
import SchemaMigration.Proofs.Difference.Visibility
import SchemaMigration.Proofs.Snapshot.Dependencies
import SchemaMigration.Proofs.Snapshot.Projection
import SchemaMigration.Proofs.Snapshot.SiblingOrder
import SchemaMigration.Proofs.Plan.Search
import SchemaMigration.Proofs.Plan.Passage
import SchemaMigration.Proofs.Graph.Completeness
import SchemaMigration.Proofs.Graph.Canonical
import SchemaMigration.Proofs.Ddl.Verb
import SchemaMigration.Proofs.Json.SortedMap
import SchemaMigration.Proofs.Ddl.Unchanged
import SchemaMigration.Proofs.Ddl.Postgres.Labels
import SchemaMigration.Proofs.Ddl.Postgres.ChangeTexts
import SchemaMigration.Proofs.Ddl.Postgres.Attributes
import SchemaMigration.Proofs.Ddl.Postgres.Roles
import SchemaMigration.Proofs.Script.Buffer
import SchemaMigration.Proofs.Migration.Script
import SchemaMigration.Proofs.Ddl.Defaults
import SchemaMigration.Proofs.Difference.Columns
import SchemaMigration.Proofs.Migration.Defaults
import SchemaMigration.Proofs.Selection.Regex
import SchemaMigration.Proofs.Selection.Wildcard
import SchemaMigration.Proofs.Dialect.Reading
import SchemaMigration.Proofs.Ddl.Postgres.Routines
import SchemaMigration.Proofs.Snapshot.Queries
import SchemaMigration.Proofs.Script.Phases
import SchemaMigration.Proofs.Snapshot.FingerprintPass
import SchemaMigration.Proofs.Plan.Progress
