import WorkflowCatalog.Artifact.Emit
import WorkflowCatalog.Artifact.Render
import WorkflowCatalog.Compiler.Basic
import WorkflowCatalog.Compiler.Build
import WorkflowCatalog.Compiler.Manifest
import WorkflowCatalog.Compiler.Pool
import WorkflowCatalog.Config.Basic
import WorkflowCatalog.Config.Environment
import WorkflowCatalog.Decimal.Binary64
import WorkflowCatalog.Decimal.Layout
import WorkflowCatalog.Decimal.Read
import WorkflowCatalog.Decimal.Shortest
import WorkflowCatalog.Error.Basic
import WorkflowCatalog.Error.Issue
import WorkflowCatalog.Error.Parse
import WorkflowCatalog.Failure
import WorkflowCatalog.FileSystem.Basic
import WorkflowCatalog.FileSystem.Operations
import WorkflowCatalog.Json.Basic
import WorkflowCatalog.Json.Reader
import WorkflowCatalog.Json.Writer
import WorkflowCatalog.Log
import WorkflowCatalog.Log.Output
import WorkflowCatalog.Manifest.Discovery
import WorkflowCatalog.Manifest.Extraction
import WorkflowCatalog.Manifest.Parse
import WorkflowCatalog.Ordered
import WorkflowCatalog.Path.Basic
import WorkflowCatalog.Path.Lemmas
import WorkflowCatalog.Schema.Basic
import WorkflowCatalog.Schema.Catalog
import WorkflowCatalog.Schema.Json
import WorkflowCatalog.Session
import WorkflowCatalog.Slug
import WorkflowCatalog.Text.Blank
import WorkflowCatalog.Text.Case
import WorkflowCatalog.Text.Case.Table
import WorkflowCatalog.Text.CodePoint
import WorkflowCatalog.Text.Digit
import WorkflowCatalog.Text.Infix
import WorkflowCatalog.Text.Lines
import WorkflowCatalog.Text.Printable
import WorkflowCatalog.Text.Quoted
import WorkflowCatalog.Text.Split
import WorkflowCatalog.Text.Utf8
import WorkflowCatalog.Validation.Basic
import WorkflowCatalog.Validation.Scalar
import WorkflowCatalog.Workflow.Basic
import WorkflowCatalog.Workflow.Collection
import WorkflowCatalog.Workflow.Json
import WorkflowCatalog.Workflow.Search
import WorkflowCatalog.Yaml.Cursor
import WorkflowCatalog.Yaml.Fault
import WorkflowCatalog.Yaml.Graph.Basic
import WorkflowCatalog.Yaml.Graph.Build
import WorkflowCatalog.Yaml.Graph.OfTokens
import WorkflowCatalog.Yaml.Load
import WorkflowCatalog.Yaml.Scalar
import WorkflowCatalog.Yaml.Tag
import WorkflowCatalog.Yaml.Timestamp
import WorkflowCatalog.Yaml.Token.Basic
import WorkflowCatalog.Yaml.Token.Property
import WorkflowCatalog.Yaml.Token.Scalar
import WorkflowCatalog.Yaml.Token.Stream
import WorkflowCatalog.Yaml.Value
import WorkflowCatalog.Proofs.Journal
import WorkflowCatalog.Proofs.Survey
import WorkflowCatalog.Proofs.Outcome
import WorkflowCatalog.Proofs.Policies
import WorkflowCatalog.Proofs.Pool
import WorkflowCatalog.Proofs.Sorting
import WorkflowCatalog.Proofs.Compile
import WorkflowCatalog.Proofs.Listing
import WorkflowCatalog.Proofs.Runs
import WorkflowCatalog.Proofs.Collection
import WorkflowCatalog.Proofs.Agreement
import WorkflowCatalog.Proofs.Schedule
import WorkflowCatalog.Proofs.Breakdown
import WorkflowCatalog.Proofs.PerFile
import WorkflowCatalog.Proofs.Resolution
import WorkflowCatalog.Proofs.Change
import WorkflowCatalog.Proofs.Session
import WorkflowCatalog.Proofs.Staging
import WorkflowCatalog.Proofs.Emission
import WorkflowCatalog.Proofs.Encoding
import WorkflowCatalog.Proofs.PlainNames
import WorkflowCatalog.Proofs.Delimiting
import WorkflowCatalog.Proofs.DataModule
import WorkflowCatalog.Proofs.Following
import WorkflowCatalog.Proofs.Walk
import WorkflowCatalog.Proofs.Reordering
import WorkflowCatalog.Proofs.Discovery
import WorkflowCatalog.Proofs.LostLinks
import WorkflowCatalog.Proofs.Unlinked
import WorkflowCatalog.Proofs.UnlinkedChange
import WorkflowCatalog.Proofs.Edits
import WorkflowCatalog.Proofs.Trees
import WorkflowCatalog.Proofs.Rewriting
import WorkflowCatalog.Proofs.Rebuild
import WorkflowCatalog.Proofs.Problems
import WorkflowCatalog.Proofs.PathSets
import WorkflowCatalog.Proofs.SchemaMeaning
import WorkflowCatalog.Proofs.KeyOrder
import WorkflowCatalog.Proofs.Description
import WorkflowCatalog.Proofs.Lowering
import WorkflowCatalog.Proofs.Search
import WorkflowCatalog.Proofs.Isolation
import WorkflowCatalog.Proofs.Places
import WorkflowCatalog.Proofs.Declarations
import WorkflowCatalog.Proofs.Pruning
import WorkflowCatalog.Proofs.SlugDerivation
import WorkflowCatalog.Proofs.Overwriting
import WorkflowCatalog.Proofs.LastName
import WorkflowCatalog.Proofs.Footprint
import WorkflowCatalog.Proofs.Delivery
import WorkflowCatalog.Proofs.Stopping
import WorkflowCatalog.Proofs.Confinement
import WorkflowCatalog.Proofs.SharedSlugs
import WorkflowCatalog.Proofs.Canonical
import WorkflowCatalog.Proofs.Precedence
import WorkflowCatalog.Proofs.Descent
import WorkflowCatalog.Proofs.Inside
import WorkflowCatalog.Proofs.TypeMeaning
import WorkflowCatalog.Proofs.TypeExpressions
import WorkflowCatalog.Proofs.Idempotence
import WorkflowCatalog.Proofs.JsonGrammar
import WorkflowCatalog.Proofs.RoundTrip
import WorkflowCatalog.Proofs.RepeatedNames
import WorkflowCatalog.Proofs.SmallLetters
import WorkflowCatalog.Proofs.Suffixes
import WorkflowCatalog.Proofs.SearchFailures
