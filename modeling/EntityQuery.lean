import EntityQuery.Body
import EntityQuery.Body.Recorder
import EntityQuery.Body.Statement
import EntityQuery.Catalog
import EntityQuery.Change
import EntityQuery.Change.Json
import EntityQuery.Engine
import EntityQuery.Engine.Pages
import EntityQuery.Error
import EntityQuery.Error.Store
import EntityQuery.Json
import EntityQuery.Json.Parser
import EntityQuery.Json.Printer
import EntityQuery.Like
import EntityQuery.Number
import EntityQuery.Page
import EntityQuery.Plan
import EntityQuery.Plan.Json
import EntityQuery.Planning
import EntityQuery.Planning.Change
import EntityQuery.Planning.Frame
import EntityQuery.Planning.Resolve
import EntityQuery.Proofs.Catalog
import EntityQuery.Proofs.Changes.Applying
import EntityQuery.Proofs.Changes.Counting
import EntityQuery.Proofs.Changes.Recording
import EntityQuery.Proofs.Conformance
import EntityQuery.Proofs.Engine.Changes
import EntityQuery.Proofs.Engine.Listing
import EntityQuery.Proofs.Engine.Pages
import EntityQuery.Proofs.Evaluation.Distinct
import EntityQuery.Proofs.Evaluation.Filtering
import EntityQuery.Proofs.Evaluation.Fitting
import EntityQuery.Proofs.Evaluation.Joins
import EntityQuery.Proofs.Evaluation.Likeness
import EntityQuery.Proofs.Evaluation.Matching
import EntityQuery.Proofs.Evaluation.Ordering
import EntityQuery.Proofs.Evaluation.Outcomes
import EntityQuery.Proofs.Evaluation.Progress
import EntityQuery.Proofs.Meaning.Agreement
import EntityQuery.Proofs.Meaning.Alignment
import EntityQuery.Proofs.Meaning.Bodies
import EntityQuery.Proofs.Meaning.Congruence
import EntityQuery.Proofs.Meaning.Growth
import EntityQuery.Proofs.Meaning.Joining
import EntityQuery.Proofs.Meaning.Naming
import EntityQuery.Proofs.Meaning.Permuted
import EntityQuery.Proofs.Meaning.Reading
import EntityQuery.Proofs.Meaning.Scenes
import EntityQuery.Proofs.Meaning.Scoping
import EntityQuery.Proofs.Planning.Binding
import EntityQuery.Proofs.Planning.BodyRuns
import EntityQuery.Proofs.Planning.Changes
import EntityQuery.Proofs.Planning.Closed
import EntityQuery.Proofs.Planning.Effects
import EntityQuery.Proofs.Planning.Filters
import EntityQuery.Proofs.Planning.Frames
import EntityQuery.Proofs.Planning.Parameters
import EntityQuery.Proofs.Planning.Planned
import EntityQuery.Proofs.Planning.Reordering
import EntityQuery.Proofs.Planning.Runs
import EntityQuery.Proofs.Planning.Transfer
import EntityQuery.Proofs.Records
import EntityQuery.Proofs.Sample
import EntityQuery.Proofs.Statement
import EntityQuery.Proofs.Statement.Grouping
import EntityQuery.Proofs.Store
import EntityQuery.Record
import EntityQuery.Record.Json
import EntityQuery.Result.RowType
import EntityQuery.Result.ValueType
import EntityQuery.Sample
import EntityQuery.Schema
import EntityQuery.Schema.FieldType
import EntityQuery.Schema.Json
import EntityQuery.Settings
import EntityQuery.Settings.Json
import EntityQuery.Shape
import EntityQuery.Store
import EntityQuery.Store.Journal
import EntityQuery.Tables
import EntityQuery.Tables.Aggregate
import EntityQuery.Tables.Apply
import EntityQuery.Tables.Evaluate
import EntityQuery.Tables.Sort
import EntityQuery.Tables.Tuple
import EntityQuery.Text.FloatText
import EntityQuery.Text.Hex
import EntityQuery.Text.Invisible
import EntityQuery.Text.Quoted
import EntityQuery.Text.Shortest
import EntityQuery.Value
import EntityQuery.Value.Inspect
import EntityQuery.Value.Json
import EntityQuery.Value.Order
import EntityQuery.Proofs.Engine.Answers
import EntityQuery.Proofs.Evaluation.Widths
import EntityQuery.Proofs.Engine.Conduct
import EntityQuery.Proofs.Engine.Calls
import EntityQuery.Proofs.Evaluation.Reads
import EntityQuery.Proofs.Changes.Settled
import EntityQuery.Proofs.Evaluation.Filling
import EntityQuery.Proofs.Evaluation.Presence
import EntityQuery.Proofs.Evaluation.NestedCells
import EntityQuery.Proofs.Evaluation.Inlining
import EntityQuery.Proofs.Planning.Parallel
import EntityQuery.Proofs.Planning.Inlining
import EntityQuery.Proofs.Changes.Typing
import EntityQuery.Proofs.Engine.Attributes
import EntityQuery.Proofs.Engine.Sessions
import EntityQuery.Proofs.Engine.Traversal
import EntityQuery.Proofs.Evaluation.Equality
import EntityQuery.Proofs.Evaluation.Duality
import EntityQuery.Proofs.Like
import EntityQuery.Proofs.Evaluation.FloatOrder
import EntityQuery.Proofs.Evaluation.Sorting
import EntityQuery.Proofs.Evaluation.SortOrder
import EntityQuery.Proofs.Evaluation.KeyOrder
import EntityQuery.Proofs.Evaluation.Orderable
import EntityQuery.Proofs.Evaluation.Ordered
import EntityQuery.Proofs.Engine.Ordered
import EntityQuery.Proofs.Evaluation.Membership
import EntityQuery.Proofs.Evaluation.Extremes
import EntityQuery.Proofs.Evaluation.Rearranged
import EntityQuery.Proofs.Evaluation.Sums
import EntityQuery.Proofs.Planning.Opening
import EntityQuery.Proofs.Meaning.Adding
import EntityQuery.Proofs.Meaning.Tested
import EntityQuery.Proofs.Meaning.RelationTests
import EntityQuery.Proofs.Evaluation.Collections
import EntityQuery.Proofs.Engine.Bounded
import EntityQuery.Proofs.Engine.EqualRows
import EntityQuery.Proofs.Planning.Sharing
import EntityQuery.Proofs.Planning.Nested
import EntityQuery.Proofs.Evaluation.Comparisons
import EntityQuery.Proofs.Planning.Comparability
import EntityQuery.Proofs.Planning.Mirroring
import EntityQuery.Proofs.Planning.Renaming
import EntityQuery.Proofs.Planning.Recorded
import EntityQuery.Proofs.Planning.SchemaOrder
import EntityQuery.Proofs.Planning.Guarding
import EntityQuery.Proofs.Planning.Internal
import EntityQuery.Proofs.Json.Changes
