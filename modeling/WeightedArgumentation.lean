import WeightedArgumentation.Http.Api
import WeightedArgumentation.Main
import WeightedArgumentation.Proofs.Graph.Store
import WeightedArgumentation.Proofs.Semantics.Convergence
import WeightedArgumentation.Proofs.Semantics.ErrorBound
import WeightedArgumentation.Proofs.Graph.Load
import WeightedArgumentation.Proofs.Graph.WellFormed
import WeightedArgumentation.Proofs.Document.RoundTrip
import WeightedArgumentation.Proofs.Scalar.Double
import WeightedArgumentation.Proofs.Semantics.InsertionOrder
import WeightedArgumentation.Proofs.Service.Consistent
import WeightedArgumentation.Proofs.Semantics.Stopping
import WeightedArgumentation.Proofs.Semantics.Acyclic
import WeightedArgumentation.Proofs.Http.Session
import WeightedArgumentation.Proofs.Graph.NextId
import WeightedArgumentation.Proofs.Http.SuggestedId
import WeightedArgumentation.Proofs.Semantics.Means
import WeightedArgumentation.Proofs.Scalar.Checked
import WeightedArgumentation.Proofs.Semantics.Divisions
import WeightedArgumentation.Proofs.Semantics.Bounds
import WeightedArgumentation.Proofs.Decimal.Shortest
import WeightedArgumentation.Proofs.Decimal.Layout
import WeightedArgumentation.Proofs.Json.Token
import WeightedArgumentation.Proofs.Json.Written
import WeightedArgumentation.Proofs.Json.Typed
import WeightedArgumentation.Proofs.Json.Number
import WeightedArgumentation.Proofs.Json.Members
import WeightedArgumentation.Proofs.Document.Codec
import WeightedArgumentation.Proofs.Scalar.Rounding
import WeightedArgumentation.Proofs.Scalar.Arithmetic
import WeightedArgumentation.Proofs.Semantics.FiniteMeans
import WeightedArgumentation.Proofs.Semantics.Influence
import WeightedArgumentation.Proofs.Semantics.Structure
import WeightedArgumentation.Proofs.Weights.Moderate
import WeightedArgumentation.Proofs.Service.Exported
import WeightedArgumentation.Proofs.Http.Restore
import WeightedArgumentation.Proofs.CommandLine.Agreement
import WeightedArgumentation.Proofs.CommandLine.Export
import WeightedArgumentation.Proofs.Semantics.Nesting
import WeightedArgumentation.Proofs.Service.SliderMoves
import WeightedArgumentation.Proofs.Http.Percent
import WeightedArgumentation.Proofs.Http.Addressing
import WeightedArgumentation.Proofs.Http.Views
import WeightedArgumentation.Proofs.Graph.Restating
import WeightedArgumentation.Proofs.Graph.LoadOrder
import WeightedArgumentation.Proofs.Semantics.Weightless
import WeightedArgumentation.Proofs.Weights.SliderTable
import WeightedArgumentation.Proofs.Semantics.Shortcuts
import WeightedArgumentation.Proofs.Graph.Successive
import WeightedArgumentation.Proofs.Graph.Interleaving
import WeightedArgumentation.Proofs.Semantics.AggregateOrder
import WeightedArgumentation.Proofs.Semantics.Headcount
import WeightedArgumentation.Proofs.Semantics.Renaming
import WeightedArgumentation.Proofs.Semantics.Mirror
import WeightedArgumentation.Proofs.Document.Acceptance
import WeightedArgumentation.Proofs.Http.Statuses
import WeightedArgumentation.Proofs.Category.TwoTables
import WeightedArgumentation.Proofs.Graph.Normalizing
