import WeightedArgumentation.Document.Basic
import WeightedArgumentation.Semantics.Evaluation

/-!
# The service

A service holds a graph, the position of the importance slider, the weight
table of that position, the solver settings and the evaluation of the graph.
Every change to the graph or the slider evaluates the graph again, so the held
evaluation is always that of the held graph under the held weights.  A refused
change leaves the service as it was.
-/

namespace WeightedArgumentation

universe u

/-- A graph with its weights and its evaluation. -/
structure Service (R : Type u) where
  graph : Graph
  slider : Slider R
  weights : WeightTable R
  solver : SolverConfig R
  evaluation : Evaluation R

namespace Service

variable {R : Type u} [Scalar R]

/-- A service over a graph at a slider position. -/
def ofGraph (graph : Graph) (slider : Slider R) (solver : SolverConfig R) : Service R :=
  let weights := WeightTable.ofSlider graph.categories slider
  { graph, slider, weights, solver, evaluation := evaluate graph weights solver }

/-- A service over an empty graph with a balanced slider. -/
def new (categories : CategoryConfig) (solver : SolverConfig R) : Service R :=
  ofGraph (.empty categories) .balanced solver

/-- A service over the graph of a document, with a balanced slider. -/
def ofDocument (document : Document R) (solver : SolverConfig R) :
    Except GraphError (Service R) :=
  document.toGraph.map fun graph => ofGraph graph .balanced solver

/-- The argument with an id. -/
def argument? (service : Service R) (id : String) : Option Argument := service.graph.get? id

/-- The latest score of an argument. -/
def score? (service : Service R) (id : String) : Option R := service.evaluation.scores.get? id

/-- Evaluates the graph again. -/
def recompute (service : Service R) : Service R :=
  { service with evaluation := evaluate service.graph service.weights service.solver }

/-- Takes a changed graph over the same categories and evaluates it. -/
def withGraph (service : Service R) (graph : Graph) : Service R :=
  { service with graph := graph }.recompute

/-- Replaces the graph and its categories by those of a document; the slider
stays. -/
def load (service : Service R) (document : Document R) : Except GraphError (Service R) :=
  document.toGraph.map fun graph =>
    { service with
      graph := graph
      weights := WeightTable.ofSlider graph.categories service.slider }.recompute

/-- Creates an argument. -/
def create (service : Service R) (spec : ArgumentSpec) : Except GraphError (Service R) :=
  (service.graph.create spec).map service.withGraph

/-- Updates an argument. -/
def update (service : Service R) (id : String) (spec : ArgumentSpec) :
    Except GraphError (Service R) :=
  (service.graph.update id spec).map service.withGraph

/-- Removes an argument. -/
def remove (service : Service R) (id : String) : Except GraphError (Service R) :=
  (service.graph.remove id).map fun removed => service.withGraph removed.2

/-- Moves the importance slider and rebuilds the weight table. -/
def setSlider (service : Service R) (value : R) : Service R :=
  let slider := Slider.nearest value
  { service with
    slider := slider
    weights := WeightTable.ofSlider service.graph.categories slider }.recompute

/-- The held graph with its latest scores as a document. -/
def exportDocument (service : Service R) : Document R :=
  .ofGraph service.graph (some service.evaluation.scores) (some service.evaluation.globalScores)

end Service

end WeightedArgumentation
