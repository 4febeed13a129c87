import WeightedArgumentation.Json.Decode
import WeightedArgumentation.Semantics.Evaluation

/-!
# Weights, solver settings and evaluations as JSON

How the slider, weight tables, solver settings and evaluations are read from
JSON and written as JSON.
-/

namespace WeightedArgumentation

open Json (Reader Record Value)

/-- A table of numbers as JSON. -/
def Json.ofScores (scores : Table Float) : Value :=
  .object (scores.rows.map fun row => (row.1, .ofFloat row.2))

/-- A number that is left out when there is none. -/
def Json.optionalNumber (name : String) : Option Float → List (String × Value)
  | none => []
  | some x => [(name, .ofFloat x)]

namespace Slider

/-- Reads a slider position; a value outside the range is moved into it. -/
def read : Reader (Slider Float) := fun reading => (Json.real reading).map Slider.nearest

/-- A slider position as JSON. -/
def toJson (slider : Slider Float) : Value := .ofFloat slider.value

end Slider

namespace WeightTable

/-- Reads a weight table; negative weights stay as they are. -/
def read : Reader (WeightTable Float) := fun reading =>
  (Json.tableOf Json.real reading).map WeightTable.mk

/-- A weight table as JSON. -/
def toJson (weights : WeightTable Float) : Value := Json.ofScores weights.table

end WeightTable

namespace GlobalScores

/-- The fields of global scores. -/
def recordFields : Record (GlobalScores Float) :=
  Record.pure GlobalScores.mk
    |>.required "categoryScores" (Json.tableOf Json.real)
    |>.optional "finalScore" (Json.nullable Json.real) none

/-- Reads global scores. -/
def read : Reader (GlobalScores Float) := Json.record "GlobalScores" recordFields

/-- Global scores as JSON; a missing final score is left out. -/
def toJson (scores : GlobalScores Float) : Value :=
  .object (("categoryScores", Json.ofScores scores.categoryScores) ::
    Json.optionalNumber "finalScore" scores.finalScore)

end GlobalScores

namespace GradualSemantics

/-- The name of a semantics. -/
def name : GradualSemantics → String
  | .hCategorizer => "h-categorizer"

/-- Reads a semantics. -/
def read : Reader GradualSemantics := Json.onlyVariant "h-categorizer" .hCategorizer

end GradualSemantics

namespace SolverConfig

/-- The settings that stand for what a text leaves out. -/
def standard : SolverConfig Float := .default

/-- The fields of solver settings; each may be left out. -/
def recordFields : Record (SolverConfig Float) :=
  Record.pure SolverConfig.mk
    |>.optional "semantics" GradualSemantics.read standard.semantics
    |>.optional "max_iterations" Json.count standard.maxIterations
    |>.optional "tolerance" Json.real standard.tolerance

/-- Reads solver settings. -/
def read : Reader (SolverConfig Float) := Json.record "SolverConfig" recordFields

/-- Solver settings as JSON. -/
def toJson (config : SolverConfig Float) : Value :=
  .object [("semantics", .string config.semantics.name),
    ("max_iterations", .ofNat config.maxIterations), ("tolerance", .ofFloat config.tolerance)]

end SolverConfig

namespace Convergence

/-- The fields of a convergence report. -/
def recordFields : Record (Convergence Float) :=
  Record.pure Convergence.mk
    |>.required "iterations" Json.count
    |>.required "maxDelta" Json.real
    |>.required "converged" Json.flag

/-- Reads a convergence report. -/
def read : Reader (Convergence Float) := Json.record "Convergence" recordFields

/-- A convergence report as JSON. -/
def toJson (convergence : Convergence Float) : Value :=
  .object [("iterations", .ofNat convergence.iterations),
    ("maxDelta", .ofFloat convergence.maxDelta), ("converged", .bool convergence.converged)]

end Convergence

namespace Evaluation

/-- The fields of an evaluation. -/
def recordFields : Record (Evaluation Float) :=
  Record.pure Evaluation.mk
    |>.required "scores" (Json.tableOf Json.real)
    |>.required "categoryMeans" (Json.tableOf Json.real)
    |>.optional "finalScore" (Json.nullable Json.real) none
    |>.required "convergence" Convergence.read

/-- Reads an evaluation. -/
def read : Reader (Evaluation Float) := Json.record "Evaluation" recordFields

/-- An evaluation as JSON; a missing final score is left out. -/
def toJson (evaluation : Evaluation Float) : Value :=
  .object ([("scores", Json.ofScores evaluation.scores),
      ("categoryMeans", Json.ofScores evaluation.categoryMeans)] ++
    Json.optionalNumber "finalScore" evaluation.finalScore ++
    [("convergence", evaluation.convergence.toJson)])

end Evaluation

end WeightedArgumentation
