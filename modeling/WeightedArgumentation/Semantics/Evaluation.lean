import WeightedArgumentation.Semantics.Aggregate
import WeightedArgumentation.Semantics.Solver

/-!
# Evaluating a graph

An evaluation solves a graph and aggregates its scores under one weight table.
-/

namespace WeightedArgumentation

universe u

/-- The scores of a graph, of its categories and as a whole. -/
structure Evaluation (R : Type u) where
  scores : Table R
  categoryMeans : Table R
  finalScore : Option R
  convergence : Convergence R

/-- The part of an evaluation that a document stores for the whole graph. -/
def Evaluation.globalScores {R : Type u} (evaluation : Evaluation R) : GlobalScores R :=
  ⟨evaluation.categoryMeans, evaluation.finalScore⟩

/-- Solves and aggregates a graph. -/
def evaluate {R : Type u} [Scalar R] (g : Graph) (weights : WeightTable R)
    (config : SolverConfig R) : Evaluation R :=
  let solution := solve g weights config
  let global := aggregate g solution.scores weights
  { scores := solution.scores
    categoryMeans := global.categoryScores
    finalScore := global.finalScore
    convergence := solution.convergence }

end WeightedArgumentation
