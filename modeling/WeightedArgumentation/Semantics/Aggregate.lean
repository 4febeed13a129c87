import WeightedArgumentation.Graph.Basic
import WeightedArgumentation.Weights.Basic

/-!
# Scores of categories and of a whole graph

The score of a category is the mean of its members' scores.  The final score is
the mean of the category scores, weighted by the categories' weights.  When all
categories present weigh the same, or nothing at all, the plain mean is taken.
-/

namespace WeightedArgumentation

universe u

/-- The mean score of each category that has members, and the final score,
which an empty graph does not have. -/
structure GlobalScores (R : Type u) where
  categoryScores : Table R
  finalScore : Option R

/-- A running sum and the number of values in it. -/
structure Tally (R : Type u) where
  sum : R
  count : Nat

variable {R : Type u} [Scalar R]

namespace Tally

/-- The tally of no values. -/
def none : Tally R := ⟨0, 0⟩

/-- The tally with one value more. -/
def add (tally : Tally R) (value : R) : Tally R := ⟨tally.sum + value, tally.count + 1⟩

/-- The mean of the values. -/
def mean (tally : Tally R) : R := tally.sum / (tally.count : R)

end Tally

/-- Adds the score of each argument to the tally of its category. -/
def tallies (arguments : List Argument) (scores : Table R) : Table (Tally R) :=
  arguments.foldl
    (fun tallies argument =>
      let tally := (tallies.get? argument.category).getD .none
      tallies.set argument.category (tally.add ((scores.get? argument.id).getD 0)))
    .empty

/-- The mean of a list of values. -/
def plainMean (values : List R) : R := Scalar.total values / (values.length : R)

/-- The mean of a list of values, each with its weight. -/
def weightedMean (weighted : List (R × R)) : R :=
  Scalar.total (weighted.map fun pair => pair.1 * pair.2) / Scalar.total (weighted.map Prod.snd)

/-- The mean of the category scores under a weight table. -/
def finalScore (means : Table R) (weights : WeightTable R) : Option R :=
  if means.isEmpty then none
  else
    let weighted := means.rows.map fun row => (row.2, weights.strength row.1)
    if weights.isBalancedOver means.keys ||
        Scalar.less (Scalar.total (weighted.map Prod.snd)) WeightTable.epsilon then
      some (plainMean means.values)
    else some (weightedMean weighted)

/-- The category scores and the final score of a graph whose arguments have the
given scores; an argument without one counts as zero. -/
def aggregate (g : Graph) (scores : Table R) (weights : WeightTable R) : GlobalScores R :=
  let means := (tallies g.arguments scores).map Tally.mean
  ⟨means, finalScore means weights⟩

end WeightedArgumentation
