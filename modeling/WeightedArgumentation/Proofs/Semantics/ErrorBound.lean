import Mathlib.Algebra.Order.Group.Pointwise.Interval
import Mathlib.Algebra.Order.Ring.Rat
import WeightedArgumentation.Proofs.Semantics.Exact

/-!
# The last change bounds the error

Scores that solve the equations `x = 1 / (1 + s)` lie between the scores after
any number of passes and those after one pass more: they start below the ones,
and every pass reverses the order.  So no score is further from the solution than
it moved in the last pass, and the change that the solver reports is a bound on
its error, whether the passes settled or ran into their cap.
-/

namespace WeightedArgumentation.Graph

variable {K : Type*} [Field K] [LinearOrder K]

/-- Scores that solve the equation of every argument of a graph. -/
def IsFixedPoint (g : Graph) (weights : WeightTable K) (x : Argument → K) : Prop :=
  ∀ a ∈ g.arguments, x a = 1 / (1 + g.burden weights x a)

variable [IsStrictOrderedRing K] {g : Graph} {weights : WeightTable K} {x : Argument → K}

/-- A pass carries scores above a solution to scores below it. -/
theorem IsFixedPoint.pass_le (fixed : g.IsFixedPoint weights x)
    (nonneg : ∀ a ∈ g.arguments, 0 ≤ x a) {passes : Nat}
    (above : ∀ a ∈ g.arguments, x a ≤ g.scoreAfter weights passes a) :
    ∀ a ∈ g.arguments, g.scoreAfter weights (passes + 1) a ≤ x a := by
  intro a member
  rw [scoreAfter_succ, fixed a member]
  exact pass_antitone nonneg above a

theorem IsFixedPoint.le_pass (fixed : g.IsFixedPoint weights x) {passes : Nat}
    (below : ∀ a ∈ g.arguments, g.scoreAfter weights passes a ≤ x a) :
    ∀ a ∈ g.arguments, x a ≤ g.scoreAfter weights (passes + 1) a := by
  intro a member
  rw [scoreAfter_succ, fixed a member]
  exact pass_antitone (fun b _ => (scoreAfter_pos g weights passes b).le) below a

theorem IsFixedPoint.le_one (fixed : g.IsFixedPoint weights x)
    (nonneg : ∀ a ∈ g.arguments, 0 ≤ x a) : ∀ a ∈ g.arguments, x a ≤ 1 := by
  intro a member
  have burden : 0 ≤ g.burden weights x a := burden_nonneg nonneg a
  rw [fixed a member, div_le_one (one_add_burden_pos nonneg a)]
  linarith

/-- A solution lies between the scores before a pass and the scores after it. -/
theorem IsFixedPoint.between (fixed : g.IsFixedPoint weights x)
    (nonneg : ∀ a ∈ g.arguments, 0 ≤ x a) (passes : Nat) :
    (∀ a ∈ g.arguments, g.scoreAfter weights (passes + 1) a ≤ x a ∧
        x a ≤ g.scoreAfter weights passes a) ∨
      (∀ a ∈ g.arguments, g.scoreAfter weights passes a ≤ x a ∧
        x a ≤ g.scoreAfter weights (passes + 1) a) := by
  -- the side on which the scores lie changes with every pass
  induction passes with
  | zero =>
      have above : ∀ a ∈ g.arguments, x a ≤ g.scoreAfter weights 0 a := fixed.le_one nonneg
      have below := fixed.pass_le nonneg above
      exact .inl fun a member => ⟨below a member, above a member⟩
  | succ passes ih =>
      rcases ih with falling | rising
      · have below : ∀ a ∈ g.arguments, g.scoreAfter weights (passes + 1) a ≤ x a :=
          fun a member => (falling a member).1
        have above := fixed.le_pass below
        exact .inr fun a member => ⟨below a member, above a member⟩
      · have above : ∀ a ∈ g.arguments, x a ≤ g.scoreAfter weights (passes + 1) a :=
          fun a member => (rising a member).2
        have below := fixed.pass_le nonneg above
        exact .inl fun a member => ⟨below a member, above a member⟩

/-- No score is further from a solution than it moved in the last pass. -/
theorem IsFixedPoint.abs_sub_le (fixed : g.IsFixedPoint weights x)
    (nonneg : ∀ a ∈ g.arguments, 0 ≤ x a) (passes : Nat) {a : Argument}
    (member : a ∈ g.arguments) :
    |g.scoreAfter weights (passes + 1) a - x a| ≤
      |g.scoreAfter weights (passes + 1) a - g.scoreAfter weights passes a| := by
  have enclosed : x a ∈
      Set.uIcc (g.scoreAfter weights (passes + 1) a) (g.scoreAfter weights passes a) := by
    rcases fixed.between nonneg passes with falling | rising
    · exact Set.mem_uIcc_of_le (falling a member).1 (falling a member).2
    · exact Set.mem_uIcc_of_ge (rising a member).1 (rising a member).2
  rw [abs_sub_comm, abs_sub_comm _ (g.scoreAfter weights passes a)]
  exact Set.abs_sub_left_of_mem_uIcc enclosed

end WeightedArgumentation.Graph

namespace WeightedArgumentation

variable {K : Type*} [Field K] [LinearOrder K] [IsStrictOrderedRing K]

/-- Once a pass has run, every score differs from a solution of the equations by at
most the change reported; once the passes settled, by less than the tolerance. -/
theorem abs_score_sub_le_maxDelta (g : Graph) (weights : WeightTable K) (config : SolverConfig K)
    (x : Argument → K) (nonneg : ∀ a ∈ g.arguments, 0 ≤ x a)
    (fixed : g.IsFixedPoint weights x) :
    (0 < (solve g weights config).convergence.iterations →
      ∀ a ∈ g.arguments, ∃ score, (solve g weights config).scores.get? a.id = some score ∧
        |score - x a| ≤ (solve g weights config).convergence.maxDelta) ∧
    ((solve g weights config).convergence.converged = true →
      ∀ a ∈ g.arguments, ∃ score, (solve g weights config).scores.get? a.id = some score ∧
        |score - x a| < config.tolerance) := by
  have reports := g.solve_reports weights config
  have bounded : 0 < (solve g weights config).convergence.iterations → ∀ a ∈ g.arguments,
      |g.scoreAfter weights (solve g weights config).convergence.iterations a - x a| ≤
        (solve g weights config).convergence.maxDelta := by
    intro ran a member
    rw [reports.maxDelta]
    obtain ⟨passes, count⟩ := Nat.exists_eq_succ_of_ne_zero ran.ne'
    rw [count]
    exact (fixed.abs_sub_le nonneg passes member).trans (g.abs_sub_le_changeIn weights passes member)
  constructor
  · intro ran a member
    exact ⟨_, get?_solve weights config member, bounded ran a member⟩
  · intro converged a member
    obtain ⟨ran, small⟩ := reports.settled converged
    rw [← reports.maxDelta, Scalar.less_eq_true_iff] at small
    exact ⟨_, get?_solve weights config member, (bounded ran a member).trans_lt small⟩

/-- A self-attack of weight 2 and an attack from an id that no argument has: both
equations are solved by `1 / 2`, and the third pass changes the scores from `3 / 5`
to `5 / 11`. -/
theorem abs_score_sub_le_maxDelta_of_selfAttack :
    let g : Graph :=
      { categories := .empty
        arguments := [⟨"A", "a", "eco", none, .ofList ["A", "B"], .ofList ["A"]⟩,
          ⟨"B", "b", "env", none, .empty, .ofList ["A", "Z"]⟩]
        distinct := by decide }
    let weights : WeightTable ℚ := WeightTable.empty.set "eco" 2
    let config : SolverConfig ℚ := ⟨.hCategorizer, 100, 1 / 5⟩
    (∀ a ∈ g.arguments, ∃ score, (solve g weights config).scores.get? a.id = some score ∧
      |score - 1 / 2| ≤ (solve g weights config).convergence.maxDelta) ∧
    ∀ a ∈ g.arguments, ∃ score, (solve g weights config).scores.get? a.id = some score ∧
      |score - 1 / 2| < 1 / 5 := by
  intro g weights config
  have nonneg : ∀ a ∈ g.arguments, (0 : ℚ) ≤ (fun _ : Argument => (1 / 2 : ℚ)) a := by
    decide +kernel
  have fixed : g.IsFixedPoint weights fun _ => 1 / 2 := by
    unfold Graph.IsFixedPoint
    decide +kernel
  have ran : 0 < (solve g weights config).convergence.iterations := by decide +kernel
  have converged : (solve g weights config).convergence.converged = true := by decide +kernel
  have bounds := abs_score_sub_le_maxDelta g weights config _ nonneg fixed
  exact ⟨bounds.1 ran, bounds.2 converged⟩

end WeightedArgumentation
