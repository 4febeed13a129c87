import Mathlib.Algebra.BigOperators.Ring.List
import Mathlib.Algebra.Order.Archimedean.Basic
import Mathlib.Algebra.Order.Ring.Rat
import WeightedArgumentation.Proofs.Semantics.Exact

/-!
# Geometric convergence

Let `W` be the largest total weight that attacks one argument and `q = W / (1 + W)`.
A pass need not bring scores closer together: where `W` exceeds 1 it can widen
their differences.  What it narrows is their ratio.  If no score before and after
a pass is less than `1 - r` times the other, then after one pass more none is less
than `1 - r * q` times the other.  The ratio starts at `1 - q`, and no score exceeds 1,
so the change of pass `n` is at most `q ^ n`, whatever attacks whom.
-/

namespace WeightedArgumentation

variable {K : Type*} [Field K] [LinearOrder K]

namespace Graph

/-- The total weight of the existing attackers of an argument. -/
def attackWeight (g : Graph) (weights : WeightTable K) (argument : Argument) : K :=
  ((g.attackers argument).map fun attacker => weights.strength attacker.category).sum

/-- The largest total weight of attackers of one argument; zero without
arguments. -/
def heaviestAttack (g : Graph) (weights : WeightTable K) : K :=
  (g.arguments.map (g.attackWeight weights)).foldl max 0

/-- The factor by which every pass narrows the ratio of successive scores. -/
def narrowing (g : Graph) (weights : WeightTable K) : K :=
  g.heaviestAttack weights / (1 + g.heaviestAttack weights)

variable {g : Graph} {weights : WeightTable K}

theorem heaviestAttack_le_iff {bound : K} :
    g.heaviestAttack weights ≤ bound ↔
      0 ≤ bound ∧ ∀ a ∈ g.arguments, g.attackWeight weights a ≤ bound := by
  have larger : (max : K → K → K) = Scalar.larger := by
    funext x y
    rw [Scalar.larger_eq_max]
  rw [heaviestAttack, larger, Scalar.foldl_larger_le_iff]
  simp

theorem heaviestAttack_nonneg : 0 ≤ g.heaviestAttack weights :=
  (heaviestAttack_le_iff.1 (le_refl (g.heaviestAttack weights))).1

theorem attackWeight_le {a : Argument} (member : a ∈ g.arguments) :
    g.attackWeight weights a ≤ g.heaviestAttack weights :=
  (heaviestAttack_le_iff.1 (le_refl (g.heaviestAttack weights))).2 a member

theorem burden_scaled (factor : K) (scores : Argument → K) (a : Argument) :
    g.burden weights (fun b => factor * scores b) a = factor * g.burden weights scores a := by
  simp only [burden, mul_left_comm _ factor, List.sum_map_mul_left]

variable [IsStrictOrderedRing K]

theorem narrowing_nonneg : 0 ≤ g.narrowing weights := by
  have heaviest : 0 ≤ g.heaviestAttack weights := heaviestAttack_nonneg
  exact div_nonneg heaviest (by linarith)

theorem narrowing_lt_one : g.narrowing weights < 1 := by
  have heaviest : 0 ≤ g.heaviestAttack weights := heaviestAttack_nonneg
  rw [narrowing, div_lt_one (by linarith)]
  linarith

/-- Scores of at most one burden an argument with no more than the weight of its attackers. -/
theorem burden_le_attackWeight {scores : Argument → K} (bounded : ∀ a, scores a ≤ 1)
    (argument : Argument) :
    g.burden weights scores argument ≤ g.attackWeight weights argument := by
  refine List.sum_le_sum fun attacker _ => ?_
  exact mul_le_of_le_one_right (weights.strength_nonneg attacker.category) (bounded attacker)

/-- Scores of at most one weigh no more than the attackers themselves. -/
theorem burden_le_heaviestAttack {scores : Argument → K} (bounded : ∀ a, scores a ≤ 1)
    {a : Argument} (member : a ∈ g.arguments) :
    g.burden weights scores a ≤ g.heaviestAttack weights :=
  (burden_le_attackWeight bounded a).trans (attackWeight_le member)

theorem burden_le_narrowing {burden : K} (bounded : burden ≤ g.heaviestAttack weights) :
    burden ≤ g.narrowing weights * (1 + burden) := by
  have heaviest : 0 ≤ g.heaviestAttack weights := heaviestAttack_nonneg
  rw [narrowing, div_mul_eq_mul_div, le_div_iff₀ (by linarith)]
  linarith

/-- One pass narrows the ratio of two vectors of scores. -/
theorem ratio_pass {former latter : Argument → K} {r : K} (rNonneg : 0 ≤ r)
    (formerNonneg : ∀ a, 0 ≤ former a) (latterNonneg : ∀ a, 0 ≤ latter a)
    (bounded : ∀ a, latter a ≤ 1)
    (ratio : ∀ a ∈ g.arguments, (1 - r) * latter a ≤ former a) {a : Argument}
    (member : a ∈ g.arguments) :
    (1 - r * g.narrowing weights) * (1 / (1 + g.burden weights former a)) ≤
      1 / (1 + g.burden weights latter a) := by
  have formerPos : 0 < 1 + g.burden weights former a :=
    one_add_burden_pos (fun b _ => formerNonneg b) a
  have latterPos : 0 < 1 + g.burden weights latter a :=
    one_add_burden_pos (fun b _ => latterNonneg b) a
  have burdens : (1 - r) * g.burden weights latter a ≤ g.burden weights former a := by
    rw [← burden_scaled]
    exact burden_mono ratio a
  have narrow : r * g.burden weights latter a ≤
      r * (g.narrowing weights * (1 + g.burden weights latter a)) :=
    mul_le_mul_of_nonneg_left
      (burden_le_narrowing (burden_le_heaviestAttack bounded member)) rNonneg
  rw [mul_one_div, div_le_div_iff₀ formerPos latterPos]
  linarith

/-- After a number of passes and after one more, no score is much less than the
other. -/
theorem ratio_scoreAfter (g : Graph) (weights : WeightTable K) (passes : Nat) :
    ∀ a ∈ g.arguments,
      (1 - g.narrowing weights ^ (passes + 1)) * g.scoreAfter weights passes a ≤
          g.scoreAfter weights (passes + 1) a ∧
        (1 - g.narrowing weights ^ (passes + 1)) * g.scoreAfter weights (passes + 1) a ≤
          g.scoreAfter weights passes a := by
  have nonneg (passes : Nat) (a : Argument) : 0 ≤ g.scoreAfter weights passes a :=
    (scoreAfter_pos g weights passes a).le
  have bounded := scoreAfter_le_one g weights
  induction passes with
  | zero =>
      intro a member
      -- the ones are what a pass makes of zeros, which bear no ratio to anything
      have ones : g.scoreAfter weights 0 a = 1 / (1 + g.burden weights (fun _ => 0) a) := by
        simp [scoreAfter, burden]
      rw [zero_add, ← one_mul (g.narrowing weights ^ 1), pow_one, scoreAfter_succ, ones]
      constructor
      · refine ratio_pass zero_le_one (fun _ => le_refl 0) (nonneg 0) (bounded 0) ?_ member
        intro b _
        simp
      · refine ratio_pass zero_le_one (nonneg 0) (fun _ => le_refl 0) (fun _ => zero_le_one) ?_
          member
        intro b _
        simpa using nonneg 0 b
  | succ passes ih =>
      intro a member
      have powNonneg : 0 ≤ g.narrowing weights ^ (passes + 1) := pow_nonneg narrowing_nonneg _
      rw [pow_succ]
      constructor
      · rw [scoreAfter_succ, scoreAfter_succ]
        exact ratio_pass powNonneg (nonneg passes) (nonneg (passes + 1)) (bounded (passes + 1))
          (fun b bMember => (ih b bMember).2) member
      · rw [scoreAfter_succ g weights (passes + 1), scoreAfter_succ g weights passes]
        exact ratio_pass powNonneg (nonneg (passes + 1)) (nonneg passes) (bounded passes)
          (fun b bMember => (ih b bMember).1) member

/-- The changes of the passes fall at least geometrically. -/
theorem changeIn_le_pow (g : Graph) (weights : WeightTable K) (passes : Nat) :
    g.changeIn weights (passes + 1) ≤ g.narrowing weights ^ (passes + 1) := by
  have powNonneg : 0 ≤ g.narrowing weights ^ (passes + 1) := pow_nonneg narrowing_nonneg _
  refine changeIn_le powNonneg fun a member => ?_
  obtain ⟨falling, rising⟩ := ratio_scoreAfter g weights passes a member
  have former : g.narrowing weights ^ (passes + 1) * g.scoreAfter weights passes a ≤
      g.narrowing weights ^ (passes + 1) :=
    mul_le_of_le_one_right powNonneg (scoreAfter_le_one g weights passes a)
  have latter : g.narrowing weights ^ (passes + 1) * g.scoreAfter weights (passes + 1) a ≤
      g.narrowing weights ^ (passes + 1) :=
    mul_le_of_le_one_right powNonneg (scoreAfter_le_one g weights (passes + 1) a)
  rw [abs_le]
  constructor
  · linarith
  · linarith

end Graph

variable [IsStrictOrderedRing K]

/-- The change of pass `n` is at most `q ^ n`, and so is the change reported after
`n` passes.  The passes settle no later than the first power of `q` below the
tolerance if the cap allows for it, so where the powers of `q` come arbitrarily
close to zero they settle for every positive tolerance. -/
theorem settles_geometrically (g : Graph) (weights : WeightTable K) (config : SolverConfig K) :
    (∀ pass, 0 < pass →
      (g.attackMatrix weights).changeIn pass ≤ g.narrowing weights ^ pass) ∧
    (0 < (solve g weights config).convergence.iterations →
      (solve g weights config).convergence.maxDelta ≤
        g.narrowing weights ^ (solve g weights config).convergence.iterations) ∧
    (∀ passes, 0 < passes → g.narrowing weights ^ passes < config.tolerance →
      passes ≤ config.maxIterations →
        (solve g weights config).convergence.converged = true ∧
          (solve g weights config).convergence.iterations ≤ passes) ∧
    (∀ [Archimedean K], 0 < config.tolerance → ∃ passes, ∀ cap, passes ≤ cap →
      (solve g weights { config with maxIterations := cap }).convergence.converged = true ∧
        (solve g weights { config with maxIterations := cap }).convergence.iterations ≤ passes) := by
  have bounded (pass : Nat) (positive : 0 < pass) :
      g.changeIn weights pass ≤ g.narrowing weights ^ pass := by
    obtain ⟨before, rfl⟩ := Nat.exists_eq_succ_of_ne_zero positive.ne'
    exact g.changeIn_le_pow weights before
  have settled (config : SolverConfig K) (passes : Nat) (positive : 0 < passes)
      (small : g.narrowing weights ^ passes < config.tolerance)
      (within : passes ≤ config.maxIterations) :
      (solve g weights config).convergence.converged = true ∧
        (solve g weights config).convergence.iterations ≤ passes := by
    have below := (bounded passes positive).trans_lt small
    exact (g.solve_reports weights config).converged_of_less positive within
      (Scalar.less_eq_true_iff.2 below)
  refine ⟨?_, ?_, settled config, ?_⟩
  · intro pass positive
    rw [g.changeIn_attackMatrix]
    exact bounded pass positive
  · intro ran
    rw [(g.solve_reports weights config).maxDelta]
    exact bounded _ ran
  · intro _ tolerance
    have below : g.narrowing weights < 1 := Graph.narrowing_lt_one
    obtain ⟨power, small⟩ := exists_pow_lt_of_lt_one tolerance below
    have next : g.narrowing weights ^ (power + 1) ≤ g.narrowing weights ^ power :=
      pow_le_pow_of_le_one Graph.narrowing_nonneg below.le (Nat.le_succ power)
    refine ⟨power + 1, fun cap within => ?_⟩
    exact settled { config with maxIterations := cap } (power + 1) (Nat.succ_pos power)
      (next.trans_lt small) within

/-- Two arguments that attack each other with weight 2: every pass reverses the order
of its scores, and `q` is `2 / 3`. -/
theorem settles_geometrically_of_cycle :
    let g : Graph :=
      { categories := .empty
        arguments := [⟨"A", "a", "eco", none, .ofList ["B"], .ofList ["B"]⟩,
          ⟨"B", "b", "eco", none, .ofList ["A"], .ofList ["A"]⟩]
        distinct := by decide }
    let weights : WeightTable ℚ := WeightTable.empty.set "eco" 2
    let config : SolverConfig ℚ := ⟨.hCategorizer, 100, 1 / 5⟩
    (g.attackMatrix weights).changeIn 2 ≤ g.narrowing weights ^ 2 ∧
      (solve g weights config).convergence.maxDelta ≤
        g.narrowing weights ^ (solve g weights config).convergence.iterations ∧
      ((solve g weights config).convergence.converged = true ∧
        (solve g weights config).convergence.iterations ≤ 4) ∧
      ∃ passes, ∀ cap, passes ≤ cap →
        (solve g weights { config with maxIterations := cap }).convergence.converged = true ∧
          (solve g weights { config with maxIterations := cap }).convergence.iterations ≤
            passes := by
  intro g weights config
  have ran : 0 < (solve g weights config).convergence.iterations := by decide +kernel
  have small : g.narrowing weights ^ 4 < config.tolerance := by decide +kernel
  have within : 4 ≤ config.maxIterations := by decide
  have tolerance : 0 < config.tolerance := by decide +kernel
  obtain ⟨changes, reported, settled, eventually⟩ := settles_geometrically g weights config
  exact ⟨changes 2 (by decide), reported ran, settled 4 (by decide) small within,
    eventually tolerance⟩

end WeightedArgumentation
