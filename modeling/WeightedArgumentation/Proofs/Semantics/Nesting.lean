import Mathlib.Algebra.Order.Group.Pointwise.Interval
import Mathlib.Algebra.Order.Ring.Rat
import Mathlib.Order.Monotone.Basic
import WeightedArgumentation.Proofs.Semantics.Exact
import WeightedArgumentation.Proofs.Semantics.Stopping

/-!
# Passes nest

In exact arithmetic the scores after a pass lie between those of the two passes before:
they start at the ones, which nothing exceeds, and a pass reverses the order.  So the
scores after an even number of passes come down, those after an odd number go up, and
no score ever changes by more than it did in the pass before.

What the solver reports inherits this.  The pass that it does not run any more would
change no score by more than the last one that it ran, and so the scores that it returns
solve the equation of every argument up to the change reported.
-/

namespace WeightedArgumentation

namespace Convergence.Reports

variable {R : Type*} [Scalar R] {convergence other : Convergence R} {config : SolverConfig R}
  {changes : Nat → R}

/-- Under a larger cap no fewer passes are run. -/
theorem iterations_le_of_cap_le {cap : Nat} (reports : convergence.Reports config changes)
    (capReports : other.Reports { config with maxIterations := cap } changes)
    (larger : config.maxIterations ≤ cap) : convergence.iterations ≤ other.iterations := by
  by_contra fewer
  have earlier : other.iterations < convergence.iterations := Nat.lt_of_not_le fewer
  cases outcome : other.converged with
  | true =>
      obtain ⟨positive, small⟩ := capReports.settled outcome
      have large := reports.before other.iterations positive earlier
      rw [small] at large
      cases large
  | false =>
      have atCap : other.iterations = cap := (capReports.capped outcome).1
      have beyond : cap < cap := calc
        cap = other.iterations := atCap.symm
        _ < convergence.iterations := earlier
        _ ≤ config.maxIterations := reports.within
        _ ≤ cap := larger
      exact absurd beyond (Nat.lt_irrefl cap)

end Convergence.Reports

variable {K : Type*} [Field K] [LinearOrder K]

namespace Graph

variable {g : Graph} {weights : WeightTable K}

theorem burden_congr {scores others : Argument → K}
    (agree : ∀ a ∈ g.arguments, scores a = others a) (argument : Argument) :
    g.burden weights scores argument = g.burden weights others argument := by
  have contributions : (g.attackers argument).map
      (fun attacker => weights.strength attacker.category * scores attacker) =
        (g.attackers argument).map
          fun attacker => weights.strength attacker.category * others attacker := by
    apply List.map_congr_left
    intro attacker member
    rw [agree attacker (mem_arguments_of_mem_attackers member)]
  rw [burden, contributions, burden]

/-! ## Between two passes -/

/-- After two passes more the scores are lower, but not as low as after one. -/
def Falls (g : Graph) (weights : WeightTable K) (passes : Nat) : Prop :=
  ∀ a, g.scoreAfter weights (passes + 1) a ≤ g.scoreAfter weights (passes + 2) a ∧
    g.scoreAfter weights (passes + 2) a ≤ g.scoreAfter weights passes a

/-- After two passes more the scores are higher, but not as high as after one. -/
def Rises (g : Graph) (weights : WeightTable K) (passes : Nat) : Prop :=
  ∀ a, g.scoreAfter weights passes a ≤ g.scoreAfter weights (passes + 2) a ∧
    g.scoreAfter weights (passes + 2) a ≤ g.scoreAfter weights (passes + 1) a

section Order

variable [IsStrictOrderedRing K]

/-- A pass reverses the order of the scores that two numbers of passes give. -/
theorem scoreAfter_succ_le {lower upper : Nat}
    (below : ∀ a, g.scoreAfter weights lower a ≤ g.scoreAfter weights upper a) (a : Argument) :
    g.scoreAfter weights (upper + 1) a ≤ g.scoreAfter weights (lower + 1) a := by
  rw [scoreAfter_succ, scoreAfter_succ]
  apply pass_antitone
  · intro b _
    exact (scoreAfter_pos g weights lower b).le
  · intro b _
    exact below b

theorem falls_zero (g : Graph) (weights : WeightTable K) : g.Falls weights 0 := by
  have below (passes : Nat) (a : Argument) :
      g.scoreAfter weights passes a ≤ g.scoreAfter weights 0 a :=
    scoreAfter_le_one g weights passes a
  intro a
  constructor
  · exact scoreAfter_succ_le (below 1) a
  · exact below 2 a

theorem Falls.succ {passes : Nat} (falls : g.Falls weights passes) :
    g.Rises weights (passes + 1) := by
  intro a
  constructor
  · exact scoreAfter_succ_le (fun b => (falls b).2) a
  · exact scoreAfter_succ_le (fun b => (falls b).1) a

theorem Rises.succ {passes : Nat} (rises : g.Rises weights passes) :
    g.Falls weights (passes + 1) := by
  intro a
  constructor
  · exact scoreAfter_succ_le (fun b => (rises b).2) a
  · exact scoreAfter_succ_le (fun b => (rises b).1) a

theorem falls_even (g : Graph) (weights : WeightTable K) (k : Nat) :
    g.Falls weights (2 * k) := by
  induction k with
  | zero => exact falls_zero g weights
  | succ k ih => exact ih.succ.succ

theorem rises_odd (g : Graph) (weights : WeightTable K) (k : Nat) :
    g.Rises weights (2 * k + 1) :=
  (falls_even g weights k).succ

/-- Every pass leads to scores between those of the two passes before. -/
theorem falls_or_rises (g : Graph) (weights : WeightTable K) (passes : Nat) :
    g.Falls weights passes ∨ g.Rises weights passes := by
  induction passes with
  | zero => exact .inl (falls_zero g weights)
  | succ passes ih =>
      cases ih with
      | inl falls => exact .inr falls.succ
      | inr rises => exact .inl rises.succ

/-- No score changes by more than it did in the pass before. -/
theorem abs_change_succ_le (g : Graph) (weights : WeightTable K) (passes : Nat) (a : Argument) :
    |g.scoreAfter weights (passes + 2) a - g.scoreAfter weights (passes + 1) a| ≤
      |g.scoreAfter weights (passes + 1) a - g.scoreAfter weights passes a| := by
  have between : g.scoreAfter weights (passes + 2) a ∈
      Set.uIcc (g.scoreAfter weights passes a) (g.scoreAfter weights (passes + 1) a) := by
    cases falls_or_rises g weights passes with
    | inl falls => exact Set.mem_uIcc_of_ge (falls a).1 (falls a).2
    | inr rises => exact Set.mem_uIcc_of_le (rises a).1 (rises a).2
  rw [abs_sub_comm]
  exact Set.abs_sub_right_of_mem_uIcc between

theorem changeIn_succ_le (g : Graph) (weights : WeightTable K) (passes : Nat) :
    g.changeIn weights (passes + 2) ≤ g.changeIn weights (passes + 1) := by
  have nonneg : 0 ≤ g.changeIn weights (passes + 1) :=
    (Scalar.foldl_larger_le_iff.1 (le_refl (g.changeIn weights (passes + 1)))).1
  apply changeIn_le nonneg
  intro a member
  exact (abs_change_succ_le g weights passes a).trans (g.abs_sub_le_changeIn weights passes member)

/-- From the first pass on the largest change never grows. -/
theorem changeIn_antitone (g : Graph) (weights : WeightTable K) :
    Antitone fun passes => g.changeIn weights (passes + 1) :=
  antitone_nat_of_succ_le (changeIn_succ_le g weights)

theorem changeIn_le_of_le {earlier later : Nat} (positive : 0 < earlier) (order : earlier ≤ later) :
    g.changeIn weights later ≤ g.changeIn weights earlier := by
  obtain ⟨before, rfl⟩ := Nat.exists_eq_succ_of_ne_zero positive.ne'
  obtain ⟨passes, rfl⟩ := Nat.exists_eq_succ_of_ne_zero (positive.trans_le order).ne'
  exact changeIn_antitone g weights (Nat.le_of_succ_le_succ order)

end Order

end Graph

/-! ## What the solver returns -/

/-- The score that a solution gives an argument, zero when it gives it none. -/
def Solution.scoreOf (solution : Solution K) (argument : Argument) : K :=
  (solution.scores.get? argument.id).getD 0

variable {g : Graph} {weights : WeightTable K}

/-- The equation of an argument asks for the score that one pass more would give it. -/
theorem Graph.pass_solve (weights : WeightTable K) (config : SolverConfig K) (a : Argument) :
    1 / (1 + g.burden weights (solve g weights config).scoreOf a) =
      g.scoreAfter weights ((solve g weights config).convergence.iterations + 1) a := by
  have returned : ∀ b ∈ g.arguments, (solve g weights config).scoreOf b =
      g.scoreAfter weights (solve g weights config).convergence.iterations b := by
    intro b member
    rw [Solution.scoreOf, get?_solve weights config member, Option.getD_some]
  rw [Graph.scoreAfter_succ, Graph.burden_congr returned]

variable [IsStrictOrderedRing K]

/-- Once a pass has run, the scores returned solve the equation of every argument up to the
change reported. -/
theorem Graph.residual_le_maxDelta {config : SolverConfig K}
    (ran : 0 < (solve g weights config).convergence.iterations) {a : Argument}
    (member : a ∈ g.arguments) :
    |1 / (1 + g.burden weights (solve g weights config).scoreOf a) -
        g.scoreAfter weights (solve g weights config).convergence.iterations a| ≤
      (solve g weights config).convergence.maxDelta := by
  rw [Graph.pass_solve, (g.solve_reports weights config).maxDelta]
  obtain ⟨passes, count⟩ := Nat.exists_eq_succ_of_ne_zero ran.ne'
  rw [count]
  exact (g.abs_change_succ_le weights passes a).trans (g.abs_sub_le_changeIn weights passes member)

/-- Of the vectors `s k` that `k` passes give, those of odd `k` go up, those of even `k` come
down, and the former stay below the latter; so no score changes by more than in the pass
before.  Among runs of at least one pass a larger cap never leads to a larger change reported,
and the scores returned solve the equation of every argument up to that change, which is below
the tolerance when the passes have converged. -/
theorem passes_nest (g : Graph) (weights : WeightTable K) :
    let s := (g.attackMatrix weights).scoresAfter
    (∀ i, Monotone (fun k => (s (2 * k + 1)).get i) ∧ Antitone (fun k => (s (2 * k)).get i) ∧
      ∀ k, (s (2 * k + 1)).get i ≤ (s (2 * k)).get i) ∧
    (∀ i k, |(s (k + 2)).get i - (s (k + 1)).get i| ≤ |(s (k + 1)).get i - (s k).get i|) ∧
    ∀ config : SolverConfig K,
      let solution := solve g weights config
      (0 < solution.convergence.iterations →
        (∀ cap, config.maxIterations ≤ cap →
          (solve g weights { config with maxIterations := cap }).convergence.maxDelta ≤
            solution.convergence.maxDelta) ∧
        ∀ a ∈ g.arguments, ∃ score, solution.scores.get? a.id = some score ∧
          |1 / (1 + g.burden weights solution.scoreOf a) - score| ≤
            solution.convergence.maxDelta) ∧
      (solution.convergence.converged = true →
        0 < solution.convergence.iterations ∧
          solution.convergence.maxDelta < config.tolerance) := by
  intro s
  have entry (k : Nat) (i : Fin g.size) :
      (s k).get i = g.scoreAfter weights k (g.arguments.get i) := by
    simp [s, g.scoresAfter_attackMatrix, Graph.vector, Vector.get]
  refine ⟨fun i => ⟨?odd, ?even, ?below⟩, ?changes, fun config => ⟨?ran, ?converged⟩⟩
  case odd =>
    apply monotone_nat_of_le_succ
    intro k
    rw [entry, entry]
    exact (g.rises_odd weights k _).1
  case even =>
    apply antitone_nat_of_succ_le
    intro k
    rw [entry, entry]
    exact (g.falls_even weights k _).2
  case below =>
    intro k
    rw [entry, entry]
    exact (g.falls_even weights k _).1.trans (g.falls_even weights k _).2
  case changes =>
    intro i k
    rw [entry, entry, entry]
    exact g.abs_change_succ_le weights k _
  case ran =>
    intro ran
    have reports := g.solve_reports weights config
    constructor
    · intro cap larger
      have capReports := g.solve_reports weights { config with maxIterations := cap }
      rw [reports.maxDelta, capReports.maxDelta]
      exact Graph.changeIn_le_of_le ran (reports.iterations_le_of_cap_le capReports larger)
    · intro a member
      exact ⟨_, get?_solve weights config member, Graph.residual_le_maxDelta ran member⟩
  case converged =>
    intro converged
    have reports := g.solve_reports weights config
    obtain ⟨ran, small⟩ := reports.settled converged
    rw [← reports.maxDelta, Scalar.less_eq_true_iff] at small
    exact ⟨ran, small⟩

/-- Two arguments that attack each other, one of them itself as well and from an id that no
argument has.  Three passes end at the cap, and seven converge. -/
theorem passes_nest_of_cycle :
    let g : Graph :=
      { categories := .empty
        arguments := [⟨"A", "a", "eco", none, .ofList ["A", "B"], .ofList ["A", "B", "Z"]⟩,
          ⟨"B", "b", "env", none, .ofList ["A"], .ofList ["A"]⟩]
        distinct := by decide }
    let weights : WeightTable ℚ := WeightTable.empty.set "eco" (3 / 2)
    let config : SolverConfig ℚ := ⟨.hCategorizer, 3, 1 / 10⟩
    let capped := solve g weights config
    let settled := solve g weights { config with maxIterations := 100 }
    let s := (g.attackMatrix weights).scoresAfter
    (∀ i, Monotone (fun k => (s (2 * k + 1)).get i) ∧ Antitone (fun k => (s (2 * k)).get i) ∧
      ∀ k, (s (2 * k + 1)).get i ≤ (s (2 * k)).get i) ∧
    capped.convergence.converged = false ∧
    settled.convergence.maxDelta ≤ capped.convergence.maxDelta ∧
    (∀ a ∈ g.arguments, ∃ score, settled.scores.get? a.id = some score ∧
      |1 / (1 + g.burden weights settled.scoreOf a) - score| ≤ settled.convergence.maxDelta) ∧
    settled.convergence.maxDelta < 1 / 10 := by
  intro g weights config capped settled s
  obtain ⟨nested, _, reported⟩ := passes_nest g weights
  have ran : 0 < capped.convergence.iterations := by decide +kernel
  have converged : settled.convergence.converged = true := by decide +kernel
  obtain ⟨settledRan, small⟩ := (reported { config with maxIterations := 100 }).2 converged
  exact ⟨nested, by decide +kernel, ((reported config).1 ran).1 100 (by decide),
    ((reported { config with maxIterations := 100 }).1 settledRan).2, small⟩

end WeightedArgumentation
