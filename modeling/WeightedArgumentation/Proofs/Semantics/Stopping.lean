import Mathlib.Order.Bounds.Basic
import WeightedArgumentation.Proofs.Graph.Reachable
import WeightedArgumentation.Proofs.Semantics.Passes

/-!
# Where the passes stop

Passes can be run on the graph itself, without positions and vectors
(`Graph.scoreAfter`), for as long as one likes.  The solver stops at the first of them
that changes the scores by less than the tolerance, and otherwise at the cap.  Its answer
is what the passes give there: the scores after that many passes and the change of the
last one.  A cap that was not needed does not matter, so a larger one gives the same
answer.

This holds in every arithmetic, whatever a comparison with the tolerance says; where
nothing is less than it, the cap decides.
-/

namespace WeightedArgumentation

universe u

variable {R : Type u} [Scalar R]

/-- The passes up to the cap whose change is below the tolerance. -/
def SolverConfig.smallPasses (config : SolverConfig R) (changes : Nat → R) : Set Nat :=
  {pass | 1 ≤ pass ∧ pass ≤ config.maxIterations ∧
    Scalar.less (changes pass) config.tolerance = true}

namespace Convergence.Reports

variable {convergence : Convergence R} {config : SolverConfig R} {changes : Nat → R}

/-- Passes that settled stopped at the first small change. -/
theorem isLeast_of_converged (reports : convergence.Reports config changes)
    (converged : convergence.converged = true) :
    IsLeast (config.smallPasses changes) convergence.iterations := by
  obtain ⟨positive, small⟩ := reports.settled converged
  constructor
  · exact ⟨positive, reports.within, small⟩
  · rintro pass ⟨passPositive, within, passSmall⟩
    exact (reports.converged_of_less passPositive within passSmall).2

/-- Passes that did not settle met no small change up to the cap. -/
theorem eq_empty_of_not_converged (reports : convergence.Reports config changes)
    (capped : convergence.converged = false) :
    config.smallPasses changes = ∅ := by
  apply Set.eq_empty_of_forall_notMem
  rintro pass ⟨positive, within, small⟩
  have settled := (reports.converged_of_less positive within small).1
  rw [capped] at settled
  cases settled

/-- A report on passes that settled is one under every larger cap. -/
theorem of_cap_le (reports : convergence.Reports config changes)
    (converged : convergence.converged = true) {cap : Nat} (larger : config.maxIterations ≤ cap) :
    convergence.Reports { config with maxIterations := cap } changes where
  maxDelta := reports.maxDelta
  within := reports.within.trans larger
  before := reports.before
  settled := reports.settled
  capped notConverged := by
    rw [converged] at notConverged
    cases notConverged

end Convergence.Reports

/-- How the passes ended determines the scores. -/
theorem solve_eq_of_convergence_eq {g : Graph} {weights : WeightTable R}
    {config other : SolverConfig R}
    (same : (solve g weights config).convergence = (solve g weights other).convergence) :
    solve g weights config = solve g weights other := by
  refine Solution.ext (Table.ext ?_) same
  rw [g.rows_solve, g.rows_solve, same]

/-- Solving stops at the first pass with a change below the tolerance and has then
converged, or at the cap when there is none up to it and has then not.  It gives every
argument, in order, its score after the passes run, and reports the change of the last of
them, or zero when none was run.  Once it has converged, no larger cap changes anything. -/
theorem solve_stops_at_first_small_pass (g : Graph) (weights : WeightTable R)
    (config : SolverConfig R) :
    let solution := solve g weights config
    let convergence := solution.convergence
    let small := config.smallPasses (g.changeIn weights)
    (convergence.converged = true ∧ IsLeast small convergence.iterations ∨
      convergence.converged = false ∧ small = ∅ ∧
        convergence.iterations = config.maxIterations) ∧
    solution.scores.rows =
      g.arguments.map (fun a => (a.id, g.scoreAfter weights convergence.iterations a)) ∧
    convergence.maxDelta = g.changeIn weights convergence.iterations ∧
    (convergence.iterations = 0 → convergence.maxDelta = 0) ∧
    (convergence.converged = true → ∀ cap, config.maxIterations ≤ cap →
      solve g weights { config with maxIterations := cap } = solution) := by
  intro solution convergence small
  have reports : convergence.Reports config (g.changeIn weights) := g.solve_reports weights config
  refine ⟨?stops, g.rows_solve weights config, reports.maxDelta, ?none, ?larger⟩
  case stops =>
    cases outcome : convergence.converged with
    | true => exact .inl ⟨rfl, reports.isLeast_of_converged outcome⟩
    | false =>
        exact .inr ⟨rfl, reports.eq_empty_of_not_converged outcome, (reports.capped outcome).1⟩
  case none =>
    intro noPass
    rw [reports.maxDelta, noPass]
    rfl
  case larger =>
    intro converged cap larger
    have under := reports.of_cap_le converged larger
    exact solve_eq_of_convergence_eq ((g.solve_reports weights _).unique under)

/-- Two arguments that attack each other, one of them itself as well and from an id that no
argument has, in double precision: the cap of a hundred passes is not needed. -/
theorem solve_stops_at_first_small_pass_of_cycle :
    let g := ((Graph.empty .empty).after (.create ⟨"A", "a", "eco", none, ["A", "B"], ["Z"]⟩)).after
      (.create ⟨"B", "b", "env", none, ["A"], []⟩)
    let weights : WeightTable Float := WeightTable.empty.set "eco" 1.7
    let solution := solve g weights .default
    solution.convergence.iterations = 22 ∧
      IsLeast (SolverConfig.default.smallPasses (g.changeIn weights))
        solution.convergence.iterations ∧
      solve g weights { SolverConfig.default with maxIterations := 1000000 } = solution := by
  intro g weights solution
  have outcome : solution.convergence.converged = true ∧
      solution.convergence.iterations = 22 := by decide +kernel
  obtain ⟨converged, iterations⟩ := outcome
  obtain ⟨stops, _, _, _, larger⟩ := solve_stops_at_first_small_pass g weights .default
  refine ⟨iterations, ?least, larger converged 1000000 (by decide)⟩
  cases stops with
  | inl settled => exact settled.2
  | inr capped =>
      have notConverged : solution.convergence.converged = false := capped.1
      rw [converged] at notConverged
      cases notConverged

end WeightedArgumentation
