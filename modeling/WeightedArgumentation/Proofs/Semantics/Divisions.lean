import WeightedArgumentation.Proofs.Scalar.Checked
import WeightedArgumentation.Proofs.Semantics.Means
import WeightedArgumentation.Semantics.Evaluation

/-!
# No division by zero

An evaluation divides in three places: one by one plus the burden of an argument's attackers,
a sum of scores by their number, and a sum of weighted means by the total weight.  No burden is
negative, only categories with members have a tally, and the total weight divides only where it
is not below `epsilon`.  So the arithmetic that notices a division by zero computes what the
exact one does: the scores after every pass, and the evaluation as a whole.
-/

namespace WeightedArgumentation

universe u v

/-! ## The same data in another arithmetic -/

section Map

variable {R : Type u} {S : Type v}

/-- The weights in another arithmetic. -/
def WeightTable.map (f : R → S) (weights : WeightTable R) : WeightTable S :=
  ⟨weights.table.map f⟩

/-- The solver settings in another arithmetic. -/
def SolverConfig.map (f : R → S) (config : SolverConfig R) : SolverConfig S where
  semantics := config.semantics
  maxIterations := config.maxIterations
  tolerance := f config.tolerance

/-- The report of a solver in another arithmetic. -/
def Convergence.map (f : R → S) (convergence : Convergence R) : Convergence S where
  iterations := convergence.iterations
  maxDelta := f convergence.maxDelta
  converged := convergence.converged

/-- The tally in another arithmetic. -/
def Tally.map (f : R → S) (tally : Tally R) : Tally S := ⟨f tally.sum, tally.count⟩

/-- The evaluation in another arithmetic. -/
def Evaluation.map (f : R → S) (evaluation : Evaluation R) : Evaluation S where
  scores := evaluation.scores.map f
  categoryMeans := evaluation.categoryMeans.map f
  finalScore := evaluation.finalScore.map f
  convergence := evaluation.convergence.map f

/-- Changing the values of a table and writing a key go together. -/
theorem Table.set_map (f : R → S) (table : Table R) (key : String) (value : R) :
    (table.map f).set key (f value) = (table.set key value).map f := by
  apply Table.ext
  show Table.put key (f value) (table.rows.map _) = (Table.put key value table.rows).map _
  induction table.rows with
  | nil => rfl
  | cons row rest ih =>
      simp only [List.map_cons, Table.put, ih]
      split <;> rfl

end Map

open Checked (defined)

variable {K : Type u} [Field K] [LinearOrder K]

/-! ## Solving -/

theorem WeightTable.strength_map (weights : WeightTable K) (key : String) :
    (weights.map defined).strength key = defined (weights.strength key) := by
  rw [strength, strength, ← Checked.clampNegative_defined, weight, weight, map, Table.get?_map]
  cases weights.table.get? key <;> rfl

theorem WeightTable.isBalancedOver_map (weights : WeightTable K) (keys : List String) :
    (weights.map defined).isBalancedOver keys = weights.isBalancedOver keys := by
  cases keys with
  | nil => rfl
  | cons first rest =>
      simp only [isBalancedOver, strength_map, Checked.defined_sub, Checked.magnitude_defined]
      rfl

namespace Graph

/-- An argument whose attackers do not weigh less than nothing is scored without a division by
zero. -/
theorem categorize_map {g : Graph} {weights : WeightTable K} {scores : Argument → K}
    {argument : Argument} (positive : 0 < 1 + g.burden weights scores argument) :
    g.categorize (weights.map defined) (fun a => defined (scores a)) argument =
      defined (g.categorize weights scores argument) := by
  have contributions : (g.attackers argument).map (fun attacker =>
      (weights.map defined).strength attacker.category * defined (scores attacker)) =
        ((g.attackers argument).map fun attacker =>
          weights.strength attacker.category * scores attacker).map defined := by
    simp [WeightTable.strength_map]
  rw [categorize, contributions, Checked.total_defined, Checked.one_eq, Checked.defined_add,
    categorize]
  refine Checked.defined_div 1 ?_
  rw [Scalar.total_eq_sum]
  exact positive.ne'

variable [IsStrictOrderedRing K]

theorem scoreAfter_map (g : Graph) (weights : WeightTable K) (passes : Nat) :
    g.scoreAfter (weights.map defined) passes =
      fun argument => defined (g.scoreAfter weights passes argument) := by
  induction passes with
  | zero => rfl
  | succ passes ih =>
      funext argument
      rw [scoreAfter, ih]
      exact categorize_map (one_add_burden_pos
        (fun a _ => (scoreAfter_pos g weights passes a).le) argument)

theorem changeIn_map (g : Graph) (weights : WeightTable K) (pass : Nat) :
    g.changeIn (weights.map defined) pass = defined (g.changeIn weights pass) := by
  cases pass with
  | zero => rfl
  | succ before =>
      rw [changeIn, changeIn, ← Checked.foldl_larger_defined, List.map_map, Checked.zero_eq]
      simp only [scoreAfter_map, Checked.defined_sub, Checked.magnitude_defined]
      rfl

/-- No pass divides by zero. -/
theorem scoresAfter_map (g : Graph) (weights : WeightTable K) (passes : Nat) :
    (g.attackMatrix (weights.map defined)).scoresAfter passes =
      ((g.attackMatrix weights).scoresAfter passes).map defined := by
  rw [scoresAfter_attackMatrix, scoresAfter_attackMatrix, scoreAfter_map]
  apply Vector.ext
  intro position bound
  simp [vector]

/-- A report on changes is a report on the same changes in the other arithmetic. -/
theorem reports_map {g : Graph} {weights : WeightTable K} {config : SolverConfig K}
    {convergence : Convergence K} (reports : convergence.Reports config (g.changeIn weights)) :
    (convergence.map defined).Reports (config.map defined) (g.changeIn (weights.map defined)) where
  maxDelta := by
    rw [changeIn_map]
    exact congrArg defined reports.maxDelta
  within := reports.within
  before pass positive earlier := by
    rw [changeIn_map]
    exact reports.before pass positive earlier
  settled converged := by
    rw [changeIn_map]
    exact reports.settled converged
  capped converged := by
    rw [changeIn_map]
    exact reports.capped converged

theorem convergence_solve_map (g : Graph) (weights : WeightTable K) (config : SolverConfig K) :
    (solve g (weights.map defined) (config.map defined)).convergence =
      (solve g weights config).convergence.map defined :=
  (g.solve_reports (weights.map defined) (config.map defined)).unique
    (reports_map (g.solve_reports weights config))

theorem scores_solve_map (g : Graph) (weights : WeightTable K) (config : SolverConfig K) :
    (solve g (weights.map defined) (config.map defined)).scores =
      (solve g weights config).scores.map defined := by
  apply Table.ext
  show _ = (solve g weights config).scores.rows.map _
  rw [rows_solve, convergence_solve_map, scoreAfter_map, rows_solve, List.map_map]
  rfl

end Graph

/-! ## Aggregating -/

theorem tallies_map (arguments : List Argument) (scores : Table K) :
    tallies arguments (scores.map defined) = (tallies arguments scores).map (Tally.map defined) := by
  induction arguments using List.reverseRecOn with
  | nil => rfl
  | append_singleton arguments argument ih =>
      have score : scoreUnder (scores.map defined) argument =
          defined (scoreUnder scores argument) := by
        rw [scoreUnder, Table.get?_map, scoreUnder]
        cases scores.get? argument.id <;> rfl
      rw [tallies_append, tallies_append, ih, score, Table.get?_map, ← Table.set_map]
      cases (tallies arguments scores).get? argument.category <;> rfl

theorem total_weights_map (weighted : List (K × K)) :
    Scalar.total ((weighted.map fun pair => (defined pair.1, defined pair.2)).map Prod.snd) =
      defined (Scalar.total (weighted.map Prod.snd)) := by
  rw [← Checked.total_defined, List.map_map, List.map_map]
  rfl

theorem weightedMean_map {weighted : List (K × K)}
    (positive : 0 < Scalar.total (weighted.map Prod.snd)) :
    weightedMean (weighted.map fun pair => (defined pair.1, defined pair.2)) =
      defined (weightedMean weighted) := by
  have products : (weighted.map fun pair => (defined pair.1, defined pair.2)).map
      (fun pair => pair.1 * pair.2) =
        (weighted.map fun pair => pair.1 * pair.2).map defined := by
    simp
  rw [weightedMean, products, total_weights_map, Checked.total_defined, weightedMean]
  exact Checked.defined_div _ positive.ne'

variable [IsStrictOrderedRing K]

/-- The mean of some values is taken without a division by zero. -/
theorem Tally.mean_map {tally : Tally K} (filled : tally.count ≠ 0) :
    (tally.map defined).mean = defined tally.mean :=
  Checked.defined_div _ (Nat.cast_ne_zero.2 filled)

theorem means_map (arguments : List Argument) (scores : Table K) :
    (tallies arguments (scores.map defined)).map Tally.mean =
      ((tallies arguments scores).map Tally.mean).map defined := by
  rw [tallies_map]
  apply Table.ext
  simp only [Table.map, List.map_map]
  refine List.map_congr_left fun row member => ?_
  have counted : row.2.count ≠ 0 := by
    have found := Table.get?_eq_some_iff.2 (show (row.1, row.2) ∈ _ from member)
    rw [get?_tallies] at found
    split at found
    next => cases found
    next filled =>
      rw [← Option.some.inj found, Tally.count_ofList]
      simpa using filled
  simp [Tally.mean_map counted]

theorem plainMean_map {values : List K} (nonempty : values ≠ []) :
    plainMean (values.map defined) = defined (plainMean values) := by
  rw [plainMean, Checked.total_defined, List.length_map, plainMean]
  exact Checked.defined_div _ (Nat.cast_ne_zero.2 (by simpa using nonempty))

/-- The final score is taken without a division by zero, in each of its cases. -/
theorem finalScore_map (means : Table K) (weights : WeightTable K) :
    finalScore (means.map defined) (weights.map defined) =
      (finalScore means weights).map defined := by
  have empty : (means.map defined).isEmpty = means.isEmpty := by
    simp [Table.isEmpty, Table.map]
  have values : (means.map defined).values = means.values.map defined := by
    simp [Table.values, Table.map]
  have weighted : (means.map defined).rows.map
      (fun row => (row.2, (weights.map defined).strength row.1)) =
        (means.rows.map fun row => (row.2, weights.strength row.1)).map
          fun pair => (defined pair.1, defined pair.2) := by
    simp [Table.map, WeightTable.strength_map]
  have epsilon : (WeightTable.epsilon : Checked K) = defined WeightTable.epsilon := rfl
  simp only [finalScore, empty, Table.keys_map, WeightTable.isBalancedOver_map, weighted,
    total_weights_map, epsilon, Checked.less_defined, values]
  split
  next => rfl
  next filled =>
    split
    next =>
      have nonempty : means.values ≠ [] := by
        simpa [Table.isEmpty, Table.values] using filled
      rw [plainMean_map nonempty, Option.map_some]
    next unbalanced =>
      simp only [Bool.or_eq_true, not_or, Scalar.less_eq_true_iff, not_lt] at unbalanced
      rw [weightedMean_map (WeightTable.epsilon_pos.trans_le unbalanced.2), Option.map_some]

/-! ## Evaluating -/

/-- An evaluation divides by zero nowhere. -/
theorem evaluate_map (g : Graph) (weights : WeightTable K) (config : SolverConfig K) :
    evaluate g (weights.map defined) (config.map defined) =
      (evaluate g weights config).map defined := by
  rw [evaluate]
  simp only [aggregate, g.scores_solve_map, means_map, finalScore_map, g.convergence_solve_map]
  rfl

end WeightedArgumentation
