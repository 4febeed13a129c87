import WeightedArgumentation.Semantics.Solver

/-!
# Passes over a graph

What a pass does, said on the graph itself: the scores after no pass are ones,
and the score of an argument after a further pass is computed from the scores
that its existing attackers had before.  The solver works on positions and
vectors, and finds the attackers of a position among the attacks that were added
one by one (`attackMatrix_eq`).  Here its vectors are shown to hold these scores,
its changes to be the largest change of one argument, and its report to name the
first pass whose change falls below the tolerance, or the cap.

Nothing here depends on laws of arithmetic.
-/

namespace WeightedArgumentation

universe u

theorem Solution.ext {R : Type u} {solution other : Solution R}
    (scores : solution.scores = other.scores)
    (convergence : solution.convergence = other.convergence) : solution = other := by
  cases solution
  cases other
  simp_all

variable {R : Type u} [Scalar R]

/-! ## On the graph -/

namespace Graph

/-- The existing attackers of an argument, in descending order of their ids. -/
def attackers (g : Graph) (argument : Argument) : List Argument :=
  argument.attackedBy.toList.reverse.filterMap g.get?

/-- The score of an argument whose attackers have the given scores. -/
def categorize (g : Graph) (weights : WeightTable R) (scores : Argument → R)
    (argument : Argument) : R :=
  1 / (1 + Scalar.total ((g.attackers argument).map fun attacker =>
    weights.strength attacker.category * scores attacker))

/-- The score of an argument after a number of passes. -/
def scoreAfter (g : Graph) (weights : WeightTable R) : (passes : Nat) → Argument → R
  | 0, _ => 1
  | passes + 1, argument => g.categorize weights (g.scoreAfter weights passes) argument

/-- The largest change of a score in a pass, counted from 1. -/
def changeIn (g : Graph) (weights : WeightTable R) : (pass : Nat) → R
  | 0 => 0
  | before + 1 =>
      (g.arguments.map fun argument => Scalar.magnitude
        (g.scoreAfter weights (before + 1) argument -
          g.scoreAfter weights before argument)).foldl Scalar.larger 0

/-- The ids with their scores after a number of passes, in the order of the arguments. -/
def rowsAfter (g : Graph) (weights : WeightTable R) (passes : Nat) : List (String × R) :=
  g.arguments.map fun argument => (argument.id, g.scoreAfter weights passes argument)

end Graph

/-! ## What a report says -/

/-- A report on passes that change the scores by `changes`: it names the first
pass with a change below the tolerance, or the cap when no pass up to the cap has
one, and the change in that pass. -/
structure Convergence.Reports (convergence : Convergence R) (config : SolverConfig R)
    (changes : Nat → R) : Prop where
  maxDelta : convergence.maxDelta = changes convergence.iterations
  within : convergence.iterations ≤ config.maxIterations
  before : ∀ pass, 0 < pass → pass < convergence.iterations →
    Scalar.less (changes pass) config.tolerance = false
  settled : convergence.converged = true →
    0 < convergence.iterations ∧
      Scalar.less (changes convergence.iterations) config.tolerance = true
  capped : convergence.converged = false →
    convergence.iterations = config.maxIterations ∧
      (0 < convergence.iterations →
        Scalar.less (changes convergence.iterations) config.tolerance = false)

namespace Convergence.Reports

variable {convergence : Convergence R} {config : SolverConfig R} {changes : Nat → R}

/-- A pass within the cap that changes the scores by less than the tolerance ends
the passes. -/
theorem converged_of_less (reports : convergence.Reports config changes) {pass : Nat}
    (positive : 0 < pass) (within : pass ≤ config.maxIterations)
    (small : Scalar.less (changes pass) config.tolerance = true) :
    convergence.converged = true ∧ convergence.iterations ≤ pass := by
  have noLater : convergence.iterations ≤ pass := by
    rcases Nat.lt_or_ge pass convergence.iterations with earlier | later
    · have := reports.before pass positive earlier
      rw [small] at this
      cases this
    · exact later
  refine ⟨?_, noLater⟩
  cases outcome : convergence.converged with
  | true => rfl
  | false =>
      obtain ⟨atCap, large⟩ := reports.capped outcome
      have last : pass = convergence.iterations := by omega
      subst last
      rw [large positive] at small
      cases small

/-- Of two reports on the same passes neither names fewer passes. -/
theorem not_iterations_lt {other : Convergence R} (reports : convergence.Reports config changes)
    (otherReports : other.Reports config changes) :
    ¬ convergence.iterations < other.iterations := by
  intro earlier
  cases outcome : convergence.converged with
  | true =>
      obtain ⟨positive, small⟩ := reports.settled outcome
      have large := otherReports.before _ positive earlier
      rw [small] at large
      cases large
  | false =>
      have atCap := (reports.capped outcome).1
      have within := otherReports.within
      omega

/-- There is one report on given passes. -/
theorem unique {other : Convergence R} (reports : convergence.Reports config changes)
    (otherReports : other.Reports config changes) : convergence = other := by
  have iterations : convergence.iterations = other.iterations :=
    Nat.le_antisymm (Nat.not_lt.1 (otherReports.not_iterations_lt reports))
      (Nat.not_lt.1 (reports.not_iterations_lt otherReports))
  have maxDelta : convergence.maxDelta = other.maxDelta := by
    rw [reports.maxDelta, otherReports.maxDelta, iterations]
  have settles {left right : Convergence R} (leftReports : left.Reports config changes)
      (rightReports : right.Reports config changes) (same : left.iterations = right.iterations)
      (converged : left.converged = true) : right.converged = true := by
    obtain ⟨positive, small⟩ := leftReports.settled converged
    rw [same] at positive small
    exact (rightReports.converged_of_less positive rightReports.within small).1
  have converged : convergence.converged = other.converged :=
    Bool.eq_iff_iff.2 ⟨settles reports otherReports iterations,
      settles otherReports reports iterations.symm⟩
  cases convergence
  cases other
  simp_all

end Convergence.Reports

/-! ## On vectors -/

namespace AttackMatrix

variable {n : Nat}

/-- The scores of all positions after a number of passes. -/
def scoresAfter (matrix : AttackMatrix R n) : (passes : Nat) → Vector R n
  | 0 => .replicate n 1
  | passes + 1 => matrix.pass (matrix.scoresAfter passes)

/-- The largest change of a score in a pass, counted from 1. -/
def changeIn (matrix : AttackMatrix R n) : (pass : Nat) → R
  | 0 => 0
  | before + 1 => change (matrix.scoresAfter before) (matrix.scoresAfter (before + 1))

/-- Continuing after passes without a small change reports on all passes. -/
theorem settleFrom_reports (matrix : AttackMatrix R n) {config : SolverConfig R} {budget done : Nat}
    (cap : done + budget = config.maxIterations)
    (large : ∀ pass, 0 < pass → pass ≤ done →
      Scalar.less (matrix.changeIn pass) config.tolerance = false) :
    let settled := matrix.settleFrom config.tolerance budget done (matrix.changeIn done)
      (matrix.scoresAfter done)
    settled.scores = matrix.scoresAfter settled.convergence.iterations ∧
      settled.convergence.Reports config matrix.changeIn := by
  induction budget generalizing done with
  | zero =>
      refine ⟨rfl, ?_⟩
      constructor
      · rfl
      · exact Nat.le_of_eq cap
      · intro pass positive earlier
        exact large pass positive (Nat.le_of_lt earlier)
      · intro converged
        cases converged
      · intro _
        exact ⟨cap, fun positive => large done positive (Nat.le_refl done)⟩
  | succ budget ih =>
      cases small : Scalar.less (matrix.changeIn (done + 1)) config.tolerance with
      | true =>
          have stops : matrix.settleFrom config.tolerance (budget + 1) done
              (matrix.changeIn done) (matrix.scoresAfter done) =
                ⟨matrix.scoresAfter (done + 1), ⟨done + 1, matrix.changeIn (done + 1), true⟩⟩ := by
            rw [settleFrom]
            exact if_pos small
          rw [stops]
          refine ⟨rfl, ?_⟩
          constructor
          · rfl
          · show done + 1 ≤ config.maxIterations
            omega
          · intro pass positive earlier
            exact large pass positive (Nat.le_of_lt_succ earlier)
          · intro _
            exact ⟨Nat.succ_pos done, small⟩
          · intro converged
            cases converged
      | false =>
          have goesOn : matrix.settleFrom config.tolerance (budget + 1) done
              (matrix.changeIn done) (matrix.scoresAfter done) =
                matrix.settleFrom config.tolerance budget (done + 1)
                  (matrix.changeIn (done + 1)) (matrix.scoresAfter (done + 1)) := by
            rw [settleFrom]
            exact if_neg (Bool.eq_false_iff.1 small)
          rw [goesOn]
          apply ih
          · omega
          · intro pass positive upTo
            rcases Nat.lt_or_ge pass (done + 1) with earlier | last
            · exact large pass positive (Nat.le_of_lt_succ earlier)
            · obtain rfl : pass = done + 1 := by omega
              exact small

/-- Settling reports on the passes from the vector of ones. -/
theorem settle_reports (matrix : AttackMatrix R n) (config : SolverConfig R) :
    (matrix.settle config).scores =
        matrix.scoresAfter (matrix.settle config).convergence.iterations ∧
      (matrix.settle config).convergence.Reports config matrix.changeIn := by
  refine matrix.settleFrom_reports (Nat.zero_add config.maxIterations) fun pass positive upTo => ?_
  omega

end AttackMatrix

/-! ## The attackers of a position -/

namespace Graph

/-- The position of an existing attacker with the weight it attacks with. -/
def weightedPosition? (g : Graph) (weights : WeightTable R) (attacker : String) :
    Option (R × Fin g.size) :=
  (g.position? attacker).map fun position =>
    (weights.strength (g.arguments.get position).category, position)

/-- The existing attackers of an argument with the weights they attack with, in
descending order of their ids. -/
def weightedAttackers (g : Graph) (weights : WeightTable R) (argument : Argument) :
    List (R × Fin g.size) :=
  argument.attackedBy.toList.reverse.filterMap (g.weightedPosition? weights)

variable {g : Graph} {weights : WeightTable R}

theorem attackersOf_addAttack (attacks : AttackStructure R g.size) (target other : Fin g.size)
    (attacker : String) :
    (g.addAttack weights target attacks attacker).attackersOf other =
      (if target = other then (g.weightedPosition? weights attacker).toList else []) ++
        attacks.attackersOf other := by
  rw [addAttack, weightedPosition?]
  cases g.position? attacker with
  | none => simp
  | some position => exact attacks.attackersOf_add _ other

/-- What is added later is read earlier. -/
theorem attackersOf_foldl_addAttack (attackers : List String) (attacks : AttackStructure R g.size)
    (target other : Fin g.size) :
    (attackers.foldl (g.addAttack weights target) attacks).attackersOf other =
      (if target = other then attackers.reverse.filterMap (g.weightedPosition? weights) else []) ++
        attacks.attackersOf other := by
  induction attackers generalizing attacks with
  | nil => simp
  | cons attacker rest ih =>
      rw [List.foldl_cons, ih, attackersOf_addAttack]
      split
      next =>
        rw [List.reverse_cons, List.filterMap_append, List.append_assoc]
        rfl
      next => rfl

theorem attackersOf_addAttacks (attacks : AttackStructure R g.size) (target other : Fin g.size) :
    (g.addAttacks weights attacks target).attackersOf other =
      (if target = other then g.weightedAttackers weights (g.arguments.get target) else []) ++
        attacks.attackersOf other :=
  attackersOf_foldl_addAttack _ attacks target other

theorem attackersOf_foldl_addAttacks_of_not_mem {targets : List (Fin g.size)}
    {target : Fin g.size} (absent : target ∉ targets) (attacks : AttackStructure R g.size) :
    (targets.foldl (g.addAttacks weights) attacks).attackersOf target =
      attacks.attackersOf target := by
  induction targets generalizing attacks with
  | nil => rfl
  | cons first rest ih =>
      rw [List.mem_cons, not_or] at absent
      obtain ⟨other, absent⟩ := absent
      rw [List.foldl_cons, ih absent, attackersOf_addAttacks, if_neg (Ne.symm other)]
      rfl

/-- A target that is gone through once has its attackers added once. -/
theorem attackersOf_foldl_addAttacks_of_mem {targets : List (Fin g.size)} {target : Fin g.size}
    (distinct : targets.Nodup) (member : target ∈ targets) (attacks : AttackStructure R g.size) :
    (targets.foldl (g.addAttacks weights) attacks).attackersOf target =
      g.weightedAttackers weights (g.arguments.get target) ++ attacks.attackersOf target := by
  induction targets generalizing attacks with
  | nil => cases member
  | cons first rest ih =>
      obtain ⟨fresh, distinct⟩ := List.nodup_cons.1 distinct
      rw [List.foldl_cons]
      rcases List.mem_cons.1 member with rfl | later
      · rw [attackersOf_foldl_addAttacks_of_not_mem fresh, attackersOf_addAttacks, if_pos rfl]
      · have other : first ≠ target := fun same => fresh (same ▸ later)
        rw [ih distinct later, attackersOf_addAttacks, if_neg other]
        rfl

/-- The attackers at a position are read as the existing attackers of the argument there, in
descending order of their ids. -/
theorem attackMatrix_eq (g : Graph) (weights : WeightTable R) :
    g.attackMatrix weights =
      .ofFn fun target => g.weightedAttackers weights (g.arguments.get target) := by
  rw [attackMatrix, AttackStructure.matrix]
  apply congrArg
  funext target
  rw [attackStructure, attackersOf_foldl_addAttacks_of_mem (List.nodup_finRange g.size)
    (List.mem_finRange target)]
  exact List.append_nil _

/-! ## From positions to arguments -/

theorem map_position? (g : Graph) (id : String) :
    (g.position? id).map g.arguments.get = g.get? id := by
  rw [position?, get?, List.find?_eq_map_findFinIdx?_getElem]
  rfl

/-- The vector of scores by position. -/
def vector (g : Graph) (scores : Argument → R) : Vector R g.size :=
  .ofFn fun position => scores (g.arguments.get position)

/-- Scoring an argument from a vector is scoring it from the scores in the vector. -/
theorem categorize_vector (g : Graph) (weights : WeightTable R) (scores : Argument → R)
    (argument : Argument) :
    AttackMatrix.categorize (g.weightedAttackers weights argument) (g.vector scores) =
      g.categorize weights scores argument := by
  have contributions : (g.weightedAttackers weights argument).map
      (fun attacker => attacker.1 * (g.vector scores)[attacker.2]) =
        (g.attackers argument).map fun attacker =>
          weights.strength attacker.category * scores attacker := by
    rw [weightedAttackers, attackers, List.map_filterMap, List.map_filterMap]
    congr 1
    funext id
    rw [weightedPosition?, ← map_position?]
    cases g.position? id with
    | none => rfl
    | some position => simp [vector]
  rw [AttackMatrix.categorize, contributions, categorize]

/-- The vector after a number of passes holds the score of each argument. -/
theorem scoresAfter_attackMatrix (g : Graph) (weights : WeightTable R) (passes : Nat) :
    (g.attackMatrix weights).scoresAfter passes = g.vector (g.scoreAfter weights passes) := by
  induction passes with
  | zero =>
      apply Vector.ext
      intro position bound
      simp [AttackMatrix.scoresAfter, vector, scoreAfter]
  | succ passes ih =>
      rw [AttackMatrix.scoresAfter, ih]
      apply Vector.ext
      intro position bound
      have score := g.categorize_vector weights (g.scoreAfter weights passes) g.arguments[position]
      simpa [AttackMatrix.pass, attackMatrix_eq, vector, scoreAfter] using score

theorem changeIn_attackMatrix (g : Graph) (weights : WeightTable R) (pass : Nat) :
    (g.attackMatrix weights).changeIn pass = g.changeIn weights pass := by
  cases pass with
  | zero => rfl
  | succ before =>
      simp only [AttackMatrix.changeIn, AttackMatrix.change, changeIn, scoresAfter_attackMatrix]
      rw [← Vector.foldl_toList]
      congr 1
      apply List.ext_getElem
      · simp
      · intro position vectorBound listBound
        simp [vector]

theorem solve_reports (g : Graph) (weights : WeightTable R) (config : SolverConfig R) :
    (solve g weights config).convergence.Reports config (g.changeIn weights) := by
  have reports := ((g.attackMatrix weights).settle_reports config).2
  have changes : (g.attackMatrix weights).changeIn = g.changeIn weights :=
    funext (g.changeIn_attackMatrix weights)
  rw [changes] at reports
  exact reports

/-- Graphs whose scores are changed by the same in every pass are solved in as many passes. -/
theorem convergence_eq_of_changeIn_eq {g h : Graph} {weights others : WeightTable R}
    (same : g.changeIn weights = h.changeIn others) (config : SolverConfig R) :
    (solve g weights config).convergence = (solve h others config).convergence := by
  have reports := g.solve_reports weights config
  rw [same] at reports
  exact reports.unique (h.solve_reports others config)

/-- Solving gives every argument its score after the passes reported. -/
theorem rows_solve (g : Graph) (weights : WeightTable R) (config : SolverConfig R) :
    (solve g weights config).scores.rows = g.arguments.map fun argument =>
      (argument.id, g.scoreAfter weights (solve g weights config).convergence.iterations
        argument) := by
  have settled := ((g.attackMatrix weights).settle_reports config).1
  rw [scoresAfter_attackMatrix] at settled
  apply List.ext_getElem
  · simp [solve, scoreTable]
  · intro position tableBound listBound
    simp [solve, scoreTable, settled, vector]

/-- Equal scores after every number of passes are changed by the same. -/
theorem changeIn_eq_of_rowsAfter_eq {g h : Graph} {weights others : WeightTable R}
    (same : g.rowsAfter weights = h.rowsAfter others) :
    g.changeIn weights = h.changeIn others := by
  have changes (g : Graph) (weights : WeightTable R) (before : Nat) :
      (g.arguments.map fun argument => Scalar.magnitude
        (g.scoreAfter weights (before + 1) argument - g.scoreAfter weights before argument)) =
      List.zipWith (fun after before => Scalar.magnitude (after.2 - before.2))
        (g.rowsAfter weights (before + 1)) (g.rowsAfter weights before) := by
    simp [rowsAfter]
  funext pass
  cases pass with
  | zero => rfl
  | succ before => rw [changeIn, changeIn, changes, changes, same]

/-- Graphs with equal scores after every number of passes are solved alike. -/
theorem solve_eq_of_rowsAfter_eq {g h : Graph} {weights others : WeightTable R}
    (same : g.rowsAfter weights = h.rowsAfter others) (config : SolverConfig R) :
    solve g weights config = solve h others config := by
  have convergence := convergence_eq_of_changeIn_eq (changeIn_eq_of_rowsAfter_eq same) config
  refine Solution.ext (Table.ext ?_) convergence
  rw [g.rows_solve, h.rows_solve, convergence]
  exact congrFun same _

/-- Solving scores exactly the ids of the graph, each by its argument. -/
theorem get?_scores_solve (g : Graph) (weights : WeightTable R) (config : SolverConfig R)
    (id : String) :
    (solve g weights config).scores.get? id = (g.get? id).map
      (g.scoreAfter weights (solve g weights config).convergence.iterations) := by
  apply Option.ext
  intro score
  rw [Table.get?_eq_some_iff, rows_solve, List.mem_map, Option.map_eq_some_iff]
  constructor
  · rintro ⟨argument, member, row⟩
    cases row
    exact ⟨argument, get?_eq_some_iff.2 ⟨member, rfl⟩, rfl⟩
  · rintro ⟨argument, found, rfl⟩
    obtain ⟨member, rfl⟩ := get?_eq_some_iff.1 found
    exact ⟨argument, member, rfl⟩

end Graph

/-- Solving gives every argument of the graph its score after the passes reported. -/
theorem get?_solve {g : Graph} (weights : WeightTable R) (config : SolverConfig R) {a : Argument}
    (member : a ∈ g.arguments) :
    (solve g weights config).scores.get? a.id =
      some (g.scoreAfter weights (solve g weights config).convergence.iterations a) := by
  rw [g.get?_scores_solve, Graph.get?_eq_some_iff.2 ⟨member, rfl⟩, Option.map_some]

end WeightedArgumentation
