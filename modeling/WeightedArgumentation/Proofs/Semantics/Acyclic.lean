import WeightedArgumentation.Proofs.Graph.AttackPath
import WeightedArgumentation.Proofs.Graph.Reachable
import WeightedArgumentation.Proofs.Scalar.Double
import WeightedArgumentation.Proofs.Semantics.Passes

/-!
# Scores without cycles

In a graph without cycles of attacks the score of an argument is final after as many
passes as the longest path to it has attacks: an argument that nothing attacks keeps its
score of one, and any other is computed from scores that were final one pass earlier.  So
the passes settle one pass after the longest path of all, with scores that solve the
equations exactly and not only up to the tolerance.

The scores are never computed with: apart from the empty sum, which leaves a score of one,
and the difference of a score and itself, no law of arithmetic is used.  Floating point
obeys these two.
-/

namespace WeightedArgumentation

universe u

variable {R : Type u} [Scalar R]

/-- The largest of values that never exceed zero is zero. -/
theorem Scalar.foldl_larger_eq_zero {values : List R}
    (small : ∀ value ∈ values, larger 0 value = 0) : values.foldl larger 0 = 0 := by
  induction values with
  | nil => rfl
  | cons value rest ih =>
      rw [List.foldl_cons, small value List.mem_cons_self]
      exact ih fun other member => small other (List.mem_cons_of_mem value member)

namespace Graph

variable {g : Graph} {weights : WeightTable R} {a b : Argument} {passes : Nat}

theorem attacks_of_mem_attackers (member : a ∈ g.arguments) (attacker : b ∈ g.attackers a) :
    g.Attacks b a := by
  obtain ⟨id, listed, found⟩ := List.mem_filterMap.1 attacker
  obtain ⟨bMember, rfl⟩ := get?_eq_some_iff.1 found
  have shown : b.id ∈ a.attackedBy := SortedSet.mem_def.2 (List.mem_reverse.1 listed)
  exact ⟨bMember, member, mem_attacks.2 (.inr ⟨a, member, rfl, shown⟩)⟩

/-- A score depends only on the scores of the attackers. -/
theorem categorize_congr {scores others : Argument → R}
    (agree : ∀ b ∈ g.attackers a, scores b = others b) :
    g.categorize weights scores a = g.categorize weights others a := by
  have contributions : (g.attackers a).map (fun b => weights.strength b.category * scores b) =
      (g.attackers a).map fun b => weights.strength b.category * others b :=
    List.map_congr_left fun b attacker => by rw [agree b attacker]
  rw [categorize, categorize, contributions]

/-! ## Final scores -/

section Final

variable [Scalar.EmptyBurden R]

/-- An argument of depth zero has no attacker, so it scores one. -/
theorem categorize_of_depth_eq_zero (acyclic : g.Acyclic) (member : a ∈ g.arguments)
    (unattacked : g.depth a = 0) (scores : Argument → R) : g.categorize weights scores a = 1 := by
  have none : g.attackers a = [] := by
    apply List.eq_nil_iff_forall_not_mem.2
    intro b attacker
    have lower := (attacks_of_mem_attackers member attacker).depth_lt acyclic
    rw [unattacked] at lower
    exact Nat.not_lt_zero _ lower
  rw [categorize, none]
  exact Scalar.EmptyBurden.one_div_one_add_zero

/-- Once there were as many passes as an argument is deep, a further pass leaves its score
as it is. -/
theorem scoreAfter_succ_of_depth_le (acyclic : g.Acyclic) (member : a ∈ g.arguments)
    (reached : g.depth a ≤ passes) :
    g.scoreAfter weights (passes + 1) a = g.scoreAfter weights passes a := by
  induction passes generalizing a with
  | zero => exact categorize_of_depth_eq_zero acyclic member (Nat.eq_zero_of_le_zero reached) _
  | succ passes ih =>
      apply categorize_congr
      intro b attacker
      have attacks := attacks_of_mem_attackers member attacker
      have lower := attacks.depth_lt acyclic
      exact ih attacks.1 (by omega)

/-- The score of an argument is final after as many passes as it is deep. -/
theorem scoreAfter_eq_of_depth_le (acyclic : g.Acyclic) (member : a ∈ g.arguments)
    (reached : g.depth a ≤ passes) :
    g.scoreAfter weights passes a = g.scoreAfter weights (g.depth a) a := by
  induction passes, reached using Nat.le_induction with
  | base => rfl
  | succ passes reached ih => rw [scoreAfter_succ_of_depth_le acyclic member reached, ih]

/-- After the longest path the scores no longer change. -/
theorem scoreAfter_succ_of_longestPath_le (acyclic : g.Acyclic) (member : a ∈ g.arguments)
    (passed : g.longestPath ≤ passes) :
    g.scoreAfter weights (passes + 1) a = g.scoreAfter weights passes a :=
  scoreAfter_succ_of_depth_le acyclic member ((depth_le_longestPath acyclic member).trans passed)

theorem scoresAfter_eq_of_longestPath_le (acyclic : g.Acyclic) (passed : g.longestPath ≤ passes) :
    (g.attackMatrix weights).scoresAfter passes =
      (g.attackMatrix weights).scoresAfter g.longestPath := by
  rw [scoresAfter_attackMatrix, scoresAfter_attackMatrix, vector, vector]
  congr 1
  funext position
  have member := List.get_mem g.arguments position
  have reached := depth_le_longestPath acyclic member
  rw [scoreAfter_eq_of_depth_le acyclic member (reached.trans passed),
    scoreAfter_eq_of_depth_le acyclic member reached]

/-- A pass after the longest path changes nothing. -/
theorem changeIn_eq_zero_of_longestPath_lt [Scalar.NoSelfChange R] (acyclic : g.Acyclic)
    {pass : Nat} (passed : g.longestPath < pass) : g.changeIn weights pass = 0 := by
  obtain ⟨before, rfl⟩ := Nat.exists_eq_succ_of_ne_zero (Nat.ne_zero_of_lt passed)
  apply Scalar.foldl_larger_eq_zero
  intro value changed
  obtain ⟨a, member, rfl⟩ := List.mem_map.1 changed
  rw [scoreAfter_succ_of_longestPath_le acyclic member (Nat.le_of_lt_succ passed)]
  exact Scalar.NoSelfChange.larger_zero_sub_self _

end Final

end Graph

variable [Scalar.EmptyBurden R] [Scalar.NoSelfChange R]

theorem converged_of_acyclic {g : Graph} (acyclic : g.Acyclic) (weights : WeightTable R)
    (config : SolverConfig R) (positive : Scalar.less 0 config.tolerance = true)
    (allowed : g.longestPath + 1 ≤ config.maxIterations) :
    (solve g weights config).convergence.converged = true ∧
      (solve g weights config).convergence.iterations ≤ g.longestPath + 1 := by
  have still : g.changeIn weights (g.longestPath + 1) = 0 :=
    Graph.changeIn_eq_zero_of_longestPath_lt acyclic (Nat.lt_succ_self g.longestPath)
  apply (g.solve_reports weights config).converged_of_less (Nat.succ_pos g.longestPath) allowed
  rw [still]
  exact positive

/-- In a graph without cycles of attacks the score of each argument is final after as many
passes as the longest path to it has attacks, and the vector of all scores after as many as
the longest path of the graph has.  With a positive tolerance and a cap above that the passes
settle at most one pass later; scores after that pass solve the equations exactly, and the
change reported is zero.  Where no argument attacks another, one pass settles with every
score one. -/
theorem final_of_acyclic (g : Graph) (weights : WeightTable R) :
    (g.Acyclic →
      (∀ a ∈ g.arguments, IsGreatest {edges | g.PathTo edges a} (g.depth a) ∧
        ∀ passes, g.depth a ≤ passes →
          g.scoreAfter weights passes a = g.scoreAfter weights (g.depth a) a) ∧
      (∀ passes, g.longestPath ≤ passes → (g.attackMatrix weights).scoresAfter passes =
        (g.attackMatrix weights).scoresAfter g.longestPath) ∧
      ∀ config : SolverConfig R,
        (Scalar.less 0 config.tolerance = true → g.longestPath + 1 ≤ config.maxIterations →
          (solve g weights config).convergence.converged = true ∧
            (solve g weights config).convergence.iterations ≤ g.longestPath + 1) ∧
        (g.longestPath + 1 ≤ (solve g weights config).convergence.iterations →
          (solve g weights config).convergence.maxDelta = 0 ∧
            ∃ x : Argument → R,
              (solve g weights config).scores.rows = g.arguments.map (fun a => (a.id, x a)) ∧
                ∀ a ∈ g.arguments, x a = g.categorize weights x a)) ∧
    ((∀ b a, ¬ g.Attacks b a) → ∀ config : SolverConfig R,
      Scalar.less 0 config.tolerance = true → 1 ≤ config.maxIterations →
        (solve g weights config).convergence.converged = true ∧
          (solve g weights config).convergence.iterations = 1 ∧
            (solve g weights config).scores.rows = g.arguments.map fun a => (a.id, 1)) := by
  constructor
  · intro acyclic
    refine ⟨?each, fun passes => Graph.scoresAfter_eq_of_longestPath_le acyclic, ?solved⟩
    case each =>
      intro a member
      constructor
      · exact Graph.isGreatest_depth acyclic member
      · intro passes reached
        exact Graph.scoreAfter_eq_of_depth_le acyclic member reached
    case solved =>
      intro config
      constructor
      · exact converged_of_acyclic acyclic weights config
      · intro passed
        constructor
        · rw [(g.solve_reports weights config).maxDelta]
          exact Graph.changeIn_eq_zero_of_longestPath_lt acyclic passed
        · refine ⟨_, g.rows_solve weights config, ?_⟩
          intro a member
          exact (Graph.scoreAfter_succ_of_longestPath_le acyclic member (by omega)).symm
  · intro none config positive allowed
    have acyclic := Graph.acyclic_of_no_attacks none
    have flat := Graph.longestPath_eq_zero none
    obtain ⟨converged, within⟩ := converged_of_acyclic acyclic weights config positive (by omega)
    have once : (solve g weights config).convergence.iterations = 1 := by
      have ran := ((g.solve_reports weights config).settled converged).1
      omega
    refine ⟨converged, once, ?_⟩
    rw [g.rows_solve, once]
    apply List.map_congr_left
    intro a member
    rw [Graph.scoreAfter_succ_of_longestPath_le acyclic member (Nat.le_of_eq flat)]
    rfl

/-- One argument attacks two that attack a fourth, itself attacked from an id that no
argument has, in double precision: with the usual tolerance the passes settle after the
longest path, with a negative one they run on without a change.  And two arguments with
attacks only from and on ids that no argument has. -/
theorem final_of_acyclic_of_diamond :
    let diamond := ((((Graph.empty .empty).after
      (.create ⟨"D", "d", "eco", none, [], ["B", "C"]⟩)).after
        (.create ⟨"A", "a", "env", none, ["B", "C"], ["Z"]⟩)).after
          (.create ⟨"B", "b", "eco", none, [], []⟩)).after
            (.create ⟨"C", "c", "env", none, [], []⟩)
    let apart := ((Graph.empty .empty).after (.create ⟨"A", "a", "eco", none, ["Y"], ["Z"]⟩)).after
      (.create ⟨"B", "b", "eco", none, ["Y"], []⟩)
    let weights : WeightTable Float := WeightTable.empty.set "eco" 1.7
    let restless : SolverConfig Float := ⟨.hCategorizer, 9, -1⟩
    (∀ a ∈ diamond.arguments, ∀ passes, diamond.depth a ≤ passes →
      diamond.scoreAfter weights passes a = diamond.scoreAfter weights (diamond.depth a) a) ∧
    ((solve diamond weights .default).convergence.converged = true ∧
      (solve diamond weights .default).convergence.iterations ≤ diamond.longestPath + 1) ∧
    (solve diamond weights restless).convergence.iterations = 9 ∧
    (solve diamond weights restless).convergence.maxDelta = 0 ∧
    (solve apart weights .default).scores.rows = [("A", 1), ("B", 1)] := by
  intro diamond apart weights restless
  have rises : ∀ b ∈ diamond.arguments, ∀ a ∈ diamond.arguments,
      ⟨b.id, a.id⟩ ∈ diamond.attacks →
        2 - b.attacks.toList.length < 2 - a.attacks.toList.length := by decide +kernel
  have acyclic : diamond.Acyclic :=
    Graph.acyclic_of_rank _ fun b a attacks => rises b attacks.1 a attacks.2.1 attacks.2.2
  have unrelated : ∀ b ∈ apart.arguments, ∀ a ∈ apart.arguments,
      ⟨b.id, a.id⟩ ∉ apart.attacks := by decide +kernel
  have short : diamond.longestPath ≤ 4 := Graph.longestPath_le_size acyclic
  have positive : Scalar.less 0 (SolverConfig.default : SolverConfig Float).tolerance = true := by
    decide +kernel
  have ran : (solve diamond weights restless).convergence.iterations = 9 := by decide +kernel
  obtain ⟨each, _, solved⟩ := (final_of_acyclic diamond weights).1 acyclic
  have alone := (final_of_acyclic apart weights).2
    (fun b a attacks => unrelated b attacks.1 a attacks.2.1 attacks.2.2) .default positive
    (by decide)
  refine ⟨fun a member => (each a member).2, ?_, ran, ?_, alone.2.2⟩
  · exact (solved .default).1 positive (show diamond.longestPath + 1 ≤ 100 by omega)
  · exact ((solved restless).2 (by omega)).1

end WeightedArgumentation
