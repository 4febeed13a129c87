import WeightedArgumentation.Proofs.Semantics.Convergence
import WeightedArgumentation.Proofs.Semantics.Divisions
import WeightedArgumentation.Proofs.Semantics.ErrorBound

/-!
# The range of an evaluation

No score exceeds 1, so an argument bears at most the total weight `W` of its attackers and
scores at least `1 / (1 + W)`.  The means of the categories lie within the scores and the final
score within the means, and so all of them are positive and at most 1.
-/

namespace WeightedArgumentation

/-! ## When there is a final score -/

section Empty

variable {R : Type*} [Scalar R]

theorem finalScore_eq_none_iff {means : Table R} {weights : WeightTable R} :
    finalScore means weights = none ↔ means.rows = [] := by
  simp only [finalScore, Table.isEmpty, List.isEmpty_iff]
  split
  next empty => simp [empty]
  next filled =>
    simp only [filled, iff_false]
    split <;> simp

/-- Every argument is in a category, so only the empty graph has no means. -/
theorem rows_means_eq_nil_iff {g : Graph} {scores : Table R} (weights : WeightTable R) :
    (aggregate g scores weights).categoryScores.rows = [] ↔ g.arguments = [] := by
  constructor
  · intro empty
    refine List.eq_nil_iff_forall_not_mem.2 fun argument member => ?_
    have row : (argument.category, _) ∈ (aggregate g scores weights).categoryScores.rows :=
      mem_rows_aggregate.2 ⟨List.ne_nil_of_mem (mem_members.2 ⟨member, rfl⟩), rfl⟩
    rw [empty] at row
    cases row
  · intro empty
    simp [aggregate, tallies, empty, Table.map, Table.empty]

end Empty

/-! ## The range -/

variable {K : Type*} [Field K] [LinearOrder K]

/-- The values of an evaluation lie where they can: a score between what the weight of its
attackers leaves of it and 1, the mean of a category within the scores of its members, and the
final score, which all graphs but the empty one have, within the means. -/
structure Evaluation.InRange (evaluation : Evaluation K) (g : Graph) (weights : WeightTable K) :
    Prop where
  keys : evaluation.scores.keys = g.arguments.map Argument.id
  score : ∀ a ∈ g.arguments, ∀ score, evaluation.scores.get? a.id = some score →
    0 < score ∧ 1 / (1 + g.attackWeight weights a) ≤ score ∧ score ≤ 1
  mean : ∀ category mean, evaluation.categoryMeans.get? category = some mean →
    (0 < mean ∧ mean ≤ 1) ∧
      LiesWithin mean ((members g.arguments category).map (scoreUnder evaluation.scores))
  final_eq_none : evaluation.finalScore = none ↔ g.arguments = []
  final : ∀ final, evaluation.finalScore = some final →
    (0 < final ∧ final ≤ 1) ∧ LiesWithin final evaluation.categoryMeans.values

variable [IsStrictOrderedRing K]

namespace Graph

theorem attackWeight_nonneg {g : Graph} {weights : WeightTable K} {argument : Argument} :
    0 ≤ g.attackWeight weights argument := by
  refine List.sum_nonneg fun weight member => ?_
  obtain ⟨attacker, _, rfl⟩ := List.mem_map.1 member
  exact weights.strength_nonneg attacker.category

theorem le_scoreAfter (g : Graph) (weights : WeightTable K) (passes : Nat) (argument : Argument) :
    1 / (1 + g.attackWeight weights argument) ≤ g.scoreAfter weights passes argument := by
  have weight : 0 ≤ g.attackWeight weights argument := attackWeight_nonneg
  cases passes with
  | zero =>
      rw [scoreAfter, div_le_one (by linarith)]
      linarith
  | succ passes =>
      have burden : g.burden weights (g.scoreAfter weights passes) argument ≤
          g.attackWeight weights argument :=
        burden_le_attackWeight (scoreAfter_le_one g weights passes) argument
      rw [scoreAfter_succ]
      exact one_div_le_one_div_of_le
        (one_add_burden_pos (fun a _ => (scoreAfter_pos g weights passes a).le) argument)
        (by linarith)

end Graph

/-- A member of a category has a score in the table of a solution. -/
theorem mem_Ioc_of_mem_scores {g : Graph} (weights : WeightTable K) (config : SolverConfig K)
    {category : String} {score : K}
    (member : score ∈ (members g.arguments category).map
      (scoreUnder (solve g weights config).scores)) : 0 < score ∧ score ≤ 1 := by
  obtain ⟨argument, inCategory, rfl⟩ := List.mem_map.1 member
  rw [scoreUnder, get?_solve weights config (mem_members.1 inCategory).1]
  exact ⟨Graph.scoreAfter_pos g weights _ argument, Graph.scoreAfter_le_one g weights _ argument⟩

/-- The values of an evaluation are in range. -/
theorem evaluate_inRange (g : Graph) (weights : WeightTable K) (config : SolverConfig K) :
    (evaluate g weights config).InRange g weights where
  keys := by
    show (solve g weights config).scores.rows.map Prod.fst = _
    rw [g.rows_solve, List.map_map]
    rfl
  score a member score found := by
    obtain rfl := Option.some.inj ((get?_solve weights config member).symm.trans found)
    exact ⟨g.scoreAfter_pos weights _ a, g.le_scoreAfter weights _ a,
      g.scoreAfter_le_one weights _ a⟩
  mean category mean found := by
    have within := liesWithin_categoryScore weights (Table.get?_eq_some_iff.1 found)
    exact ⟨within.mem_Ioc fun _ => mem_Ioc_of_mem_scores weights config, within⟩
  final_eq_none := finalScore_eq_none_iff.trans (rows_means_eq_nil_iff weights)
  final final scored := by
    have within := liesWithin_finalScore scored
    refine ⟨within.mem_Ioc fun mean member => ?_, within⟩
    obtain ⟨⟨category, mean⟩, row, rfl⟩ := List.mem_map.1 member
    have means := liesWithin_categoryScore weights row
    exact means.mem_Ioc fun _ => mem_Ioc_of_mem_scores weights config

/-- An evaluation divides by zero in no pass and nowhere after the passes, and its values are
in range. -/
theorem evaluate_bounded (g : Graph) (weights : WeightTable K) (config : SolverConfig K) :
    (∀ passes, (g.attackMatrix (weights.map Checked.defined)).scoresAfter passes =
      ((g.attackMatrix weights).scoresAfter passes).map Checked.defined) ∧
    evaluate g (weights.map Checked.defined) (config.map Checked.defined) =
      (evaluate g weights config).map Checked.defined ∧
    (evaluate g weights config).InRange g weights :=
  ⟨g.scoresAfter_map weights, evaluate_map g weights config, evaluate_inRange g weights config⟩

/-- A self-attack, an attacker that counts with nothing because it weighs less, and an attack
from an id that no argument has: the cap ends the passes, and the weights decide the final
score. -/
theorem evaluate_bounded_of_negative_weight :
    let g : Graph :=
      { categories := .empty
        arguments := [⟨"A", "a", "eco", none, .ofList ["A", "B"], .ofList ["A"]⟩,
          ⟨"B", "b", "env", none, .empty, .ofList ["A", "Z"]⟩,
          ⟨"C", "c", "care", none, .ofList ["A"], .empty⟩]
        distinct := by decide }
    let weights : WeightTable ℚ := ⟨.ofList [("eco", 2), ("care", -3)]⟩
    let config : SolverConfig ℚ := ⟨.hCategorizer, 2, 1 / 10⟩
    (∀ passes, (g.attackMatrix (weights.map Checked.defined)).scoresAfter passes =
      ((g.attackMatrix weights).scoresAfter passes).map Checked.defined) ∧
    evaluate g (weights.map Checked.defined) (config.map Checked.defined) =
      (evaluate g weights config).map Checked.defined ∧
    (evaluate g weights config).InRange g weights ∧
    (evaluate g weights config).finalScore = some (3 / 5) := by
  intro g weights config
  have final : (evaluate g weights config).finalScore = some (3 / 5) := by decide +kernel
  obtain ⟨passes, evaluation, inRange⟩ := evaluate_bounded g weights config
  exact ⟨passes, evaluation, inRange, final⟩

end WeightedArgumentation
