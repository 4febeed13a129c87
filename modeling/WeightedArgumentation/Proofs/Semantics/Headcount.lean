import WeightedArgumentation.Proofs.Semantics.Shortcuts
import WeightedArgumentation.Semantics.Evaluation

/-!
# Every argument counts once

The walk that collects the scores opens a tally for a category at its first argument and never
closes or moves one, so the categories are listed in the order in which they first appear.  An
argument is added to one tally and to no other.  In exact arithmetic a mean times the number of
its members gives their sum back, and these sums add up to the sum over all arguments.

An argument without a score counts as zero.  In an evaluation there is none: solving scores
every argument of the graph.
-/

namespace WeightedArgumentation

universe u v

/-! ## The order of the categories -/

section Order

variable {R : Type u} [Scalar R]

/-- The walk opens the tallies in the order in which the categories first appear. -/
theorem keys_tallies (arguments : List Argument) (scores : Table R) :
    (tallies arguments scores).keys = (arguments.map Argument.category).eraseDups := by
  induction arguments using List.reverseRecOn with
  | nil => rfl
  | append_singleton arguments argument ih =>
      rw [tallies_append, Table.keys_set, ih, List.map_append, List.eraseDups_append,
        List.map_singleton, List.cons_removeAll]
      generalize arguments.map Argument.category = passed
      by_cases seen : argument.category ∈ passed
      · simp [seen]
      · simp [seen, List.eraseDups_cons]

theorem keys_categoryScores (g : Graph) (scores : Table R) (weights : WeightTable R) :
    (aggregate g scores weights).categoryScores.keys =
      (g.arguments.map Argument.category).eraseDups := by
  rw [aggregate, Table.keys_map, keys_tallies]

/-- The scores that an evaluation aggregates are those of its arguments, in their order. -/
theorem map_scoreUnder_solve (g : Graph) (weights : WeightTable R) (config : SolverConfig R) :
    g.arguments.map (scoreUnder (solve g weights config).scores) =
      (solve g weights config).scores.values := by
  rw [Table.values, g.rows_solve, List.map_map]
  apply List.map_congr_left
  intro argument member
  rw [scoreUnder, get?_solve weights config member]
  rfl

end Order

/-! ## Sums -/

section Sums

variable {K : Type v} [Field K]

/-- A sum over the arguments is one over the categories and their members. -/
theorem sum_members (f : Argument → K) {arguments : List Argument} {categories : Finset String}
    (covered : ∀ argument ∈ arguments, argument.category ∈ categories) :
    ∑ category ∈ categories, ((members arguments category).map f).sum =
      (arguments.map f).sum := by
  induction arguments with
  | nil => simp [members]
  | cons argument rest ih =>
      have split (category : String) : ((members (argument :: rest) category).map f).sum =
          (if argument.category = category then f argument else 0) +
            ((members rest category).map f).sum := by
        by_cases here : argument.category = category
        · simp [members, here]
        · simp [members, here]
      have present := covered argument List.mem_cons_self
      simp only [split, Finset.sum_add_distrib, Finset.sum_ite_eq, if_pos present, List.map_cons,
        List.sum_cons]
      rw [ih fun other member => covered other (List.mem_cons_of_mem _ member)]

variable [LinearOrder K] [IsStrictOrderedRing K] {g : Graph} {scores : Table K}

/-- A mean times the number of members is the sum of their scores. -/
theorem categoryMean_mul_card {category : String} (filled : category ∈ g.present) :
    g.categoryMean scores category * (members g.arguments category).length =
      ((members g.arguments category).map (scoreUnder scores)).sum := by
  have count : ((members g.arguments category).length : K) ≠ 0 := by
    simpa using Graph.mem_present.1 filled
  rw [Graph.categoryMean, div_mul_cancel₀ _ count]

/-- The means, each counted for all its members, add up to the scores of all arguments. -/
theorem sum_means_mul_card (weights : WeightTable K) :
    ((aggregate g scores weights).categoryScores.rows.map fun row =>
      row.2 * ((members g.arguments row.1).length : K)).sum =
        (g.arguments.map (scoreUnder scores)).sum := by
  have covered : ∀ argument ∈ g.arguments, argument.category ∈ g.present := by
    intro argument member
    exact List.mem_toFinset.2 (List.mem_map_of_mem member)
  rw [Graph.sum_rows_aggregate fun category mean =>
    mean * ((members g.arguments category).length : K), ← sum_members _ covered]
  exact Finset.sum_congr rfl fun category filled => categoryMean_mul_card filled

end Sums

/-- The category scores list the categories of the arguments, each once and in the order in
which they first appear.  An evaluation has a score for every argument.  In exact arithmetic each
mean times the number of its members is the sum of their scores, so that the means, each counted
for all its members, add up to the scores of all arguments; and in an evaluation to the very
scores that it lists. -/
theorem every_argument_counts_once (g : Graph) :
    (∀ (R : Type u) [Scalar R] (scores : Table R) (weights : WeightTable R),
      (aggregate g scores weights).categoryScores.keys =
        (g.arguments.map Argument.category).eraseDups) ∧
    (∀ (R : Type u) [Scalar R] (weights : WeightTable R) (config : SolverConfig R),
      ∀ argument ∈ g.arguments, ∃ score,
        (evaluate g weights config).scores.get? argument.id = some score) ∧
    ∀ (K : Type v) [Field K] [LinearOrder K] [IsStrictOrderedRing K] (weights : WeightTable K),
      (∀ scores : Table K,
        (∀ category mean, (aggregate g scores weights).categoryScores.get? category = some mean →
          mean * (members g.arguments category).length =
            ((members g.arguments category).map (scoreUnder scores)).sum) ∧
        ((aggregate g scores weights).categoryScores.rows.map fun row =>
          row.2 * ((members g.arguments row.1).length : K)).sum =
            (g.arguments.map (scoreUnder scores)).sum) ∧
      ∀ config : SolverConfig K,
        ((evaluate g weights config).categoryMeans.rows.map fun row =>
          row.2 * ((members g.arguments row.1).length : K)).sum =
            (evaluate g weights config).scores.values.sum := by
  refine ⟨?order, ?scored, fun K _ _ _ weights => ⟨?means, ?evaluation⟩⟩
  case order =>
    intro R _ scores weights
    exact keys_categoryScores g scores weights
  case scored =>
    intro R _ weights config argument member
    exact ⟨_, get?_solve weights config member⟩
  case means =>
    intro scores
    refine ⟨fun category mean found => ?_, sum_means_mul_card weights⟩
    have row := Table.get?_eq_some_iff.1 found
    have filled := Graph.mem_present.2 (mem_rows_aggregate.1 row).1
    rw [Graph.mean_of_mem_rows row, categoryMean_mul_card filled]
  case evaluation =>
    intro config
    have listed := congrArg List.sum (map_scoreUnder_solve g weights config)
    exact (sum_means_mul_card weights).trans listed

/-- Four arguments of three categories in turns, one of them without a score, and a score for an
id that no argument has. -/
theorem every_argument_counts_once_of_turns :
    let g := ((((Graph.empty .empty).after (.create ⟨"A", "a", "eco", none, ["B"], []⟩)).after
      (.create ⟨"B", "b", "env", none, ["A"], []⟩)).after
        (.create ⟨"C", "c", "eco", none, [], ["B"]⟩)).after
          (.create ⟨"D", "d", "care", none, [], []⟩)
    let scores := (((Table.empty.set "X" (7 : ℚ)).set "D" (1 / 2)).set "B" (1 / 4)).set "A" 1
    let weights := WeightTable.empty.set "eco" (3 : ℚ)
    let config : SolverConfig ℚ := { SolverConfig.default with maxIterations := 5 }
    let means := (aggregate g scores weights).categoryScores
    means.keys = ["eco", "env", "care"] ∧ means.get? "eco" = some (1 / 2) ∧
      (1 / 2 : ℚ) * (2 : ℕ) = ((members g.arguments "eco").map (scoreUnder scores)).sum ∧
      (means.rows.map fun row => row.2 * ((members g.arguments row.1).length : ℚ)).sum = 7 / 4 ∧
      (∀ argument ∈ g.arguments, ∃ score,
        (evaluate g weights config).scores.get? argument.id = some score) ∧
      ((evaluate g weights config).categoryMeans.rows.map fun row =>
        row.2 * ((members g.arguments row.1).length : ℚ)).sum =
          (evaluate g weights config).scores.values.sum := by
  intro g scores weights config means
  obtain ⟨order, scored, exact⟩ := every_argument_counts_once g
  obtain ⟨each, total⟩ := (exact ℚ weights).1 scores
  have keys : (g.arguments.map Argument.category).eraseDups = ["eco", "env", "care"] := by
    decide +kernel
  have sum : (g.arguments.map (scoreUnder scores)).sum = 7 / 4 := by decide +kernel
  have eco : means.get? "eco" = some (1 / 2) := by decide +kernel
  exact ⟨(order ℚ scores weights).trans keys, eco, each "eco" (1 / 2) eco, total.trans sum,
    scored ℚ weights config, (exact ℚ weights).2 config⟩

end WeightedArgumentation
