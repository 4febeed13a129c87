import Mathlib.Algebra.BigOperators.Ring.List
import Mathlib.Data.Set.Finite.Lemmas
import Mathlib.Data.Set.Finite.List
import WeightedArgumentation.Proofs.Semantics.Exact
import WeightedArgumentation.Proofs.Semantics.Tallies

/-!
# Means lie within what they are means of

Over an ordered field a weighted mean whose weights are not negative and not all zero lies
between the smallest and the largest of its values.  The mean of a category is a mean of its
members' scores, and in each of its cases the final score is a mean of the category means, so
both are bounded by what they summarize.
-/

namespace WeightedArgumentation

variable {K : Type*} [LinearOrder K]

/-- A value lies between the smallest and the largest of a list of values. -/
def LiesWithin (x : K) (values : List K) : Prop :=
  ∃ low high, IsLeast {value | value ∈ values} low ∧ IsGreatest {value | value ∈ values} high ∧
    low ≤ x ∧ x ≤ high

/-- What respects every bound of a list of values lies within the list. -/
theorem liesWithin_of_bounds {x : K} {values : List K} (nonempty : values ≠ [])
    (above : ∀ bound, (∀ value ∈ values, bound ≤ value) → bound ≤ x)
    (below : ∀ bound, (∀ value ∈ values, value ≤ bound) → x ≤ bound) : LiesWithin x values := by
  have finite : {value | value ∈ values}.Finite := List.finite_toSet values
  have inhabited : {value | value ∈ values}.Nonempty := List.exists_mem_of_ne_nil values nonempty
  obtain ⟨low, lowMember, least⟩ := Set.exists_min_image _ id finite inhabited
  obtain ⟨high, highMember, greatest⟩ := Set.exists_max_image _ id finite inhabited
  exact ⟨low, high, ⟨lowMember, least⟩, ⟨highMember, greatest⟩, above low least,
    below high greatest⟩

/-- A value within a list keeps to every bound of the list. -/
theorem LiesWithin.mem_Ioc {x low high : K} {values : List K} (within : LiesWithin x values)
    (bounded : ∀ value ∈ values, low < value ∧ value ≤ high) : low < x ∧ x ≤ high := by
  obtain ⟨least, greatest, ⟨leastMember, _⟩, ⟨greatestMember, _⟩, above, below⟩ := within
  exact ⟨(bounded least leastMember).1.trans_le above,
    below.trans (bounded greatest greatestMember).2⟩

variable [Field K]

/-! ## Means of lists -/

theorem Tally.mean_ofList (values : List K) : (Tally.ofList values).mean = plainMean values := by
  have sum : (Tally.ofList values).sum = values.sum := by
    induction values using List.reverseRecOn with
    | nil => rfl
    | append_singleton values value ih => simp [Tally.ofList_append, Tally.add, ih]
  rw [Tally.mean, sum, Tally.count_ofList, plainMean, Scalar.total_eq_sum]

/-- The plain mean is the one in which every value weighs one. -/
theorem plainMean_eq_weightedMean (values : List K) :
    plainMean values = weightedMean (values.map fun value => (value, 1)) := by
  simp [plainMean, weightedMean, Function.comp_def]

variable [IsStrictOrderedRing K]

/-- A weighted mean lies within its values. -/
theorem liesWithin_weightedMean {weighted : List (K × K)}
    (nonneg : ∀ pair ∈ weighted, 0 ≤ pair.2) (positive : 0 < (weighted.map Prod.snd).sum) :
    LiesWithin (weightedMean weighted) (weighted.map Prod.fst) := by
  have scaled (bound : K) : bound * (weighted.map Prod.snd).sum =
      (weighted.map fun pair => bound * pair.2).sum := (List.sum_map_mul_left ..).symm
  apply liesWithin_of_bounds
  · intro empty
    rw [List.map_eq_nil_iff] at empty
    simp [empty] at positive
  · intro bound bounded
    rw [weightedMean, Scalar.total_eq_sum, Scalar.total_eq_sum, le_div_iff₀ positive, scaled]
    refine List.sum_le_sum fun pair member => ?_
    exact mul_le_mul_of_nonneg_right (bounded _ (List.mem_map_of_mem member)) (nonneg pair member)
  · intro bound bounded
    rw [weightedMean, Scalar.total_eq_sum, Scalar.total_eq_sum, div_le_iff₀ positive, scaled]
    refine List.sum_le_sum fun pair member => ?_
    exact mul_le_mul_of_nonneg_right (bounded _ (List.mem_map_of_mem member)) (nonneg pair member)

theorem liesWithin_plainMean {values : List K} (nonempty : values ≠ []) :
    LiesWithin (plainMean values) values := by
  have positive : 0 < ((values.map fun value => (value, (1 : K))).map Prod.snd).sum := by
    simpa [Function.comp_def, List.length_pos_iff] using nonempty
  have within := liesWithin_weightedMean (by simp) positive
  simpa [plainMean_eq_weightedMean, Function.comp_def] using within

/-! ## Categories and the whole graph -/

theorem WeightTable.epsilon_pos : (0 : K) < epsilon := by
  rw [epsilon]
  norm_num

/-- The mean of a category lies within its members' scores. -/
theorem liesWithin_categoryScore {g : Graph} {scores : Table K} (weights : WeightTable K)
    {category : String} {mean : K}
    (row : (category, mean) ∈ (aggregate g scores weights).categoryScores.rows) :
    LiesWithin mean ((members g.arguments category).map (scoreUnder scores)) := by
  obtain ⟨filled, rfl⟩ := mem_rows_aggregate.1 row
  rw [Tally.mean_ofList]
  exact liesWithin_plainMean (by simpa using filled)

/-- There is a final score unless there are no means, and it lies within the means. -/
theorem liesWithin_finalScore {means : Table K} {weights : WeightTable K} {final : K}
    (scored : finalScore means weights = some final) : LiesWithin final means.values := by
  simp only [finalScore] at scored
  split at scored
  next => cases scored
  next filled =>
    have nonempty : means.values ≠ [] := by
      simpa [Table.isEmpty, Table.values] using filled
    split at scored
    next =>
      cases scored
      exact liesWithin_plainMean nonempty
    next unbalanced =>
      cases scored
      simp only [Bool.or_eq_true, not_or, Scalar.less_eq_true_iff, not_lt,
        Scalar.total_eq_sum] at unbalanced
      have nonneg : ∀ pair ∈ means.rows.map fun row => (row.2, weights.strength row.1),
          0 ≤ pair.2 := by
        intro pair member
        obtain ⟨row, _, rfl⟩ := List.mem_map.1 member
        exact weights.strength_nonneg row.1
      have within := liesWithin_weightedMean nonneg
        (WeightTable.epsilon_pos.trans_le unbalanced.2)
      simpa [Table.values, Function.comp_def] using within

end WeightedArgumentation
