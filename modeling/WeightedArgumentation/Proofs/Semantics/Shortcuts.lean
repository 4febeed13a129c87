import Mathlib.Algebra.Order.BigOperators.Group.Finset
import WeightedArgumentation.Proofs.Semantics.Means
import WeightedArgumentation.Proofs.Weights.SliderTable

/-!
# The shortcuts of the final score

The final score is the plain mean of the categories when all that are present weigh nearly the
same, or nearly nothing in total.  Both are shortcuts for the weighted mean.  A plain mean `P`
and a weighted mean `W` of `n` values differ by

  `(W - P) · Σ w = Σ (w - w₀) · (m - P)`

whatever the weight `w₀`.  With `w₀` the weight of the first category, which the others are
compared with, there are `n - 1` terms, each smaller than the tolerance, because means of scores
lie between zero and one.  The weights at a slider position add up to `n - 1` at least, so the
difference is smaller than the tolerance.  And where they add up to nearly nothing, there is only
one category, whose weight does not matter.
-/

namespace WeightedArgumentation

variable {K : Type*} [Field K]

/-! ## Two means -/

section Means

variable {ι : Type*} {keys : Finset ι} {value weight : ι → K}

/-- Deviations from the mean weigh as much when all weights are shifted. -/
theorem sum_shifted_mul_deviation {mean : K} (balance : ∑ key ∈ keys, value key = keys.card * mean)
    (shift : K) :
    ∑ key ∈ keys, (weight key - shift) * (value key - mean) =
      ∑ key ∈ keys, weight key * value key - mean * ∑ key ∈ keys, weight key := by
  have term (key : ι) : (weight key - shift) * (value key - mean) =
      weight key * value key - mean * weight key - shift * value key + shift * mean := by ring
  simp only [term, Finset.sum_add_distrib, Finset.sum_sub_distrib, ← Finset.mul_sum, balance,
    Finset.sum_const, nsmul_eq_mul]
  ring

variable [LinearOrder K] [IsStrictOrderedRing K]

theorem mean_mem_unit (nonempty : keys.Nonempty)
    (unit : ∀ key ∈ keys, 0 ≤ value key ∧ value key ≤ 1) :
    0 ≤ (∑ key ∈ keys, value key) / keys.card ∧ (∑ key ∈ keys, value key) / keys.card ≤ 1 := by
  have count : (0 : K) < keys.card := by
    exact_mod_cast nonempty.card_pos
  constructor
  · exact div_nonneg (Finset.sum_nonneg fun key present => (unit key present).1) count.le
  · rw [div_le_one count]
    calc ∑ key ∈ keys, value key
        ≤ ∑ _key ∈ keys, (1 : K) := Finset.sum_le_sum fun key present => (unit key present).2
      _ = keys.card := by simp

/-- Deviations count for less than the tolerance when all weights are close to one of them. -/
theorem abs_sum_mul_deviation_lt [DecidableEq ι] {first : ι} {mean bound : K}
    (member : first ∈ keys) (deviation : ∀ key ∈ keys, |value key - mean| ≤ 1)
    (close : ∀ key ∈ keys, key ≠ first → |weight key - weight first| < bound)
    (positive : 0 < ∑ key ∈ keys, weight key)
    (heavy : (keys.card : K) - 1 ≤ ∑ key ∈ keys, weight key) (bound_pos : 0 < bound) :
    |∑ key ∈ keys, (weight key - weight first) * (value key - mean)| <
      bound * ∑ key ∈ keys, weight key := by
  have small : ∀ key ∈ keys.erase first,
      |(weight key - weight first) * (value key - mean)| < bound := by
    intro key other
    obtain ⟨different, present⟩ := Finset.mem_erase.1 other
    calc |(weight key - weight first) * (value key - mean)|
        = |weight key - weight first| * |value key - mean| := abs_mul _ _
      _ ≤ |weight key - weight first| * 1 :=
          mul_le_mul_of_nonneg_left (deviation key present) (abs_nonneg _)
      _ < bound := by simpa using close key present different
  -- the term of the first key itself is zero
  rw [← Finset.sum_erase_add _ _ member, sub_self, zero_mul, add_zero]
  rcases (keys.erase first).eq_empty_or_nonempty with alone | others
  · rw [alone, Finset.sum_empty, abs_zero]
    exact mul_pos bound_pos positive
  · have count : ((keys.erase first).card : K) = keys.card - 1 := by
      rw [Finset.card_erase_of_mem member, Nat.cast_pred (Finset.card_pos.2 ⟨first, member⟩)]
    calc |∑ key ∈ keys.erase first, (weight key - weight first) * (value key - mean)|
        ≤ ∑ key ∈ keys.erase first, |(weight key - weight first) * (value key - mean)| :=
          Finset.abs_sum_le_sum_abs _ _
      _ < ∑ _key ∈ keys.erase first, bound := Finset.sum_lt_sum_of_nonempty others small
      _ = bound * (keys.card - 1) := by rw [Finset.sum_const, nsmul_eq_mul, count, mul_comm]
      _ ≤ bound * ∑ key ∈ keys, weight key := mul_le_mul_of_nonneg_left heavy bound_pos.le

/-- Weights that are close to one of them give nearly the plain mean. -/
theorem abs_plainMean_sub_weightedMean_lt [DecidableEq ι] {first : ι} {bound : K}
    (member : first ∈ keys) (unit : ∀ key ∈ keys, 0 ≤ value key ∧ value key ≤ 1)
    (close : ∀ key ∈ keys, key ≠ first → |weight key - weight first| < bound)
    (positive : 0 < ∑ key ∈ keys, weight key)
    (heavy : (keys.card : K) - 1 ≤ ∑ key ∈ keys, weight key) (bound_pos : 0 < bound) :
    |(∑ key ∈ keys, value key) / keys.card -
      (∑ key ∈ keys, weight key * value key) / ∑ key ∈ keys, weight key| < bound := by
  have count : (keys.card : K) ≠ 0 := by
    exact_mod_cast Finset.card_ne_zero_of_mem member
  have balance : ∑ key ∈ keys, value key =
      keys.card * ((∑ key ∈ keys, value key) / keys.card) := (mul_div_cancel₀ _ count).symm
  obtain ⟨mean_nonneg, mean_le_one⟩ := mean_mem_unit ⟨first, member⟩ unit
  generalize (∑ key ∈ keys, value key) / (keys.card : K) = mean at *
  have deviation : ∀ key ∈ keys, |value key - mean| ≤ 1 := by
    intro key present
    obtain ⟨lower, upper⟩ := unit key present
    rw [abs_le]
    constructor <;> linarith
  have scaled := abs_sum_mul_deviation_lt member deviation close positive heavy bound_pos
  rw [sum_shifted_mul_deviation balance] at scaled
  have difference : (∑ key ∈ keys, weight key * value key) / (∑ key ∈ keys, weight key) - mean =
      (∑ key ∈ keys, weight key * value key - mean * ∑ key ∈ keys, weight key) /
        ∑ key ∈ keys, weight key := by
    rw [sub_div, mul_div_cancel_right₀ _ positive.ne']
  rw [abs_sub_comm, difference, abs_div, abs_of_pos positive, div_lt_iff₀ positive]
  exact scaled

end Means

/-! ## The categories present -/

theorem Table.nodup_keys {value : Type*} (table : Table value) : table.keys.Nodup := table.distinct

namespace Graph

/-- The categories that some argument is in. -/
def present (g : Graph) : Finset String := (g.arguments.map Argument.category).toFinset

theorem mem_present {g : Graph} {category : String} :
    category ∈ g.present ↔ members g.arguments category ≠ [] := by
  simp [present, members]

variable [LinearOrder K] {g : Graph} {scores : Table K} {weights : WeightTable K}

/-- The mean of the scores of a category's members; a member without a score counts as zero. -/
def categoryMean (g : Graph) (scores : Table K) (category : String) : K :=
  ((members g.arguments category).map (scoreUnder scores)).sum /
    (members g.arguments category).length

theorem categoryMean_eq_plainMean (category : String) :
    g.categoryMean scores category =
      plainMean ((members g.arguments category).map (scoreUnder scores)) := by
  rw [plainMean, Scalar.total_eq_sum, List.length_map, categoryMean]

theorem mean_of_mem_rows {category : String} {mean : K}
    (row : (category, mean) ∈ (aggregate g scores weights).categoryScores.rows) :
    mean = g.categoryMean scores category := by
  obtain ⟨_, rfl⟩ := mem_rows_aggregate.1 row
  rw [Tally.mean_ofList, categoryMean_eq_plainMean]

theorem toFinset_keys_aggregate (g : Graph) (scores : Table K) (weights : WeightTable K) :
    (aggregate g scores weights).categoryScores.keys.toFinset = g.present := by
  ext category
  rw [List.mem_toFinset, mem_present]
  constructor
  · intro listed
    obtain ⟨⟨_, mean⟩, row, rfl⟩ := List.mem_map.1 listed
    exact (mem_rows_aggregate.1 row).1
  · intro filled
    have row : (category, _) ∈ (aggregate g scores weights).categoryScores.rows :=
      mem_rows_aggregate.2 ⟨filled, rfl⟩
    exact List.mem_map_of_mem row

/-- A sum over the category scores is one over the categories present. -/
theorem sum_rows_aggregate (f : String → K → K) :
    ((aggregate g scores weights).categoryScores.rows.map fun row => f row.1 row.2).sum =
      ∑ category ∈ g.present, f category (g.categoryMean scores category) := by
  have rows : ((aggregate g scores weights).categoryScores.rows.map fun row => f row.1 row.2) =
      (aggregate g scores weights).categoryScores.keys.map
        fun category => f category (g.categoryMean scores category) := by
    rw [Table.keys, List.map_map]
    apply List.map_congr_left
    rintro ⟨category, mean⟩ row
    rw [mean_of_mem_rows row]
    rfl
  rw [rows, ← toFinset_keys_aggregate g scores weights,
    List.sum_toFinset _ (Table.nodup_keys _)]

theorem length_rows_aggregate :
    (aggregate g scores weights).categoryScores.rows.length = g.present.card := by
  rw [← toFinset_keys_aggregate g scores weights,
    List.toFinset_card_of_nodup (Table.nodup_keys _), Table.keys, List.length_map]

/-! What the final score is computed from, as sums over the categories present. -/

theorem isEmpty_aggregate (nonempty : g.present.Nonempty) :
    (aggregate g scores weights).categoryScores.isEmpty = false := by
  have rows : 0 < (aggregate g scores weights).categoryScores.rows.length := by
    rw [length_rows_aggregate]
    exact nonempty.card_pos
  simpa [Table.isEmpty, List.length_pos_iff] using rows

theorem plainMean_values_aggregate :
    plainMean (aggregate g scores weights).categoryScores.values =
      (∑ category ∈ g.present, g.categoryMean scores category) / g.present.card := by
  rw [plainMean, Scalar.total_eq_sum, Table.values, sum_rows_aggregate fun _ mean => mean,
    List.length_map, length_rows_aggregate]

theorem total_strengths_aggregate :
    Scalar.total (((aggregate g scores weights).categoryScores.rows.map fun row =>
      (row.2, weights.strength row.1)).map Prod.snd) =
        ∑ category ∈ g.present, weights.strength category := by
  rw [Scalar.total_eq_sum, List.map_map]
  exact sum_rows_aggregate fun category _ => weights.strength category

theorem weightedMean_rows_aggregate :
    weightedMean ((aggregate g scores weights).categoryScores.rows.map fun row =>
      (row.2, weights.strength row.1)) =
        (∑ category ∈ g.present, weights.strength category * g.categoryMean scores category) /
          ∑ category ∈ g.present, weights.strength category := by
  rw [weightedMean, total_strengths_aggregate, Scalar.total_eq_sum, List.map_map]
  congr 1
  refine (sum_rows_aggregate fun category mean => mean * weights.strength category).trans ?_
  exact Finset.sum_congr rfl fun category _ => mul_comm _ _

/-- The final score is the plain mean when one of the shortcuts is taken, and otherwise the
weighted mean. -/
theorem finalScore_aggregate (nonempty : g.present.Nonempty) :
    (aggregate g scores weights).finalScore = some
      (if weights.isBalancedOver (aggregate g scores weights).categoryScores.keys = true ∨
          ∑ category ∈ g.present, weights.strength category < WeightTable.epsilon then
        (∑ category ∈ g.present, g.categoryMean scores category) / g.present.card
      else (∑ category ∈ g.present, weights.strength category * g.categoryMean scores category) /
        ∑ category ∈ g.present, weights.strength category) := by
  change finalScore (aggregate g scores weights).categoryScores weights = _
  rw [finalScore, isEmpty_aggregate nonempty]
  simp only [Bool.false_eq_true, if_false, total_strengths_aggregate, plainMean_values_aggregate,
    weightedMean_rows_aggregate, Bool.or_eq_true, Scalar.less_eq_true_iff]
  exact (apply_ite some _ _ _).symm

variable [IsStrictOrderedRing K]

/-- Scores between zero and one have means between zero and one. -/
theorem categoryMean_mem_unit {category : String} (filled : category ∈ g.present)
    (unit : ∀ score ∈ scores.values, 0 ≤ score ∧ score ≤ 1) :
    0 ≤ g.categoryMean scores category ∧ g.categoryMean scores category ≤ 1 := by
  have each : ∀ score ∈ (members g.arguments category).map (scoreUnder scores),
      0 ≤ score ∧ score ≤ 1 := by
    intro score listed
    obtain ⟨argument, _, rfl⟩ := List.mem_map.1 listed
    rw [scoreUnder]
    cases found : scores.get? argument.id with
    | none => exact ⟨le_rfl, zero_le_one⟩
    | some score => exact unit score (List.mem_map_of_mem (Table.get?_eq_some_iff.1 found))
  have nonempty : (members g.arguments category).map (scoreUnder scores) ≠ [] := by
    simpa using mem_present.1 filled
  rw [categoryMean_eq_plainMean]
  obtain ⟨least, greatest, ⟨leastMember, _⟩, ⟨greatestMember, _⟩, above, below⟩ :=
    liesWithin_plainMean nonempty
  exact ⟨(each least leastMember).1.trans above, below.trans (each greatest greatestMember).2⟩

end Graph

/-! ## The shortcuts -/

section Shortcuts

variable [LinearOrder K] {g : Graph} {scores : Table K} {weights : WeightTable K}

theorem WeightTable.isBalancedOver_cons_iff {first : String} {rest : List String} :
    weights.isBalancedOver (first :: rest) = true ↔
      ∀ key ∈ rest, |weights.strength key - weights.strength first| < epsilon := by
  rw [isBalancedOver, List.all_eq_true]
  simp only [Scalar.less_eq_true_iff]
  rfl

/-- All of the keys weigh nearly as much as one of them. -/
def WeightTable.EvenOver (weights : WeightTable K) (keys : Finset String) : Prop :=
  ∃ first ∈ keys, ∀ key ∈ keys, key ≠ first →
    |weights.strength key - weights.strength first| < epsilon

/-- Categories that count as balanced weigh nearly as much as the first of them. -/
theorem evenOver_of_balanced (nonempty : g.present.Nonempty)
    (balanced : weights.isBalancedOver (aggregate g scores weights).categoryScores.keys = true) :
    weights.EvenOver g.present := by
  have listed := Graph.toFinset_keys_aggregate g scores weights
  cases keys : (aggregate g scores weights).categoryScores.keys with
  | nil =>
      rw [keys] at listed
      exact absurd listed.symm nonempty.ne_empty
  | cons first rest =>
      rw [keys] at listed balanced
      rw [← listed]
      refine ⟨first, by simp, fun key member different => ?_⟩
      have later : key ∈ rest := by simpa [different] using member
      exact WeightTable.isBalancedOver_cons_iff.1 balanced key later

variable [IsStrictOrderedRing K]

theorem WeightTable.epsilon_eq : (epsilon : K) = 1 / 10 ^ 9 := by
  rw [epsilon]
  norm_num

/-- When the total weight is close to nothing, there is one category. -/
theorem evenOver_of_light (nonempty : g.present.Nonempty)
    (heavy : (g.present.card : K) - 1 ≤ ∑ category ∈ g.present, weights.strength category)
    (light : ∑ category ∈ g.present, weights.strength category < WeightTable.epsilon) :
    weights.EvenOver g.present := by
  have few : (g.present.card : K) < 2 := by
    have small : (WeightTable.epsilon : K) < 1 := by
      rw [WeightTable.epsilon_eq]
      norm_num
    linarith
  have single : g.present.card ≤ 1 := by
    have : g.present.card < 2 := by exact_mod_cast few
    omega
  obtain ⟨first, member⟩ := nonempty
  refine ⟨first, member, fun key present different => ?_⟩
  exact absurd (Finset.card_le_one.1 single key present first member) different

/-- Under weights that leave at most one category without its share the final score is nearly
the weighted mean. -/
theorem exists_finalScore_near (unit : ∀ score ∈ scores.values, 0 ≤ score ∧ score ≤ 1)
    (positive : 0 < ∑ category ∈ g.present, weights.strength category)
    (heavy : (g.present.card : K) - 1 ≤ ∑ category ∈ g.present, weights.strength category) :
    ∃ final, (aggregate g scores weights).finalScore = some final ∧
      |final - (∑ category ∈ g.present, weights.strength category *
        g.categoryMean scores category) / ∑ category ∈ g.present, weights.strength category| <
          WeightTable.epsilon := by
  have nonempty : g.present.Nonempty := Finset.nonempty_of_sum_ne_zero positive.ne'
  refine ⟨_, Graph.finalScore_aggregate nonempty, ?_⟩
  split
  next shortcut =>
    obtain ⟨first, member, close⟩ : weights.EvenOver g.present := by
      rcases shortcut with balanced | light
      · exact evenOver_of_balanced nonempty balanced
      · exact evenOver_of_light nonempty heavy light
    exact abs_plainMean_sub_weightedMean_lt member
      (fun category present => Graph.categoryMean_mem_unit present unit) close positive heavy
      WeightTable.epsilon_pos
  next =>
    rw [sub_self, abs_zero]
    exact WeightTable.epsilon_pos

end Shortcuts

/-- At a slider position the shortcuts of the final score do not matter: when the categories
present have some weight, then there is a final score, and it differs by less than `1e-9` from
the mean of the categories' means weighted as they are. -/
theorem finalScore_near_weightedMean {K : Type*} [Field K] [LinearOrder K] [IsStrictOrderedRing K]
    (g : Graph) {slider : Slider K} {scores : Table K} (onScale : slider.OnScale)
    (unit : ∀ score ∈ scores.values, 0 ≤ score ∧ score ≤ 1) :
    let weights := WeightTable.ofSlider g.categories slider
    let total := ∑ category ∈ g.present, weights.weight category
    0 < total →
      ∃ final, (aggregate g scores weights).finalScore = some final ∧
        |final - (∑ category ∈ g.present, weights.weight category *
          g.categoryMean scores category) / total| < 1 / 10 ^ 9 := by
  intro weights total positive
  have strength (category : String) : weights.weight category = weights.strength category :=
    (WeightTable.strength_ofSlider g.categories onScale category).symm
  have heavy : (g.present.card : K) - 1 ≤ total :=
    WeightTable.card_sub_one_le_sum_weight g.categories onScale g.present
  simp only [total, strength] at positive heavy ⊢
  rw [← WeightTable.epsilon_eq]
  exact exists_finalScore_near unit positive heavy

/-- A position just off the middle, where the plain mean is taken though the weights differ.
One argument has no score. -/
theorem finalScore_near_weightedMean_of_nudged :
    let config := ((CategoryConfig.empty.declare "eco" "Economic" "").declare "env"
      "Environmental" "").declare "care" "Care" ""
    let g := ((((Graph.empty config).after
      (.create ⟨"A", "a", "eco", none, ["B"], []⟩)).after
        (.create ⟨"B", "b", "env", none, [], []⟩)).after
          (.create ⟨"C", "c", "eco", none, ["A"], []⟩)).after
            (.create ⟨"D", "d", "care", none, [], []⟩)
    let slider : Slider ℚ := ⟨1 / 2 + 1 / 10 ^ 10⟩
    let scores := ((Table.empty.set "A" (1 : ℚ)).set "B" (1 / 4)).set "D" 1
    let weights := WeightTable.ofSlider g.categories slider
    let weighted := (∑ category ∈ g.present, weights.weight category *
      g.categoryMean scores category) / ∑ category ∈ g.present, weights.weight category
    (aggregate g scores weights).finalScore = some (7 / 12) ∧ weighted ≠ 7 / 12 ∧
      |7 / 12 - weighted| < 1 / 10 ^ 9 := by
  intro config g slider scores weights weighted
  have onScale : slider.OnScale := ⟨by decide +kernel, by decide +kernel⟩
  have unit : ∀ score ∈ scores.values, 0 ≤ score ∧ score ≤ 1 := by decide +kernel
  have positive : 0 < ∑ category ∈ g.present, weights.weight category := by decide +kernel
  have plain : (aggregate g scores weights).finalScore = some (7 / 12) := by decide +kernel
  obtain ⟨final, scored, near⟩ := finalScore_near_weightedMean g onScale unit positive
  obtain rfl : 7 / 12 = final := Option.some.inj (plain.symm.trans scored)
  exact ⟨plain, by decide +kernel, near⟩

end WeightedArgumentation
