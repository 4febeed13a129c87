import WeightedArgumentation.Proofs.Scalar.Arithmetic
import WeightedArgumentation.Proofs.Semantics.Passes
import WeightedArgumentation.Proofs.Semantics.Tallies
import WeightedArgumentation.Semantics.Evaluation

/-!
# Means are finite

In double precision sums can become infinite and their quotients no numbers.  When no
category weighs more than 2, this does not reach the means: scores stay between 0 and 1 even
where the burden of an argument is infinite, and a sum of such scores comes to a stop at
`2 ^ 53`, where one more score is rounded away.
-/

namespace WeightedArgumentation

namespace Double

/-! ## The plateau -/

/-- Where a sum of scores comes to a stop. -/
def plateau : Float := 9007199254740992.0

theorem holds_plateau : Holds plateau (2 ^ 53) :=
  holds_of_unpack (m := 2 ^ 52) (e := 1) (by decide) (by constructor <;> decide) (by norm_num) rfl

theorem plateau_add_one : plateau + 1.0 = plateau := rfl

/-! ## Sums -/

theorem nonnegative_foldl {start : Float} (startNonneg : Nonnegative start) {values : List Float}
    (nonneg : ∀ value ∈ values, Nonnegative value) : Nonnegative (values.foldl (· + ·) start) := by
  induction values generalizing start with
  | nil => exact startNonneg
  | cons value rest ih =>
      exact ih (startNonneg.add (nonneg value List.mem_cons_self))
        fun other member => nonneg other (List.mem_cons_of_mem value member)

theorem nonnegative_total {values : List Float} (nonneg : ∀ value ∈ values, Nonnegative value) :
    Nonnegative (Scalar.total values) := by
  cases values with
  | nil => exact .inl ⟨0, holds_zero⟩
  | cons first rest =>
      exact nonnegative_foldl (nonneg first List.mem_cons_self)
        fun value member => nonneg value (List.mem_cons_of_mem first member)

/-- One more than what is not negative is not less than one. -/
theorem one_le_one_add {x : Float} (nonneg : Nonnegative x) :
    (∃ w, 1 ≤ w ∧ Holds (1.0 + x) w) ∨ Overflows (1.0 + x) := by
  rcases nonneg with ⟨v, holds⟩ | overflows
  · exact holds_one.rounded.le_or_overflows (holds_one.add holds)
      (le_add_of_nonneg_right (Is.nonneg holds)) holds_one
  · exact .inr (holds_one.add_overflows overflows)

/-! ## Counts -/

/-- A small natural number is converted exactly and multiplied by one. -/
theorem ofNat_of_lt {n : ℕ} (small : n < 2 ^ 53) :
    Float.ofNat n = n.toUInt64.toFloat * 1.0 := by
  show Float.ofScientific n false 0 = _
  rw [Float.ofScientific, dif_pos ⟨small, by decide⟩]
  rfl

/-- A large natural number is rounded from itself. -/
theorem rounded_ofNat {n : ℕ} (large : 2 ^ 53 ≤ n) : Rounded (Float.ofNat n) n := by
  have packed : Float.ofNat n =
      ⟨.pack (Float.Model.UnpackedFloat.ofScientific .binary64 n 0)⟩ := by
    show Float.ofScientific n false 0 = _
    rw [Float.ofScientific, dif_neg (by omega)]
    rfl
  have rounded := rounded_ofScientific (m := n) (n := 0) (by omega) (by decide)
  rw [pow_zero, mul_one] at rounded
  rw [packed]
  exact rounded

/-- The number of some values is not less than one. -/
theorem one_le_ofNat {n : ℕ} (positive : 0 < n) :
    (∃ w, 1 ≤ w ∧ Holds (Float.ofNat n) w) ∨ Overflows (Float.ofNat n) := by
  have oneLe : (1 : ℚ) ≤ n := by exact_mod_cast positive
  rcases lt_or_ge n (2 ^ 53) with small | large
  · have value : n.toUInt64.toNat = n := Nat.mod_eq_of_lt (by omega)
    have converted := rounded_toFloat n.toUInt64
    rw [value] at converted
    have atMost : (n : ℚ) ≤ 2 ^ 53 := by exact_mod_cast small.le
    obtain ⟨r, _, holds⟩ := converted.exists_le holds_plateau.rounded atMost holds_plateau
    have atLeast : 1 ≤ r := by
      rcases holds_one.rounded.le_or_overflows converted oneLe holds_one with
        ⟨s, oneLe, same⟩ | overflows
      · exact Is.unique same holds ▸ oneLe
      · exact absurd overflows holds.not_overflows
    rw [ofNat_of_lt small]
    exact holds_one.rounded.le_or_overflows (holds.mul holds_one) (by linarith) holds_one
  · exact holds_one.rounded.le_or_overflows (rounded_ofNat large) oneLe holds_one

end Double

open Double

/-! ## Scores -/

/-- No category counts with a weight of more than 2. -/
def WeightTable.Moderate (weights : WeightTable Float) : Prop :=
  ∀ key, ∃ w ≤ 2, Holds (weights.strength key) w

variable {g : Graph} {weights : WeightTable Float}

/-- No score exceeds one. -/
theorem Graph.exists_scoreAfter_le_one (moderate : weights.Moderate) (passes : Nat)
    (argument : Argument) : ∃ s ≤ 1, Holds (g.scoreAfter weights passes argument) s := by
  induction passes generalizing argument with
  | zero => exact ⟨1, le_rfl, holds_one⟩
  | succ passes ih =>
      refine holds_one.exists_div_le (one_le_one_add (nonnegative_total fun value member => ?_))
      obtain ⟨attacker, _, rfl⟩ := List.mem_map.1 member
      obtain ⟨w, _, weight⟩ := moderate attacker.category
      obtain ⟨s, _, score⟩ := ih attacker
      exact (weight.mul score).nonnegative

/-! ## Means -/

/-- A tally of scores does not exceed the plateau. -/
theorem Tally.exists_sum_le {values : List Float}
    (scores : ∀ value ∈ values, ∃ s ≤ 1, Holds value s) :
    ∃ s ≤ 2 ^ 53, Holds (Tally.ofList values).sum s := by
  induction values using List.reverseRecOn with
  | nil => exact ⟨0, by norm_num, holds_zero⟩
  | append_singleton values value ih =>
      obtain ⟨sum, sumLe, sumHolds⟩ := ih fun other member => scores other (by simp [member])
      obtain ⟨score, scoreLe, scoreHolds⟩ := scores value (by simp)
      have most : Rounded plateau (2 ^ 53 + 1) := plateau_add_one ▸ holds_plateau.add holds_one
      rw [Tally.ofList_append]
      exact (sumHolds.add scoreHolds).exists_le most (add_le_add sumLe scoreLe) holds_plateau

/-- The mean of some scores is finite. -/
theorem Tally.isFinite_mean {values : List Float} (nonempty : values ≠ [])
    (scores : ∀ value ∈ values, ∃ s ≤ 1, Holds value s) :
    (Tally.ofList values).mean.isFinite = true := by
  obtain ⟨sum, _, sumHolds⟩ := exists_sum_le scores
  have count : 0 < (Tally.ofList values).count := by
    rw [count_ofList]
    exact List.length_pos_of_ne_nil nonempty
  obtain ⟨mean, _, meanHolds⟩ := sumHolds.exists_div_le (one_le_ofNat count)
  exact meanHolds.isFinite

/-- The mean of every category is finite. -/
theorem isFinite_categoryMeans (moderate : weights.Moderate) (config : SolverConfig Float)
    {category : String} {mean : Float}
    (row : (category, mean) ∈ (evaluate g weights config).categoryMeans.rows) :
    mean.isFinite = true := by
  have row : (category, mean) ∈
      (aggregate g (solve g weights config).scores weights).categoryScores.rows := row
  obtain ⟨filled, rfl⟩ := mem_rows_aggregate.1 row
  refine Tally.isFinite_mean (by simpa using filled) fun value member => ?_
  obtain ⟨argument, inCategory, rfl⟩ := List.mem_map.1 member
  rw [scoreUnder, get?_solve weights config (mem_members.1 inCategory).1]
  exact Graph.exists_scoreAfter_le_one moderate _ argument

end WeightedArgumentation
