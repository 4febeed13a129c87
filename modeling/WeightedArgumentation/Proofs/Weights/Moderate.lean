import WeightedArgumentation.Proofs.Semantics.FiniteMeans
import WeightedArgumentation.Proofs.Service.Consistent
import WeightedArgumentation.Proofs.Weights.SliderTable

/-!
# The weights of a slider

A position on the scale of the slider gives no category a weight of more than 2, whatever the
rounding.  The one position without a value is negative zero, which a client may ask for; its
weights are those of zero.

So every mean that a reachable service holds is finite.
-/

namespace WeightedArgumentation

namespace Double

open Float.Model (UnpackedFloat Format)
open Float.Model.UnpackedFloat

theorem rank_zero : rank 0.0 = some (toLex (0, toLex (0, 0))) := rfl

theorem rank_one : rank 1.0 = some (toLex (1, toLex (-52, 2 ^ 52))) := rfl

/-- A stored number that does not come after one is not larger than one. -/
theorem Canonical.le_one {m : ℕ} {e : ℤ} (canonical : Canonical m e)
    (below : e < -52 ∨ e = -52 ∧ m ≤ 2 ^ 52) : (m : ℚ) * 2 ^ e ≤ 1 := by
  rcases below with smaller | ⟨rfl, few⟩
  · have small : (m : ℚ) ≤ 2 ^ (53 : ℤ) := by exact_mod_cast canonical.small.le
    calc (m : ℚ) * 2 ^ e ≤ 2 ^ (53 : ℤ) * 2 ^ e := by gcongr
      _ = 2 ^ (53 + e) := (zpow_add₀ two_ne_zero _ _).symm
      _ ≤ 2 ^ (0 : ℤ) := zpow_le_zpow_right₀ one_le_two (by omega)
      _ = 1 := zpow_zero 2
  · have few : (m : ℚ) ≤ 2 ^ 52 := by exact_mod_cast few
    calc (m : ℚ) * 2 ^ (-52 : ℤ) ≤ 2 ^ 52 * 2 ^ (-52 : ℤ) := by gcongr
      _ = 1 := by norm_num

/-- A number from zero to one has such a value, unless it is negative zero. -/
theorem eq_neg_zero_or_exists {x : Float} (lower : (0.0 : Float) ≤ x) (upper : x ≤ 1.0) :
    x = -0.0 ∨ ∃ v ≤ 1, Holds x v := by
  obtain ⟨a, aRank, b, bRank, above⟩ := le_iff.1 lower
  obtain ⟨b', bRank', c, cRank, below⟩ := le_iff.1 upper
  obtain rfl := Option.some.inj (bRank.symm.trans bRank')
  obtain rfl := Option.some.inj (rank_zero.symm.trans aRank)
  obtain rfl := Option.some.inj (rank_one.symm.trans cRank)
  rw [rank] at bRank
  cases unpacked : x.toModel.unpack with
  | notANumber => simp [unpacked, place] at bRank
  | infinity sign =>
      rw [unpacked] at bRank
      cases sign with
      | positive =>
          cases bRank
          exact absurd below (by decide)
      | negative =>
          cases bRank
          exact absurd above (by decide)
  | zero sign =>
      cases sign with
      | positive =>
          right
          refine ⟨0, zero_le_one, ?_⟩
          rw [Holds, unpacked]
          exact .zero
      | negative => exact .inl (eq_of_unpack_eq unpacked)
  | finite sign m e positive =>
      rw [unpacked] at bRank
      cases sign with
      | positive =>
          cases bRank
          have canonical := canonical_of_unpack unpacked
          refine .inr ⟨m * 2 ^ e, canonical.le_one ?_, ?_⟩
          · simp only [Prod.Lex.toLex_le_toLex] at below
            omega
          · rw [Holds, unpacked]
            exact .finite positive canonical
      | negative =>
          cases bRank
          simp [Prod.Lex.toLex_le_toLex] at above

/-! ## Weights -/

/-- Clamping leaves a value as it is or makes it zero. -/
theorem exists_clampNegative_le {x : Float} (moderate : ∃ w ≤ 2, Holds x w) :
    ∃ w ≤ 2, Holds (Scalar.clampNegative x) w := by
  rw [Scalar.clampNegative, Scalar.larger]
  split
  next => exact moderate
  next => exact ⟨0, zero_le_two, holds_zero⟩

theorem exists_double_le {x : Float} (small : ∃ v ≤ 1, Holds x v) :
    ∃ w ≤ 2, Holds (2.0 * x) w := by
  obtain ⟨v, le, holds⟩ := small
  exact (holds_two.mul holds).exists_le holds_two.rounded (by linarith) holds_two

theorem exists_complement_le {x : Float} (small : ∃ v ≤ 1, Holds x v) :
    ∃ v ≤ 1, Holds (1.0 - x) v := by
  obtain ⟨v, le, holds⟩ := small
  have nonneg := Is.nonneg holds
  exact (holds_one.sub holds le).exists_le holds_one.rounded (by linarith) holds_one

end Double

open Double

/-- The weight of a category at a position on the scale is moderate. -/
theorem Slider.exists_weightOf_le {slider : Slider Float} (onScale : slider.OnScale)
    (key : String) : ∃ w ≤ 2, Holds (Scalar.clampNegative (slider.weightOf key)) w := by
  obtain ⟨value⟩ := slider
  have one : ∃ w ≤ 2, Holds (Scalar.clampNegative (1.0 : Float)) w :=
    exists_clampNegative_le ⟨1, one_le_two, holds_one⟩
  rcases eq_neg_zero_or_exists onScale.1 onScale.2 with rfl | small
  · have environmental : Scalar.clampNegative (2.0 * -0.0 : Float) = 0.0 := by decide +kernel
    have economic : Scalar.clampNegative (2.0 * (1.0 - -0.0) : Float) = 2.0 := by decide +kernel
    rw [weightOf]
    split
    next => exact ⟨2, le_rfl, economic ▸ holds_two⟩
    next =>
      split
      next => exact ⟨0, zero_le_two, environmental ▸ holds_zero⟩
      next => exact one
  · rw [weightOf]
    split
    next => exact exists_clampNegative_le (exists_double_le (exists_complement_le small))
    next =>
      split
      next => exact exists_clampNegative_le (exists_double_le small)
      next => exact one

/-- The weights at a position on the scale are moderate. -/
theorem WeightTable.moderate_ofSlider (config : CategoryConfig) {slider : Slider Float}
    (onScale : slider.OnScale) : (ofSlider config slider).Moderate := by
  intro key
  rw [strength, weight_ofSlider]
  split
  next => exact Slider.exists_weightOf_le onScale key
  next => exact exists_clampNegative_le ⟨1, one_le_two, holds_one⟩

namespace Service

/-- Every mean that a reachable service holds is finite. -/
theorem Reachable.isFinite_mean {solver : SolverConfig Float} {service : Service Float}
    (reachable : Reachable solver service) {category : String} {mean : Float}
    (row : (category, mean) ∈ service.evaluation.categoryMeans.rows) : mean.isFinite = true := by
  have consistent := reachable.consistent
  have moderate := WeightTable.moderate_ofSlider service.graph.categories consistent.onScale
  rw [← consistent.weights_eq] at moderate
  rw [consistent.evaluation_eq] at row
  exact isFinite_categoryMeans moderate solver row

end Service

end WeightedArgumentation
