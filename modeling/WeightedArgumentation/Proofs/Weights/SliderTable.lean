import Mathlib.Algebra.BigOperators.Ring.Finset
import WeightedArgumentation.Proofs.Semantics.Exact
import WeightedArgumentation.Proofs.Service.Consistent

/-!
# The weights at a slider position

At a slider position the economic category gains what the environmental one loses, and every
other category weighs 1, whether it is configured or not.  So categories weigh at least 1 on
average but for one of them: when both are present their weights add up to 2, and when only one
is, it cannot weigh less than nothing.
-/

namespace WeightedArgumentation

universe u

theorem Table.get?_ofKeys {α : Type u} {list : List String} (distinct : list.Nodup)
    (f : String → α) (key : String) :
    (ofKeys list distinct f).get? key = if key ∈ list then some (f key) else none := by
  apply Option.ext
  intro value
  rw [get?_eq_some_iff, ofKeys, List.mem_map]
  split
  next listed =>
    simp only [Prod.mk.injEq, Option.some.injEq]
    constructor
    · rintro ⟨_, _, rfl, same⟩
      exact same
    · intro same
      exact ⟨key, listed, rfl, same⟩
  next unlisted =>
    simp only [Prod.mk.injEq, reduceCtorEq, iff_false]
    rintro ⟨_, listed, rfl, _⟩
    exact unlisted listed

/-- A configured category has the weight of the slider, any other one weighs 1. -/
theorem WeightTable.weight_ofSlider {R : Type u} [Scalar R] (config : CategoryConfig)
    (slider : Slider R) (key : String) :
    (ofSlider config slider).weight key =
      if key ∈ config.keys then slider.weightOf key else 1 := by
  have lookup : (ofSlider config slider).table.get? key =
      if key ∈ config.keys then some (slider.weightOf key) else none :=
    Table.get?_ofKeys config.table.distinct slider.weightOf key
  rw [weight, lookup]
  split <;> rfl

/-! ## In exact arithmetic -/

variable {K : Type*} [Field K] [LinearOrder K] [IsStrictOrderedRing K] {slider : Slider K}

namespace Slider

/-- What the economic category gains at a slider position and the environmental one loses. -/
def tilt (slider : Slider K) : K := 1 - 2 * slider.value

theorem OnScale.abs_tilt_le_one (onScale : slider.OnScale) : |slider.tilt| ≤ 1 := by
  obtain ⟨lower, upper⟩ := onScale
  rw [tilt, abs_le]
  constructor <;> linarith

theorem weightOf_eq (slider : Slider K) (key : String) :
    slider.weightOf key = 1 + (if key = CategoryConfig.economic then slider.tilt else 0) -
      if key = CategoryConfig.environmental then slider.tilt else 0 := by
  have apart : CategoryConfig.economic ≠ CategoryConfig.environmental := by decide
  have two : (2.0 : K) = 2 := by norm_num
  rw [weightOf, economicWeight, environmentalWeight, tilt, two]
  by_cases economic : key = CategoryConfig.economic
  · rw [if_pos economic, if_pos economic, if_neg (economic ▸ apart)]
    ring
  · rw [if_neg economic, if_neg economic]
    by_cases environmental : key = CategoryConfig.environmental
    · rw [if_pos environmental, if_pos environmental]
      ring
    · rw [if_neg environmental, if_neg environmental]
      ring

/-- The tilt of a key that is configured; the slider does not move the weight of any other. -/
def tiltOf (slider : Slider K) (config : CategoryConfig) (key : String) : K :=
  if key ∈ config.keys then slider.tilt else 0

end Slider

namespace WeightTable

theorem weight_ofSlider_eq (config : CategoryConfig) (slider : Slider K) (key : String) :
    (ofSlider config slider).weight key =
      1 + (if key = CategoryConfig.economic then
        slider.tiltOf config CategoryConfig.economic else 0) -
          if key = CategoryConfig.environmental then
            slider.tiltOf config CategoryConfig.environmental else 0 := by
  rw [weight_ofSlider, slider.weightOf_eq, Slider.tiltOf, Slider.tiltOf]
  grind

/-- Among any categories at most one weighs less than 1 without another one making up for it. -/
theorem card_sub_one_le_sum_weight (config : CategoryConfig) (onScale : slider.OnScale)
    (keys : Finset String) :
    (keys.card : K) - 1 ≤ ∑ key ∈ keys, (ofSlider config slider).weight key := by
  have total : ∑ key ∈ keys, (ofSlider config slider).weight key =
      keys.card + (if CategoryConfig.economic ∈ keys then
        slider.tiltOf config CategoryConfig.economic else 0) -
          if CategoryConfig.environmental ∈ keys then
            slider.tiltOf config CategoryConfig.environmental else 0 := by
    simp only [weight_ofSlider_eq, Finset.sum_sub_distrib, Finset.sum_add_distrib,
      Finset.sum_ite_eq', Finset.sum_const, nsmul_eq_mul, mul_one]
  obtain ⟨lower, upper⟩ := abs_le.1 onScale.abs_tilt_le_one
  rw [total, Slider.tiltOf, Slider.tiltOf]
  -- of the two keys each may be missing here or in the configuration; the tilts of both cancel
  grind

/-- At a position on the scale no weight is negative, so each counts as it is. -/
theorem strength_ofSlider (config : CategoryConfig) (onScale : slider.OnScale) (key : String) :
    (ofSlider config slider).strength key = (ofSlider config slider).weight key := by
  have nonneg : 0 ≤ (ofSlider config slider).weight key := by
    simpa using card_sub_one_le_sum_weight config onScale {key}
  rw [strength, Scalar.clampNegative_eq_max, max_eq_right nonneg]

end WeightTable

end WeightedArgumentation
