import Mathlib.Algebra.Order.Field.Basic
import Mathlib.Logic.Equiv.Basic
import WeightedArgumentation.Proofs.Semantics.Renaming
import WeightedArgumentation.Proofs.Weights.SliderTable

/-!
# Economy and environment are mirror images

At a slider position the economic category weighs as much as the environmental one does at the
mirrored position, and every other category, as well as one that is not configured, weighs 1 at
both.  So exchanging the two categories and mirroring the slider leaves every argument with the
weight that it attacks with, and the evaluation stays the same but for the names of the two
means.
-/

namespace WeightedArgumentation

/-- The exchange of the economic and the environmental category. -/
def mirrorCategory : Equiv.Perm String :=
  .swap CategoryConfig.economic CategoryConfig.environmental

variable {K : Type*} [Field K]

namespace Slider

/-- The position as far from fully environmental as this one is from fully economic. -/
def mirrored (slider : Slider K) : Slider K := ⟨1 - slider.value⟩

variable [LinearOrder K]

theorem economicWeight_mirrored (slider : Slider K) :
    slider.mirrored.economicWeight = slider.environmentalWeight := by
  rw [economicWeight, environmentalWeight, mirrored, sub_sub_cancel]

/-- The categories exchange their weights when the slider is mirrored. -/
theorem weightOf_mirrored (slider : Slider K) (key : String) :
    slider.mirrored.weightOf (mirrorCategory key) = slider.weightOf key := by
  have apart : CategoryConfig.environmental ≠ CategoryConfig.economic := by decide
  rw [weightOf, weightOf, mirrorCategory]
  by_cases economic : key = CategoryConfig.economic
  · rw [economic, Equiv.swap_apply_left, if_neg apart, if_pos rfl, if_pos rfl]
    rfl
  · by_cases environmental : key = CategoryConfig.environmental
    · rw [environmental, Equiv.swap_apply_right, if_pos rfl, if_neg apart, if_pos rfl,
        economicWeight_mirrored]
    · rw [Equiv.swap_apply_of_ne_of_ne economic environmental, if_neg economic,
        if_neg environmental, if_neg economic, if_neg environmental]

/-- Whatever value is asked for, the mirrored value leads to the mirrored position. -/
theorem nearest_one_sub [IsStrictOrderedRing K] (value : K) :
    nearest (1 - value) = (nearest value).mirrored := by
  have position (value : K) : nearest value = ⟨max 0 (min 1 value)⟩ := by
    simp only [nearest, Scalar.isFinite, if_true, Scalar.less_eq_true_iff]
    split
    next below => rw [max_eq_left ((min_le_right _ _).trans below.le)]
    next notBelow =>
      split
      next above => rw [min_eq_left above.le, max_eq_right zero_le_one]
      next notAbove => rw [min_eq_right (not_lt.1 notAbove), max_eq_right (not_lt.1 notBelow)]
  rw [position, position, mirrored]
  refine congrArg Slider.mk ?_
  rcases le_total value 0 with below | nonneg
  · rw [min_eq_right (below.trans zero_le_one), max_eq_left below, min_eq_left (by linarith),
      max_eq_right zero_le_one, sub_zero]
  · rcases le_total 1 value with above | atMost
    · rw [min_eq_left above, max_eq_right zero_le_one, min_eq_right (by linarith),
        max_eq_left (by linarith), sub_self]
    · rw [min_eq_right atMost, max_eq_right nonneg, min_eq_right (by linarith),
        max_eq_right (by linarith)]

end Slider

variable [LinearOrder K]

/-- Under its new name every category weighs at the mirrored position what it weighed before,
whether it is configured or not. -/
theorem WeightTable.weight_mirrored (config : CategoryConfig) (slider : Slider K) (key : String) :
    (ofSlider (config.renamed mirrorCategory) slider.mirrored).weight (mirrorCategory key) =
      (ofSlider config slider).weight key := by
  have configured : mirrorCategory key ∈ (config.renamed mirrorCategory).keys ↔
      key ∈ config.keys := Table.mem_keys_renamed
  simp only [weight_ofSlider, configured, Slider.weightOf_mirrored]

/-- At the mirrored position the graph with the two categories exchanged has the evaluation of
the graph, with the two keys of the category means exchanged. -/
theorem evaluate_ofSlider_mirrored (g : Graph) (slider : Slider K) (config : SolverConfig K) :
    evaluate (g.renamed mirrorCategory)
        (.ofSlider (g.renamed mirrorCategory).categories slider.mirrored) config =
      { evaluate g (.ofSlider g.categories slider) config with
        categoryMeans := (evaluate g (.ofSlider g.categories slider)
          config).categoryMeans.renamed mirrorCategory } :=
  evaluate_renamed (WeightTable.weight_mirrored g.categories slider) g config

/-- In exact arithmetic a graph in which the economic and the environmental category are
exchanged, evaluated where the slider is asked for the mirrored value, has the scores, the
convergence and the final score of the graph where it is asked for the value, and its category
means with the two keys exchanged. -/
theorem evaluate_mirrored [IsStrictOrderedRing K] (g : Graph) (config : SolverConfig K)
    (value : K) :
    let image := g.renamed mirrorCategory
    let mirrored := evaluate image (.ofSlider image.categories (.nearest (1 - value))) config
    let original := evaluate g (.ofSlider g.categories (.nearest value)) config
    mirrored.scores = original.scores ∧ mirrored.convergence = original.convergence ∧
      mirrored.finalScore = original.finalScore ∧
      mirrored.categoryMeans = original.categoryMeans.renamed mirrorCategory := by
  intro image mirrored original
  have same : mirrored =
      { original with categoryMeans := original.categoryMeans.renamed mirrorCategory } := by
    simp only [mirrored, Slider.nearest_one_sub]
    exact evaluate_ofSlider_mirrored g (.nearest value) config
  rw [same]
  exact ⟨rfl, rfl, rfl, rfl⟩

/-- A cycle of an economic and an environmental argument, an argument of a third category that is
attacked by both, and an economic one besides, at a quarter. -/
theorem evaluate_mirrored_of_cycle :
    let config := ((CategoryConfig.empty.declare "eco" "Economic" "").declare "care" "Care"
      "").declare "env" "Environmental" ""
    let g := ((((Graph.empty config).after (.create ⟨"A", "a", "eco", none, ["B", "C"], []⟩)).after
      (.create ⟨"B", "b", "env", none, ["A", "C"], []⟩)).after
        (.create ⟨"C", "c", "care", none, [], []⟩)).after
          (.create ⟨"D", "d", "eco", none, ["Z"], []⟩)
    let solver : SolverConfig ℚ := { SolverConfig.default with maxIterations := 3 }
    let image := g.renamed mirrorCategory
    let mirrored := evaluate image (.ofSlider image.categories (.nearest (1 - 1 / 4))) solver
    let original := evaluate g (.ofSlider g.categories (.nearest (1 / 4))) solver
    image.categories.keys = ["env", "care", "eco"] ∧
      image.arguments.map Argument.category = ["env", "eco", "care", "env"] ∧
      original.categoryMeans.keys = ["eco", "env", "care"] ∧
      mirrored.categoryMeans.keys = ["env", "eco", "care"] ∧
      mirrored.scores = original.scores ∧ mirrored.convergence = original.convergence ∧
      mirrored.finalScore = original.finalScore ∧
      mirrored.categoryMeans = original.categoryMeans.renamed mirrorCategory := by
  intro config g solver image mirrored original
  exact ⟨by decide +kernel, by decide +kernel, by decide +kernel, by decide +kernel,
    evaluate_mirrored g solver (1 / 4)⟩

end WeightedArgumentation
