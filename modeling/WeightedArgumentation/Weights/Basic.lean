import WeightedArgumentation.Category
import WeightedArgumentation.Scalar

/-!
# Category weights and the importance slider

A weight table gives a weight to each category; a category that is not in the
table weighs 1.  The slider stands between fully economic (0) and fully
environmental (1).  Its table gives the economic category `2 · (1 - v)`, the
environmental one `2 · v` and every other configured category 1.
-/

namespace WeightedArgumentation

universe u

/-- A position of the importance slider. -/
structure Slider (R : Type u) where
  value : R

namespace Slider

variable {R : Type u} [Scalar R]

/-- The position halfway between economic and environmental. -/
def balanced : Slider R := ⟨0.5⟩

/-- The position nearest to a value; halfway for a value that is not finite. -/
def nearest (value : R) : Slider R :=
  if Scalar.isFinite value then
    if Scalar.less value 0 then ⟨0⟩
    else if Scalar.less 1 value then ⟨1⟩
    else ⟨value⟩
  else balanced

/-- The weight of the economic category. -/
def economicWeight (slider : Slider R) : R := 2.0 * (1 - slider.value)

/-- The weight of the environmental category. -/
def environmentalWeight (slider : Slider R) : R := 2.0 * slider.value

/-- The weight of a configured category. -/
def weightOf (slider : Slider R) (key : String) : R :=
  if key = CategoryConfig.economic then slider.economicWeight
  else if key = CategoryConfig.environmental then slider.environmentalWeight
  else 1

end Slider

/-- Weights by category key. -/
structure WeightTable (R : Type u) where
  table : Table R

namespace WeightTable

variable {R : Type u} [Scalar R]

/-- The table without weights. -/
def empty : WeightTable R := ⟨.empty⟩

/-- The table that gives every configured category the weight 1. -/
def balanced (config : CategoryConfig) : WeightTable R := ⟨config.table.map fun _ => 1⟩

/-- The table of the configured categories at a slider position. -/
def ofSlider (config : CategoryConfig) (slider : Slider R) : WeightTable R :=
  ⟨.ofKeys config.keys config.table.distinct slider.weightOf⟩

/-- Sets one weight; a negative one becomes zero. -/
def set (weights : WeightTable R) (key : String) (weight : R) : WeightTable R :=
  ⟨weights.table.set key (Scalar.clampNegative weight)⟩

/-- The weight of a category, 1 when it is not in the table. -/
def weight (weights : WeightTable R) (key : String) : R := (weights.table.get? key).getD 1

/-- The weight that a category counts with: a negative weight counts as zero. -/
def strength (weights : WeightTable R) (key : String) : R :=
  Scalar.clampNegative (weights.weight key)

/-- Two weights closer than this count as equal. -/
def epsilon : R := 1e-9

/-- Whether every key counts with the weight of the first one, up to `epsilon`. -/
def isBalancedOver (weights : WeightTable R) : List String → Bool
  | [] => true
  | first :: rest => rest.all fun key =>
      Scalar.less (Scalar.magnitude (weights.strength key - weights.strength first)) epsilon

end WeightTable

end WeightedArgumentation
