/-!
# The arithmetic of scores

Scores, weights and tolerances are computed in one arithmetic, which is left
open here: programs run in floating point, and the theory can be read over any
ordered field.  Only the operations listed are used, so nothing depends on laws
that floating point breaks.
-/

namespace WeightedArgumentation

universe u

/-- The operations that scores are computed with.  Literals are decimal
fractions. -/
class Scalar (R : Type u) extends
    Zero R, One R, Add R, Sub R, Mul R, Div R, NatCast R, OfScientific R where
  less : R → R → Bool
  magnitude : R → R
  isFinite : R → Bool

instance : Scalar Float where
  zero := 0.0
  one := 1.0
  natCast := Float.ofNat
  less x y := x < y
  magnitude := Float.abs
  isFinite := Float.isFinite

namespace Scalar

variable {R : Type u} [Scalar R]

/-- The larger of two values; the first one when they cannot be compared. -/
def larger (x y : R) : R := if less x y then y else x

/-- The sum of a list, from its first element on. -/
def total : List R → R
  | [] => 0
  | first :: rest => rest.foldl (· + ·) first

/-- The value, or zero when it is not positive. -/
def clampNegative (x : R) : R := larger 0 x

end Scalar

end WeightedArgumentation
