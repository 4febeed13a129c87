import WeightedArgumentation.Proofs.Semantics.Exact

/-!
# Arithmetic that notices a division by zero

A field gives every quotient a value, and what divides by zero there goes unnoticed.  Here a
division by zero is undefined, and so is everything that is computed from an undefined value.
An undefined value counts as larger than every other, so that a maximum does not lose it
either.  Where no divisor is zero, the operations are those of the field.
-/

namespace WeightedArgumentation

universe u

/-- A value of a field, or the outcome of a division by zero. -/
inductive Checked (K : Type u)
  | defined (x : K)
  | undefined

namespace Checked

variable {K : Type u}

/-- Applies an operation of the field to defined values. -/
def lift (operation : K → K → K) : Checked K → Checked K → Checked K
  | defined x, defined y => defined (operation x y)
  | _, _ => undefined

variable [Field K] [LinearOrder K]

instance : Scalar (Checked K) where
  zero := defined 0
  one := defined 1
  add := lift (· + ·)
  sub := lift (· - ·)
  mul := lift (· * ·)
  div
    | defined x, defined y => if y = 0 then undefined else defined (x / y)
    | _, _ => undefined
  natCast n := defined n
  ofScientific mantissa negative exponent :=
    defined (OfScientific.ofScientific mantissa negative exponent)
  less
    | defined x, defined y => Scalar.less x y
    | defined _, undefined => true
    | undefined, _ => false
  magnitude
    | defined x => defined (Scalar.magnitude x)
    | undefined => undefined
  isFinite
    | defined _ => true
    | undefined => false

/-! ## Operations on defined values -/

theorem zero_eq : (0 : Checked K) = defined 0 := rfl

theorem one_eq : (1 : Checked K) = defined 1 := rfl

@[simp] theorem defined_add (x y : K) : (defined x + defined y) = defined (x + y) := rfl

@[simp] theorem defined_sub (x y : K) : (defined x - defined y) = defined (x - y) := rfl

@[simp] theorem defined_mul (x y : K) : (defined x * defined y) = defined (x * y) := rfl

theorem defined_div (x : K) {y : K} (nonzero : y ≠ 0) :
    (defined x / defined y) = defined (x / y) :=
  if_neg nonzero

@[simp] theorem less_defined (x y : K) :
    Scalar.less (defined x) (defined y) = Scalar.less x y := rfl

@[simp] theorem magnitude_defined (x : K) :
    Scalar.magnitude (defined x) = defined (Scalar.magnitude x) := rfl

@[simp] theorem larger_defined (x y : K) :
    Scalar.larger (defined x) (defined y) = defined (Scalar.larger x y) := by
  rw [Scalar.larger, less_defined, Scalar.larger]
  split <;> rfl

@[simp] theorem clampNegative_defined (x : K) :
    Scalar.clampNegative (defined x) = defined (Scalar.clampNegative x) :=
  larger_defined 0 x

theorem foldl_larger_defined (start : K) (values : List K) :
    (values.map defined).foldl Scalar.larger (defined start) =
      defined (values.foldl Scalar.larger start) := by
  rw [List.foldl_map]
  exact List.foldl_hom defined larger_defined

@[simp] theorem total_defined (values : List K) :
    Scalar.total (values.map defined) = defined (Scalar.total values) := by
  cases values with
  | nil => rfl
  | cons first rest =>
      rw [List.map_cons, Scalar.total, List.foldl_map]
      exact List.foldl_hom defined defined_add

end Checked

end WeightedArgumentation
