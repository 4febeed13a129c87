import WeightedArgumentation.Proofs.Semantics.Exact

/-!
# Laws of the arithmetic of scores

Floating point breaks most laws of arithmetic.  The classes here name the few that
results about every arithmetic rest on: that a maximum does not depend on the order
in which it is taken, that comparison is transitive and orders the finite values, that an
empty sum leaves a score of one, and that a score which stays as it is counts as no change.
Exact arithmetic obeys them.
-/

namespace WeightedArgumentation.Scalar

universe u

/-- The largest magnitude in a list of values does not depend on their order. -/
class OrderFreeMaximum (R : Type u) [Scalar R] : Prop where
  foldl_larger_perm {values others : List R} (perm : values.Perm others) :
    (values.map magnitude).foldl larger 0 = (others.map magnitude).foldl larger 0

/-- A maximum does not depend on its order when any two magnitudes may change
places. -/
theorem OrderFreeMaximum.of_right_comm {R : Type u} [Scalar R]
    (swap : ∀ most x y : R, larger (larger most (magnitude x)) (magnitude y) =
      larger (larger most (magnitude y)) (magnitude x)) : OrderFreeMaximum R where
  foldl_larger_perm perm := by
    refine (perm.map magnitude).foldl_eq' ?_ 0
    intro a aMember b bMember most
    obtain ⟨x, _, rfl⟩ := List.mem_map.1 aMember
    obtain ⟨y, _, rfl⟩ := List.mem_map.1 bMember
    exact swap most x y

/-- What is less than a lesser value is less. -/
class TransitiveLess (R : Type u) [Scalar R] : Prop where
  less_trans {x y z : R} : less x y = true → less y z = true → less x z = true

/-- Finite values are ordered by comparison, and zero, one half and one stand in this
order. -/
class FiniteOrder (R : Type u) [Scalar R] [LE R] : Prop where
  le_of_not_less {x y : R} : isFinite x = true → isFinite y = true → less y x = false → x ≤ y
  le_refl {x : R} : isFinite x = true → x ≤ x
  finite_zero : isFinite (0 : R) = true
  finite_one : isFinite (1 : R) = true
  zero_le_half : (0 : R) ≤ 0.5
  half_le_one : (0.5 : R) ≤ 1
  zero_le_one : (0 : R) ≤ 1

/-- An argument without attackers scores one. -/
class EmptyBurden (R : Type u) [Scalar R] : Prop where
  one_div_one_add_zero : (1 : R) / (1 + 0) = 1

/-- The difference of a value and itself is never the larger one beside zero. -/
class NoSelfChange (R : Type u) [Scalar R] : Prop where
  larger_zero_sub_self (x : R) : larger 0 (magnitude (x - x)) = 0

section Exact

variable {K : Type u} [Field K] [LinearOrder K]

instance : OrderFreeMaximum K :=
  .of_right_comm fun most x y => by
    simp only [larger_eq_max, max_right_comm most (magnitude x) (magnitude y)]

instance : TransitiveLess K where
  less_trans first second := by
    rw [less_eq_true_iff] at first second ⊢
    exact first.trans second

instance : EmptyBurden K where
  one_div_one_add_zero := by simp

instance [IsStrictOrderedRing K] : NoSelfChange K where
  larger_zero_sub_self x := by simp [magnitude]

instance [IsStrictOrderedRing K] : FiniteOrder K where
  le_of_not_less _ _ notLess := not_lt.1 (of_decide_eq_false notLess)
  le_refl _ := le_rfl
  finite_zero := rfl
  finite_one := rfl
  zero_le_half := by norm_num
  half_le_one := by norm_num
  zero_le_one := zero_le_one

end Exact

end WeightedArgumentation.Scalar
