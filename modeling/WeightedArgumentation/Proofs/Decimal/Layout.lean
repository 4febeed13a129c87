import Mathlib
import WeightedArgumentation.Decimal.Layout
import WeightedArgumentation.Json.Quantity
import WeightedArgumentation.Proofs.Decimal.Shortest

/-!
# The numeral of a value

Whatever its layout, the numeral of a value stands for the shortest decimal of the value, and
it is spelled as JSON spells numbers.
-/

namespace WeightedArgumentation.Decimal

/-! ## Digits -/

theorem valueOf_append_digits (front back : List Digit) :
    valueOf (front ++ back) = valueOf front * 10 ^ back.length + valueOf back := by
  induction back using List.reverseRecOn with
  | nil => simp [valueOf]
  | append_singleton back digit ih =>
      rw [← List.append_assoc, valueOf_append, valueOf_append, ih, List.length_append, pow_add]
      simp only [List.length_singleton, pow_one]
      ring

theorem valueOf_zeros (n : ℕ) : valueOf (List.replicate n 0) = 0 := by
  induction n with
  | zero => rfl
  | succ n ih => rw [List.replicate_succ', valueOf_append, ih, mul_zero, zero_add]; rfl

theorem valueOf_lt (digits : List Digit) : valueOf digits < 10 ^ digits.length := by
  induction digits using List.reverseRecOn with
  | nil => decide
  | append_singleton digits digit ih =>
      have small := digit.isLt
      rw [valueOf_append, List.length_append, List.length_singleton, pow_succ]
      omega

theorem digitsOf_ne_nil (n : ℕ) : digitsOf n ≠ [] := by
  rw [digitsOf]
  split <;> simp

/-- The digits of a positive number do not start with a zero. -/
theorem head_digitsOf_ne_zero {n : ℕ} (positive : 0 < n) : (digitsOf n).head? ≠ some 0 := by
  induction n using digitsOf.induct with
  | case1 n small =>
      rw [digitsOf, dif_pos small]
      simpa [Fin.ext_iff] using positive.ne'
  | case2 n large ih =>
      rw [digitsOf, dif_neg large, List.head?_append_of_ne_nil _ (digitsOf_ne_nil _)]
      exact ih (by omega)

/-! ## Numerals -/

namespace Numeral

/-- A numeral as JSON spells it: there is a digit before the point, a zero stands alone
there, and an exponent has a digit. -/
structure Spelled (numeral : Numeral) : Prop where
  whole : numeral.whole ≠ []
  noLeadingZero : ∀ first second rest, numeral.whole = first :: second :: rest → first ≠ 0
  exponent : ∀ exponent, numeral.exponent = some exponent → exponent.digits ≠ []

/-- The number that a numeral stands for, without its sign. -/
def magnitude (numeral : Numeral) : ℚ :=
  valueOf (numeral.whole ++ numeral.fraction) *
    10 ^ (Json.exponentValue numeral.exponent - numeral.fraction.length)

end Numeral

theorem noLeadingZero_of_head {digits : List Digit} (nonzero : digits.head? ≠ some 0)
    (first second : Digit) (rest : List Digit) (parts : digits = first :: second :: rest) :
    first ≠ 0 := by
  rintro rfl
  exact nonzero (by rw [parts]; rfl)

namespace Layout

variable (layout : Layout) (negative : Bool) {digits : List Digit}

theorem spelled_plain (nonempty : digits ≠ []) (nonzero : digits.head? ≠ some 0) (places : ℤ) :
    (layout.plain negative digits places).Spelled := by
  rw [plain]
  split
  next => exact ⟨by simp, by simp, by simp⟩
  next positive =>
    split
    next =>
      refine ⟨by simp [nonempty], noLeadingZero_of_head ?_, by simp⟩
      rwa [List.head?_append_of_ne_nil _ nonempty]
    next =>
      have some : places.toNat ≠ 0 := by omega
      refine ⟨by simp [nonempty, some], noLeadingZero_of_head ?_, by simp⟩
      rwa [List.head?_take, if_neg some]

theorem spelled_scientific (nonempty : digits ≠ []) (e : ℤ) :
    (scientific negative digits e).Spelled where
  whole := by simp [scientific, nonempty]
  noLeadingZero first second rest parts := by
    have := congrArg List.length parts
    simp [scientific] at this
    omega
  exponent := by
    rintro _ ⟨⟩
    exact digitsOf_ne_nil _

/-- The digits after the point of an integral value are zeros. -/
theorem exists_integral_eq : ∃ n, layout.integral = List.replicate n 0 := by
  rw [integral]
  split
  next => exact ⟨1, rfl⟩
  next => exact ⟨0, rfl⟩

theorem magnitude_plain (places : ℤ) :
    (layout.plain negative digits places).magnitude =
      valueOf digits * 10 ^ (places - digits.length) := by
  rw [plain]
  split
  next small =>
    have zeros :
        valueOf ([0] ++ (List.replicate (-places).toNat 0 ++ digits)) = valueOf digits := by
      rw [valueOf_append_digits, valueOf_append_digits, valueOf_zeros]
      simp [valueOf]
    have exponent : 0 - (((-places).toNat + digits.length : ℕ) : ℤ) = places - digits.length := by
      omega
    rw [Numeral.magnitude, List.length_append, List.length_replicate, zeros]
    exact congrArg _ (congrArg _ exponent)
  next positive =>
    split
    next fits =>
      obtain ⟨n, integral⟩ := layout.exists_integral_eq
      have value : valueOf (digits ++ List.replicate (places.toNat - digits.length) 0 ++
          layout.integral) = valueOf digits * 10 ^ (places.toNat - digits.length + n) := by
        rw [integral, List.append_assoc, List.replicate_append_replicate, valueOf_append_digits,
          valueOf_zeros, List.length_replicate, add_zero]
      have exponent : ((places.toNat - digits.length + n : ℕ) : ℤ) + (0 - (n : ℤ)) =
          places - digits.length := by omega
      rw [Numeral.magnitude, value, Json.exponentValue, integral, List.length_replicate, ← exponent,
        zpow_add₀ (by norm_num), zpow_natCast]
      push_cast
      ring
    next =>
      have exponent : 0 - ((digits.length - places.toNat : ℕ) : ℤ) = places - digits.length := by
        omega
      rw [Numeral.magnitude, List.length_drop, List.take_append_drop]
      exact congrArg _ (congrArg _ exponent)

theorem magnitude_scientific (nonempty : digits ≠ []) (e : ℤ) :
    (scientific negative digits e).magnitude =
      valueOf digits * 10 ^ (e + 1 - digits.length) := by
  have some := List.length_pos_of_ne_nil nonempty
  have value : Json.exponentValue (scientific negative digits e).exponent = e := by
    rw [scientific, Json.exponentValue]
    simp only [valueOf_digitsOf, decide_eq_true_eq]
    split <;> omega
  have exponent : e - ((digits.length - 1 : ℕ) : ℤ) = e + 1 - digits.length := by omega
  rw [Numeral.magnitude, value, scientific, List.length_drop, List.take_append_drop, exponent]

theorem length_whole_plain_le (digits : List Digit) (places : ℤ) :
    (layout.plain negative digits places).whole.length ≤ max 1 places.toNat := by
  rw [plain]
  split
  next => exact le_max_left _ _
  next positive =>
    split
    next fits =>
      rw [List.length_append, List.length_replicate]
      omega
    next => exact (List.length_take_le _ _).trans (le_max_right _ _)

/-- The numeral of a value is spelled as JSON spells numbers. -/
theorem spelled_numeral (x : Float) : (layout.numeral x).Spelled := by
  rw [numeral]
  dsimp only
  split
  next => exact ⟨by simp, by simp, by simp⟩
  next nonzero =>
    have positive := Scaled.coefficient_stripped_pos
      (Binary.coefficient_shortest_pos layout.tie (Nat.pos_of_ne_zero nonzero))
    have digits := digitsOf_ne_nil ((Binary.ofFloat x).shortest layout.tie).stripped.coefficient
    split
    next => exact layout.spelled_plain _ digits (head_digitsOf_ne_zero positive) _
    next => exact spelled_scientific _ digits _

/-- The numeral of a value stands for its shortest decimal. -/
theorem magnitude_numeral {x : Float} (nonzero : (Binary.ofFloat x).significand ≠ 0) :
    (layout.numeral x).magnitude = ((Binary.ofFloat x).shortest layout.tie).value := by
  rw [numeral]
  dsimp only
  rw [if_neg nonzero, ← Scaled.value_stripped]
  generalize ((Binary.ofFloat x).shortest layout.tie).stripped = d
  split
  next =>
    rw [magnitude_plain, valueOf_digitsOf, Scaled.value]
    congr 2
    omega
  next =>
    rw [magnitude_scientific _ (digitsOf_ne_nil _), valueOf_digitsOf, Scaled.value]
    congr 2
    omega

/-- A finite value other than the largest ones has a numeral up to `ceiling`. -/
theorem magnitude_numeral_le {x : Float} (finite : x.isFinite = true)
    (smaller : ¬ (Binary.ofFloat x).IsLargest) : (layout.numeral x).magnitude ≤ ceiling := by
  by_cases zero : (Binary.ofFloat x).significand = 0
  · obtain ⟨n, integral⟩ := layout.exists_integral_eq
    have none : valueOf ([0] ++ List.replicate n 0) = 0 := by
      rw [valueOf_append_digits, valueOf_zeros]
      simp [valueOf]
    rw [numeral]
    dsimp only
    rw [if_pos zero, Numeral.magnitude, integral, none, Nat.cast_zero, zero_mul]
    exact Nat.cast_nonneg ceiling
  · rw [layout.magnitude_numeral zero]
    exact Binary.value_shortest_le_ceiling _ (Binary.significand_ofFloat_lt x)
      (Binary.exponent_ofFloat_le finite) smaller

end Layout

end WeightedArgumentation.Decimal
