import Mathlib
import WeightedArgumentation.Json.Value
import WeightedArgumentation.Proofs.Decimal.Layout
import WeightedArgumentation.Proofs.Scalar.Arithmetic

/-!
# Finite numbers read back

The numeral of a finite number is read as a finite number again, though not always as the same
one: the digits that fit a significand are multiplied or divided by a rounded power of ten.
Division never fails.  A product is bounded by that of the largest significand which stays
below `ceiling`, and those are computed once for every power of ten that matters.
-/

namespace WeightedArgumentation.Json

open Decimal (Digit Numeral Binary valueOf ceiling)
open Double

/-! ## Significands -/

theorem valueOf_cons (digit : Digit) (digits : List Digit) :
    valueOf (digit :: digits) = digit.val * 10 ^ digits.length + valueOf digits := by
  rw [← List.singleton_append, Decimal.valueOf_append_digits]
  simp [valueOf]

/-- Digits that fit are all gathered. -/
theorem gatherDigits_of_le {front : ℕ} {digits : List Digit}
    (fits : front * 10 ^ digits.length + valueOf digits ≤ largestSignificand) :
    gatherDigits front digits = (front * 10 ^ digits.length + valueOf digits, []) := by
  induction digits generalizing front with
  | nil => simp [gatherDigits, valueOf]
  | cons digit rest ih =>
      have value : front * 10 ^ (digit :: rest).length + valueOf (digit :: rest) =
          (front * 10 + digit.val) * 10 ^ rest.length + valueOf rest := by
        rw [valueOf_cons, List.length_cons, pow_succ]
        ring
      rw [value] at fits ⊢
      have extended : front * 10 + digit.val ≤ largestSignificand :=
        (Nat.le_mul_of_pos_right _ (by positivity)).trans ((Nat.le_add_right _ _).trans fits)
      rw [gatherDigits]
      simp only [if_pos extended, ih fits]

/-- What is gathered fits, and it is not more than what the digits stand for. -/
theorem gatherDigits_bounds {front : ℕ} (fits : front ≤ largestSignificand) (digits : List Digit) :
    ∃ significand dropped, gatherDigits front digits = (significand, dropped) ∧
      significand ≤ largestSignificand ∧ dropped.length ≤ digits.length ∧
      significand * 10 ^ dropped.length ≤ front * 10 ^ digits.length + valueOf digits := by
  induction digits generalizing front with
  | nil => exact ⟨front, [], rfl, fits, le_rfl, by simp⟩
  | cons digit rest ih =>
      by_cases extended : front * 10 + digit.val ≤ largestSignificand
      · obtain ⟨significand, dropped, gathered, small, fewer, below⟩ := ih extended
        refine ⟨significand, dropped, ?_, small, fewer.trans (Nat.le_succ _), ?_⟩
        · rw [gatherDigits]
          simp only [if_pos extended, gathered]
        · rw [valueOf_cons, List.length_cons, pow_succ]
          linarith
      · refine ⟨front, digit :: rest, ?_, fits, le_rfl, Nat.le_add_right _ _⟩
        rw [gatherDigits]
        simp only [if_neg extended]

/-! ## Powers of ten -/

theorem rounded_powerOfTen {n : ℕ} (small : n ≤ 2 ^ 11) : Rounded (powerOfTen n) (10 ^ n) := by
  have packed : powerOfTen n =
      ⟨.pack (Float.Model.UnpackedFloat.ofScientific .binary64 1 n)⟩ := by
    rcases le_or_gt n 22 with exact | rounded
    · have table : ∀ n ≤ 22, powerOfTen n =
          ⟨.pack (Float.Model.UnpackedFloat.ofScientific .binary64 1 n)⟩ := by decide +kernel
      exact table n exact
    · rw [powerOfTen, Float.ofScientific, dif_neg (by omega)]
      rfl
  have rounded := rounded_ofScientific one_pos small
  rw [Nat.cast_one, one_mul] at rounded
  rw [packed]
  exact rounded

/-- A smaller power of ten is not rounded to a larger number. -/
theorem exists_powerOfTen_le {m n : ℕ} (le : m ≤ n) (small : n ≤ 308) {v : ℚ}
    (holds : Holds (powerOfTen n) v) : ∃ r ≤ v, Holds (powerOfTen m) r := by
  have powers : (10 : ℚ) ^ m ≤ 10 ^ n := pow_le_pow_right₀ (by norm_num) le
  exact (rounded_powerOfTen (by omega)).exists_le (rounded_powerOfTen (by omega)) powers holds

/-- The exponents of the powers of ten that can make a product too large. -/
def criticalExponents : List ℕ := List.range' 288 21

theorem mem_criticalExponents {n : ℕ} : n ∈ criticalExponents ↔ 288 ≤ n ∧ n ≤ 308 := by
  rw [criticalExponents, List.mem_range'_1]
  omega

/-- The largest significand for a power of ten. -/
def mostSignificand (n : ℕ) : ℕ := min (ceiling / 10 ^ n) largestSignificand

/-- No product of a power of ten and the largest significand for it is too large. -/
theorem isFinite_most : ∀ n ∈ criticalExponents, (powerOfTen n).isFinite = true ∧
    ((mostSignificand n).toUInt64.toFloat * powerOfTen n).isFinite = true := by
  decide +kernel

/-- Every power of ten has its largest significand at some critical exponent. -/
theorem exists_critical {significand n : ℕ} (fits : significand ≤ largestSignificand)
    (below : significand * 10 ^ n ≤ ceiling) (small : n ≤ 308) :
    ∃ k ∈ criticalExponents, n ≤ k ∧ significand ≤ mostSignificand k := by
  rcases le_or_gt 288 n with critical | tiny
  · refine ⟨n, mem_criticalExponents.2 ⟨critical, small⟩, le_rfl, le_min ?_ fits⟩
    exact (Nat.le_div_iff_mul_le (by positivity)).2 below
  · have most : mostSignificand 288 = largestSignificand := by decide +kernel
    exact ⟨288, by decide, tiny.le, most ▸ fits⟩

/-- A significand times a power of ten is finite when it stays below `ceiling`. -/
theorem exists_product_holds {significand n : ℕ} (fits : significand ≤ largestSignificand)
    (below : significand * 10 ^ n ≤ ceiling) (small : n ≤ 308) :
    ∃ v, Holds (significand.toUInt64.toFloat * powerOfTen n) v := by
  -- the product is compared with the largest one at a critical exponent, factor by factor
  obtain ⟨k, critical, atMost, significandLe⟩ := exists_critical fits below small
  have kSmall := (mem_criticalExponents.1 critical).2
  obtain ⟨powerFinite, productFinite⟩ := isFinite_most k critical
  obtain ⟨a, mostHolds⟩ := exists_toFloat_holds (mostSignificand k).toUInt64
  obtain ⟨b, powerHolds⟩ := (rounded_powerOfTen (by omega)).exists_holds powerFinite
  obtain ⟨c, productHolds⟩ := (mostHolds.mul powerHolds).exists_holds productFinite
  have stored : ∀ s ≤ largestSignificand, s.toUInt64.toNat = s := fun s le =>
    Nat.mod_eq_of_lt (lt_of_le_of_lt le (by decide))
  have converted : significand.toUInt64.toNat ≤ (mostSignificand k).toUInt64.toNat := by
    rwa [stored significand fits, stored (mostSignificand k) (min_le_right _ _)]
  obtain ⟨v, vLe, left⟩ := exists_toFloat_le converted mostHolds
  obtain ⟨w, wLe, right⟩ := exists_powerOfTen_le atMost kSmall powerHolds
  obtain ⟨u, _, holds⟩ := left.exists_mul_le right mostHolds powerHolds vLe wLe productHolds
  exact ⟨u, holds⟩

/-! ## Scaling -/

theorem exists_quotient_holds {x : Float} {v : ℚ} (holds : Holds x v) {n : ℕ} (small : n ≤ 308) :
    ∃ w, Holds (x / powerOfTen n) w := by
  have atLeast : (1 : ℚ) ≤ 10 ^ n := one_le_pow₀ (by norm_num)
  have divisor := holds_one.rounded.le_or_overflows (rounded_powerOfTen (by omega)) atLeast
    holds_one
  obtain ⟨w, _, quotient⟩ := holds.exists_div_le divisor
  exact ⟨w, quotient⟩

/-- Scaling down never fails. -/
theorem exists_scale_of_neg {x : Float} {v : ℚ} (holds : Holds x v) {exponent : ℤ}
    (negative : exponent < 0) : ∃ y w, scale x exponent = some y ∧ Holds y w := by
  fun_induction scale x exponent generalizing v with
  | case1 x exponent small nonneg => exact absurd negative nonneg.not_gt
  | case2 x exponent small nonneg => exact absurd negative nonneg.not_gt
  | case3 x exponent small below =>
      obtain ⟨w, quotient⟩ := exists_quotient_holds holds small
      exact ⟨_, w, rfl, quotient⟩
  | case4 x exponent => exact ⟨x, v, rfl, holds⟩
  | case5 x exponent large nonzero nonneg => exact absurd negative nonneg.not_gt
  | case6 x exponent large nonzero below ih =>
      obtain ⟨w, quotient⟩ := exists_quotient_holds holds le_rfl
      exact ih quotient (by omega)

/-- Only zero can be scaled so far up. -/
theorem eq_zero_of_large {significand n : ℕ} (below : significand * 10 ^ n ≤ ceiling)
    (large : 308 < n) : significand = 0 := by
  by_contra nonzero
  obtain ⟨k, rfl⟩ : ∃ k, n = 155 + 154 + k := ⟨n - 309, by omega⟩
  have most : ceiling < 10 ^ 155 * 10 ^ 154 := by decide +kernel
  have atLeast : 10 ^ 155 * 10 ^ 154 ≤ significand * (10 ^ 155 * 10 ^ 154 * 10 ^ k) :=
    (Nat.le_mul_of_pos_right _ (by positivity)).trans
      (Nat.le_mul_of_pos_left _ (Nat.pos_of_ne_zero nonzero))
  rw [pow_add, pow_add] at below
  exact absurd (atLeast.trans below) (not_le.2 most)

/-- A significand is scaled to a finite number when it does not exceed `ceiling`. -/
theorem exists_scale {significand : ℕ} (fits : significand ≤ largestSignificand) {exponent : ℤ}
    (below : (significand : ℚ) * 10 ^ exponent ≤ ceiling) :
    ∃ y w, scale significand.toUInt64.toFloat exponent = some y ∧ Holds y w := by
  rcases lt_or_ge exponent 0 with negative | nonneg
  · obtain ⟨v, holds⟩ := exists_toFloat_holds significand.toUInt64
    exact exists_scale_of_neg holds negative
  · obtain ⟨n, rfl⟩ := Int.eq_ofNat_of_zero_le nonneg
    have below : significand * 10 ^ n ≤ ceiling := by exact_mod_cast below
    rcases le_or_gt n 308 with small | large
    · obtain ⟨v, holds⟩ := exists_product_holds fits below small
      rw [scale, if_pos (by simpa using small), if_pos nonneg]
      simp only [Int.natAbs_natCast, isInf_of_isFinite holds.isFinite]
      exact ⟨_, v, rfl, holds⟩
    · have zero := eq_zero_of_large below large
      subst zero
      rw [scale, if_neg (by simpa using large), if_pos (by decide)]
      exact ⟨_, 0, rfl, holds_zero⟩

/-! ## Numerals -/

/-- The sign does not show in whether a number is finite. -/
theorem isFinite_withSign (negative : Bool) (x : Float) :
    (withSign negative x).isFinite = x.isFinite := by
  cases negative with
  | false => rfl
  | true => exact isFinite_neg x

theorem exists_realValue {numeral : Numeral} (whole : valueOf numeral.whole ≤ largestSignificand)
    (below : numeral.magnitude ≤ ceiling) :
    ∃ y, realValue? numeral = some y ∧ y.isFinite = true := by
  have front : gatherDigits 0 numeral.whole = (valueOf numeral.whole, []) := by
    have fits : 0 * 10 ^ numeral.whole.length + valueOf numeral.whole ≤ largestSignificand := by
      rwa [zero_mul, zero_add]
    have gathered := gatherDigits_of_le fits
    rwa [zero_mul, zero_add] at gathered
  obtain ⟨significand, dropped, gathered, fits, fewer, atMost⟩ :=
    gatherDigits_bounds whole numeral.fraction
  generalize keptEq : numeral.fraction.length - dropped.length = kept
  have scaled : (significand : ℚ) * 10 ^ (((0 : ℕ) : ℤ) - kept + exponentValue numeral.exponent) ≤
      ceiling := by
    have exponent : ((0 : ℕ) : ℤ) - kept + exponentValue numeral.exponent =
        dropped.length + (exponentValue numeral.exponent - numeral.fraction.length) := by omega
    rw [← Decimal.valueOf_append_digits] at atMost
    have atMost : (significand : ℚ) * 10 ^ dropped.length ≤
        valueOf (numeral.whole ++ numeral.fraction) := by exact_mod_cast atMost
    rw [exponent, zpow_add₀ (by norm_num), zpow_natCast, ← mul_assoc]
    refine le_trans ?_ below
    rw [Numeral.magnitude]
    gcongr
  obtain ⟨y, w, scale, holds⟩ := exists_scale fits scaled
  refine ⟨withSign numeral.negative y, ?_, ?_⟩
  · rw [realValue?]
    simp only [front, gathered, List.length_nil, keptEq, scale, Option.map_some]
  · rw [isFinite_withSign]
    exact holds.isFinite

/-- A numeral up to `ceiling` whose whole digits fit a significand is read as a finite number. -/
theorem exists_quantity {numeral : Numeral} (whole : valueOf numeral.whole ≤ largestSignificand)
    (below : numeral.magnitude ≤ ceiling) :
    ∃ quantity, quantity? numeral = some quantity ∧ quantity.toFloat.isFinite = true := by
  obtain ⟨y, real, finite⟩ := exists_realValue whole below
  rw [quantity?]
  split
  next n =>
    split
    next =>
      split
      next => exact ⟨_, rfl, (isFinite_neg _).trans (isFinite_toFloat _)⟩
      next => exact ⟨_, rfl, (isFinite_neg _).trans (isFinite_toFloat _)⟩
    next => exact ⟨_, rfl, isFinite_toFloat _⟩
  next =>
    rw [real]
    exact ⟨_, rfl, finite⟩

/-- There are few digits before the point of a number. -/
theorem length_whole_numeral_le (x : Float) : (numberLayout.numeral x).whole.length ≤ 16 := by
  rw [Decimal.Layout.numeral]
  dsimp only
  split
  next => exact Nat.one_le_ofNat
  next =>
    split
    next plain =>
      refine (numberLayout.length_whole_plain_le _ _ _).trans ?_
      have below := of_decide_eq_true (Bool.and_eq_true_iff.1 plain).2
      omega
    next =>
      refine (List.length_take_le _ _).trans ?_
      decide

/-- The largest value is read back. -/
theorem exists_quantity_of_isLargest {x : Float} (largest : (Binary.ofFloat x).IsLargest) :
    ∃ quantity, quantity? (numberLayout.numeral x) = some quantity ∧
      quantity.toFloat.isFinite = true := by
  have shortest : Binary.shortest .toEven ⟨2 ^ 53 - 1, 971, false⟩ = ⟨17976931348623157, 292⟩ := by
    decide +kernel
  have tie : numberLayout.tie = .toEven := rfl
  rw [Decimal.Layout.numeral, Binary.ofFloat_of_isLargest largest, tie, shortest,
    ← Option.any_eq_true]
  generalize Decimal.isNegative x = negative
  revert negative
  decide +kernel

/-- The numeral of a finite number is read as a finite number. -/
theorem exists_quantity_numeral {x : Float} (finite : x.isFinite = true) :
    ∃ quantity, quantity? (numberLayout.numeral x) = some quantity ∧
      quantity.toFloat.isFinite = true := by
  -- the decimal of the largest value lies above `ceiling`, so it is computed
  by_cases largest : (Binary.ofFloat x).IsLargest
  · exact exists_quantity_of_isLargest largest
  · have whole := Decimal.valueOf_lt (numberLayout.numeral x).whole
    have few : 10 ^ (numberLayout.numeral x).whole.length ≤ 10 ^ 16 :=
      Nat.pow_le_pow_right (by decide) (length_whole_numeral_le x)
    have fits : 10 ^ 16 ≤ largestSignificand := by decide
    exact exists_quantity ((whole.trans_le (few.trans fits)).le)
      (numberLayout.magnitude_numeral_le finite largest)

end WeightedArgumentation.Json
