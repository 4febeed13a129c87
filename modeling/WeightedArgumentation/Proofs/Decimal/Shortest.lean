import Mathlib
import WeightedArgumentation.Decimal.Shortest
import WeightedArgumentation.Proofs.Scalar.Double

/-!
# Bounds on the shortest decimal

The shortest decimal of a positive value is positive, and it is not above the reals that round
to the value.  So the decimal of a finite value stays below `ceiling`, unless the value is the
largest one.
-/

namespace WeightedArgumentation.Decimal

open Float.Model (UnpackedFloat Format)
open Float.Model.UnpackedFloat

/-! ## Comparison -/

/-- The number that a decimal stands for. -/
def Scaled.value (d : Scaled) : ℚ := d.coefficient * 10 ^ d.exponent

/-- The negative part of an exponent leads to its positive part. -/
theorem zpow_mul_pow_toNat_neg {b : ℚ} (nonzero : b ≠ 0) (k : ℤ) :
    b ^ k * b ^ (-k).toNat = b ^ k.toNat := by
  rw [← zpow_natCast, ← zpow_natCast, ← zpow_add₀ nonzero]
  congr 1
  omega

theorem Scaled.compareBinary_eq (d : Scaled) (significand : ℕ) (power : ℤ) :
    d.compareBinary significand power = compare d.value (significand * 2 ^ power) := by
  have scale : (0 : ℚ) < 10 ^ (-d.exponent).toNat * 2 ^ (-power).toNat := by positivity
  have ten := zpow_mul_pow_toNat_neg (b := 10) (by norm_num) d.exponent
  have two := zpow_mul_pow_toNat_neg two_ne_zero power
  rw [← cmp_eq_compare, ← cmp_mul_pos_right scale, compareBinary, ← cmp_eq_compare,
    ← (Nat.strictMono_cast (α := ℚ)).cmp_map_eq, value]
  simp only [Nat.pow_eq]
  push_cast
  rw [← ten, ← two]
  congr 1 <;> ring

/-! ## What reads back -/

namespace Binary

variable {x : Binary} {d : Scaled}

theorem value_le_of_readsBack (reads : x.readsBack d = true) :
    d.value ≤ (4 * x.significand + 2) * 2 ^ (x.exponent - 2) := by
  simp only [readsBack, Bool.and_eq_true, Bool.or_eq_true, decide_eq_true_eq,
    Scaled.compareBinary_eq] at reads
  push_cast at reads
  rcases reads.2 with below | ⟨_, same⟩
  · exact (compare_lt_iff_lt.1 below).le
  · exact (compare_eq_iff_eq.1 same).le

theorem coefficient_pos_of_readsBack (positive : 0 < x.significand)
    (reads : x.readsBack d = true) : 0 < d.coefficient := by
  by_contra zero
  have none : d.value = 0 := by
    rw [Scaled.value, Nat.eq_zero_of_not_pos zero, Nat.cast_zero, zero_mul]
  simp only [readsBack, Bool.and_eq_true, Bool.or_eq_true, decide_eq_true_eq,
    Scaled.compareBinary_eq, none] at reads
  have low : 0 < if x.narrowBelow = true then 4 * x.significand - 1 else 4 * x.significand - 2 := by
    split <;> omega
  have above : (0 : ℚ) < ((if x.narrowBelow = true then 4 * x.significand - 1
      else 4 * x.significand - 2 : ℕ) : ℚ) * 2 ^ (x.exponent - 2) := by positivity
  rcases reads.1 with after | ⟨_, same⟩
  · exact above.not_gt (compare_gt_iff_gt.1 after)
  · exact above.ne (compare_eq_iff_eq.1 same)

/-- The nearer neighbour is one of the two. -/
theorem nearer_eq_or (tie : Tie) (x : Binary) (d : Scaled) :
    x.nearer tie d = d ∨ x.nearer tie d = { d with coefficient := d.coefficient + 1 } := by
  unfold nearer
  dsimp only
  split
  next => exact .inr rfl
  next => exact .inl rfl
  next => exact .inr rfl
  next =>
    split
    next => exact .inl rfl
    next => exact .inr rfl

theorem readsBack_of_onGrid {tie : Tie} {exponent : ℤ} (found : x.onGrid tie exponent = some d) :
    x.readsBack d = true := by
  simp only [onGrid] at found
  split at found
  next below above =>
    obtain rfl := Option.some.inj found
    rcases nearer_eq_or tie x (x.below exponent) with same | same
    · rw [same]
      exact below
    · rw [same]
      exact above
  next below _ =>
    obtain rfl := Option.some.inj found
    exact below
  next _ above =>
    obtain rfl := Option.some.inj found
    exact above
  next => cases found

/-- The shortest decimal reads back, or it has all the digits. -/
theorem shortest_readsBack_or (tie : Tie) (x : Binary) :
    x.readsBack (x.shortest tie) = true ∨ x.shortest tie = x.exact := by
  rw [shortest]
  cases found : (List.range 17).findSome? fun (n : ℕ) => x.onGrid tie (x.magnitude - (n + 1)) with
  | none => exact .inr rfl
  | some d =>
      obtain ⟨n, _, onGrid⟩ := List.exists_of_findSome?_eq_some found
      exact .inl (readsBack_of_onGrid onGrid)

theorem value_exact (x : Binary) : x.exact.value = x.significand * 2 ^ x.exponent := by
  have two := zpow_mul_pow_toNat_neg two_ne_zero x.exponent
  rw [Binary.exact, Scaled.value]
  split
  next whole =>
    have none : (-x.exponent).toNat = 0 := by omega
    rw [none, pow_zero, mul_one] at two
    simp [numerator, two]
  next part =>
    have exponent : x.exponent = -((-x.exponent).toNat : ℤ) := by omega
    generalize (-x.exponent).toNat = k at exponent
    simp only [exponent, Nat.pow_eq]
    push_cast
    rw [zpow_neg, zpow_neg, zpow_natCast, zpow_natCast, mul_assoc, ← div_eq_mul_inv, ← one_div]
    congr 1
    rw [div_eq_div_iff (by positivity) (by positivity), ← mul_pow]
    norm_num

theorem value_shortest_le (tie : Tie) (x : Binary) :
    (x.shortest tie).value ≤ (4 * x.significand + 2) * 2 ^ (x.exponent - 2) := by
  rcases x.shortest_readsBack_or tie with reads | same
  · exact value_le_of_readsBack reads
  · have quarter : (2 : ℚ) ^ x.exponent = 4 * 2 ^ (x.exponent - 2) := by
      rw [zpow_sub₀ two_ne_zero]
      norm_num
      ring
    rw [same, value_exact, quarter]
    nlinarith [show (0 : ℚ) < 2 ^ (x.exponent - 2) by positivity]

theorem coefficient_shortest_pos (tie : Tie) (positive : 0 < x.significand) :
    0 < (x.shortest tie).coefficient := by
  rcases x.shortest_readsBack_or tie with reads | same
  · exact coefficient_pos_of_readsBack positive reads
  · have value := x.value_exact
    rw [same]
    by_contra zero
    rw [Scaled.value, Nat.eq_zero_of_not_pos zero, Nat.cast_zero, zero_mul] at value
    exact (show (0 : ℚ) < x.significand * 2 ^ x.exponent by positivity).ne value

end Binary

/-! ## Zeros at the end -/

namespace Scaled

theorem value_stripped (d : Scaled) : d.stripped.value = d.value := by
  induction d using stripped.induct with
  | case1 d ends ih =>
      rw [stripped, dif_pos ends, ih, value, value]
      have coefficient : d.coefficient = d.coefficient / 10 * 10 := by omega
      have parts : (d.coefficient : ℚ) = (d.coefficient / 10 : ℕ) * 10 := by
        exact_mod_cast coefficient
      rw [parts, zpow_add_one₀ (by norm_num)]
      ring
  | case2 d ends => rw [stripped, dif_neg ends]

theorem coefficient_stripped_pos {d : Scaled} (positive : 0 < d.coefficient) :
    0 < d.stripped.coefficient := by
  induction d using stripped.induct with
  | case1 d ends ih =>
      rw [stripped, dif_pos ends]
      exact ih (by show 0 < d.coefficient / 10; omega)
  | case2 d ends =>
      rw [stripped, dif_neg ends]
      exact positive

end Scaled

/-! ## Finite values -/

/-- The exponent of a finite value is not that of infinity. -/
theorem biased_lt {x : Float} (finite : x.isFinite = true) :
    ((x.toBits >>> 52) &&& 0x7FF).toNat < 2047 := by
  have field : ((x.toBits >>> 52) &&& 0x7FF).toNat = x.toBits.toNat / 2 ^ 52 % 2 ^ 11 := by
    rw [UInt64.toNat_and, UInt64.toNat_shiftRight]
    show x.toBits.toNat >>> 52 &&& (2 ^ 11 - 1) = _
    rw [Nat.and_two_pow_sub_one_eq_mod, Nat.shiftRight_eq_div_pow]
  have stored : (unpackExponent x.toBits.toBitVec : BitVec Format.binary64.exponentBits).toNat =
      x.toBits.toNat / 2 ^ 52 % 2 ^ 11 := by
    rw [unpackExponent, BitVec.toNat_cast, BitVec.extractLsb, BitVec.extractLsb'_toNat,
      Nat.shiftRight_eq_div_pow]
    rfl
  have ordinary := Double.isFinite_unpack_iff.1 finite
  rw [field]
  by_contra special
  refine ordinary (BitVec.eq_of_toNat_eq (stored.trans ?_))
  show _ = 2047
  omega

namespace Binary

theorem significand_ofFloat_lt (x : Float) : (ofFloat x).significand < 2 ^ 53 := by
  have trailing : (x.toBits &&& 0xFFFFFFFFFFFFF).toNat < 2 ^ 52 := by
    rw [UInt64.toNat_and]
    show x.toBits.toNat &&& (2 ^ 52 - 1) < 2 ^ 52
    rw [Nat.and_two_pow_sub_one_eq_mod]
    exact Nat.mod_lt _ (Nat.two_pow_pos 52)
  rw [ofFloat]
  split
  next => exact trailing.trans (by decide)
  next =>
    dsimp only
    omega

theorem exponent_ofFloat_le {x : Float} (finite : x.isFinite = true) :
    (ofFloat x).exponent ≤ 971 := by
  have biased := biased_lt finite
  rw [ofFloat]
  split
  next =>
    show (-1074 : ℤ) ≤ 971
    decide
  next =>
    dsimp only
    omega

/-- The parts of the largest value. -/
def IsLargest (x : Binary) : Prop := x.significand = 2 ^ 53 - 1 ∧ x.exponent = 971

theorem ofFloat_of_isLargest {x : Float} (largest : (ofFloat x).IsLargest) :
    ofFloat x = ⟨2 ^ 53 - 1, 971, false⟩ := by
  obtain ⟨significand, exponent⟩ := largest
  have wide : (ofFloat x).narrowBelow = false := by
    rw [ofFloat] at significand ⊢
    split
    next => rfl
    next normal =>
      rw [if_neg normal] at significand
      have trailing : (x.toBits &&& 0xFFFFFFFFFFFFF).toNat ≠ 0 := fun zero => by
        rw [zero] at significand
        cases significand
      exact Bool.and_eq_false_imp.2 fun none => absurd (of_decide_eq_true none) trailing
  rw [← significand, ← exponent, ← wide]

end Binary

/-- The end of the reals that round to the largest value but one. -/
def ceiling : ℕ := (2 ^ 55 - 6) * 2 ^ 969

theorem cast_ceiling : (ceiling : ℚ) = (2 ^ 55 - 6) * 2 ^ (969 : ℤ) := by
  have digits : ((2 ^ 55 - 6 : ℕ) : ℚ) = 2 ^ 55 - 6 := by norm_num
  rw [ceiling, Nat.cast_mul, digits, Nat.cast_pow, Nat.cast_ofNat, zpow_ofNat]

/-- A finite value other than the largest one has a decimal up to `ceiling`. -/
theorem Binary.value_shortest_le_ceiling (tie : Tie) {x : Binary} (digits : x.significand < 2 ^ 53)
    (exponent : x.exponent ≤ 971) (smaller : ¬ x.IsLargest) :
    (x.shortest tie).value ≤ ceiling := by
  refine (x.value_shortest_le tie).trans ?_
  rw [cast_ceiling]
  rcases exponent.lt_or_eq with less | top
  · have significand : (x.significand : ℚ) ≤ 2 ^ 53 - 1 := by
      rw [le_sub_iff_add_le]
      exact_mod_cast digits
    calc (4 * (x.significand : ℚ) + 2) * 2 ^ (x.exponent - 2)
        ≤ (4 * (2 ^ 53 - 1) + 2) * 2 ^ (968 : ℤ) := by
          gcongr
          · norm_num
          · omega
      _ ≤ (2 ^ 55 - 6) * (2 ^ (968 : ℤ) * 2) := by
        rw [mul_comm _ (2 : ℚ), ← mul_assoc]
        gcongr
        norm_num
      _ = (2 ^ 55 - 6) * 2 ^ (969 : ℤ) := by
        rw [← zpow_add_one₀ two_ne_zero]
        norm_num
  · have significand : (x.significand : ℚ) ≤ 2 ^ 53 - 2 := by
      have few : x.significand + 2 ≤ 2 ^ 53 := by
        by_contra many
        exact smaller ⟨by omega, top⟩
      rw [le_sub_iff_add_le]
      exact_mod_cast few
    rw [top]
    calc (4 * (x.significand : ℚ) + 2) * 2 ^ (971 - 2 : ℤ)
        ≤ (4 * (2 ^ 53 - 2) + 2) * 2 ^ (969 : ℤ) := by gcongr <;> norm_num
      _ = (2 ^ 55 - 6) * 2 ^ (969 : ℤ) := by norm_num

end WeightedArgumentation.Decimal
