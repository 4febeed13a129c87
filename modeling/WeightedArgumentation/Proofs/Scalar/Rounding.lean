import Mathlib
import WeightedArgumentation.Proofs.Scalar.Double

/-!
# Rounding

A sum, product or quotient of double-precision numbers is the exact result, rounded to the
nearest number with 53 binary digits and, of two that are equally near, to the even one.
Rounding respects the order of the exact results, across the powers of two where the grid of
the numbers changes.  So an operation on bounded values is bounded by the same operation on
the bounds.
-/

namespace WeightedArgumentation.Double

open Float.Model (UnpackedFloat Format totalExponent)
open Float.Model.UnpackedFloat

/-! ## To the nearest natural number -/

/-- A natural number is nearest to a value, and even when another one is as near. -/
structure NearestEven (n : ℕ) (y : ℚ) : Prop where
  near : |(n : ℚ) - y| ≤ 1 / 2
  even : |(n : ℚ) - y| = 1 / 2 → Even n

theorem nearestEven_natCast (n : ℕ) : NearestEven n n where
  near := by norm_num
  even := by norm_num

/-- A larger value has no smaller nearest number. -/
theorem NearestEven.mono {m n : ℕ} {x y : ℚ} (lower : NearestEven m x) (upper : NearestEven n y)
    (le : x ≤ y) : m ≤ n := by
  by_contra above
  have next : (n : ℚ) + 1 ≤ m := by exact_mod_cast not_le.1 above
  have lowerNear := (abs_le.1 lower.near).2
  have upperNear := (abs_le.1 upper.near).1
  -- two numbers apart by one, so both values lie halfway and both numbers are even
  have apart : m = n + 1 := by
    have : (m : ℚ) = n + 1 := by linarith
    exact_mod_cast this
  subst apart
  push_cast at *
  have lowerEven := lower.even (by push_cast; rw [abs_of_nonneg] <;> linarith)
  have upperEven := upper.even (by rw [abs_of_nonpos] <;> linarith)
  exact Nat.not_even_iff_odd.2 upperEven.add_one lowerEven

/-- An extended mantissa shows a value: the natural number below it and, in two bits, whether
the rest is nothing, less than a half, a half or more. -/
inductive Shows : ExtendedMantissa → ℚ → Prop
  | exact (m : ℕ) : Shows ⟨m, false, false⟩ m
  | low {m : ℕ} {y : ℚ} (above : (m : ℚ) < y) (below : y < m + 1 / 2) : Shows ⟨m, false, true⟩ y
  | half (m : ℕ) : Shows ⟨m, true, false⟩ (m + 1 / 2)
  | high {m : ℕ} {y : ℚ} (above : (m : ℚ) + 1 / 2 < y) (below : y < m + 1) :
      Shows ⟨m, true, true⟩ y

namespace Shows

variable {em : ExtendedMantissa} {y : ℚ}

theorem nearestEven (shows : Shows em y) : NearestEven em.roundedMantissa y := by
  cases shows with
  | exact m => exact nearestEven_natCast m
  | @low m _ above below =>
      show NearestEven m y
      have near : |(m : ℚ) - y| < 1 / 2 := abs_lt.2 ⟨by linarith, by linarith⟩
      exact ⟨near.le, fun tie => absurd tie near.ne⟩
  | half m =>
      show NearestEven (m + m % 2) _
      rcases Nat.mod_two_eq_zero_or_one m with even | odd
      · rw [even]
        refine ⟨?_, fun _ => Nat.even_iff.2 even⟩
        rw [abs_le]
        constructor <;> push_cast <;> linarith
      · rw [odd]
        refine ⟨?_, fun _ => (Nat.odd_iff.2 odd).add_one⟩
        rw [abs_le]
        constructor <;> push_cast <;> linarith
  | @high m _ above below =>
      show NearestEven (m + 1) y
      have near : |((m + 1 : ℕ) : ℚ) - y| < 1 / 2 := by
        push_cast
        exact abs_lt.2 ⟨by linarith, by linarith⟩
      exact ⟨near.le, fun tie => absurd tie near.ne⟩

theorem shiftRightOne_even (k : ℕ) (roundBit stickyBit : Bool) :
    (ExtendedMantissa.mk (2 * k) roundBit stickyBit).shiftRightOne =
      ⟨k, false, roundBit || stickyBit⟩ := by
  simp [ExtendedMantissa.shiftRightOne]

theorem shiftRightOne_odd (k : ℕ) (roundBit stickyBit : Bool) :
    (ExtendedMantissa.mk (2 * k + 1) roundBit stickyBit).shiftRightOne =
      ⟨k, true, roundBit || stickyBit⟩ := by
  have half : (2 * k + 1) / 2 = k := by omega
  have rest : (2 * k + 1) % 2 = 1 := by omega
  simp [ExtendedMantissa.shiftRightOne, half, rest]

/-- A shift by one place shows half of the value. -/
theorem shiftRightOne (shows : Shows em y) : Shows em.shiftRightOne (y / 2) := by
  cases shows with
  | exact m =>
      obtain ⟨k, rfl | rfl⟩ := Nat.even_or_odd' m
      · have value : ((2 * k : ℕ) : ℚ) / 2 = k := by push_cast; ring
        rw [shiftRightOne_even, value]
        exact .exact k
      · have value : ((2 * k + 1 : ℕ) : ℚ) / 2 = k + 1 / 2 := by push_cast; ring
        rw [shiftRightOne_odd, value]
        exact .half k
  | @low m _ above below =>
      obtain ⟨k, rfl | rfl⟩ := Nat.even_or_odd' m <;> push_cast at above below
      · rw [shiftRightOne_even]
        exact low (by linarith) (by linarith)
      · rw [shiftRightOne_odd]
        exact high (by linarith) (by linarith)
  | half m =>
      obtain ⟨k, rfl | rfl⟩ := Nat.even_or_odd' m <;> push_cast
      · rw [shiftRightOne_even]
        exact low (by linarith) (by linarith)
      · rw [shiftRightOne_odd]
        exact high (by linarith) (by linarith)
  | @high m _ above below =>
      obtain ⟨k, rfl | rfl⟩ := Nat.even_or_odd' m <;> push_cast at above below
      · rw [shiftRightOne_even]
        exact low (by linarith) (by linarith)
      · rw [shiftRightOne_odd]
        exact high (by linarith) (by linarith)

theorem shiftRight (shows : Shows em y) (n : ℕ) : Shows (em >>> n) (y / 2 ^ n) := by
  induction n with
  | zero =>
      rw [pow_zero, div_one]
      exact shows
  | succ n ih =>
      have next := ih.shiftRightOne
      rw [div_div, ← pow_succ] at next
      exact next

end Shows

theorem shows_exact (m : ℕ) : Shows (.ofMantissaAndAccuracy m .exact) m := .exact m

/-- What is left of a quotient tells how far the quotient exceeds its whole part. -/
theorem shows_quotient (m : ℕ) {n : ℕ} (positive : 0 < n) :
    Shows (.ofMantissaAndAccuracy (m / n) (accuracyOfFraction (m % n) n)) ((m : ℚ) / n) := by
  have nPos : (0 : ℚ) < n := by exact_mod_cast positive
  have parts : (m : ℚ) / n = (m / n : ℕ) + ((m % n : ℕ) : ℚ) / n := by
    rw [div_eq_iff nPos.ne', add_mul, div_mul_cancel₀ _ nPos.ne']
    exact_mod_cast (Nat.div_add_mod' m n).symm
  have small : ((m % n : ℕ) : ℚ) / n < 1 := by
    rw [div_lt_one nPos]
    exact_mod_cast Nat.mod_lt m positive
  rw [parts, accuracyOfFraction]
  split
  next none =>
    rw [none, Nat.cast_zero, zero_div, add_zero]
    exact .exact _
  next some =>
    have restPos : 0 < ((m % n : ℕ) : ℚ) / n :=
      div_pos (by exact_mod_cast Nat.pos_of_ne_zero some) nPos
    rcases lt_trichotomy (2 * (m % n)) n with less | same | more
    · have below : ((m % n : ℕ) : ℚ) / n < 1 / 2 := by
        rw [div_lt_div_iff₀ nPos two_pos, mul_comm, one_mul]
        exact_mod_cast less
      rw [Nat.compare_eq_lt.2 less]
      exact .low (by linarith) (by linarith)
    · have halfway : ((m % n : ℕ) : ℚ) / n = 1 / 2 := by
        rw [div_eq_div_iff nPos.ne' two_ne_zero, mul_comm, one_mul]
        exact_mod_cast same
      rw [Nat.compare_eq_eq.2 same, halfway]
      exact .half _
    · have above : 1 / 2 < ((m % n : ℕ) : ℚ) / n := by
        rw [div_lt_div_iff₀ two_pos nPos, mul_comm _ (2 : ℚ), one_mul]
        exact_mod_cast more
      rw [Nat.compare_eq_gt.2 more]
      exact .high (by linarith) (by linarith)

/-! ## The grid of a value -/

/-- The numbers near a value are the multiples of `2 ^ t`: counted in them the value has at most
53 binary digits, and exactly 53 unless the grid is the finest one. -/
structure Grid (t : ℤ) (v : ℚ) : Prop where
  finest : -1074 ≤ t
  below : v < 2 ^ (t + 53)
  above : t = -1074 ∨ 2 ^ (t + 52) ≤ v

/-- A value rounds to the nearest multiple on its grid. -/
def Rounds (v r : ℚ) : Prop :=
  ∃ (t : ℤ) (n : ℕ), Grid t v ∧ NearestEven n (v / 2 ^ t) ∧ r = n * 2 ^ t

theorem Grid.div_lt {t : ℤ} {v : ℚ} (grid : Grid t v) : v / 2 ^ t < (2 ^ 53 : ℕ) := by
  have below := grid.below
  rw [zpow_add₀ two_ne_zero] at below
  rw [div_lt_iff₀ (by positivity), mul_comm]
  exact_mod_cast below

theorem Grid.le_div {t : ℤ} {v : ℚ} (grid : Grid t v) (coarse : t ≠ -1074) :
    ((2 ^ 52 : ℕ) : ℚ) ≤ v / 2 ^ t := by
  have above := grid.above.resolve_left coarse
  rw [zpow_add₀ two_ne_zero] at above
  rw [le_div_iff₀ (by positivity), mul_comm]
  exact_mod_cast above

/-- Rounding respects order. -/
theorem Rounds.mono {v w r s : ℚ} (lower : Rounds v r) (upper : Rounds w s) (le : v ≤ w) :
    r ≤ s := by
  obtain ⟨t, m, lowerGrid, lowerNear, rfl⟩ := lower
  obtain ⟨u, n, upperGrid, upperNear, rfl⟩ := upper
  have lowerFinest := lowerGrid.finest
  have upperFinest := upperGrid.finest
  rcases lt_trichotomy t u with finer | rfl | coarser
  · -- the power of two at which the coarser grid starts separates the two
    have few : m ≤ 2 ^ 53 := lowerNear.mono (nearestEven_natCast _) lowerGrid.div_lt.le
    have many : 2 ^ 52 ≤ n := (nearestEven_natCast _).mono upperNear (upperGrid.le_div (by omega))
    calc (m : ℚ) * 2 ^ t ≤ (2 ^ 53 : ℕ) * 2 ^ t := by gcongr
      _ = 2 ^ (t + 53) := by rw [zpow_add₀ two_ne_zero, mul_comm]; norm_num
      _ ≤ 2 ^ (u + 52) := zpow_le_zpow_right₀ one_le_two (by omega)
      _ = (2 ^ 52 : ℕ) * 2 ^ u := by rw [zpow_add₀ two_ne_zero, mul_comm]; norm_num
      _ ≤ n * 2 ^ u := by gcongr
  · have le : v / 2 ^ t ≤ w / 2 ^ t := by gcongr
    have := lowerNear.mono upperNear le
    gcongr
  · have start := lowerGrid.above.resolve_left (by omega)
    have apart : (2 : ℚ) ^ (u + 53) ≤ 2 ^ (t + 52) := zpow_le_zpow_right₀ one_le_two (by omega)
    exact absurd (upperGrid.below.trans_le (apart.trans start)) (not_lt.2 le)

/-! ## How results are rounded -/

/-- A mantissa and an exponent as they are stored: 53 binary digits, or fewer on the finest
grid. -/
structure Canonical (m : ℕ) (e : ℤ) : Prop where
  small : m < 2 ^ 53
  finest : -1074 ≤ e
  normal : e = -1074 ∨ 2 ^ 52 ≤ m

/-- A stored number without a negative sign has a value. -/
inductive Is : UnpackedFloat → ℚ → Prop
  | zero : Is (.zero .positive) 0
  | finite {m : ℕ} {e : ℤ} (positive : 0 < m) (canonical : Canonical m e) :
      Is (.finite .positive m e positive) (m * 2 ^ e)

theorem targetExponent_eq (m : ℕ) (e : ℤ) :
    Format.binary64.targetExponent (totalExponent m e) = max (m.log2 + e - 52) (-1074) := by
  simp only [Format.targetExponent, totalExponent, Format.mantissaBits, Format.minExponent]
  norm_num
  omega

/-- A mantissa that fits is not shifted. -/
theorem shiftToTargetExponent_of_lt {m : ℕ} {e : ℤ} (small : m < 2 ^ 53) (finest : -1074 ≤ e) :
    shiftToTargetExponent .binary64 m e .exact = (⟨m, false, false⟩, e) := by
  have digits : m.log2 ≤ 52 := by
    by_cases zero : m = 0
    · simp [zero]
    · have := (Nat.log2_lt zero).2 small
      omega
  have noShift : (max (m.log2 + e - 52) (-1074) - e).toNat = 0 := by omega
  simp only [shiftToTargetExponent, shiftToExponent, targetExponent_eq, noShift]
  simp [HShiftRight.hShiftRight, Nat.repeat, ExtendedMantissa.ofMantissaAndAccuracy]

/-- A mantissa that rounding carried to the next power of two is shifted by one place. -/
theorem shiftToTargetExponent_carry {e : ℤ} (finest : -1074 ≤ e) :
    shiftToTargetExponent .binary64 (2 ^ 53) e .exact = (⟨2 ^ 52, false, false⟩, e + 1) := by
  have oneShift : (max (((2 ^ 53 : ℕ).log2 : ℤ) + e - 52) (-1074) - e).toNat = 1 := by
    rw [Nat.log2_two_pow]
    omega
  simp only [shiftToTargetExponent, shiftToExponent, targetExponent_eq, oneShift]
  simp [HShiftRight.hShiftRight, Nat.repeat, ExtendedMantissa.ofMantissaAndAccuracy,
    ExtendedMantissa.shiftRightOne]

/-- The value that a mantissa shows has the grid that the mantissa is shifted to. -/
theorem grid_targetExponent {m : ℕ} {e : ℤ} {v : ℚ} (floor : (m : ℚ) ≤ v / 2 ^ e)
    (below : v / 2 ^ e < m + 1) (fine : 2 ^ 52 ≤ m ∨ e ≤ -1074) :
    Grid (max (m.log2 + e - 52) (-1074)) v where
  finest := le_max_right _ _
  below := by
    have digits : (m : ℚ) + 1 ≤ 2 ^ (m.log2 + 1) := by exact_mod_cast Nat.lt_log2_self
    rw [div_lt_iff₀ (by positivity)] at below
    calc v < (m + 1) * 2 ^ e := below
      _ ≤ 2 ^ (m.log2 + 1) * 2 ^ e := by gcongr
      _ = 2 ^ ((m.log2 + 1 : ℕ) + e : ℤ) := by rw [zpow_add₀ two_ne_zero, zpow_natCast]
      _ ≤ 2 ^ (max (m.log2 + e - 52) (-1074) + 53) :=
        zpow_le_zpow_right₀ one_le_two (by push_cast; omega)
  above := by
    rw [or_iff_not_imp_left]
    intro coarse
    have nonzero : m ≠ 0 := by
      rintro rfl
      simp at coarse fine
      omega
    have digits : (2 : ℚ) ^ m.log2 ≤ m := by exact_mod_cast Nat.log2_self_le nonzero
    rw [le_div_iff₀ (by positivity)] at floor
    calc (2 : ℚ) ^ (max (m.log2 + e - 52) (-1074) + 52) = 2 ^ (m.log2 + e : ℤ) := by
          congr 1
          omega
      _ = 2 ^ m.log2 * 2 ^ e := by rw [zpow_add₀ two_ne_zero, zpow_natCast]
      _ ≤ m * 2 ^ e := by gcongr
      _ ≤ v := floor

theorem Shows.bounds {em : ExtendedMantissa} {y : ℚ} (shows : Shows em y) :
    (em.mantissa : ℚ) ≤ y ∧ y < em.mantissa + 1 := by
  cases shows with
  | exact m => exact ⟨le_rfl, by linarith⟩
  | low above below => exact ⟨above.le, by linarith⟩
  | half m => exact ⟨by linarith, by linarith⟩
  | high above below => exact ⟨by linarith, below⟩

theorem mantissa_ofMantissaAndAccuracy (m : ℕ) (accuracy : Accuracy) :
    (ExtendedMantissa.ofMantissaAndAccuracy m accuracy).mantissa = m := by
  cases accuracy with
  | exact => rfl
  | inexact order => cases order <;> rfl

/-- A mantissa is shifted to the grid of the value that it shows, and shows it there. -/
theorem exists_shiftToTargetExponent {m : ℕ} {e : ℤ} {accuracy : Accuracy} {v : ℚ}
    (shows : Shows (.ofMantissaAndAccuracy m accuracy) (v / 2 ^ e))
    (fine : 2 ^ 52 ≤ m ∨ e ≤ -1074) :
    ∃ em t, shiftToTargetExponent .binary64 m e accuracy = (em, t) ∧ Grid t v ∧
      Shows em (v / 2 ^ t) := by
  obtain ⟨floor, below⟩ := shows.bounds
  rw [mantissa_ofMantissaAndAccuracy] at floor below
  have grid := grid_targetExponent floor below fine
  generalize target : max (m.log2 + e - 52) (-1074) = t at grid
  have shift : e + ((t - e).toNat : ℤ) = t := by
    rcases fine with large | tiny
    · have digits : 52 ≤ m.log2 := (Nat.le_log2 (by omega)).2 large
      omega
    · omega
  have shifted := shows.shiftRight (t - e).toNat
  rw [div_div, ← zpow_natCast, ← zpow_add₀ two_ne_zero, shift] at shifted
  refine ⟨_, t, ?_, grid, shifted⟩
  simp only [shiftToTargetExponent, shiftToExponent, targetExponent_eq, target, shift]

/-- Rounding a shifted mantissa leaves a stored number. -/
theorem is_roundWithAccuracy {m : ℕ} {e t : ℤ} {accuracy : Accuracy} {em : ExtendedMantissa}
    (first : shiftToTargetExponent .binary64 m e accuracy = (em, t)) (finest : -1074 ≤ t)
    (few : em.roundedMantissa ≤ 2 ^ 53) (normal : t = -1074 ∨ 2 ^ 52 ≤ em.roundedMantissa) :
    Is (roundWithAccuracy .binary64 .positive m e accuracy) (em.roundedMantissa * 2 ^ t) := by
  rw [roundWithAccuracy, first]
  dsimp only
  generalize em.roundedMantissa = n at few normal
  rcases few.lt_or_eq with small | rfl
  · rw [shiftToTargetExponent_of_lt small finest]
    dsimp only
    split
    next zero =>
      rw [zero, Nat.cast_zero, zero_mul]
      exact .zero
    next nonzero => exact .finite (Nat.pos_of_ne_zero nonzero) ⟨small, finest, normal⟩
  · have value : ((2 ^ 53 : ℕ) : ℚ) * 2 ^ t = (2 ^ 52 : ℕ) * 2 ^ (t + 1) := by
      rw [zpow_add₀ two_ne_zero]
      push_cast
      ring
    rw [shiftToTargetExponent_carry finest, value]
    have canonical : Canonical (2 ^ 52) (t + 1) := ⟨by decide, by omega, .inr le_rfl⟩
    exact .finite (m := 2 ^ 52) (Nat.two_pow_pos 52) canonical

/-- What a mantissa shows of a value is rounded as the value is. -/
theorem rounds_roundWithAccuracy {m : ℕ} {e : ℤ} {accuracy : Accuracy} {v : ℚ}
    (shows : Shows (.ofMantissaAndAccuracy m accuracy) (v / 2 ^ e))
    (fine : 2 ^ 52 ≤ m ∨ e ≤ -1074) :
    ∃ r, Rounds v r ∧ Is (roundWithAccuracy .binary64 .positive m e accuracy) r := by
  obtain ⟨em, t, first, grid, shifted⟩ := exists_shiftToTargetExponent shows fine
  have near := shifted.nearestEven
  have few : em.roundedMantissa ≤ 2 ^ 53 := near.mono (nearestEven_natCast _) grid.div_lt.le
  have normal : t = -1074 ∨ 2 ^ 52 ≤ em.roundedMantissa := by
    rw [or_iff_not_imp_left]
    exact fun coarse => (nearestEven_natCast _).mono near (grid.le_div coarse)
  exact ⟨_, ⟨t, _, grid, near, rfl⟩, is_roundWithAccuracy first grid.finest few normal⟩

end WeightedArgumentation.Double
