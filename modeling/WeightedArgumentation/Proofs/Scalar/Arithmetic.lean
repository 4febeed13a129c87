import WeightedArgumentation.Proofs.Scalar.Rounding

/-!
# Arithmetic without signs

The double-precision numbers without a negative sign have values, and a sum, product or
quotient of them, or a difference that is not negative, is the exact result rounded and, when
it is too large to be stored, infinity.  As rounding respects order, an operation on bounded
values is bounded by the same operation on the bounds (`Rounded.exists_le`).
-/

namespace WeightedArgumentation.Double

open Float.Model (UnpackedFloat Format totalExponent)
open Float.Model.UnpackedFloat

/-! ## Storing -/

theorem toNat_one_append (mantissa : BitVec 52) :
    (1#1 ++ mantissa).toNat = 2 ^ 52 + mantissa.toNat := by
  rw [BitVec.toNat_append, ← Nat.shiftLeft_add_eq_or_of_lt mantissa.isLt]
  simp [Nat.shiftLeft_eq]

/-- Storing a number of full precision whose exponent fits keeps it. -/
theorem unpack_pack_normal {m : ℕ} {e : ℤ} (positive : 0 < m) (small : m < 2 ^ 53)
    (large : 2 ^ 52 ≤ m) (finest : -1074 ≤ e) (fits : e ≤ 971) :
    unpack .binary64 (pack .binary64 (.finite .positive m e positive)) =
      .finite .positive m e positive := by
  have digits : m.log2 + 1 = Format.binary64.mantissaBits := by
    have least := (Nat.le_log2 (by omega)).2 large
    have most := (Nat.log2_lt (by omega)).2 small
    show m.log2 + 1 = 53
    omega
  obtain ⟨biased, exponent⟩ : ∃ biased : ℕ, e + 1075 = biased := ⟨(e + 1075).toNat, by omega⟩
  have stored : (e + (Format.binary64.exponentBias : ℤ) +
      (Format.binary64.mantissaBitsWithoutImplicit : ℤ)).toNat = biased := by
    show (e + (1023 : ℤ) + 52).toNat = biased
    omega
  have fitsBits : ¬ 2 ^ Format.binary64.exponentBits ≤ biased + 1 := by
    show ¬ 2 ^ 11 ≤ biased + 1
    omega
  have exponentBits : (BitVec.ofNat 11 biased).toNat = biased := by
    rw [BitVec.toNat_ofNat, Nat.mod_eq_of_lt (by omega)]
  have notSpecial : BitVec.ofNat 11 biased ≠ -1#11 := fun same => by
    have := congrArg BitVec.toNat same
    rw [exponentBits] at this
    simp at this
    omega
  have notZero : BitVec.ofNat 11 biased ≠ 0#11 := fun same => by
    have := congrArg BitVec.toNat same
    rw [exponentBits] at this
    simp at this
    omega
  have mantissa : (1#1 ++ BitVec.ofNat 52 m).toNat = m := by
    rw [toNat_one_append, BitVec.toNat_ofNat]
    omega
  rw [pack]
  dsimp only
  rw [stored, if_neg fitsBits, if_pos digits, unpack]
  simp only [unpackMantissa_packComponents, unpackExponent_packComponents,
    unpackSign_packComponents, notSpecial, notZero, if_false, exponentBits, mantissa]
  congr 1
  show (biased : ℤ) - (1023 + 52) = e
  omega

theorem unpack_pack_subnormal {m : ℕ} (positive : 0 < m) (small : m < 2 ^ 52) :
    unpack .binary64 (pack .binary64 (.finite .positive m (-1074) positive)) =
      .finite .positive m (-1074) positive := by
  have digits : ¬ m.log2 + 1 = Format.binary64.mantissaBits := by
    have most := (Nat.log2_lt (by omega)).2 small
    show ¬ m.log2 + 1 = 53
    omega
  have mantissa : (BitVec.ofNat 52 m).toNat = m := by
    rw [BitVec.toNat_ofNat, Nat.mod_eq_of_lt small]
  have notZero : BitVec.ofNat 52 m ≠ 0#52 := fun same => by
    have := congrArg BitVec.toNat same
    rw [mantissa] at this
    simp at this
    omega
  rw [pack]
  dsimp only
  rw [if_neg (by decide), if_neg digits, unpack]
  simp only [unpackMantissa_packComponents, unpackExponent_packComponents,
    unpackSign_packComponents, notZero, mantissa]
  rfl

theorem unpack_pack_large {m : ℕ} {e : ℤ} (positive : 0 < m) (large : 972 ≤ e) :
    unpack .binary64 (pack .binary64 (.finite .positive m e positive)) = .infinity .positive := by
  have exceeds : 2 ^ Format.binary64.exponentBits ≤ (e + (Format.binary64.exponentBias : ℤ) +
      (Format.binary64.mantissaBitsWithoutImplicit : ℤ)).toNat + 1 := by
    show 2 ^ 11 ≤ (e + (1023 : ℤ) + 52).toNat + 1
    omega
  rw [pack]
  dsimp only
  rw [if_pos exceeds]
  rfl

/-- What is unpacked is as it is stored. -/
theorem canonical_of_unpack {bits : BitVec Format.binary64.numBits} {sign : Sign} {m : ℕ} {e : ℤ}
    {positive : 0 < m} (unpacked : unpack .binary64 bits = .finite sign m e positive) :
    Canonical m e := by
  have bias : ((Format.binary64.exponentBias : ℤ) +
      (Format.binary64.mantissaBitsWithoutImplicit : ℤ)) = 1075 := rfl
  have mantissaBits : (unpackMantissa bits).toNat < 2 ^ 52 := (unpackMantissa bits).isLt
  simp only [unpack, bias] at unpacked
  split at unpacked
  next => split at unpacked <;> cases unpacked
  next =>
    split at unpacked
    next subnormal =>
      split at unpacked
      next => cases unpacked
      next =>
        cases unpacked
        have exponent : (unpackExponent bits).toNat = 0 := by
          rw [subnormal]
          rfl
        rw [exponent]
        exact ⟨by omega, by omega, .inl (by omega)⟩
    next normal =>
      cases unpacked
      have exponent : (unpackExponent bits).toNat ≠ 0 := fun zero =>
        normal (BitVec.eq_of_toNat_eq zero)
      rw [toNat_one_append]
      exact ⟨by omega, by omega, .inr (by omega)⟩

/-- A number without a negative sign has a value. -/
def Holds (x : Float) (v : ℚ) : Prop := Is x.toModel.unpack v

/-- A result that is too large to be stored. -/
def Overflows (x : Float) : Prop := x.toModel.unpack = .infinity .positive

/-- A number is what a value is rounded to, if that is not too large. -/
def Rounded (x : Float) (v : ℚ) : Prop :=
  ∃ r, Rounds v r ∧ (r < 2 ^ (1024 : ℤ) ∧ Holds x r ∨ 2 ^ (1024 : ℤ) ≤ r ∧ Overflows x)

theorem holds_or_overflows {u : UnpackedFloat} {r : ℚ} (is : Is u r) :
    r < 2 ^ (1024 : ℤ) ∧ Holds ⟨.pack u⟩ r ∨ 2 ^ (1024 : ℤ) ≤ r ∧ Overflows ⟨.pack u⟩ := by
  show r < 2 ^ (1024 : ℤ) ∧ Is (unpack .binary64 (pack .binary64 u)) r ∨
    2 ^ (1024 : ℤ) ≤ r ∧ unpack .binary64 (pack .binary64 u) = .infinity .positive
  cases is with
  | zero =>
      left
      refine ⟨by positivity, ?_⟩
      rw [pack, unpack_packedZero]
      exact .zero
  | @finite m e positive canonical =>
      rcases le_or_gt e 971 with fits | large
      · left
        have mantissa : (m : ℚ) < 2 ^ (53 : ℤ) := by exact_mod_cast canonical.small
        constructor
        · calc (m : ℚ) * 2 ^ e < 2 ^ (53 : ℤ) * 2 ^ e := by gcongr
            _ = 2 ^ (53 + e) := (zpow_add₀ two_ne_zero _ _).symm
            _ ≤ 2 ^ (1024 : ℤ) := zpow_le_zpow_right₀ one_le_two (by omega)
        · rcases lt_or_ge m (2 ^ 52) with subnormal | full
          · obtain rfl := canonical.normal.resolve_right (not_le.2 subnormal)
            rw [unpack_pack_subnormal positive subnormal]
            exact .finite positive canonical
          · rw [unpack_pack_normal positive canonical.small full canonical.finest fits]
            exact .finite positive canonical
      · right
        have full : (2 : ℚ) ^ (52 : ℤ) ≤ m := by
          exact_mod_cast canonical.normal.resolve_left (by omega)
        refine ⟨?_, unpack_pack_large positive large⟩
        calc (2 : ℚ) ^ (1024 : ℤ) ≤ 2 ^ (52 + e) := zpow_le_zpow_right₀ one_le_two (by omega)
          _ = 2 ^ (52 : ℤ) * 2 ^ e := zpow_add₀ two_ne_zero _ _
          _ ≤ m * 2 ^ e := by gcongr

theorem rounded_pack {u : UnpackedFloat} {v : ℚ} (rounds : ∃ r, Rounds v r ∧ Is u r) :
    Rounded ⟨.pack u⟩ v := by
  obtain ⟨r, rounds, is⟩ := rounds
  exact ⟨r, rounds, holds_or_overflows is⟩

/-! ## Operations -/

/-- A stored number is on its own grid. -/
theorem Is.rounds_self {u : UnpackedFloat} {r : ℚ} (is : Is u r) : Rounds r r := by
  cases is with
  | zero =>
      refine ⟨-1074, 0, ⟨le_rfl, by positivity, .inl rfl⟩, ?_, by simp⟩
      simpa using nearestEven_natCast 0
  | @finite m e positive canonical =>
      have scaled : (m : ℚ) * 2 ^ e / 2 ^ e = m := mul_div_cancel_right₀ _ (by positivity)
      refine ⟨e, m, ⟨canonical.finest, ?_, ?_⟩, ?_, rfl⟩
      · have small : (m : ℚ) < 2 ^ (53 : ℤ) := by exact_mod_cast canonical.small
        rw [add_comm, zpow_add₀ two_ne_zero]
        gcongr
      · refine canonical.normal.imp_right fun full => ?_
        have large : (2 : ℚ) ^ (52 : ℤ) ≤ m := by exact_mod_cast full
        rw [add_comm, zpow_add₀ two_ne_zero]
        gcongr
      · rw [scaled]
        exact nearestEven_natCast m

/-- Scaling a mantissa to a smaller exponent keeps its value. -/
theorem decreaseExponent_value (m : ℕ) {e s : ℤ} (le : s ≤ e) :
    ((decreaseExponent m e s).1 : ℚ) * 2 ^ s = m * 2 ^ e := by
  obtain ⟨k, rfl⟩ : ∃ k : ℕ, e = s + k := ⟨(e - s).toNat, by omega⟩
  have shift : (s + k - s).toNat = k := by omega
  simp only [decreaseExponent, shift, Nat.shiftLeft_eq]
  push_cast
  rw [zpow_add₀ two_ne_zero, zpow_natCast]
  ring

/-- A mantissa with enough digits is rounded as its value. -/
theorem rounds_exact {m : ℕ} {e : ℤ} {v : ℚ} (value : v = m * 2 ^ e)
    (fine : 2 ^ 52 ≤ m ∨ e ≤ -1074) :
    ∃ r, Rounds v r ∧ Is (roundWithAccuracy .binary64 .positive m e .exact) r := by
  refine rounds_roundWithAccuracy ?_ fine
  rw [value, mul_div_cancel_right₀ _ (by positivity)]
  exact shows_exact m

/-- A mantissa that is extended first has enough digits. -/
theorem rounds_round {m : ℕ} (positive : 0 < m) (e : ℤ) :
    ∃ r, Rounds (m * 2 ^ e) r ∧ Is (UnpackedFloat.round .binary64 .positive m e) r := by
  rw [UnpackedFloat.round, targetExponent_eq]
  have kept : 2 ^ m.log2 ≤ m := Nat.log2_self_le positive.ne'
  generalize target : max (m.log2 + e - 52) (-1074) = t
  rcases le_or_gt e t with fine | extended
  · have noShift : (e - t).toNat = 0 := by omega
    simp only [decreaseExponent, noShift, Nat.shiftLeft_zero, Nat.cast_zero, sub_zero]
    refine rounds_exact rfl ?_
    rcases le_or_gt e (-1074) with tiny | normal
    · exact .inr tiny
    · have digits : 52 ≤ m.log2 := by omega
      exact .inl ((Nat.pow_le_pow_right two_pos digits).trans kept)
  · have scaled := decreaseExponent_value m extended.le
    have shift : e - ((e - t).toNat : ℤ) = t := by omega
    simp only [decreaseExponent, shift] at scaled ⊢
    refine rounds_exact scaled.symm ?_
    rcases le_or_gt t (-1074) with tiny | normal
    · exact .inr tiny
    · have digits : m.log2 + (e - t).toNat = 52 := by omega
      left
      rw [Nat.shiftLeft_eq, ← digits, pow_add]
      gcongr

theorem rounds_normalize {k : ℤ} (nonneg : 0 ≤ k) (e : ℤ) :
    ∃ r, Rounds (k * 2 ^ e) r ∧ Is (UnpackedFloat.normalize .binary64 k e .positive) r := by
  obtain ⟨m, rfl⟩ := Int.eq_ofNat_of_zero_le nonneg
  rcases Nat.eq_zero_or_pos m with rfl | positive
  · refine ⟨0, ?_, .zero⟩
    simpa using Is.zero.rounds_self
  · have compared : compare (m : ℤ) 0 = .gt := by
      rw [Int.compare_eq_gt]
      exact_mod_cast positive
    rw [UnpackedFloat.normalize, compared]
    simpa using rounds_round positive e

/-! Sums and differences are taken on the finer of two grids. -/

theorem is_add {x y : UnpackedFloat} {v w : ℚ} (left : Is x v) (right : Is y w) :
    ∃ r, Rounds (v + w) r ∧ Is (add .binary64 x y) r := by
  cases left with
  | zero =>
      rw [zero_add]
      cases right with
      | zero => exact ⟨0, Is.zero.rounds_self, .zero⟩
      | finite positive canonical =>
          have right := Is.finite positive canonical
          exact ⟨_, right.rounds_self, right⟩
  | @finite m e positive canonical =>
      have left := Is.finite positive canonical
      cases right with
      | zero =>
          rw [add_zero]
          exact ⟨_, left.rounds_self, left⟩
      | @finite n f positive canonical =>
          have sum := rounds_normalize (k := (decreaseExponent m e (min e f)).1 +
            (decreaseExponent n f (min e f)).1) (by positivity) (min e f)
          push_cast at sum
          rw [add_mul, decreaseExponent_value m (min_le_left e f),
            decreaseExponent_value n (min_le_right e f)] at sum
          exact sum

theorem is_sub {x y : UnpackedFloat} {v w : ℚ} (left : Is x v) (right : Is y w) (le : w ≤ v) :
    ∃ r, Rounds (v - w) r ∧ Is (sub .binary64 x y) r := by
  cases right with
  | zero =>
      rw [sub_zero]
      cases left with
      | zero => exact ⟨0, Is.zero.rounds_self, .zero⟩
      | finite positive canonical =>
          have left := Is.finite positive canonical
          exact ⟨_, left.rounds_self, left⟩
  | @finite n f positive canonical =>
      have nPos : (0 : ℚ) < n := by exact_mod_cast positive
      cases left with
      | zero => exact absurd le (not_le.2 (by positivity))
      | @finite m e positive canonical =>
          have left := decreaseExponent_value m (min_le_left e f)
          have right := decreaseExponent_value n (min_le_right e f)
          have nonneg : (0 : ℤ) ≤ (decreaseExponent m e (min e f)).1 -
              (decreaseExponent n f (min e f)).1 := by
            rw [← left, ← right, mul_le_mul_iff_left₀ (by positivity)] at le
            rw [sub_nonneg]
            exact_mod_cast le
          have difference := rounds_normalize nonneg (min e f)
          push_cast at difference
          rw [sub_mul, left, right] at difference
          exact difference

theorem is_mul {x y : UnpackedFloat} {v w : ℚ} (left : Is x v) (right : Is y w) :
    ∃ r, Rounds (v * w) r ∧ Is (mul .binary64 x y) r := by
  cases left with
  | zero =>
      rw [zero_mul]
      cases right with
      | zero => exact ⟨0, Is.zero.rounds_self, .zero⟩
      | finite positive canonical => exact ⟨0, Is.zero.rounds_self, .zero⟩
  | @finite m e mPos mCanonical =>
      cases right with
      | zero =>
          rw [mul_zero]
          exact ⟨0, Is.zero.rounds_self, .zero⟩
      | @finite n f nPos nCanonical =>
          refine rounds_exact (e := e + f) ?_ ?_
          · push_cast
            rw [zpow_add₀ two_ne_zero]
            ring
          · rcases mCanonical.normal with tiny | full
            · rcases nCanonical.normal with bothTiny | full
              · right
                omega
              · left
                exact full.trans (Nat.le_mul_of_pos_left n mPos)
            · left
              exact full.trans (Nat.le_mul_of_pos_right m nPos)

/-- A dividend that is extended first has enough digits for the quotient. -/
theorem two_pow_le_quotient {m n k : ℕ} (mPos : 0 < m) (nPos : 0 < n)
    (digits : n.log2 + 53 ≤ m.log2 + k) : 2 ^ 52 ≤ (m <<< k) / n := by
  rw [Nat.le_div_iff_mul_le nPos, Nat.shiftLeft_eq]
  calc 2 ^ 52 * n ≤ 2 ^ 52 * 2 ^ (n.log2 + 1) := by gcongr; exact Nat.lt_log2_self.le
    _ = 2 ^ (n.log2 + 53) := by rw [← pow_add]; congr 1; omega
    _ ≤ 2 ^ (m.log2 + k) := Nat.pow_le_pow_right two_pos digits
    _ = 2 ^ m.log2 * 2 ^ k := pow_add _ _ _
    _ ≤ m * 2 ^ k := by gcongr; exact Nat.log2_self_le mPos.ne'

theorem is_div {x y : UnpackedFloat} {v w : ℚ} (left : Is x v) (right : Is y w) (positive : 0 < w) :
    ∃ r, Rounds (v / w) r ∧ Is (div .binary64 x y) r := by
  cases right with
  | zero => exact absurd positive (lt_irrefl 0)
  | @finite n f nPos nCanonical =>
      cases left with
      | zero =>
          rw [zero_div]
          exact ⟨0, Is.zero.rounds_self, .zero⟩
      | @finite m e mPos mCanonical =>
          have target : Format.binary64.targetExponent (totalExponent m e - totalExponent n f) =
              max (m.log2 - n.log2 + (e - f) - 53) (-1074) := by
            simp only [Format.targetExponent, totalExponent, Format.mantissaBits,
              Format.minExponent]
            norm_num
            omega
          rw [div]
          simp only [divCore, target]
          generalize exponent : min (e - f) (max (m.log2 - n.log2 + (e - f) - 53) (-1074)) = t
          generalize shift : (e - f - t).toNat = k
          refine rounds_roundWithAccuracy ?_ ?_
          · have scaled : e = t + f + k := by omega
            have value : (m : ℚ) * 2 ^ e / (n * 2 ^ f) / 2 ^ t = ((m <<< k : ℕ) : ℚ) / n := by
              rw [Nat.shiftLeft_eq, scaled, zpow_add₀ two_ne_zero, zpow_add₀ two_ne_zero,
                zpow_natCast]
              push_cast
              field_simp
            rw [value]
            exact shows_quotient _ nPos
          · rcases le_or_gt t (-1074) with tiny | normal
            · exact .inr tiny
            · exact .inl (two_pow_le_quotient mPos nPos (by omega))

/-! ## Numbers -/

theorem Is.nonneg {u : UnpackedFloat} {v : ℚ} (is : Is u v) : 0 ≤ v := by
  cases is with
  | zero => exact le_rfl
  | finite positive canonical => positivity

theorem Is.unique {u : UnpackedFloat} {v w : ℚ} (left : Is u v) (right : Is u w) : v = w := by
  cases left <;> cases right <;> rfl

section Operations

variable {x y : Float} {v w : ℚ}

theorem Holds.add (left : Holds x v) (right : Holds y w) : Rounded (x + y) (v + w) :=
  rounded_pack (is_add left right)

theorem Holds.sub (left : Holds x v) (right : Holds y w) (le : w ≤ v) : Rounded (x - y) (v - w) :=
  rounded_pack (is_sub left right le)

theorem Holds.mul (left : Holds x v) (right : Holds y w) : Rounded (x * y) (v * w) :=
  rounded_pack (is_mul left right)

theorem Holds.div (left : Holds x v) (right : Holds y w) (positive : 0 < w) :
    Rounded (x / y) (v / w) :=
  rounded_pack (is_div left right positive)

theorem rounded_toFloat (n : UInt64) : Rounded n.toFloat n.toNat := by
  have rounds := rounds_normalize (Int.natCast_nonneg n.toNat) 0
  rw [zpow_zero, mul_one, Int.cast_natCast] at rounds
  exact rounded_pack rounds

/-- A positive decimal integer is rounded from its value. -/
theorem rounded_ofScientific {m n : ℕ} (positive : 0 < m) (small : n ≤ 2 ^ 11) :
    Rounded ⟨.pack (UnpackedFloat.ofScientific .binary64 m n)⟩ (m * 10 ^ n) := by
  have small : ¬ (n : ℤ) > 2 ^ Format.binary64.exponentBits := by
    show ¬ (n : ℤ) > 2 ^ 11
    omega
  have large : ¬ (n : ℤ) < -(2 ^ Format.binary64.exponentBits + (m.log2 : ℤ)) := by
    show ¬ (n : ℤ) < -(2 ^ 11 + (m.log2 : ℤ))
    omega
  have product : UnpackedFloat.ofScientific .binary64 m n =
      .roundWithAccuracy .binary64 .positive (m <<< 53 * 10 ^ n) (-53 + 0) .exact := by
    rw [UnpackedFloat.ofScientific, dif_neg positive.ne', if_neg small, if_neg large,
      if_pos (Int.natCast_nonneg n)]
    rfl
  rw [product]
  refine rounded_pack (rounds_exact ?_ (.inl ?_))
  · rw [Nat.shiftLeft_eq]
    push_cast
    norm_num
    ring
  · rw [Nat.shiftLeft_eq, mul_assoc]
    exact (Nat.pow_le_pow_right two_pos (by omega)).trans
      ((Nat.le_mul_of_pos_right _ (by positivity)).trans (Nat.le_mul_of_pos_left _ positive))

theorem Holds.not_overflows (holds : Holds x v) : ¬ Overflows x := by
  intro overflows
  rw [Holds, overflows] at holds
  cases holds

/-- What is rounded from a value that is not larger is stored and is not larger. -/
theorem Rounded.exists_le {s : ℚ} (lower : Rounded x v) (upper : Rounded y w) (le : v ≤ w)
    (holds : Holds y s) : ∃ r ≤ s, Holds x r := by
  obtain ⟨b, upperRounds, ⟨fits, upperHolds⟩ | ⟨_, overflows⟩⟩ := upper
  · obtain rfl := upperHolds.unique holds
    obtain ⟨a, lowerRounds, lowerHolds⟩ := lower
    have below := lowerRounds.mono upperRounds le
    rcases lowerHolds with ⟨_, lowerHolds⟩ | ⟨large, _⟩
    · exact ⟨a, below, lowerHolds⟩
    · exact absurd (large.trans below) (not_le.2 fits)
  · exact absurd overflows holds.not_overflows

/-- What is rounded from a value that is not smaller is not smaller, or too large to be
stored. -/
theorem Rounded.le_or_overflows {r : ℚ} (lower : Rounded x v) (upper : Rounded y w) (le : v ≤ w)
    (holds : Holds x r) : (∃ s, r ≤ s ∧ Holds y s) ∨ Overflows y := by
  obtain ⟨b, upperRounds, ⟨_, upperHolds⟩ | ⟨_, overflows⟩⟩ := upper
  · obtain ⟨a, lowerRounds, ⟨_, lowerHolds⟩ | ⟨_, overflows⟩⟩ := lower
    · obtain rfl := lowerHolds.unique holds
      exact .inl ⟨b, lowerRounds.mono upperRounds le, upperHolds⟩
    · exact absurd overflows holds.not_overflows
  · exact .inr overflows

/-- A product of smaller values is not larger. -/
theorem Holds.exists_mul_le {x' y' : Float} {v' w' s : ℚ} (left : Holds x v) (right : Holds y w)
    (mostLeft : Holds x' v') (mostRight : Holds y' w') (leftLe : v ≤ v') (rightLe : w ≤ w')
    (product : Holds (x' * y') s) : ∃ r ≤ s, Holds (x * y) r :=
  (left.mul right).exists_le (mostLeft.mul mostRight)
    (mul_le_mul leftLe rightLe (Is.nonneg right) (Is.nonneg mostLeft)) product

theorem pack_unpack_eq (x : Float) : (⟨.pack x.toModel.unpack⟩ : Float) = x :=
  eq_of_unpack_eq (congrArg (unpack .binary64) (pack_unpack_of_valid x.toModel.valid))

/-- A stored number is rounded from its own value. -/
theorem Holds.rounded (holds : Holds x v) : Rounded x v := by
  have rounded := rounded_pack ⟨v, Is.rounds_self holds, holds⟩
  rwa [pack_unpack_eq] at rounded

theorem Holds.isFinite (holds : Holds x v) : x.isFinite = true := by
  show x.toModel.unpack.isFinite = true
  rw [Holds] at holds
  cases unpacked : x.toModel.unpack with
  | zero => rfl
  | finite => rfl
  | infinity => rw [unpacked] at holds; cases holds
  | notANumber => rw [unpacked] at holds; cases holds

end Operations

/-! ## Constants -/

theorem holds_of_unpack {x : Float} {m : ℕ} {e : ℤ} {v : ℚ} (positive : 0 < m)
    (canonical : Canonical m e) (value : v = m * 2 ^ e)
    (unpacked : x.toModel.unpack = .finite .positive m e positive) : Holds x v := by
  rw [Holds, unpacked, value]
  exact .finite positive canonical

theorem holds_zero : Holds 0.0 0 := .zero

theorem holds_one : Holds 1.0 1 :=
  holds_of_unpack (m := 2 ^ 52) (e := -52) (by decide) (by constructor <;> decide) (by norm_num) rfl

theorem holds_two : Holds 2.0 2 :=
  holds_of_unpack (m := 2 ^ 52) (e := -51) (by decide) (by constructor <;> decide) (by norm_num) rfl

theorem exists_toFloat_holds (n : UInt64) : ∃ v, Holds n.toFloat v := by
  have limit : Holds 18446744073709551616.0 (2 ^ 64) :=
    holds_of_unpack (m := 2 ^ 52) (e := 12) (by decide) (by constructor <;> decide) (by norm_num)
      rfl
  have small : (n.toNat : ℚ) ≤ 2 ^ 64 := by exact_mod_cast n.toNat_lt.le
  obtain ⟨v, _, holds⟩ := (rounded_toFloat n).exists_le limit.rounded small limit
  exact ⟨v, holds⟩

/-- A smaller integer is not converted to a larger number. -/
theorem exists_toFloat_le {m n : UInt64} (le : m.toNat ≤ n.toNat) {v : ℚ}
    (holds : Holds n.toFloat v) : ∃ r ≤ v, Holds m.toFloat r :=
  (rounded_toFloat m).exists_le (rounded_toFloat n) (by exact_mod_cast le) holds

theorem isFinite_toFloat (n : UInt64) : n.toFloat.isFinite = true := by
  obtain ⟨v, holds⟩ := exists_toFloat_holds n
  exact holds.isFinite

/-! ## Infinite sums -/

/-- A number without a negative sign, perhaps infinite. -/
def Nonnegative (x : Float) : Prop := (∃ v, Holds x v) ∨ Overflows x

section Infinite

variable {x y : Float} {v : ℚ}

theorem Rounded.nonnegative (rounded : Rounded x v) : Nonnegative x := by
  obtain ⟨r, _, ⟨_, holds⟩ | ⟨_, overflows⟩⟩ := rounded
  · exact .inl ⟨r, holds⟩
  · exact .inr overflows

/-- A finite number that something is rounded to holds a value. -/
theorem Rounded.exists_holds (rounded : Rounded x v) (finite : x.isFinite = true) :
    ∃ w, Holds x w := by
  rcases rounded.nonnegative with holds | overflows
  · exact holds
  · have infinite : x.toModel.unpack.isFinite = true := finite
    rw [overflows] at infinite
    cases infinite

theorem overflows_infinity : Overflows ⟨.pack (.infinity .positive)⟩ := rfl

theorem Is.add_infinity {u : UnpackedFloat} (is : Is u v) :
    UnpackedFloat.add .binary64 u (.infinity .positive) = .infinity .positive := by
  cases is <;> rfl

theorem Is.infinity_add {u : UnpackedFloat} (is : Is u v) :
    UnpackedFloat.add .binary64 (.infinity .positive) u = .infinity .positive := by
  cases is <;> rfl

theorem Is.div_infinity {u : UnpackedFloat} (is : Is u v) :
    UnpackedFloat.div .binary64 u (.infinity .positive) = .zero .positive := by
  cases is <;> rfl

theorem add_eq_pack (x y : Float) :
    x + y = ⟨.pack (UnpackedFloat.add .binary64 x.toModel.unpack y.toModel.unpack)⟩ := rfl

/-- An infinite term makes a sum infinite. -/
theorem Holds.add_overflows (left : Holds x v) (right : Overflows y) : Overflows (x + y) := by
  rw [add_eq_pack, right, Is.add_infinity left]
  exact overflows_infinity

theorem Nonnegative.add (left : Nonnegative x) (right : Nonnegative y) : Nonnegative (x + y) := by
  rcases left with ⟨v, left⟩ | left
  · rcases right with ⟨w, right⟩ | right
    · exact (left.add right).nonnegative
    · exact .inr (left.add_overflows right)
  · rw [add_eq_pack, left]
    rcases right with ⟨w, right⟩ | right
    · rw [Is.infinity_add right]
      exact .inr overflows_infinity
    · rw [right]
      exact .inr overflows_infinity

/-- A value divided by an infinite one is zero. -/
theorem Holds.div_overflows (left : Holds x v) (right : Overflows y) : Holds (x / y) 0 := by
  have quotient : x / y =
      ⟨.pack (UnpackedFloat.div .binary64 x.toModel.unpack y.toModel.unpack)⟩ := rfl
  rw [quotient, right, Is.div_infinity left]
  show Is (unpack .binary64 (packedZero .binary64 .positive)) 0
  rw [unpack_packedZero]
  exact .zero

/-- Division by what is not less than one does not increase a value. -/
theorem Holds.exists_div_le (left : Holds x v)
    (right : (∃ w, 1 ≤ w ∧ Holds y w) ∨ Overflows y) : ∃ r ≤ v, Holds (x / y) r := by
  have nonneg := Is.nonneg left
  rcases right with ⟨w, atLeast, right⟩ | right
  · exact (left.div right (by linarith)).exists_le left.rounded (div_le_self nonneg atLeast) left
  · exact ⟨0, nonneg, left.div_overflows right⟩

end Infinite

end WeightedArgumentation.Double
