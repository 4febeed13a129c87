import Mathlib
import WeightedArgumentation.Proofs.Scalar.Laws

/-!
# The order of double-precision numbers

A double-precision number is not a number, or it has a place in a linear order: by
sign, then by exponent, then by mantissa.  Comparison follows the places.  Positive
and negative zero share a place; apart from these, numbers of the same place have the
same bits.

So the maximum of magnitudes, in which no negative zero occurs and which passes over
what is not a number, does not depend on their order, bit for bit, and the finite
numbers obey the laws of order.  A number subtracted from itself leaves zero or what is not
a number, and the maximum passes over both.
-/

namespace WeightedArgumentation.Double

open Float.Model (UnpackedFloat Format)
open Float.Model.UnpackedFloat

/-- A number is determined by what its bits are unpacked to. -/
theorem eq_of_unpack_eq {x y : Float} (same : x.toModel.unpack = y.toModel.unpack) : x = y := by
  obtain ⟨⟨⟨xBits⟩, xValid⟩⟩ := x
  obtain ⟨⟨⟨yBits⟩, yValid⟩⟩ := y
  have packed := congrArg (pack .binary64) same
  have xPacked : pack .binary64 (unpack .binary64 xBits) = xBits := pack_unpack_of_valid xValid
  have yPacked : pack .binary64 (unpack .binary64 yBits) = yBits := pack_unpack_of_valid yValid
  obtain rfl : xBits = yBits := xPacked.symm.trans (packed.trans yPacked)
  rfl

/-- Only the largest exponent is not that of a finite number. -/
theorem isFinite_unpack_iff {bits : BitVec Format.binary64.numBits} :
    (unpack .binary64 bits).isFinite = true ↔ unpackExponent bits ≠ -1#11 := by
  simp only [unpack]
  split
  next special =>
    constructor
    · intro finite
      split at finite <;> cases finite
    · exact fun ordinary => absurd special ordinary
  next ordinary =>
    refine iff_of_true ?_ ordinary
    split
    next =>
      split
      next => rfl
      next => rfl
    next => rfl

/-- The sign does not show in the stored exponent. -/
theorem unpackExponent_pack_neg (u : UnpackedFloat) :
    unpackExponent (UnpackedFloat.pack .binary64 u.neg) =
      unpackExponent (UnpackedFloat.pack .binary64 u) := by
  cases u with
  | notANumber => rfl
  | infinity sign =>
      exact unpackExponent_packComponents.trans unpackExponent_packComponents.symm
  | zero sign =>
      exact unpackExponent_packComponents.trans unpackExponent_packComponents.symm
  | finite sign mantissa exponent =>
      simp only [UnpackedFloat.neg, UnpackedFloat.pack]
      split
      next =>
        exact unpackExponent_packComponents.trans unpackExponent_packComponents.symm
      next =>
        split
        next => rw [unpackExponent_packComponents, unpackExponent_packComponents]
        next => rw [unpackExponent_packComponents, unpackExponent_packComponents]

/-- A number is as finite as its negation. -/
theorem isFinite_neg (x : Float) : (-x).isFinite = x.isFinite := by
  have packed : UnpackedFloat.pack .binary64 x.toModel.unpack = x.toBits.toBitVec :=
    pack_unpack_of_valid x.toModel.valid
  rw [Bool.eq_iff_iff]
  show (unpack .binary64 (UnpackedFloat.pack .binary64 x.toModel.unpack.neg)).isFinite = true ↔
    (unpack .binary64 x.toBits.toBitVec).isFinite = true
  rw [isFinite_unpack_iff, isFinite_unpack_iff, unpackExponent_pack_neg, packed]

theorem isInf_of_isFinite {x : Float} (finite : x.isFinite = true) : x.isInf = false := by
  have unpacked : x.toModel.unpack.isFinite = true := finite
  show x.toModel.unpack.isInf = false
  cases number : x.toModel.unpack with
  | infinity sign =>
      rw [number] at unpacked
      cases unpacked
  | notANumber | zero sign | finite sign mantissa exponent => rfl

/-! ## Places -/

/-- The place of a number in the order. -/
def place : UnpackedFloat → Option (ℤ ×ₗ ℤ ×ₗ ℤ)
  | .notANumber => none
  | .infinity .negative => some (toLex (-2, toLex (0, 0)))
  | .finite .negative mantissa exponent _ => some (toLex (-1, toLex (-exponent, -mantissa)))
  | .zero _ => some (toLex (0, toLex (0, 0)))
  | .finite .positive mantissa exponent _ => some (toLex (1, toLex (exponent, mantissa)))
  | .infinity .positive => some (toLex (2, toLex (0, 0)))

theorem compare_natCast (m n : ℕ) : compare (m : ℤ) n = compare m n := by
  rw [← cmp_eq_compare, ← cmp_eq_compare]
  exact Int.natCast_strictMono.cmp_map_eq m n

theorem compare_neg (m n : ℤ) : compare (-m) (-n) = compare n m := by
  have antitone : StrictAnti fun k : ℤ => -k := fun _ _ => Int.neg_lt_neg
  rw [← cmp_eq_compare, ← cmp_eq_compare]
  exact antitone.cmp_map_eq m n

theorem compare_toLex {α β : Type*} [Ord α] [Ord β] (a a' : α) (b b' : β) :
    compare (toLex (a, b)) (toLex (a', b')) = (compare a a').then (compare b b') := rfl

/-- Numbers compare as their places do. -/
theorem compare_eq (u v : UnpackedFloat) :
    u.compare v = (place u).bind fun a => (place v).map fun b => compare a b := by
  rcases u with (_ | _) | _ | (_ | _) | ⟨_ | _, m, e, _⟩ <;>
  rcases v with (_ | _) | _ | (_ | _) | ⟨_ | _, m', e', _⟩ <;>
  simp [UnpackedFloat.compare, place, compare_toLex, compare_natCast, compare_neg,
    Ordering.swap_then, Int.compare_swap, Nat.compare_swap] <;> rfl

/-- The place of a double-precision number; none when it is not a number. -/
def rank (x : Float) : Option (ℤ ×ₗ ℤ ×ₗ ℤ) := place x.toModel.unpack

/-- A number is less than another exactly when it comes before it. -/
theorem less_iff {x y : Float} :
    Scalar.less x y = true ↔ ∃ a, rank x = some a ∧ ∃ b, rank y = some b ∧ a < b := by
  have compared : Scalar.less x y = true ↔
      x.toModel.unpack.compare y.toModel.unpack = some .lt := by
    simp [Scalar.less, Float.lt, LT.lt, Float.Model.lt, UnpackedFloat.lt]
  rw [compared, compare_eq]
  simp [rank, Option.bind_eq_some_iff, compare_lt_iff_lt]

theorem le_iff {x y : Float} :
    x ≤ y ↔ ∃ a, rank x = some a ∧ ∃ b, rank y = some b ∧ a ≤ b := by
  have compared : x ≤ y ↔ ∃ order,
      x.toModel.unpack.compare y.toModel.unpack = some order ∧ order.isLE = true := by
    simp [LE.le, Float.le, Float.Model.le, UnpackedFloat.le, Option.any_eq_true]
  rw [compared, compare_eq]
  simp only [Option.bind_eq_some_iff, Option.map_eq_some_iff, rank]
  constructor
  · rintro ⟨_, ⟨a, aPlace, b, bPlace, rfl⟩, below⟩
    exact ⟨a, aPlace, b, bPlace, compare_le_iff_le.1 (Ordering.isLE_iff_ne_gt.1 below)⟩
  · rintro ⟨a, aPlace, b, bPlace, below⟩
    exact ⟨_, ⟨a, aPlace, b, bPlace, rfl⟩,
      Ordering.isLE_iff_ne_gt.2 (compare_le_iff_le.2 below)⟩

theorem exists_rank {x : Float} (finite : Scalar.isFinite x = true) : ∃ a, rank x = some a := by
  have unpacked : x.toModel.unpack.isFinite = true := finite
  rw [rank]
  cases number : x.toModel.unpack with
  | notANumber => simp [number, UnpackedFloat.isFinite] at unpacked
  | infinity sign => simp [number, UnpackedFloat.isFinite] at unpacked
  | zero sign => exact ⟨_, rfl⟩
  | finite sign mantissa exponent => cases sign <;> exact ⟨_, rfl⟩

/-! ## Magnitudes -/

/-- A number without a negative sign. -/
def Unsigned : UnpackedFloat → Prop
  | .notANumber => True
  | .infinity sign => sign = .positive
  | .zero sign => sign = .positive
  | .finite sign _ _ _ => sign = .positive

/-- Unsigned numbers of the same place are equal. -/
theorem eq_of_place_eq {u v : UnpackedFloat} (uUnsigned : Unsigned u) (vUnsigned : Unsigned v)
    (same : place u = place v) : u = v := by
  rcases u with (_ | _) | _ | (_ | _) | ⟨_ | _, m, e, _⟩ <;>
  rcases v with (_ | _) | _ | (_ | _) | ⟨_ | _, m', e', _⟩ <;>
  simp_all [Unsigned, place]

theorem unsigned_unpack {bits : BitVec Format.binary64.numBits} (positive : unpackSign bits = 0) :
    Unsigned (unpack .binary64 bits) := by
  have sign : Sign.ofBitVec (unpackSign bits) = .positive := by
    rw [positive]
    rfl
  simp only [unpack]
  split
  · split
    · exact sign
    · trivial
  · split
    · split
      · exact sign
      · exact sign
    · exact sign

/-- A magnitude has no negative sign. -/
theorem unsigned_abs (x : Float) : Unsigned x.abs.toModel.unpack := by
  show Unsigned (unpack .binary64 (UnpackedFloat.pack .binary64 x.toModel.unpack.abs))
  apply unsigned_unpack
  cases x.toModel.unpack with
  | notANumber => exact unpackSign_packComponents .positive _ _
  | infinity sign => exact unpackSign_packComponents .positive _ _
  | zero sign => exact unpackSign_packComponents .positive _ _
  | finite sign mantissa exponent =>
      simp only [UnpackedFloat.abs, UnpackedFloat.pack]
      split
      · exact unpackSign_packComponents .positive _ _
      · split
        · exact unpackSign_packComponents .positive _ _
        · exact unpackSign_packComponents .positive _ _

/-- Magnitudes of the same rank are the same number. -/
theorem abs_eq_of_rank_eq {x y : Float} (same : rank x.abs = rank y.abs) : x.abs = y.abs :=
  eq_of_unpack_eq (eq_of_place_eq (unsigned_abs x) (unsigned_abs y) same)

/-! ## Laws -/

open Scalar (less larger magnitude)

theorem less_trans {x y z : Float} (first : less x y = true) (second : less y z = true) :
    less x z = true := by
  obtain ⟨a, aRank, b, bRank, before⟩ := less_iff.1 first
  obtain ⟨b', bRank', c, cRank, after⟩ := less_iff.1 second
  obtain rfl := Option.some.inj (bRank.symm.trans bRank')
  exact less_iff.2 ⟨a, aRank, c, cRank, before.trans after⟩

instance : Scalar.TransitiveLess Float := ⟨less_trans⟩

/-- Of two magnitudes that have a rank the larger one is the same from either side. -/
theorem larger_comm {x y : Float} {a b : ℤ ×ₗ ℤ ×ₗ ℤ} (aRank : rank x.abs = some a)
    (bRank : rank y.abs = some b) : larger x.abs y.abs = larger y.abs x.abs := by
  have below : less x.abs y.abs = true ↔ a < b := by simp [less_iff, aRank, bRank]
  have above : less y.abs x.abs = true ↔ b < a := by simp [less_iff, aRank, bRank]
  simp only [larger, below, above]
  rcases lt_trichotomy a b with before | rfl | after
  · rw [if_pos before, if_neg before.asymm]
  · rw [abs_eq_of_rank_eq (aRank.trans bRank.symm)]
  · rw [if_neg after.asymm, if_pos after]

/-- Two magnitudes may change places in a maximum. -/
theorem larger_right_comm (most x y : Float) :
    larger (larger most (magnitude x)) (magnitude y) =
      larger (larger most (magnitude y)) (magnitude x) := by
  show larger (larger most x.abs) y.abs = larger (larger most y.abs) x.abs
  by_cases belowX : less most x.abs = true
  · by_cases belowY : less most y.abs = true
    · obtain ⟨_, _, a, aRank, _⟩ := less_iff.1 belowX
      obtain ⟨_, _, b, bRank, _⟩ := less_iff.1 belowY
      have left : larger most x.abs = x.abs := if_pos belowX
      have right : larger most y.abs = y.abs := if_pos belowY
      rw [left, right, larger_comm aRank bRank]
    · have notBelow : ¬ less x.abs y.abs = true := fun next => belowY (less_trans belowX next)
      simp only [larger, if_pos belowX, if_neg belowY, if_neg notBelow]
  · by_cases belowY : less most y.abs = true
    · have notBelow : ¬ less y.abs x.abs = true := fun next => belowX (less_trans belowY next)
      simp only [larger, if_neg belowX, if_pos belowY, if_neg notBelow]
    · simp only [larger, if_neg belowX, if_neg belowY]

instance : Scalar.OrderFreeMaximum Float := .of_right_comm larger_right_comm

instance : Scalar.FiniteOrder Float where
  le_of_not_less {x y} xFinite yFinite notLess := by
    obtain ⟨a, aRank⟩ := exists_rank xFinite
    obtain ⟨b, bRank⟩ := exists_rank yFinite
    refine le_iff.2 ⟨a, aRank, b, bRank, not_lt.1 fun before => ?_⟩
    rw [less_iff.2 ⟨b, bRank, a, aRank, before⟩] at notLess
    cases notLess
  le_refl {x} finite := by
    obtain ⟨a, aRank⟩ := exists_rank finite
    exact le_iff.2 ⟨a, aRank, a, aRank, le_rfl⟩
  finite_zero := by decide +kernel
  finite_one := by decide +kernel
  zero_le_half := by decide +kernel
  half_le_one := by decide +kernel
  zero_le_one := by decide +kernel

/-- What is subtracted from itself leaves positive zero or, when it is infinite or not a
number, what is not a number. -/
theorem sub_self_eq (u : UnpackedFloat) :
    UnpackedFloat.sub .binary64 u u = .zero .positive ∨
      UnpackedFloat.sub .binary64 u u = .notANumber := by
  cases u with
  | notANumber => exact .inr rfl
  | infinity sign => cases sign <;> exact .inr rfl
  | zero sign => cases sign <;> exact .inl rfl
  | finite sign mantissa exponent =>
      left
      simp [UnpackedFloat.sub, UnpackedFloat.normalize]

instance : Scalar.EmptyBurden Float where
  one_div_one_add_zero := by decide +kernel

instance : Scalar.NoSelfChange Float where
  larger_zero_sub_self x := by
    have difference : x - x =
        ⟨.pack (UnpackedFloat.sub .binary64 x.toModel.unpack x.toModel.unpack)⟩ := rfl
    rw [difference]
    cases sub_self_eq x.toModel.unpack with
    | inl zero =>
        rw [zero]
        decide +kernel
    | inr notANumber =>
        rw [notANumber]
        decide +kernel

end WeightedArgumentation.Double
