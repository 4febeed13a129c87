import WeightedArgumentation.Decimal.Numeral

/-!
# The shortest decimal of a floating-point value

A finite floating-point value stands for the real numbers that round to it.
Among the decimals in that interval the shortest are chosen, and of those the
nearest to the value.  Everything is computed exactly, in natural numbers.
-/

namespace WeightedArgumentation.Decimal

/-- A finite value `significand · 2 ^ exponent` without its sign.  The gap to
the value below is narrow when it is half the gap to the value above. -/
structure Binary where
  significand : Nat
  exponent : Int
  narrowBelow : Bool
  deriving DecidableEq, Repr

/-- The parts of a finite value. -/
def Binary.ofFloat (x : Float) : Binary :=
  let bits := x.toBits
  let biased := ((bits >>> 52) &&& 0x7FF).toNat
  let trailing := (bits &&& 0xFFFFFFFFFFFFF).toNat
  if biased = 0 then ⟨trailing, -1074, false⟩
  else ⟨0x10000000000000 + trailing, (biased : Int) - 1075, trailing = 0 && biased > 1⟩

/-- Whether the sign of a value is set; it is set for a negative zero. -/
def isNegative (x : Float) : Bool := x.toBits >>> 63 = 1

/-- The value `coefficient · 10 ^ exponent`. -/
structure Scaled where
  coefficient : Nat
  exponent : Int
  deriving DecidableEq, Repr

/-- Which of two equally near decimals is taken. -/
inductive Tie
  | toEven
  | upward
  deriving DecidableEq, Repr

/-- Compares `coefficient · 10 ^ exponent` with `significand · 2 ^ power`. -/
def Scaled.compareBinary (d : Scaled) (significand : Nat) (power : Int) : Ordering :=
  compare (d.coefficient * Nat.pow 10 d.exponent.toNat * Nat.pow 2 (-power).toNat)
    (significand * Nat.pow 2 power.toNat * Nat.pow 10 (-d.exponent).toNat)

namespace Binary

/-- Whether a decimal lies among the reals that round to a value, to nearest
with ties to even. -/
def readsBack (x : Binary) (d : Scaled) : Bool :=
  let low := if x.narrowBelow then 4 * x.significand - 1 else 4 * x.significand - 2
  let high := 4 * x.significand + 2
  let closed := x.significand % 2 = 0
  let fromLow := d.compareBinary low (x.exponent - 2)
  let fromHigh := d.compareBinary high (x.exponent - 2)
  (fromLow = .gt || closed && fromLow = .eq) && (fromHigh = .lt || closed && fromHigh = .eq)

/-- A value as a quotient of natural numbers. -/
def numerator (x : Binary) : Nat := x.significand * Nat.pow 2 x.exponent.toNat

/-- The power of two under that quotient. -/
def denominator (x : Binary) : Nat := Nat.pow 2 (-x.exponent).toNat

/-- The least `k` for which a positive value lies below `10 ^ k`. -/
def magnitude (x : Binary) : Int :=
  if x.denominator ≤ x.numerator then ((digitsOf (x.numerator / x.denominator)).length : Int)
  else 1 - ((digitsOf ((x.denominator - 1) / x.numerator)).length : Int)

/-- The largest multiple of `10 ^ exponent` that does not exceed a value. -/
def below (x : Binary) (exponent : Int) : Scaled where
  coefficient :=
    x.numerator * Nat.pow 10 (-exponent).toNat / (x.denominator * Nat.pow 10 exponent.toNat)
  exponent := exponent

/-- The nearer of the two neighbours of a value on the grid of its `below`. -/
def nearer (tie : Tie) (x : Binary) (d : Scaled) : Scaled :=
  let above : Scaled := { d with coefficient := d.coefficient + 1 }
  let middle : Scaled := { d with coefficient := 2 * d.coefficient + 1 }
  match middle.compareBinary (2 * x.significand) x.exponent, tie with
  | .lt, _ => above
  | .gt, _ => d
  | .eq, .upward => above
  | .eq, .toEven => if d.coefficient % 2 = 0 then d else above

/-- The neighbour of a value on a grid of powers of ten that reads back as the
value, the nearer one if both do. -/
def onGrid (tie : Tie) (x : Binary) (exponent : Int) : Option Scaled :=
  let d := x.below exponent
  let above : Scaled := { d with coefficient := d.coefficient + 1 }
  match x.readsBack d, x.readsBack above with
  | true, true => some (x.nearer tie d)
  | true, false => some d
  | false, true => some above
  | false, false => none

/-- A value as a decimal with all its digits. -/
def exact (x : Binary) : Scaled :=
  if 0 ≤ x.exponent then ⟨x.numerator, 0⟩
  else ⟨x.significand * Nat.pow 5 (-x.exponent).toNat, x.exponent⟩

/-- The shortest decimal that reads back as a positive value. -/
def shortest (tie : Tie) (x : Binary) : Scaled :=
  let found := (List.range 17).findSome? fun (n : Nat) => x.onGrid tie (x.magnitude - (n + 1))
  found.getD x.exact

end Binary

/-- A positive decimal without zeros at its end. -/
def Scaled.stripped (d : Scaled) : Scaled :=
  if h : d.coefficient ≠ 0 ∧ d.coefficient % 10 = 0 then
    Scaled.stripped ⟨d.coefficient / 10, d.exponent + 1⟩
  else d
termination_by d.coefficient
decreasing_by omega

end WeightedArgumentation.Decimal
