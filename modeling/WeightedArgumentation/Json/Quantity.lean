import WeightedArgumentation.Decimal.Numeral

/-!
# The value of a numeral

A numeral without point and exponent is an integer if it fits 64 bits, without
a sign or with one.  Every other numeral is a floating-point value: the leading
digits that fit 64 bits, without a sign, make its significand, the remaining
digits before the point only raise the exponent, those after it are dropped,
and the significand is multiplied or divided by the power of ten.  A value that
is too large has no quantity, one that is too small is zero.
-/

namespace WeightedArgumentation.Json

open Decimal (Digit Numeral Exponent valueOf)

/-- What a numeral stands for.  `negative n` is the integer `-n`. -/
inductive Quantity
  | natural (n : Nat)
  | negative (n : Nat)
  | real (x : Float)

/-- The largest significand. -/
def largestSignificand : Nat := UInt64.size - 1

/-- Appends digits to a significand as long as it fits, and returns the digits
that are left. -/
def gatherDigits : Nat → List Digit → Nat × List Digit
  | significand, [] => (significand, [])
  | significand, digit :: rest =>
      let extended := significand * 10 + digit.val
      if extended ≤ largestSignificand then gatherDigits extended rest
      else (significand, digit :: rest)

/-- A power of ten, rounded. -/
def powerOfTen (n : Nat) : Float := Float.ofScientific 1 false n

/-- A value scaled by a power of ten in steps that floating point can take, or
nothing if it is too large. -/
def scale (x : Float) (exponent : Int) : Option Float :=
  if exponent.natAbs ≤ 308 then
    if 0 ≤ exponent then
      let scaled := x * powerOfTen exponent.natAbs
      if scaled.isInf then none else some scaled
    else some (x / powerOfTen exponent.natAbs)
  else if x == 0.0 then some x
  else if h : 0 ≤ exponent then none
  else scale (x / powerOfTen 308) (exponent + 308)
termination_by (-exponent).toNat
decreasing_by omega

/-- The number of an exponent. -/
def exponentValue : Option Exponent → Int
  | none => 0
  | some exponent =>
      if exponent.negative then -(valueOf exponent.digits : Int) else valueOf exponent.digits

/-- A value with a sign. -/
def withSign (negative : Bool) (x : Float) : Float := if negative then -x else x

/-- The floating-point value of a numeral. -/
def realValue? (numeral : Numeral) : Option Float :=
  let (front, surplus) := gatherDigits 0 numeral.whole
  let (significand, dropped) := gatherDigits front numeral.fraction
  let kept := numeral.fraction.length - dropped.length
  let exponent := (surplus.length : Int) - kept + exponentValue numeral.exponent
  (scale significand.toUInt64.toFloat exponent).map (withSign numeral.negative)

/-- What a numeral stands for, unless it is too large. -/
def quantity? (numeral : Numeral) : Option Quantity :=
  match numeral.fraction, numeral.exponent, gatherDigits 0 numeral.whole with
  | [], none, (n, []) =>
      if numeral.negative then
        if n = 0 || n > UInt64.size / 2 then some (.real (-(n.toUInt64.toFloat))) else some (.negative n)
      else some (.natural n)
  | _, _, _ => (realValue? numeral).map .real

/-- A quantity as a floating-point value. -/
def Quantity.toFloat : Quantity → Float
  | .natural n => n.toUInt64.toFloat
  | .negative n => -(n.toUInt64.toFloat)
  | .real x => x

end WeightedArgumentation.Json
