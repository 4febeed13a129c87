import WeightedArgumentation.Decimal.Shortest

/-!
# How floating-point values are written

A layout says how the digits of a value become a numeral: which powers of ten
are written out positionally and whether an integral value keeps a point and a
zero.  A fixed number of places is the other way to write a value.
-/

namespace WeightedArgumentation.Decimal

/-- The decisions in writing a finite value.  A value whose leading digit
stands for `10 ^ e` is written positionally when `plainFrom ≤ e < plainBelow`,
where a missing bound is no bound; any other value has one digit before the
point and an exponent. -/
structure Layout where
  plainFrom : Option Int
  plainBelow : Option Int
  pointZero : Bool
  tie : Tie

namespace Layout

/-- Whether a leading digit for `10 ^ e` is written positionally. -/
def isPlain (layout : Layout) (e : Int) : Bool :=
  layout.plainFrom.all (· ≤ e) && layout.plainBelow.all (e < ·)

/-- The digits after the point of an integral value. -/
def integral (layout : Layout) : List Digit := if layout.pointZero then [0] else []

/-- Digits written positionally, with `places` of them before the point. -/
def plain (layout : Layout) (negative : Bool) (digits : List Digit) (places : Int) : Numeral :=
  if places ≤ 0 then
    ⟨negative, [0], List.replicate (-places).toNat 0 ++ digits, none⟩
  else if digits.length ≤ places.toNat then
    ⟨negative, digits ++ List.replicate (places.toNat - digits.length) 0, layout.integral, none⟩
  else ⟨negative, digits.take places.toNat, digits.drop places.toNat, none⟩

/-- Digits written with one of them before the point and an exponent. -/
def scientific (negative : Bool) (digits : List Digit) (e : Int) : Numeral :=
  ⟨negative, digits.take 1, digits.drop 1, some ⟨e < 0, digitsOf e.natAbs⟩⟩

/-- The numeral of a finite value. -/
def numeral (layout : Layout) (x : Float) : Numeral :=
  let binary := Binary.ofFloat x
  if binary.significand = 0 then ⟨isNegative x, [0], layout.integral, none⟩
  else
    let shortest := (binary.shortest layout.tie).stripped
    let digits := digitsOf shortest.coefficient
    let places := (digits.length : Int) + shortest.exponent
    if layout.isPlain (places - 1) then layout.plain (isNegative x) digits places
    else scientific (isNegative x) digits (places - 1)

end Layout

/-- A quotient rounded to the nearest natural number, a half to the even one. -/
def roundQuotient (numerator denominator : Nat) : Nat :=
  let quotient := numerator / denominator
  match compare (2 * (numerator % denominator)) denominator with
  | .lt => quotient
  | .gt => quotient + 1
  | .eq => if quotient % 2 = 0 then quotient else quotient + 1

/-- The numeral of a finite value rounded to a number of places, from its exact
value and with a half going to the even neighbour. -/
def fixedPlaces (places : Nat) (x : Float) : Numeral :=
  let binary := Binary.ofFloat x
  let units := roundQuotient (binary.numerator * Nat.pow 10 places) binary.denominator
  let digits := digitsOf units
  let padded := List.replicate (places + 1 - digits.length) 0 ++ digits
  ⟨isNegative x, padded.take (padded.length - places), padded.drop (padded.length - places), none⟩

end WeightedArgumentation.Decimal
