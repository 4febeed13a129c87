/-!
# Decimal numerals

A numeral is a decimal number as it is written: a sign, the digits before and
after the point, and perhaps an exponent.
-/

namespace WeightedArgumentation.Decimal

/-- A decimal digit. -/
abbrev Digit := Fin 10

/-- The character of a digit. -/
def Digit.char (digit : Digit) : Char := Char.ofNat ('0'.toNat + digit.val)

/-- The digit that a character stands for. -/
def digit? (c : Char) : Option Digit :=
  if h : '0'.toNat ≤ c.toNat ∧ c.toNat < '0'.toNat + 10 then
    some ⟨c.toNat - '0'.toNat, by omega⟩
  else none

@[simp] theorem digit?_char (digit : Digit) : digit? digit.char = some digit := by
  revert digit
  decide

/-- The decimal digits of a number; zero has the one digit `0`. -/
def digitsOf (n : Nat) : List Digit :=
  if h : n < 10 then [⟨n, h⟩] else digitsOf (n / 10) ++ [⟨n % 10, by omega⟩]

/-- The number that digits form. -/
def valueOf (digits : List Digit) : Nat :=
  digits.foldl (fun value digit => 10 * value + digit.val) 0

@[simp] theorem valueOf_append (front : List Digit) (digit : Digit) :
    valueOf (front ++ [digit]) = 10 * valueOf front + digit.val := by
  simp [valueOf]

@[simp] theorem valueOf_digitsOf (n : Nat) : valueOf (digitsOf n) = n := by
  induction n using digitsOf.induct with
  | case1 n h => rw [digitsOf, dif_pos h]; simp [valueOf]
  | case2 n h ih => rw [digitsOf, dif_neg h, valueOf_append, ih]; simp; omega

/-- A power of ten by which a numeral is scaled. -/
structure Exponent where
  negative : Bool
  digits : List Digit
  deriving DecidableEq, Repr

/-- A decimal number as it is written.  No point is written when there are no
digits after it. -/
structure Numeral where
  negative : Bool
  whole : List Digit
  fraction : List Digit
  exponent : Option Exponent
  deriving DecidableEq, Repr

namespace Numeral

/-- The numeral of a natural number. -/
def ofNat (n : Nat) : Numeral := ⟨false, digitsOf n, [], none⟩

/-- The sign of a numeral; a positive one has none. -/
def signText (negative : Bool) : List Char := if negative then ['-'] else []

/-- The point and the digits after it. -/
def fractionText : List Digit → List Char
  | [] => []
  | digits => '.' :: digits.map Digit.char

/-- The mark `e`, a sign in either case, and the digits of the exponent. -/
def exponentText : Option Exponent → List Char
  | none => []
  | some exponent =>
      'e' :: (if exponent.negative then '-' else '+') :: exponent.digits.map Digit.char

/-- The characters of a numeral. -/
def text (numeral : Numeral) : List Char :=
  signText numeral.negative ++ numeral.whole.map Digit.char ++
    fractionText numeral.fraction ++ exponentText numeral.exponent

end Numeral

end WeightedArgumentation.Decimal
