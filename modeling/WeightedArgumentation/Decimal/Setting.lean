import WeightedArgumentation.Decimal.Numeral

/-!
# Numbers in settings

The numbers that options and settings are given as.  A natural number is
decimal digits after an optional plus sign, up to a limit.  A floating-point
number is an optional sign followed by `inf`, `infinity` or `nan` in any case,
or by digits with an optional point and an optional exponent; there is a digit
before or after the point.  It is rounded to the nearest value.
-/

namespace WeightedArgumentation.Decimal

/-- The digits at the front of a text, and what follows them. -/
def takeDigits : List Char → List Digit × List Char
  | [] => ([], [])
  | c :: rest =>
      match digit? c with
      | some digit => let (digits, after) := takeDigits rest; (digit :: digits, after)
      | none => ([], c :: rest)

/-- A natural number up to a limit. -/
def naturalSetting? (limit : Nat) (text : String) : Option Nat :=
  let unsigned := match text.toList with
    | '+' :: rest => rest
    | all => all
  match takeDigits unsigned with
  | ([], _) => none
  | (digits, []) => if valueOf digits ≤ limit then some (valueOf digits) else none
  | (_, _ :: _) => none

/-- The value nearest to `coefficient · 10 ^ exponent`: zero far below the
least positive value, and infinity far above the largest finite one. -/
def toFloat (coefficient : Nat) (exponent : Int) : Float :=
  let places := exponent + (digitsOf coefficient).length
  if coefficient = 0 || places < -400 then 0.0
  else if places > 400 then 1.0 / 0.0
  else Float.ofScientific coefficient (exponent < 0) exponent.natAbs

/-- The exponent at the end of a number, with its sign. -/
def exponentSetting? : List Char → Option Int
  | [] => some 0
  | c :: rest =>
      if c = 'e' || c = 'E' then
        let (negative, unsigned) := match rest with
          | '-' :: rest => (true, rest)
          | '+' :: rest => (false, rest)
          | _ => (false, rest)
        match takeDigits unsigned with
        | ([], _) => none
        | (digits, []) => some (if negative then -(valueOf digits : Int) else valueOf digits)
        | (_, _ :: _) => none
      else none

/-- A number without a sign. -/
def unsignedSetting? (text : List Char) : Option Float :=
  let (whole, afterWhole) := takeDigits text
  let (fraction, afterFraction) := match afterWhole with
    | '.' :: rest => takeDigits rest
    | _ => ([], afterWhole)
  if whole.isEmpty && fraction.isEmpty then none
  else
    (exponentSetting? afterFraction).map fun exponent =>
      toFloat (valueOf (whole ++ fraction)) (exponent - fraction.length)

/-- The special values by name, in any case. -/
def namedSetting? (text : List Char) : Option Float :=
  let name := String.ofList (text.map Char.toLower)
  if name = "inf" || name = "infinity" then some (1.0 / 0.0)
  else if name = "nan" then some (0.0 / 0.0)
  else none

/-- A floating-point number. -/
def floatSetting? (text : String) : Option Float :=
  let (negative, unsigned) := match text.toList with
    | '-' :: rest => (true, rest)
    | '+' :: rest => (false, rest)
    | all => (false, all)
  ((namedSetting? unsigned).or (unsignedSetting? unsigned)).map fun value =>
    if negative then -value else value

end WeightedArgumentation.Decimal
