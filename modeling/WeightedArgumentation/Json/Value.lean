import WeightedArgumentation.Decimal.Layout

/-!
# JSON values and how they are written

A value is written either compactly, without any blanks, or over several lines,
with every item and member on a line of its own, two more spaces in.
-/

namespace WeightedArgumentation.Json

open Decimal (Numeral Layout)

/-- A JSON value.  Members keep their order. -/
inductive Value where
  | null
  | bool (value : Bool)
  | number (numeral : Numeral)
  | string (text : String)
  | array (items : List Value)
  | object (members : List (String × Value))

/-- Numbers are written positionally from `10 ^ -5` up to `10 ^ 16`, always
with a point or an exponent, and a tie goes to the even digit. -/
def numberLayout : Layout where
  plainFrom := some (-5)
  plainBelow := some 16
  pointZero := true
  tie := .toEven

namespace Value

/-- A floating-point number; one that is not finite is null. -/
def ofFloat (x : Float) : Value :=
  if x.isFinite then .number (numberLayout.numeral x) else .null

/-- A natural number. -/
def ofNat (n : Nat) : Value := .number (.ofNat n)

/-- A list of texts. -/
def ofTexts (texts : List String) : Value := .array (texts.map .string)

end Value

/-- A hexadecimal digit in lower case. -/
def hexDigit (n : Nat) : Char :=
  if n < 10 then Char.ofNat ('0'.toNat + n) else Char.ofNat ('a'.toNat + (n - 10))

/-- The letter that stands for a character behind a backslash. -/
def shortEscape? : Char → Option Char
  | '"' => some '"'
  | '\\' => some '\\'
  | '\x08' => some 'b'
  | '\x0c' => some 'f'
  | '\n' => some 'n'
  | '\r' => some 'r'
  | '\t' => some 't'
  | _ => none

/-- A character as it is written inside quotes. -/
def quoteChar (c : Char) : List Char :=
  match shortEscape? c with
  | some letter => ['\\', letter]
  | none =>
      if c.toNat < 0x20 then
        ['\\', 'u', '0', '0', hexDigit (c.toNat / 16), hexDigit (c.toNat % 16)]
      else [c]

/-- A text in quotes. -/
def quote (text : String) : List Char :=
  '"' :: (text.toList.flatMap quoteChar ++ ['"'])

/-- How the items of a value are set. -/
inductive Style
  | compact
  | indented (depth : Nat)
  deriving DecidableEq, Repr

namespace Style

/-- The style of the items inside a value. -/
def deeper : Style → Style
  | .compact => .compact
  | .indented depth => .indented (depth + 1)

/-- What stands before an item. -/
def lineBreak : Style → List Char
  | .compact => []
  | .indented depth => '\n' :: List.replicate (2 * depth) ' '

/-- What stands between a member's name and its value. -/
def colon : Style → List Char
  | .compact => [':']
  | .indented _ => [':', ' ']

end Style

namespace Value

mutual

/-- The characters of a value. -/
def write (style : Style) : Value → List Char
  | .null => "null".toList
  | .bool true => "true".toList
  | .bool false => "false".toList
  | .number numeral => numeral.text
  | .string text => quote text
  | .array [] => ['[', ']']
  | .array (first :: rest) =>
      '[' :: (style.deeper.lineBreak ++ write style.deeper first ++ writeItems style.deeper rest ++
        style.lineBreak ++ [']'])
  | .object [] => ['{', '}']
  | .object ((name, first) :: rest) =>
      '{' :: (style.deeper.lineBreak ++ quote name ++ style.deeper.colon ++
        write style.deeper first ++ writeMembers style.deeper rest ++ style.lineBreak ++ ['}'])

/-- The characters of the items after the first one. -/
def writeItems (style : Style) : List Value → List Char
  | [] => []
  | item :: rest => ',' :: (style.lineBreak ++ write style item ++ writeItems style rest)

/-- The characters of the members after the first one. -/
def writeMembers (style : Style) : List (String × Value) → List Char
  | [] => []
  | (name, value) :: rest =>
      ',' :: (style.lineBreak ++ quote name ++ style.colon ++ write style value ++
        writeMembers style rest)

end

/-- The value without blanks. -/
def compact (value : Value) : String := String.ofList (value.write .compact)

/-- The value over several lines. -/
def pretty (value : Value) : String := String.ofList (value.write (.indented 0))

end Value

end WeightedArgumentation.Json
