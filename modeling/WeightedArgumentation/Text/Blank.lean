import WeightedArgumentation.Text.Ranges

/-!
# Blank characters and trimming

A character is blank when it has the Unicode property `White_Space`.  Trimming
drops the blanks at both ends of a text and nothing else: a trimmed text starts
and ends with characters that are not blank, and trimming it again changes
nothing.
-/

namespace WeightedArgumentation.Text

/-- The characters with the property `White_Space`. -/
def blankRanges : Ranges :=
  [(0x09, 0x0D), (0x20, 0x20), (0x85, 0x85), (0xA0, 0xA0), (0x1680, 0x1680),
   (0x2000, 0x200A), (0x2028, 0x2029), (0x202F, 0x202F), (0x205F, 0x205F),
   (0x3000, 0x3000)]

/-- A character is blank when it lies in one of the `blankRanges`. -/
def isBlank (c : Char) : Bool :=
  blankRanges.covers c

/-- Drops the blanks at the front. -/
def trimFront (text : List Char) : List Char :=
  text.dropWhile isBlank

/-- Drops the blanks at the back. -/
def trimBack (text : List Char) : List Char :=
  (trimFront text.reverse).reverse

/-- The text without the blanks at its two ends. -/
def trim (text : String) : String :=
  String.ofList (trimBack (trimFront text.toList))

end WeightedArgumentation.Text
