import WeightedArgumentation.Graph.Basic

/-!
# Suggested ids

The id suggested for a new argument is `A` followed by a number.  The number is
one more than the largest that the decimal digits of any id form.  A number
does not count when it needs more than 64 bits; when the largest one is the
largest of 64 bits, the first free number from 1 on is suggested instead.
-/

namespace WeightedArgumentation.Graph

/-- The largest number that is counted. -/
def largestNumber : Nat := UInt64.size - 1

/-- The number that the decimal digits of a text form, other characters left out. -/
def digitsValue (text : String) : Option Nat :=
  match text.toList.filter Char.isDigit with
  | [] => none
  | digits =>
      let value := digits.foldl (fun value digit => 10 * value + (digit.toNat - '0'.toNat)) 0
      if value ≤ largestNumber then some value else none

/-- The largest number in the ids of a graph, or zero. -/
def largestInIds (g : Graph) : Nat :=
  (g.ids.filterMap digitsValue).foldl max 0

/-- The id with a number. -/
def numbered (number : Nat) : String := "A" ++ toString number

/-- The ids with the numbers from 1 up to a limit. -/
def candidates (limit : Nat) : List String := (List.range limit).map fun k => numbered (k + 1)

/-- The first candidate up to a limit that no argument has. -/
def firstFree? (g : Graph) (limit : Nat) : Option String :=
  (candidates limit).find? fun id => !g.contains id

/-- The id suggested for the next argument. -/
def suggestId (g : Graph) : String :=
  if g.largestInIds < largestNumber then numbered (g.largestInIds + 1)
  else (g.firstFree? (g.size + 1)).getD (numbered g.size)

end WeightedArgumentation.Graph
