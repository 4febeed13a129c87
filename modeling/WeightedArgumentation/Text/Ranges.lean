/-!
# Ranges of code points

A class of characters is given by the ranges of code points that it covers.
-/

namespace WeightedArgumentation.Text

/-- Ranges of code points, each by its first and its last. -/
abbrev Ranges := List (Nat × Nat)

/-- A character lies in one of the ranges. -/
def Ranges.covers (ranges : Ranges) (c : Char) : Bool :=
  ranges.any fun range => range.1 ≤ c.toNat && c.toNat ≤ range.2

/-- Ranges cover a character just when one of them has it between its ends. -/
theorem Ranges.covers_iff {ranges : Ranges} {c : Char} :
    ranges.covers c = true ↔ ∃ range ∈ ranges, range.1 ≤ c.toNat ∧ c.toNat ≤ range.2 := by
  simp [covers, List.any_eq_true]

end WeightedArgumentation.Text
