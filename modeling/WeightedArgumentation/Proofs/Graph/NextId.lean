import Mathlib.Data.List.Nodup
import Mathlib.Order.Nat
import WeightedArgumentation.Graph.NextId
import WeightedArgumentation.Proofs.Graph.WellFormed

/-!
# The suggested id is free

The digits of a numbered id form its number again, so a graph that holds the id counts
the number (`le_largestInIds`).  One more than the largest number counted is therefore
free.  When that would leave 64 bits, the first free number from 1 on is taken: numbers
have different ids, so of one candidate more than there are arguments some is free, and
going on to more candidates changes nothing.
-/

namespace WeightedArgumentation

theorem Text.isBlank_of_isDigit {c : Char} (digit : c.isDigit = true) : isBlank c = false := by
  obtain ⟨low, high⟩ := Char.isDigit_iff_toNat.1 digit
  have codes : '0'.toNat = 0x30 ∧ '9'.toNat = 0x39 := ⟨rfl, rfl⟩
  rw [Bool.eq_false_iff]
  intro blank
  obtain ⟨range, member, from_first, to_last⟩ := Ranges.covers_iff.1 blank
  simp only [blankRanges, List.mem_cons, List.not_mem_nil, or_false] at member
  rcases member with rfl | rfl | rfl | rfl | rfl | rfl | rfl | rfl | rfl | rfl <;> omega

namespace Graph

variable {g : Graph}

/-! ## Numbered ids -/

theorem toList_numbered (number : Nat) :
    (numbered number).toList = 'A' :: Nat.toDigits 10 number := by
  rw [numbered, String.toList_append, Nat.toString_eq_repr, Nat.toList_repr]
  rfl

/-- The digits of a numbered id form its number, unless that is too large to count. -/
theorem digitsValue_numbered {number : Nat} (counted : number ≤ largestNumber) :
    digitsValue (numbered number) = some number := by
  have digits : (numbered number).toList.filter Char.isDigit = Nat.toDigits 10 number := by
    rw [toList_numbered, List.filter_cons_of_neg (by decide), List.filter_eq_self]
    intro c member
    exact Nat.isDigit_of_mem_toDigits (by decide) (by decide) member
  have value : (Nat.toDigits 10 number).foldl
      (fun value digit => 10 * value + (digit.toNat - '0'.toNat)) 0 = number := by
    rw [← Nat.ofDigitChars_eq_foldl, Nat.ofDigitChars_ten_toDigits]
  rw [digitsValue, digits]
  split
  next none => exact absurd none Nat.toDigits_ne_nil
  next => simp only [value, counted, if_true]

theorem numbered_injective : Function.Injective numbered := by
  intro m n same
  have digits : Nat.toDigits 10 m = Nat.toDigits 10 n := by
    have lists := congrArg String.toList same
    rw [toList_numbered, toList_numbered] at lists
    exact (List.cons.inj lists).2
  rw [← Nat.ofDigitChars_ten_toDigits (n := m), digits, Nat.ofDigitChars_ten_toDigits]

/-- A numbered id is not empty and has no blanks around it. -/
theorem proper_numbered (number : Nat) : Text.Proper (numbered number) := by
  refine ⟨⟨?front, ?back⟩, ?nonempty⟩
  case front =>
    intro c first
    rw [toList_numbered] at first
    obtain rfl : 'A' = c := Option.some.inj first
    decide
  case back =>
    intro c last
    rw [toList_numbered, List.getLast?_cons_of_ne_nil Nat.toDigits_ne_nil] at last
    have digit : c.isDigit = true :=
      Nat.isDigit_of_mem_toDigits (by decide) (by decide) (List.mem_of_getLast? last)
    exact Text.isBlank_of_isDigit digit
  case nonempty =>
    intro empty
    have characters := congrArg String.toList empty
    rw [toList_numbered] at characters
    cases characters

/-! ## One more than the largest number -/

/-- What the digits of an id form is counted. -/
theorem le_largestInIds {id : String} {number : Nat} (member : id ∈ g.ids)
    (formed : digitsValue id = some number) : number ≤ g.largestInIds := by
  have listed : number ∈ g.ids.filterMap digitsValue :=
    List.mem_filterMap.2 ⟨id, member, formed⟩
  rw [largestInIds, List.foldl_max]
  exact (List.le_max?_getD_of_mem listed).trans (Nat.le_max_right _ _)

theorem le_largestNumber_of_digitsValue {id : String} {number : Nat}
    (formed : digitsValue id = some number) : number ≤ largestNumber := by
  rw [digitsValue] at formed
  split at formed
  next => cases formed
  next =>
    simp only [Option.ite_none_right_eq_some, Option.some.injEq] at formed
    obtain ⟨counted, rfl⟩ := formed
    exact counted

theorem largestInIds_le (g : Graph) : g.largestInIds ≤ largestNumber := by
  rw [largestInIds, List.foldl_max, Nat.zero_max]
  cases largest : (g.ids.filterMap digitsValue).max? with
  | none => exact Nat.zero_le _
  | some number =>
      obtain ⟨id, _, formed⟩ := List.mem_filterMap.1 (List.max?_mem largest)
      exact le_largestNumber_of_digitsValue formed

theorem numbered_succ_largestInIds_not_mem (smaller : g.largestInIds < largestNumber) :
    numbered (g.largestInIds + 1) ∉ g.ids := by
  intro taken
  have counted := le_largestInIds taken (digitsValue_numbered smaller)
  omega

/-! ## The first free number -/

/-- A graph does not hold the ids of one number more than it has arguments. -/
theorem exists_numbered_not_mem (g : Graph) : ∃ k, k ≤ g.size ∧ numbered (k + 1) ∉ g.ids := by
  by_contra none
  have taken : candidates (g.size + 1) ⊆ g.ids := by
    intro id listed
    obtain ⟨k, inRange, rfl⟩ := List.mem_map.1 listed
    have within := List.mem_range.1 inRange
    by_contra free
    exact none ⟨k, by omega, free⟩
  have different : (candidates (g.size + 1)).Nodup := by
    refine List.nodup_range.map fun k j same => ?_
    have := numbered_injective same
    omega
  have fits : g.size + 1 ≤ g.size := by
    simpa [candidates, ids] using different.length_le_of_subset taken
  omega

/-- Of the numbers from 1 on there is a first one that is free, and every search
that goes on far enough finds it. -/
theorem exists_first_free (g : Graph) :
    ∃ k, k ≤ g.size ∧ numbered (k + 1) ∉ g.ids ∧ (∀ j < k, numbered (j + 1) ∈ g.ids) ∧
      ∀ limit, g.size < limit → g.firstFree? limit = some (numbered (k + 1)) := by
  obtain ⟨some, within, free⟩ := g.exists_numbered_not_mem
  have exists_free : ∃ k, numbered (k + 1) ∉ g.ids := ⟨some, free⟩
  have first_le : Nat.find exists_free ≤ g.size := (Nat.find_min' exists_free free).trans within
  have before : ∀ j < Nat.find exists_free, numbered (j + 1) ∈ g.ids :=
    fun j earlier => not_not.1 (Nat.find_min exists_free earlier)
  refine ⟨Nat.find exists_free, first_le, Nat.find_spec exists_free, before, ?_⟩
  intro limit far
  have found : (List.range limit).find? ((fun id => !g.contains id) ∘ fun k => numbered (k + 1)) =
      Option.some (Nat.find exists_free) := by
    rw [List.find?_range_eq_some]
    refine ⟨?isFree, List.mem_range.2 (by omega), ?areTaken⟩
    case isFree => simp [contains, Nat.find_spec exists_free]
    case areTaken =>
      intro j earlier
      simpa using before j earlier
  rw [firstFree?, candidates, List.find?_map, found, Option.map_some]

/-! ## The suggestion -/

/-- Unless the largest number is the largest of 64 bits, the next one is suggested. -/
theorem suggestId_of_lt (smaller : g.largestInIds < largestNumber) :
    g.suggestId = numbered (g.largestInIds + 1) :=
  if_pos smaller

/-- When the largest number is the largest of 64 bits, the first free one from 1 on is
suggested.  It is at most one more than the number of arguments, so the search finds it
however far it goes beyond that. -/
theorem suggestId_of_largest (largest : g.largestInIds = largestNumber) :
    ∃ k, 1 ≤ k ∧ k ≤ g.size + 1 ∧ g.suggestId = numbered k ∧ numbered k ∉ g.ids ∧
      (∀ j, 1 ≤ j → j < k → numbered j ∈ g.ids) ∧
        ∀ limit, g.size < limit → g.firstFree? limit = some g.suggestId := by
  obtain ⟨k, within, free, before, found⟩ := g.exists_first_free
  have suggested : g.suggestId = numbered (k + 1) := by
    rw [suggestId, if_neg (by omega), found _ (Nat.lt_succ_self g.size), Option.getD_some]
  refine ⟨k + 1, by omega, by omega, suggested, free, ?_, ?_⟩
  · intro j positive earlier
    obtain ⟨i, rfl⟩ : ∃ i, j = i + 1 := ⟨j - 1, by omega⟩
    exact before i (by omega)
  · intro limit far
    rw [suggested, found limit far]

theorem suggestId_not_mem (g : Graph) : g.suggestId ∉ g.ids := by
  rcases Nat.lt_or_eq_of_le g.largestInIds_le with smaller | largest
  · rw [suggestId_of_lt smaller]
    exact numbered_succ_largestInIds_not_mem smaller
  · obtain ⟨k, _, _, suggested, free, _⟩ := suggestId_of_largest largest
    rw [suggested]
    exact free

theorem proper_suggestId (g : Graph) : Text.Proper g.suggestId := by
  rcases Nat.lt_or_eq_of_le g.largestInIds_le with smaller | largest
  · rw [suggestId_of_lt smaller]
    exact proper_numbered _
  · obtain ⟨k, _, _, suggested, _⟩ := suggestId_of_largest largest
    rw [suggested]
    exact proper_numbered k

end Graph

end WeightedArgumentation
