/-!
# Sorted sets

A set is kept as its strictly ascending list of elements, so it lists each
element once and in order.  Two sets with the same elements are equal
(`SortedSet.ext`), and every operation is described by what it does to
membership.
-/

namespace WeightedArgumentation

universe u

/-- A strict order in which any two different elements are comparable. -/
class StrictTotalOrder (α : Type u) [LT α] : Prop where
  irrefl (a : α) : ¬ a < a
  trans {a b c : α} : a < b → b < c → a < c
  eq_of_not_lt {a b : α} : ¬ a < b → ¬ b < a → a = b

instance : StrictTotalOrder String where
  irrefl := String.lt_irrefl
  trans := String.lt_trans
  eq_of_not_lt := fun below above =>
    String.le_antisymm (String.not_lt.1 above) (String.not_lt.1 below)

/-- A finite set, kept as the ascending list of its elements. -/
structure SortedSet (α : Type u) [LT α] where
  toList : List α
  ascending : toList.Pairwise (· < ·)

namespace SortedSet

variable {α : Type u} [LT α]

instance : Membership α (SortedSet α) where
  mem set element := element ∈ set.toList

theorem mem_def {set : SortedSet α} {a : α} : a ∈ set ↔ a ∈ set.toList := Iff.rfl

instance [DecidableEq α] (a : α) (set : SortedSet α) : Decidable (a ∈ set) :=
  inferInstanceAs (Decidable (a ∈ set.toList))

instance [DecidableEq α] : DecidableEq (SortedSet α) := fun s t =>
  if h : s.toList = t.toList then
    .isTrue (by cases s; cases t; simp_all)
  else
    .isFalse fun e => h (congrArg toList e)

/-- The set without elements. -/
def empty : SortedSet α := ⟨[], .nil⟩

@[simp] theorem not_mem_empty (a : α) : a ∉ (empty : SortedSet α) := by
  simp [mem_def, empty]

section Insertion

variable [DecidableLT α] [StrictTotalOrder α]

/-- Puts an element at its place in an ascending list, unless it is there. -/
def place (a : α) : List α → List α
  | [] => [a]
  | b :: rest =>
      if a < b then a :: b :: rest
      else if b < a then b :: place a rest
      else b :: rest

@[simp] theorem mem_place {a x : α} {list : List α} :
    x ∈ place a list ↔ x = a ∨ x ∈ list := by
  induction list with
  | nil => simp [place]
  | cons b rest ih =>
    unfold place
    split
    · simp
    · split
      · simp [ih]; grind
      · rename_i below above
        have : a = b := StrictTotalOrder.eq_of_not_lt below above
        simp [this]

theorem ascending_place {a : α} {list : List α} (h : list.Pairwise (· < ·)) :
    (place a list).Pairwise (· < ·) := by
  induction list with
  | nil => simp [place]
  | cons b rest ih =>
    obtain ⟨first, later⟩ := List.pairwise_cons.1 h
    unfold place
    split
    · rename_i below
      refine List.pairwise_cons.2 ⟨fun x member => ?_, h⟩
      rcases List.mem_cons.1 member with rfl | member
      · exact below
      · exact StrictTotalOrder.trans below (first x member)
    · split
      · rename_i above
        refine List.pairwise_cons.2 ⟨fun x member => ?_, ih later⟩
        rcases mem_place.1 member with rfl | member
        · exact above
        · exact first x member
      · exact h

/-- Adds an element. -/
def insert (set : SortedSet α) (a : α) : SortedSet α :=
  ⟨place a set.toList, ascending_place set.ascending⟩

@[simp] theorem mem_insert {set : SortedSet α} {a x : α} :
    x ∈ set.insert a ↔ x = a ∨ x ∈ set :=
  mem_place

/-- The set of the elements of a list. -/
def ofList (elements : List α) : SortedSet α :=
  elements.foldl insert empty

theorem mem_foldl_insert {elements : List α} {set : SortedSet α} {x : α} :
    x ∈ elements.foldl insert set ↔ x ∈ elements ∨ x ∈ set := by
  induction elements generalizing set with
  | nil => simp
  | cons a rest ih => simp [ih]; grind

@[simp] theorem mem_ofList {elements : List α} {x : α} :
    x ∈ ofList elements ↔ x ∈ elements := by
  simp [ofList, mem_foldl_insert]

end Insertion

/-- Takes an element away. -/
def erase [DecidableEq α] (set : SortedSet α) (a : α) : SortedSet α :=
  ⟨set.toList.filter (· ≠ a), set.ascending.filter _⟩

@[simp] theorem mem_erase [DecidableEq α] {set : SortedSet α} {a x : α} :
    x ∈ set.erase a ↔ x ∈ set ∧ x ≠ a := by
  simp [erase, mem_def]

/-- Two ascending lists with the same elements are equal. -/
theorem eq_of_mem_iff [StrictTotalOrder α] {left right : List α}
    (sortedLeft : left.Pairwise (· < ·)) (sortedRight : right.Pairwise (· < ·))
    (same : ∀ x, x ∈ left ↔ x ∈ right) : left = right := by
  induction left generalizing right with
  | nil =>
    cases right with
    | nil => rfl
    | cons b rest => exact absurd ((same b).2 (by simp)) (by simp)
  | cons a rest ih =>
    cases right with
    | nil => exact absurd ((same a).1 (by simp)) (by simp)
    | cons b others =>
      obtain ⟨firstLeft, laterLeft⟩ := List.pairwise_cons.1 sortedLeft
      obtain ⟨firstRight, laterRight⟩ := List.pairwise_cons.1 sortedRight
      have heads : a = b := by
        rcases List.mem_cons.1 ((same a).1 (by simp)) with h | inRight
        · exact h
        · rcases List.mem_cons.1 ((same b).2 (by simp)) with h | inLeft
          · exact h.symm
          · exact absurd (StrictTotalOrder.trans (firstLeft b inLeft) (firstRight a inRight))
              (StrictTotalOrder.irrefl a)
      subst heads
      congr 1
      refine ih laterLeft laterRight fun x => ?_
      constructor
      · intro member
        rcases List.mem_cons.1 ((same x).1 (by simp [member])) with rfl | h
        · exact absurd (firstLeft x member) (StrictTotalOrder.irrefl x)
        · exact h
      · intro member
        rcases List.mem_cons.1 ((same x).2 (by simp [member])) with rfl | h
        · exact absurd (firstRight x member) (StrictTotalOrder.irrefl x)
        · exact h

/-- Sets are determined by their elements. -/
theorem ext [StrictTotalOrder α] {s t : SortedSet α} (h : ∀ x, x ∈ s ↔ x ∈ t) : s = t := by
  cases s with
  | mk left sortedLeft =>
    cases t with
    | mk right sortedRight =>
      have : left = right := eq_of_mem_iff sortedLeft sortedRight h
      subst this
      rfl

end SortedSet

end WeightedArgumentation
