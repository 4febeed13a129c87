import Mathlib.Algebra.BigOperators.Group.List.Basic
import Mathlib.Algebra.Order.BigOperators.Group.List
import Mathlib.Algebra.Order.Field.Basic
import Mathlib.Data.Rat.Cast.OfScientific
import Mathlib.Tactic.Linarith
import WeightedArgumentation.Proofs.Semantics.Passes

/-!
# Scores in exact arithmetic

Over an ordered field the operations that scores are computed with obey the laws
of the field, and the solver becomes a statement about sums and maxima: the score
of an argument is `1 / (1 + s)`, where `s` is the burden of its attackers, and a
pass reverses the order of scores, because a larger burden gives a smaller score.
-/

namespace WeightedArgumentation

variable {K : Type*} [Field K] [LinearOrder K]

namespace Scalar

/-- The exact arithmetic of an ordered field, in which every value is finite. -/
instance exact : Scalar K where
  less x y := decide (x < y)
  magnitude x := |x|
  isFinite _ := true

@[simp] theorem less_eq_true_iff {x y : K} : less x y = true ↔ x < y :=
  decide_eq_true_iff

@[simp] theorem larger_eq_max (x y : K) : larger x y = max x y := by
  rw [larger]
  by_cases below : x < y
  · simp [below, max_eq_right below.le]
  · simp [below, max_eq_left (not_lt.1 below)]

@[simp] theorem clampNegative_eq_max (x : K) : clampNegative x = max 0 x :=
  larger_eq_max 0 x

@[simp] theorem total_eq_sum (values : List K) : total values = values.sum := by
  have fold (start : K) (rest : List K) : rest.foldl (· + ·) start = start + rest.sum := by
    induction rest generalizing start with
    | nil => simp
    | cons value rest ih => simp [ih, add_assoc]
  cases values with
  | nil => rfl
  | cons first rest => exact fold first rest

/-- The largest of a list of values and a start is bounded by what bounds all of
them. -/
theorem foldl_larger_le_iff {values : List K} {start bound : K} :
    values.foldl larger start ≤ bound ↔ start ≤ bound ∧ ∀ value ∈ values, value ≤ bound := by
  induction values generalizing start with
  | nil => simp
  | cons value rest ih => simp [ih, and_assoc]

end Scalar

/-- Weights count as zero when they are negative, so no weight counts as less. -/
theorem WeightTable.strength_nonneg (weights : WeightTable K) (key : String) :
    0 ≤ weights.strength key := by
  simp [strength]

namespace Graph

/-- The burden of an argument: the sum of its existing attackers' scores, each
scaled by the weight of the attacker's category. -/
def burden (g : Graph) (weights : WeightTable K) (scores : Argument → K) (argument : Argument) : K :=
  ((g.attackers argument).map fun attacker =>
    weights.strength attacker.category * scores attacker).sum

theorem mem_arguments_of_mem_attackers {g : Graph} {argument attacker : Argument}
    (member : attacker ∈ g.attackers argument) : attacker ∈ g.arguments := by
  obtain ⟨id, _, found⟩ := List.mem_filterMap.1 member
  exact (get?_eq_some_iff.1 found).1

theorem categorize_eq (g : Graph) (weights : WeightTable K) (scores : Argument → K)
    (argument : Argument) :
    g.categorize weights scores argument = 1 / (1 + g.burden weights scores argument) := by
  simp [categorize, burden]

theorem scoreAfter_succ (g : Graph) (weights : WeightTable K) (passes : Nat)
    (argument : Argument) :
    g.scoreAfter weights (passes + 1) argument =
      1 / (1 + g.burden weights (g.scoreAfter weights passes) argument) :=
  g.categorize_eq weights _ argument

theorem abs_sub_le_changeIn {g : Graph} (weights : WeightTable K) (passes : Nat)
    {argument : Argument} (member : argument ∈ g.arguments) :
    |g.scoreAfter weights (passes + 1) argument - g.scoreAfter weights passes argument| ≤
      g.changeIn weights (passes + 1) := by
  have bounded := (Scalar.foldl_larger_le_iff.1 (le_refl (g.changeIn weights (passes + 1)))).2
  exact bounded _ (List.mem_map_of_mem member)

theorem changeIn_le {g : Graph} {weights : WeightTable K} {passes : Nat} {bound : K}
    (nonneg : 0 ≤ bound)
    (bounded : ∀ argument ∈ g.arguments,
      |g.scoreAfter weights (passes + 1) argument - g.scoreAfter weights passes argument| ≤ bound) :
    g.changeIn weights (passes + 1) ≤ bound := by
  refine Scalar.foldl_larger_le_iff.2 ⟨nonneg, fun value member => ?_⟩
  obtain ⟨argument, inGraph, rfl⟩ := List.mem_map.1 member
  exact bounded argument inGraph

section Order

variable [IsStrictOrderedRing K] {g : Graph} {weights : WeightTable K}

theorem burden_mono {lower upper : Argument → K}
    (below : ∀ a ∈ g.arguments, lower a ≤ upper a) (argument : Argument) :
    g.burden weights lower argument ≤ g.burden weights upper argument := by
  refine List.sum_le_sum fun attacker member => ?_
  exact mul_le_mul_of_nonneg_left (below attacker (mem_arguments_of_mem_attackers member))
    (weights.strength_nonneg attacker.category)

theorem burden_nonneg {scores : Argument → K} (nonneg : ∀ a ∈ g.arguments, 0 ≤ scores a)
    (argument : Argument) : 0 ≤ g.burden weights scores argument := by
  refine List.sum_nonneg fun contribution member => ?_
  obtain ⟨attacker, attacks, rfl⟩ := List.mem_map.1 member
  exact mul_nonneg (weights.strength_nonneg attacker.category)
    (nonneg attacker (mem_arguments_of_mem_attackers attacks))

theorem one_add_burden_pos {scores : Argument → K} (nonneg : ∀ a ∈ g.arguments, 0 ≤ scores a)
    (argument : Argument) : 0 < 1 + g.burden weights scores argument := by
  have : 0 ≤ g.burden weights scores argument := burden_nonneg nonneg argument
  linarith

/-- A pass reverses the order of scores. -/
theorem pass_antitone {lower upper : Argument → K} (nonneg : ∀ a ∈ g.arguments, 0 ≤ lower a)
    (below : ∀ a ∈ g.arguments, lower a ≤ upper a) (argument : Argument) :
    1 / (1 + g.burden weights upper argument) ≤ 1 / (1 + g.burden weights lower argument) := by
  have burdens : g.burden weights lower argument ≤ g.burden weights upper argument :=
    burden_mono below argument
  exact one_div_le_one_div_of_le (one_add_burden_pos nonneg argument) (by linarith)

theorem scoreAfter_pos (g : Graph) (weights : WeightTable K) (passes : Nat)
    (argument : Argument) : 0 < g.scoreAfter weights passes argument := by
  induction passes generalizing argument with
  | zero => exact one_pos
  | succ passes ih =>
      rw [scoreAfter_succ]
      exact one_div_pos.2 (one_add_burden_pos (fun a _ => (ih a).le) argument)

theorem scoreAfter_le_one (g : Graph) (weights : WeightTable K) (passes : Nat)
    (argument : Argument) : g.scoreAfter weights passes argument ≤ 1 := by
  cases passes with
  | zero => exact le_refl 1
  | succ passes =>
      have earlier : ∀ a ∈ g.arguments, 0 ≤ g.scoreAfter weights passes a :=
        fun a _ => (scoreAfter_pos g weights passes a).le
      rw [scoreAfter_succ, div_le_one (one_add_burden_pos earlier argument)]
      have : 0 ≤ g.burden weights (g.scoreAfter weights passes) argument :=
        burden_nonneg earlier argument
      linarith

end Order

end Graph

end WeightedArgumentation
