import Mathlib.Data.List.Induction
import WeightedArgumentation.Semantics.Aggregate

/-!
# Tallies by category

The tallies of a graph are collected in one walk over its arguments.  What the walk leaves
under a category is the tally of the scores of that category's members, in their order, and
nothing when it has no members (`get?_tallies`).  Nothing here depends on laws of arithmetic.
-/

namespace WeightedArgumentation

universe u

variable {R : Type u} [Scalar R]

/-- The arguments of a category, in their order. -/
def members (arguments : List Argument) (category : String) : List Argument :=
  arguments.filter (·.category = category)

theorem mem_members {arguments : List Argument} {category : String} {argument : Argument} :
    argument ∈ members arguments category ↔
      argument ∈ arguments ∧ argument.category = category := by
  simp [members]

/-- The score of an argument under a table, zero when it has none there. -/
def scoreUnder (scores : Table R) (argument : Argument) : R := (scores.get? argument.id).getD 0

namespace Tally

/-- The tally of a list of values. -/
def ofList (values : List R) : Tally R := values.foldl add none

theorem ofList_append (values : List R) (value : R) :
    ofList (values ++ [value]) = (ofList values).add value := by
  rw [ofList, List.foldl_append]
  rfl

theorem count_ofList (values : List R) : (ofList values).count = values.length := by
  induction values using List.reverseRecOn with
  | nil => rfl
  | append_singleton values value ih => rw [ofList_append, add, ih, List.length_append]; rfl

end Tally

/-- The walk adds the score of one more argument to the tally of its category. -/
theorem tallies_append (arguments : List Argument) (argument : Argument) (scores : Table R) :
    tallies (arguments ++ [argument]) scores =
      (tallies arguments scores).set argument.category
        ((((tallies arguments scores).get? argument.category).getD .none).add
          (scoreUnder scores argument)) := by
  rw [tallies, List.foldl_append]
  rfl

/-- A category has the tally of its members' scores, if it has members. -/
theorem get?_tallies (arguments : List Argument) (scores : Table R) (category : String) :
    (tallies arguments scores).get? category =
      if members arguments category = [] then none
      else some (.ofList ((members arguments category).map (scoreUnder scores))) := by
  induction arguments using List.reverseRecOn generalizing category with
  | nil => rfl
  | append_singleton arguments argument ih =>
      -- without members the tally that the walk starts from is that of no scores
      have before : ((tallies arguments scores).get? argument.category).getD .none =
          .ofList ((members arguments argument.category).map (scoreUnder scores)) := by
        rw [ih]
        split
        next empty => rw [empty]; rfl
        next => rfl
      rw [tallies_append, Table.get?_set, before, ← Tally.ofList_append]
      split
      next same =>
        subst same
        simp [members]
      next other => simp [members, ih, Ne.symm other]

/-- The mean of a category is that of its members' scores. -/
theorem mem_rows_aggregate {g : Graph} {scores : Table R} {weights : WeightTable R}
    {category : String} {mean : R} :
    (category, mean) ∈ (aggregate g scores weights).categoryScores.rows ↔
      members g.arguments category ≠ [] ∧
        mean = (Tally.ofList ((members g.arguments category).map (scoreUnder scores))).mean := by
  rw [← Table.get?_eq_some_iff, aggregate, Table.get?_map, get?_tallies]
  split
  next empty => simp [empty]
  next filled => simp [filled, eq_comm]

end WeightedArgumentation
