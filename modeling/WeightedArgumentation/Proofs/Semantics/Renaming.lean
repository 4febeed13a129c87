import Mathlib.Data.List.Nodup
import Mathlib.Logic.Equiv.Defs
import WeightedArgumentation.Proofs.Semantics.Passes
import WeightedArgumentation.Proofs.Semantics.Tallies
import WeightedArgumentation.Semantics.Evaluation

/-!
# Renaming categories

A permutation of the category keys renames the categories of a graph, of its configuration and
of its arguments.  An evaluation reads a key in two ways only: it looks up its weight, and it
tells it from other keys.  So when every renamed category weighs what the category weighed
before, the evaluation of the renamed graph is that of the graph, with the keys of the category
means renamed in their places (`evaluate_renamed`).

Nothing here depends on laws of arithmetic.
-/

namespace WeightedArgumentation

universe u v

/-! ## Tables -/

namespace Table

variable {α : Type u} {β : Type v} {σ : Equiv.Perm String}

/-- The rows under renamed keys, in their places. -/
def renamed (σ : Equiv.Perm String) (table : Table α) : Table α where
  rows := table.rows.map fun row => (σ row.1, row.2)
  distinct := by
    have distinct : ((table.rows.map Prod.fst).map σ).Nodup := table.distinct.map σ.injective
    rwa [List.map_map] at distinct ⊢

@[simp] theorem keys_renamed (table : Table α) :
    (table.renamed σ).keys = table.keys.map σ := by
  simp [renamed, keys, Function.comp_def]

@[simp] theorem mem_keys_renamed {table : Table α} {key : String} :
    σ key ∈ (table.renamed σ).keys ↔ key ∈ table.keys := by
  rw [keys_renamed, List.mem_map_of_injective σ.injective]

@[simp] theorem get?_renamed (table : Table α) (key : String) :
    (table.renamed σ).get? (σ key) = table.get? key := by
  apply Option.ext
  intro value
  rw [get?_eq_some_iff, get?_eq_some_iff, renamed, List.mem_map]
  constructor
  · rintro ⟨row, member, same⟩
    obtain ⟨sameKey, rfl⟩ := Prod.mk.inj same
    rwa [← σ.injective sameKey]
  · intro member
    exact ⟨(key, value), member, rfl⟩

theorem renamed_set (table : Table α) (key : String) (value : α) :
    (table.set key value).renamed σ = (table.renamed σ).set (σ key) value := by
  have rows (list : List (String × α)) :
      (put key value list).map (fun row => (σ row.1, row.2)) =
        put (σ key) value (list.map fun row => (σ row.1, row.2)) := by
    induction list with
    | nil => rfl
    | cons row rest ih =>
        obtain ⟨first, old⟩ := row
        by_cases here : first = key
        · simp [put, here]
        · simp [put, here, ih]
  exact ext (rows table.rows)

theorem map_renamed (f : α → β) (table : Table α) :
    (table.renamed σ).map f = (table.map f).renamed σ := by
  apply ext
  simp [renamed, map]

@[simp] theorem values_renamed (table : Table α) : (table.renamed σ).values = table.values := by
  simp [renamed, values, Function.comp_def]

@[simp] theorem isEmpty_renamed (table : Table α) :
    (table.renamed σ).isEmpty = table.isEmpty := by
  simp [renamed, isEmpty]

end Table

/-! ## Graphs -/

/-- The categories under renamed keys, in their places. -/
def CategoryConfig.renamed (σ : Equiv.Perm String) (config : CategoryConfig) : CategoryConfig :=
  ⟨config.table.renamed σ⟩

/-- An argument of the renamed category. -/
def Argument.renamed (σ : Equiv.Perm String) (argument : Argument) : Argument :=
  { argument with category := σ argument.category }

namespace Graph

/-- The graph with every category renamed, in the configuration and in the arguments. -/
def renamed (σ : Equiv.Perm String) (g : Graph) : Graph where
  categories := g.categories.renamed σ
  arguments := g.arguments.map (Argument.renamed σ)
  distinct := by
    rw [List.map_map]
    exact g.distinct

variable {R : Type u} [Scalar R] {σ : Equiv.Perm String} {weights others : WeightTable R}

theorem get?_renamed (g : Graph) (id : String) :
    (g.renamed σ).get? id = (g.get? id).map (Argument.renamed σ) := by
  rw [get?, renamed, List.find?_map]
  rfl

theorem attackers_renamed (g : Graph) (argument : Argument) :
    (g.renamed σ).attackers (argument.renamed σ) =
      (g.attackers argument).map (Argument.renamed σ) := by
  rw [attackers, attackers, List.map_filterMap]
  exact congrArg (List.filterMap · _) (funext g.get?_renamed)

/-- The tallies are opened and filled in the same places. -/
theorem tallies_renamed (arguments : List Argument) (scores : Table R) :
    tallies (arguments.map (Argument.renamed σ)) scores =
      (tallies arguments scores).renamed σ := by
  induction arguments using List.reverseRecOn with
  | nil => rfl
  | append_singleton arguments argument ih =>
      rw [List.map_append, List.map_singleton, tallies_append, tallies_append, ih,
        Table.renamed_set]
      simp only [Argument.renamed, Table.get?_renamed]
      rfl

/-! ### Weights

The weights are those of the categories under their old names and under their new ones. -/

section Weights

variable (alike : ∀ key, others.weight (σ key) = weights.weight key)

include alike

/-- Categories that weigh the same under their new names count the same. -/
theorem strength_renamed (key : String) : others.strength (σ key) = weights.strength key := by
  rw [WeightTable.strength, WeightTable.strength, alike]

theorem scoreAfter_renamed (g : Graph) (passes : Nat) (argument : Argument) :
    (g.renamed σ).scoreAfter others passes (argument.renamed σ) =
      g.scoreAfter weights passes argument := by
  induction passes generalizing argument with
  | zero => rfl
  | succ passes ih =>
      have contribution (attacker : Argument) :
          others.strength (attacker.renamed σ).category *
              (g.renamed σ).scoreAfter others passes (attacker.renamed σ) =
            weights.strength attacker.category * g.scoreAfter weights passes attacker := by
        rw [ih, ← strength_renamed alike]
        rfl
      rw [scoreAfter, scoreAfter, categorize, categorize, attackers_renamed, List.map_map]
      simp only [Function.comp_def, contribution]

theorem solve_renamed (g : Graph) (config : SolverConfig R) :
    solve (g.renamed σ) others config = solve g weights config := by
  refine solve_eq_of_rowsAfter_eq (funext fun passes => ?_) config
  rw [rowsAfter, rowsAfter, renamed, List.map_map]
  apply List.map_congr_left
  intro argument _
  exact congrArg (Prod.mk argument.id) (scoreAfter_renamed alike g passes argument)

theorem isBalancedOver_renamed (keys : List String) :
    others.isBalancedOver (keys.map σ) = weights.isBalancedOver keys := by
  cases keys with
  | nil => rfl
  | cons first rest =>
      simp only [WeightTable.isBalancedOver, List.map_cons, List.all_map, Function.comp_def,
        strength_renamed alike]

theorem finalScore_renamed (means : Table R) :
    finalScore (means.renamed σ) others = finalScore means weights := by
  have weighted : ((means.renamed σ).rows.map fun row => (row.2, others.strength row.1)) =
      means.rows.map fun row => (row.2, weights.strength row.1) := by
    simp only [Table.renamed, List.map_map, Function.comp_def, strength_renamed alike]
  rw [finalScore, finalScore, weighted, Table.isEmpty_renamed, Table.keys_renamed,
    isBalancedOver_renamed alike, Table.values_renamed]

end Weights

end Graph

/-- When every renamed category weighs what it weighed before, a renamed graph has the evaluation
of the graph, with the keys of the category means renamed. -/
theorem evaluate_renamed {R : Type u} [Scalar R] {σ : Equiv.Perm String}
    {weights others : WeightTable R} (alike : ∀ key, others.weight (σ key) = weights.weight key)
    (g : Graph) (config : SolverConfig R) :
    evaluate (g.renamed σ) others config =
      { evaluate g weights config with
        categoryMeans := (evaluate g weights config).categoryMeans.renamed σ } := by
  have means (scores : Table R) : (tallies (g.renamed σ).arguments scores).map Tally.mean =
      ((tallies g.arguments scores).map Tally.mean).renamed σ := by
    rw [Graph.renamed, Graph.tallies_renamed, Table.map_renamed]
  simp only [evaluate, aggregate, Graph.solve_renamed alike, means, Graph.finalScore_renamed alike]

end WeightedArgumentation
