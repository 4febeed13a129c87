import WeightedArgumentation.Proofs.Graph.Reachable
import WeightedArgumentation.Proofs.Scalar.Double
import WeightedArgumentation.Proofs.Semantics.Passes

/-!
# Scores do not depend on the order of the arguments

Two graphs may hold the same arguments in different orders.  The sum over the
attackers of an argument runs through the ids it lists, in their own order, so a
pass gives equal scores to equal arguments of the two graphs, whatever the laws of
the arithmetic.  The largest change of a pass is the one place where the order of
the arguments is felt: it is enough that a maximum of magnitudes does not depend on
its order.  Then the passes of both graphs end together.

Labels and descriptions may differ, since no score depends on them.
-/

namespace WeightedArgumentation

universe u

/-- An argument with its label and its description left out. -/
def Argument.unlabelled (argument : Argument) : Argument :=
  { argument with label := "", description := none }

theorem Argument.unlabelled_eq_iff {a b : Argument} :
    a.unlabelled = b.unlabelled ↔
      a.id = b.id ∧ a.category = b.category ∧ a.attacks = b.attacks ∧
        a.attackedBy = b.attackedBy := by
  simp [unlabelled]

namespace Graph

/-- Two graphs hold the same arguments, in any order and apart from their labels and
descriptions. -/
def SameArguments (g h : Graph) : Prop :=
  (g.arguments.map Argument.unlabelled).Perm (h.arguments.map Argument.unlabelled)

variable {R : Type u} [Scalar R] {g h : Graph}

theorem map_unlabelled_get? {id : String} {argument : Argument} :
    (g.get? id).map Argument.unlabelled = some argument ↔
      argument ∈ g.arguments.map Argument.unlabelled ∧ argument.id = id := by
  rw [Option.map_eq_some_iff, List.mem_map]
  constructor
  · rintro ⟨found, lookup, rfl⟩
    obtain ⟨member, rfl⟩ := get?_eq_some_iff.1 lookup
    exact ⟨⟨found, member, rfl⟩, rfl⟩
  · rintro ⟨⟨found, member, rfl⟩, rfl⟩
    exact ⟨found, get?_eq_some_iff.2 ⟨member, rfl⟩, rfl⟩

/-- Equal arguments stand under every id. -/
theorem SameArguments.get? (same : g.SameArguments h) (id : String) :
    (g.get? id).map Argument.unlabelled = (h.get? id).map Argument.unlabelled := by
  apply Option.ext
  intro argument
  rw [map_unlabelled_get?, map_unlabelled_get?, same.mem_iff]

/-- A function of arguments that agrees on equal ones agrees on what stands under
every id. -/
theorem SameArguments.map_get? (same : g.SameArguments h) {value : Type u} {f f' : Argument → value}
    (agree : ∀ a b, a.unlabelled = b.unlabelled → f a = f' b) (id : String) :
    (g.get? id).map f = (h.get? id).map f' := by
  have equal := same.get? id
  cases left : g.get? id with
  | none =>
      cases right : h.get? id with
      | none => rfl
      | some b => simp [left, right] at equal
  | some a =>
      cases right : h.get? id with
      | none => simp [left, right] at equal
      | some b =>
          rw [left, right] at equal
          exact congrArg some (agree a b (Option.some.inj equal))

/-- A function of arguments that agrees on equal ones takes the same values, in any
order. -/
theorem SameArguments.map_perm (same : g.SameArguments h) {value : Type u}
    {f f' : Argument → value} (agree : ∀ a b, a.unlabelled = b.unlabelled → f a = f' b) :
    (g.arguments.map f).Perm (h.arguments.map f') := by
  have left : g.arguments.map f = (g.arguments.map Argument.unlabelled).map f' := by
    rw [List.map_map]
    exact List.map_congr_left fun a _ => agree a a.unlabelled rfl
  have right : h.arguments.map f' = (h.arguments.map Argument.unlabelled).map f' := by
    rw [List.map_map]
    exact List.map_congr_left fun b _ => (agree b b rfl).symm.trans (agree b b.unlabelled rfl)
  rw [left, right]
  exact same.map f'

/-- Equal arguments have equal scores after every number of passes. -/
theorem SameArguments.scoreAfter (same : g.SameArguments h) (weights : WeightTable R)
    (passes : Nat) (a b : Argument) (equal : a.unlabelled = b.unlabelled) :
    g.scoreAfter weights passes a = h.scoreAfter weights passes b := by
  induction passes generalizing a b with
  | zero => rfl
  | succ passes ih =>
      obtain ⟨_, _, _, attackedBy⟩ := Argument.unlabelled_eq_iff.1 equal
      have contributions : (g.attackers a).map (fun attacker =>
          weights.strength attacker.category * g.scoreAfter weights passes attacker) =
            (h.attackers b).map fun attacker =>
              weights.strength attacker.category * h.scoreAfter weights passes attacker := by
        rw [attackers, attackers, List.map_filterMap, List.map_filterMap, attackedBy]
        congr 1
        funext id
        refine same.map_get? (fun attacker other equalAttackers => ?_) id
        obtain ⟨_, category, _⟩ := Argument.unlabelled_eq_iff.1 equalAttackers
        rw [category, ih attacker other equalAttackers]
      rw [Graph.scoreAfter, Graph.scoreAfter, categorize, categorize, contributions]

/-- Every pass changes the scores of both graphs by the same. -/
theorem SameArguments.changeIn [Scalar.OrderFreeMaximum R] (same : g.SameArguments h)
    (weights : WeightTable R) (pass : Nat) : g.changeIn weights pass = h.changeIn weights pass := by
  cases pass with
  | zero => rfl
  | succ before =>
      have changes := same.map_perm fun a b equal => congrArg₂ (· - ·)
        (same.scoreAfter weights (before + 1) a b equal) (same.scoreAfter weights before a b equal)
      have largest := Scalar.OrderFreeMaximum.foldl_larger_perm changes
      rw [List.map_map, List.map_map] at largest
      exact largest

theorem SameArguments.convergence [Scalar.OrderFreeMaximum R] (same : g.SameArguments h)
    (weights : WeightTable R) (config : SolverConfig R) :
    (solve g weights config).convergence = (solve h weights config).convergence := by
  have changes : g.changeIn weights = h.changeIn weights := funext (same.changeIn weights)
  exact convergence_eq_of_changeIn_eq changes config

end Graph

/-- Graphs that hold the same arguments in any order are solved alike: the passes end
in the same way, with the same last change, and every id has the same score. -/
theorem solve_eq_of_sameArguments {R : Type u} [Scalar R] [Scalar.OrderFreeMaximum R]
    {g h : Graph} (same : g.SameArguments h) (weights : WeightTable R) (config : SolverConfig R) :
    (solve g weights config).convergence = (solve h weights config).convergence ∧
      ∀ id, (solve g weights config).scores.get? id = (solve h weights config).scores.get? id := by
  have convergence := same.convergence weights config
  refine ⟨convergence, fun id => ?_⟩
  rw [g.get?_scores_solve, h.get?_scores_solve, convergence]
  exact same.map_get? (same.scoreAfter weights _) id

/-- Three arguments on a cycle, one of them attacked by two others and by itself, in two
orders and with other labels, in double precision. -/
theorem solve_eq_of_sameArguments_of_reversed :
    let a : ArgumentSpec := ⟨"A", "a", "eco", none, ["B"], ["Z"]⟩
    let b : ArgumentSpec := ⟨"B", "b", "env", some "why", ["B", "C"], []⟩
    let c : ArgumentSpec := ⟨"C", "c", "care", none, ["A", "B"], []⟩
    let g := (((Graph.empty .empty).after (.create a)).after (.create b)).after (.create c)
    let h := (((Graph.empty .empty).after (.create c)).after
      (.create { b with label := "other" })).after (.create a)
    let weights : WeightTable Float := (WeightTable.empty.set "eco" 0.3).set "env" 1.7
    g.SameArguments h ∧ g.ids ≠ h.ids ∧
      (solve g weights .default).convergence = (solve h weights .default).convergence ∧
        ∀ id, (solve g weights .default).scores.get? id =
          (solve h weights .default).scores.get? id := by
  intro a b c g h weights
  have same : g.SameArguments h := by
    unfold Graph.SameArguments
    decide +kernel
  exact ⟨same, by decide +kernel, solve_eq_of_sameArguments same weights .default⟩

end WeightedArgumentation
