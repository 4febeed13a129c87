import WeightedArgumentation.Proofs.Semantics.Influence
import WeightedArgumentation.Proofs.Semantics.Tallies
import WeightedArgumentation.Semantics.Evaluation

/-!
# An evaluation sees the attack structure only

What an evaluation reads of a graph is the order of its ids, the category at each id and,
for each id, which of the arguments attack it.  Attackers that do not exist are left
out at one point, where the ids listed as attackers are looked up, and the targets listed
are never read.  Two graphs of the same structure have therefore equal evaluations, whatever
their labels, descriptions, dangling references and configurations of categories.

Nothing here depends on laws of arithmetic.
-/

namespace WeightedArgumentation

universe u

namespace Graph

/-- Two graphs have the same ids in the same order and, at each id, the same category and
the same attackers among these ids. -/
structure SameStructure (g h : Graph) : Prop where
  ids : g.ids = h.ids
  category : ∀ a ∈ g.arguments, ∀ b ∈ h.arguments, a.id = b.id → a.category = b.category
  attackers : ∀ a ∈ g.arguments, ∀ b ∈ h.arguments, a.id = b.id →
    ∀ id ∈ g.ids, id ∈ a.attackedBy ↔ id ∈ b.attackedBy

variable {R : Type u} [Scalar R] {g h : Graph} {a b : Argument}

/-- A function of arguments that agrees on each id takes the same values in order. -/
theorem map_eq_of_ids_eq {value : Type*} {f f' : Argument → value} (same : g.ids = h.ids)
    (agree : ∀ a ∈ g.arguments, ∀ b ∈ h.arguments, a.id = b.id → f a = f' b) :
    g.arguments.map f = h.arguments.map f' := by
  rw [← List.forall₂_eq_eq_eq, List.forall₂_map_left_iff, List.forall₂_map_right_iff]
  refine (forall₂_of_map_eq same).imp fun a b alike => ?_
  exact agree a alike.1.1 b alike.1.2 alike.2

namespace SameStructure

/-- The existing attackers at an id have the same ids in the same order. -/
theorem map_id_attackers (same : g.SameStructure h) (aMember : a ∈ g.arguments)
    (bMember : b ∈ h.arguments) (sameId : a.id = b.id) :
    (g.attackers a).map Argument.id = (h.attackers b).map Argument.id := by
  have listed : a.attackedBy.toList.filter g.contains =
      b.attackedBy.toList.filter h.contains := by
    apply SortedSet.eq_of_mem_iff
    · exact a.attackedBy.ascending.filter _
    · exact b.attackedBy.ascending.filter _
    · intro id
      rw [List.mem_filter, List.mem_filter, contains_iff, contains_iff, ← same.ids]
      exact and_congr_left fun present => same.attackers a aMember b bMember sameId id present
  rw [Graph.map_id_attackers, Graph.map_id_attackers, List.filter_reverse, List.filter_reverse,
    listed]

/-- Any number of passes gives an id the same score. -/
theorem scoreAfter (same : g.SameStructure h) (weights : WeightTable R) (passes : Nat)
    (aMember : a ∈ g.arguments) (bMember : b ∈ h.arguments) (sameId : a.id = b.id) :
    g.scoreAfter weights passes a = h.scoreAfter weights passes b := by
  refine scoreAfter_eq_of_related (fun _ a b =>
    a ∈ g.arguments ∧ b ∈ h.arguments ∧ a.id = b.id) ?_ ⟨aMember, bMember, sameId⟩
  intro _ a b related
  obtain ⟨aMember, bMember, sameId⟩ := related
  refine (forall₂_of_map_eq (same.map_id_attackers aMember bMember sameId)).imp fun x y alike => ?_
  obtain ⟨⟨xAttacker, yAttacker⟩, xyId⟩ := alike
  have xMember := mem_arguments_of_mem_attackers xAttacker
  have yMember := mem_arguments_of_mem_attackers yAttacker
  have category := same.category x xMember y yMember xyId
  exact ⟨congrArg weights.weight category, xMember, yMember, xyId⟩

theorem solve_eq (same : g.SameStructure h) (weights : WeightTable R) (config : SolverConfig R) :
    solve g weights config = solve h weights config := by
  refine solve_eq_of_rowsAfter_eq (funext fun passes => ?_) config
  apply map_eq_of_ids_eq same.ids
  intro a aMember b bMember sameId
  rw [sameId, same.scoreAfter weights passes aMember bMember sameId]

/-- The scores are collected under the same categories in the same order. -/
theorem tallies_eq (same : g.SameStructure h) (scores : Table R) :
    tallies g.arguments scores = tallies h.arguments scores := by
  -- the walk over the arguments reads their categories and ids
  have walk (arguments : List Argument) :
      tallies arguments scores = (arguments.map fun a => (a.category, scoreUnder scores a)).foldl
        (fun tallies row => tallies.set row.1 (((tallies.get? row.1).getD .none).add row.2))
          .empty := by
    rw [List.foldl_map]
    rfl
  have rows : (g.arguments.map fun a => (a.category, scoreUnder scores a)) =
      h.arguments.map fun b => (b.category, scoreUnder scores b) := by
    apply map_eq_of_ids_eq same.ids
    intro a aMember b bMember sameId
    rw [same.category a aMember b bMember sameId, scoreUnder, scoreUnder, sameId]
  rw [walk, walk, rows]

end SameStructure

end Graph

/-- Graphs of the same structure have equal evaluations under every weight table: equal
scores, category means, final score and convergence.  At a slider position they have equal
evaluations when they configure the same category keys in the same order. -/
theorem evaluate_eq_of_sameStructure {R : Type u} [Scalar R] {g h : Graph}
    (same : g.SameStructure h) (config : SolverConfig R) :
    (∀ weights, evaluate g weights config = evaluate h weights config) ∧
      (g.categories.keys = h.categories.keys → ∀ slider,
        evaluate g (.ofSlider g.categories slider) config =
          evaluate h (.ofSlider h.categories slider) config) := by
  have equal (weights : WeightTable R) : evaluate g weights config = evaluate h weights config := by
    rw [evaluate, evaluate, same.solve_eq, aggregate, aggregate, same.tallies_eq]
  refine ⟨equal, fun keys slider => ?_⟩
  have weights : WeightTable.ofSlider g.categories slider =
      WeightTable.ofSlider h.categories slider := by
    simp only [WeightTable.ofSlider, keys]
  rw [weights]
  exact equal _

/-- Two graphs in double precision with other labels, descriptions, captions of the
categories and references to ids that no argument has, under weights of which one is
negative and at a slider position. -/
theorem evaluate_eq_of_sameStructure_of_relabelled :
    let plain := CategoryConfig.ofTables (.ofKeys ["eco", "env"] (by decide) id) .empty
    let captioned := CategoryConfig.ofTables (.ofKeys ["eco", "env"] (by decide) ("Nice " ++ ·))
      (.ofKeys ["env"] (by decide) fun _ => "#0f0")
    let g := (((Graph.empty plain).after
      (.create ⟨"A", "a", "eco", none, [], ["B", "Z"]⟩)).after
        (.create ⟨"B", "b", "env", none, ["A", "C"], ["A"]⟩)).after
          (.create ⟨"C", "c", "care", some "why", ["Y"], []⟩)
    let h := (((Graph.empty captioned).after
      (.create ⟨"A", "other", "eco", some "because", ["B", "X"], ["A0"]⟩)).after
        (.create ⟨"B", "b", "env", none, ["A"], []⟩)).after
          (.create ⟨"C", "see", "care", none, [], ["B", "D"]⟩)
    let weights : WeightTable Float := ⟨.ofKeys ["eco", "env"] (by decide) fun key =>
      if key = "eco" then -0.3 else 1.7⟩
    g.arguments.map Argument.attackedBy ≠ h.arguments.map Argument.attackedBy ∧
    evaluate g weights .default = evaluate h weights .default ∧
    evaluate g (.ofSlider g.categories ⟨(0.25 : Float)⟩) .default =
      evaluate h (.ofSlider h.categories ⟨0.25⟩) .default := by
  intro plain captioned g h weights
  have category : ∀ a ∈ g.arguments, ∀ b ∈ h.arguments, a.id = b.id →
      a.category = b.category := by decide +kernel
  have attackers : ∀ a ∈ g.arguments, ∀ b ∈ h.arguments, a.id = b.id →
      ∀ id ∈ g.ids, id ∈ a.attackedBy ↔ id ∈ b.attackedBy := by decide +kernel
  have same : g.SameStructure h := ⟨by decide +kernel, category, attackers⟩
  obtain ⟨everywhere, slid⟩ := evaluate_eq_of_sameStructure same
    (SolverConfig.default : SolverConfig Float)
  exact ⟨by decide +kernel, everywhere weights, slid (by decide +kernel) ⟨0.25⟩⟩

end WeightedArgumentation
