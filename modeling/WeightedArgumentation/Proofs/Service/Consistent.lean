import WeightedArgumentation.Proofs.Scalar.Double
import WeightedArgumentation.Proofs.Semantics.Passes
import WeightedArgumentation.Proofs.Service.Reachable

/-!
# Nothing held by a service is stale

The weights and the evaluation that a service holds are functions of its graph, its
slider and its solver settings.  So a service with nothing stale is one that equals the
service built anew from these three.  Every granted command leads from such a service to
such a service, and keeps the slider on its scale.
-/

namespace WeightedArgumentation

universe u

variable {R : Type u} [Scalar R]

/-! ## The slider -/

namespace Slider

variable [LE R]

/-- The position is fully economic, fully environmental or between the two. -/
def OnScale (slider : Slider R) : Prop := 0 ≤ slider.value ∧ slider.value ≤ 1

variable [Scalar.FiniteOrder R]

open Scalar.FiniteOrder

theorem onScale_balanced : (balanced : Slider R).OnScale := ⟨zero_le_half, half_le_one⟩

/-- The position nearest to any value, a value that is not finite included, is on
the scale. -/
theorem onScale_nearest (value : R) : (nearest value).OnScale := by
  rw [nearest]
  split
  next finite =>
    split
    next below => exact ⟨le_refl finite_zero, zero_le_one⟩
    next notBelow =>
      split
      next above => exact ⟨zero_le_one, le_refl finite_one⟩
      next notAbove =>
        exact ⟨le_of_not_less finite_zero finite (Bool.eq_false_of_not_eq_true notBelow),
          le_of_not_less finite finite_one (Bool.eq_false_of_not_eq_true notAbove)⟩
  next => exact onScale_balanced

end Slider

/-! ## Consistent services -/

namespace Service

/-- Over a graph of the same categories the weights stay current. -/
theorem withGraph_ofGraph {g changed : Graph} (slider : Slider R) (solver : SolverConfig R)
    (same : changed.categories = g.categories) :
    (ofGraph g slider solver).withGraph changed = ofGraph changed slider solver := by
  simp only [withGraph, recompute, ofGraph, same]

variable [LE R]

/-- The slider is on its scale, and the service is the one that its graph, its slider
and the solver settings give. -/
structure Consistent (solver : SolverConfig R) (service : Service R) : Prop where
  onScale : service.slider.OnScale
  current : service = ofGraph service.graph service.slider solver

theorem consistent_ofGraph (g : Graph) {slider : Slider R} (solver : SolverConfig R)
    (onScale : slider.OnScale) : (ofGraph g slider solver).Consistent solver :=
  ⟨onScale, rfl⟩

variable {solver : SolverConfig R} {service : Service R}

theorem Consistent.weights_eq (consistent : service.Consistent solver) :
    service.weights = .ofSlider service.graph.categories service.slider := by
  rw [consistent.current]
  rfl

theorem Consistent.evaluation_eq (consistent : service.Consistent solver) :
    service.evaluation = evaluate service.graph service.weights solver := by
  rw [consistent.current]
  rfl

theorem Consistent.recompute_eq (consistent : service.Consistent solver) :
    service.recompute = service := by
  rw [consistent.current]
  rfl

variable [Scalar.FiniteOrder R]

/-- Every granted command keeps a service consistent. -/
theorem Consistent.of_attempt {changed : Service R} {command : Command R}
    (consistent : service.Consistent solver) (granted : service.attempt command = .ok changed) :
    changed.Consistent solver := by
  obtain ⟨onScale, current⟩ := consistent
  cases command with
  | edit edit =>
      obtain ⟨g, edited, rfl⟩ := attempt_edit_eq_ok_iff.1 granted
      rw [current, withGraph_ofGraph _ _ (Graph.categories_of_attempt edited)]
      exact consistent_ofGraph g solver onScale
  | load document =>
      obtain ⟨g, _, rfl⟩ := attempt_load_eq_ok_iff.1 granted
      rw [current]
      exact consistent_ofGraph g solver onScale
  | setSlider value =>
      cases granted
      rw [current]
      exact consistent_ofGraph service.graph solver (Slider.onScale_nearest value)
  | recompute =>
      cases granted
      rw [current]
      exact consistent_ofGraph service.graph solver onScale
  | exportDocument =>
      cases granted
      exact ⟨onScale, current⟩

/-- Every reachable service is consistent. -/
theorem Reachable.consistent (reachable : Reachable solver service) :
    service.Consistent solver := by
  induction reachable with
  | new categories => exact consistent_ofGraph (.empty categories) solver Slider.onScale_balanced
  | ofDocument made =>
      obtain ⟨g, _, rfl⟩ := ofDocument_eq_ok_iff.1 made
      exact consistent_ofGraph g solver Slider.onScale_balanced
  | after command _ ih => exact holds_after ih fun _ granted => ih.of_attempt granted

end Service

/-! ## What a reachable service holds -/

/-- An evaluation scores exactly the ids of its graph, in their order. -/
theorem Graph.keys_scores_evaluate (g : Graph) (weights : WeightTable R)
    (config : SolverConfig R) : (evaluate g weights config).scores.keys = g.ids := by
  have rows := g.rows_solve weights config
  rw [Table.keys, evaluate, rows, List.map_map]
  rfl

namespace Service

variable [LE R] [Scalar.FiniteOrder R]

/-- In a reachable service the slider is on its scale, the weights are those of the
graph's categories at the slider, and the evaluation is that of the graph under these
weights.  It scores every id of the graph once and in order, and no other, so that an
id has a score exactly when it has an argument; and evaluating again changes nothing. -/
theorem nothing_stale {solver : SolverConfig R} {service : Service R}
    (reachable : Reachable solver service) :
    (0 ≤ service.slider.value ∧ service.slider.value ≤ 1) ∧
      service.weights = .ofSlider service.graph.categories service.slider ∧
      service.evaluation = evaluate service.graph service.weights solver ∧
      (service.evaluation.scores.keys = service.graph.ids ∧ service.graph.ids.Nodup) ∧
      (∀ id, (service.score? id).isSome = (service.argument? id).isSome) ∧
      service.recompute = service := by
  have consistent := reachable.consistent
  have evaluation := consistent.evaluation_eq
  refine ⟨consistent.onScale, consistent.weights_eq, evaluation, ⟨?_, service.graph.distinct⟩,
    fun id => ?_, consistent.recompute_eq⟩
  · rw [evaluation]
    exact service.graph.keys_scores_evaluate _ _
  · rw [score?, evaluation, evaluate, Graph.get?_scores_solve, Option.isSome_map, argument?]

/-- The slider asked beyond its end, a document with other categories loaded, an attack
on a loaded argument, and a creation and a removal that are refused, in double
precision. -/
theorem nothing_stale_of_refused :
    let document : Document Float :=
      ⟨.empty, Table.empty.set "env" "Environmental", none,
        [⟨"V", "v", "env", none, none, [], ["Y"]⟩]⟩
    let service := ((((((Service.new (CategoryConfig.empty.declare "eco" "Economic" "")
      .default).after (.setSlider 7.5)).after
        (.edit (.create ⟨"A", "a", "eco", none, [], []⟩))).after (.load document)).after
          (.edit (.create ⟨"B", "b", "env", none, ["V"], []⟩))).after
            (.edit (.create ⟨"V", "again", "env", none, [], []⟩))).after (.edit (.remove "A"))
    Reachable .default service ∧ (service.slider.value == 1) = true ∧
      service.graph.ids = ["V", "B"] ∧ (service.weights.weight "env" == 2) = true ∧
      (0 ≤ service.slider.value ∧ service.slider.value ≤ 1) ∧
      service.weights = .ofSlider service.graph.categories service.slider ∧
      service.evaluation = evaluate service.graph service.weights .default ∧
      (service.evaluation.scores.keys = service.graph.ids ∧ service.graph.ids.Nodup) ∧
      (∀ id, (service.score? id).isSome = (service.argument? id).isSome) ∧
      service.recompute = service := by
  intro document service
  have reachable : Reachable .default service :=
    .after _ (.after _ (.after _ (.after _ (.after _ (.after _ (.new _))))))
  exact ⟨reachable, by decide +kernel, by decide +kernel, by decide +kernel,
    nothing_stale reachable⟩

end Service

end WeightedArgumentation
