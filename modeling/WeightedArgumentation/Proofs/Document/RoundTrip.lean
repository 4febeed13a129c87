import WeightedArgumentation.Document.Basic
import WeightedArgumentation.Proofs.Category.TwoTables
import WeightedArgumentation.Proofs.Graph.WellFormed

/-!
# Exported graphs read back

A document splits the categories into two tables and takes the lists of every
node from the attack relation.  Neither loses anything: the two tables give the
same categories in the same order, and on a symmetric graph the lists of a node
are the two views of its argument.  What the nodes state is well formed, so it is
accepted as it is, and assembling it gives the graph back.
-/

namespace WeightedArgumentation

universe u

/-! ## Nodes -/

namespace Document

variable {R : Type u} {attacks : List Attack} {id : String}

theorem mem_targets {target : String} : target ∈ targets attacks id ↔ ⟨id, target⟩ ∈ attacks := by
  simp only [targets, List.mem_map, List.mem_filter, decide_eq_true_eq]
  constructor
  · rintro ⟨⟨source, target⟩, ⟨member, rfl⟩, rfl⟩
    exact member
  · intro member
    exact ⟨_, ⟨member, rfl⟩, rfl⟩

theorem mem_sources {source : String} : source ∈ sources attacks id ↔ ⟨source, id⟩ ∈ attacks := by
  simp only [sources, List.mem_map, List.mem_filter, decide_eq_true_eq]
  constructor
  · rintro ⟨⟨source, target⟩, ⟨member, rfl⟩, rfl⟩
    exact member
  · intro member
    exact ⟨_, ⟨member, rfl⟩, rfl⟩

/-- In the order of the relation the attacks of one source are ordered by their
targets, and those on one target by their sources. -/
theorem ascending_targets (ascending : attacks.Pairwise (· < ·)) :
    (targets attacks id).Pairwise (· < ·) := by
  rw [targets, List.pairwise_map, List.pairwise_filter]
  refine ascending.imp fun {a b} before aSource bSource => ?_
  have same : a.source = b.source := (of_decide_eq_true aSource).trans (of_decide_eq_true bSource).symm
  rcases before with source | ⟨_, target⟩
  · exact absurd (same ▸ source) (String.lt_irrefl _)
  · exact target

theorem ascending_sources (ascending : attacks.Pairwise (· < ·)) :
    (sources attacks id).Pairwise (· < ·) := by
  rw [sources, List.pairwise_map, List.pairwise_filter]
  refine ascending.imp fun {a b} before aTarget bTarget => ?_
  have same : a.target = b.target := (of_decide_eq_true aTarget).trans (of_decide_eq_true bTarget).symm
  rcases before with source | ⟨_, target⟩
  · exact source
  · exact absurd (same ▸ target) (String.lt_irrefl _)

/-- On a symmetric graph an exported node states what its argument states. -/
theorem toSpec_exportNode {g : Graph} (symmetric : g.Symmetric) (scores : Option (Table R))
    {argument : Argument} (member : argument ∈ g.arguments) :
    (exportNode g.attacks.toList scores argument).toSpec = argument.toSpec := by
  have attacks : targets g.attacks.toList argument.id = argument.attacks.toList := by
    refine SortedSet.eq_of_mem_iff (ascending_targets g.attacks.ascending)
      argument.attacks.ascending fun target => ?_
    rw [mem_targets, ← SortedSet.mem_def, ← SortedSet.mem_def, symmetric.mem_attacks_iff member]
  have attackedBy : sources g.attacks.toList argument.id = argument.attackedBy.toList := by
    refine SortedSet.eq_of_mem_iff (ascending_sources g.attacks.ascending)
      argument.attackedBy.ascending fun source => ?_
    rw [mem_sources, ← SortedSet.mem_def, ← SortedSet.mem_def,
      symmetric.mem_attackedBy_iff member]
  simp only [exportNode, DocumentNode.toSpec, Argument.toSpec, attacks, attackedBy]

end Document

/-! ## Graphs -/

namespace Graph

variable {g : Graph}

/-- The specifications of a graph's own arguments have its records and state its
attacks. -/
theorem store_load_toSpec (g : Graph) :
    AttackStore.load (g.arguments.map Argument.toSpec) = g.store := by
  apply AttackStore.ext
  · simp only [AttackStore.load, List.map_map]
    rfl
  · apply Set.ext
    intro attack
    simp only [AttackStore.load, store, Set.mem_ofPred_eq, ArgumentSpec.mem_statedSet,
      mem_attacks_iff_stated]
    constructor
    · rintro ⟨spec, member, stated⟩
      obtain ⟨argument, inGraph, rfl⟩ := List.mem_map.1 member
      exact ⟨argument, inGraph, stated⟩
    · rintro ⟨argument, inGraph, stated⟩
      exact ⟨argument.toSpec, List.mem_map_of_mem inGraph, stated⟩

/-- A reachable graph is what the specifications of its own arguments describe. -/
theorem Reachable.load_toSpec (reachable : g.Reachable) :
    Graph.load g.categories (g.arguments.map Argument.toSpec) = .ok g := by
  have accepted : ∀ spec ∈ g.arguments.map Argument.toSpec,
      spec.normalized = spec ∧ spec.fault? g.categories = none := by
    intro spec member
    obtain ⟨argument, inGraph, rfl⟩ := List.mem_map.1 member
    exact ArgumentSpec.wellFormed_iff.1 (reachable.toSpec_wellFormed inGraph)
  have normalized : (g.arguments.map Argument.toSpec).map ArgumentSpec.normalized =
      g.arguments.map Argument.toSpec :=
    (List.map_congr_left fun spec member => (accepted spec member).1).trans (List.map_id' _)
  have distinct : ((g.arguments.map Argument.toSpec).map ArgumentSpec.id).Nodup := by
    rw [List.map_map]
    exact g.distinct
  have agree : conflict? g.categories []
      ((g.arguments.map Argument.toSpec).map ArgumentSpec.normalized) = none := by
    rw [normalized, conflict?_eq_none_iff]
    exact ⟨fun spec member => (accepted spec member).2, distinct, fun _ _ => List.not_mem_nil⟩
  refine load_eq_ok_iff.2 ⟨agree, ?_⟩
  refine eq_of_store_eq reachable.symmetric symmetric_assemble categories_assemble.symm ?_
  rw [store_assemble, normalized, store_load_toSpec]

end Graph

namespace Document

variable {R : Type u}

/-- A reachable graph exported with any scores reads back as the same graph: the
same categories in their order and the same arguments in their order, with the same
fields and the same attacks, those that name no argument included. -/
theorem toGraph_ofGraph {g : Graph} (reachable : g.Reachable) (scores : Option (Table R))
    (globalScores : Option (GlobalScores R)) :
    (ofGraph g scores globalScores).toGraph = .ok g := by
  have specs : (g.arguments.map (exportNode g.attacks.toList scores)).map DocumentNode.toSpec =
      g.arguments.map Argument.toSpec := by
    rw [List.map_map]
    exact List.map_congr_left fun argument member =>
      toSpec_exportNode reachable.symmetric scores member
  have sameCategories : (ofGraph g scores globalScores).categories = g.categories :=
    g.categories.ofTables_labels_colors
  rw [toGraph, sameCategories, ofGraph, specs, reachable.load_toSpec]

/-- A self-attack, attacks to and from ids that no argument has, a category without
label and one without colour, and a score for one of two arguments. -/
theorem toGraph_ofGraph_of_dangling :
    let categories := (CategoryConfig.empty.declare "env" "" "#5dba6f").declare "eco" "Economic" ""
    let g := ((Graph.empty categories).after
      (.create ⟨"B", "b", "eco", some "why", ["B", "Z"], [" Y", ""]⟩)).after
        (.create ⟨"A", "a", "env", none, ["B"], []⟩)
    let scores : Table Float := Table.empty.set "A" 0.25
    g.Reachable ∧ g.attacks.toList = [⟨"A", "B"⟩, ⟨"B", "B"⟩, ⟨"B", "Z"⟩, ⟨"Y", "B"⟩] ∧
      (ofGraph g (some scores) none).toGraph = .ok g := by
  intro categories g scores
  have reachable : g.Reachable := .after _ (.after _ (.empty _))
  exact ⟨reachable, by decide +kernel, toGraph_ofGraph reachable (some scores) none⟩

end Document

end WeightedArgumentation
