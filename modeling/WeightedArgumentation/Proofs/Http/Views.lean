import WeightedArgumentation.Proofs.Http.Addressing
import WeightedArgumentation.Proofs.Http.Restore

/-!
# One argument, shown twice

A server shows an argument by itself and as a node of the exported graph.  By itself it shows
the two views that the argument keeps and looks up one score; in the exported graph the lists
of every node are picked out of the attack relation of the whole graph.  Because the views hold
every attack of the relation, the two never differ.
-/

namespace WeightedArgumentation

/-- An argument as a node, with the lists that its own views show. -/
def DocumentNode.ofArgument {R : Type*} (argument : Argument) (score : Option R) :
    DocumentNode R where
  id := argument.id
  label := argument.label
  category := argument.category
  score := score
  description := argument.description
  attacks := argument.attacks.toList
  attackedBy := argument.attackedBy.toList

/-- On a symmetric graph an argument is exported with the lists of its own views. -/
theorem Document.exportNode_eq_ofArgument {R : Type*} {g : Graph} (symmetric : g.Symmetric)
    (scores : Option (Table R)) {argument : Argument} (member : argument ∈ g.arguments) :
    exportNode g.attacks.toList scores argument =
      .ofArgument argument (scores.bind (·.get? argument.id)) := by
  have stated := toSpec_exportNode symmetric scores member
  have attacks : targets g.attacks.toList argument.id = argument.attacks.toList :=
    congrArg ArgumentSpec.attacks stated
  have attackedBy : sources g.attacks.toList argument.id = argument.attackedBy.toList :=
    congrArg ArgumentSpec.attackedBy stated
  rw [exportNode, attacks, attackedBy]
  rfl

namespace Service

variable {solver : SolverConfig Float} {service : Service Float}

/-- The exported nodes are the arguments in their order, each with its latest score. -/
theorem Reachable.nodes_exportDocument (reachable : Reachable solver service) :
    service.exportDocument.nodes = service.graph.arguments.map fun argument =>
      .ofArgument argument (service.score? argument.id) := by
  have symmetric := reachable.graph_reachable.symmetric
  apply List.map_congr_left
  intro argument member
  exact Document.exportNode_eq_ofArgument symmetric (some service.evaluation.scores) member

/-- Every argument of a reachable service has a score. -/
theorem Reachable.exists_score (reachable : Reachable solver service) {argument : Argument}
    (member : argument ∈ service.graph.arguments) :
    ∃ score, service.score? argument.id = some score := by
  rw [score?, reachable.consistent.evaluation_eq]
  exact ⟨_, get?_solve service.weights solver member⟩

end Service

namespace Http

/-- A node with its members named as when an argument is shown by itself. -/
def nodeView (node : DocumentNode Float) : Json.Value :=
  .object ([("id", .string node.id), ("label", .string node.label),
      ("category", .string node.category)] ++
    Json.optionalMember "description" (node.description.map .string) ++
    [("score", numberOrNull node.score), ("attacks", .ofTexts node.attacks),
      ("attackedBy", .ofTexts node.attackedBy)])

theorem argumentView_eq (argument : Argument) (score : Option Float) :
    argumentView argument score = nodeView (.ofArgument argument score) := rfl

/-- In whatever state a session is, the exported graph has one node for each argument, in their
order.  Each node has a score and strictly ascending lists and holds what its argument holds:
asking for the argument by itself shows just what the node says. -/
theorem shown_as_exported {solver : SolverConfig Float} {service : Service Float}
    (reachable : Reachable solver service) :
    let document := service.exportDocument
    (∀ request : Request, request.method = .get →
      Route.ofTarget? request.target = some .graph →
        answer service request = (.json 200 document.toJson, service)) ∧
    (document.nodes.map DocumentNode.id = service.graph.ids ∧ service.graph.ids.Nodup) ∧
    document.nodes = service.graph.arguments.map (fun argument =>
      .ofArgument argument (service.score? argument.id)) ∧
    ∀ node ∈ document.nodes, node.score.isSome = true ∧
      node.attacks.Pairwise (· < ·) ∧ node.attackedBy.Pairwise (· < ·) ∧
      ∀ (request : Request) segment, request.method = .get →
        Route.ofTarget? request.target = some (.argument segment) →
          percentDecode? segment = some node.id →
            answer service request = (.json 200 (nodeView node), service) := by
  intro document
  have commanded := reachable.service_reachable
  have nodes : document.nodes = service.graph.arguments.map fun argument =>
      .ofArgument argument (service.score? argument.id) := commanded.nodes_exportDocument
  refine ⟨?graph, ⟨?ids, service.graph.distinct⟩, nodes, ?node⟩
  case graph =>
    intro request get target
    exact answer_reading get target
  case ids =>
    rw [nodes, List.map_map]
    rfl
  case node =>
    intro node exported
    rw [nodes] at exported
    obtain ⟨argument, member, rfl⟩ := List.mem_map.1 exported
    obtain ⟨score, found⟩ := commanded.exists_score member
    refine ⟨?score, argument.attacks.ascending, argument.attackedBy.ascending, ?shown⟩
    case score => exact Option.isSome_iff_exists.2 ⟨score, found⟩
    case shown =>
      intro request segment get target decoded
      have held : service.argument? argument.id = some argument :=
        Graph.get?_eq_some_iff.2 ⟨member, rfl⟩
      rw [answer_showing get target decoded held, argumentView_eq]
      rfl

/-- An argument that attacks itself, is attacked by one that came later and attacks an id that
no argument has, with a slash in its own id. -/
theorem shown_as_exported_of_dangling :
    let json (method : Method) (target body : String) : Request :=
      ⟨method, target, some "application/json", body⟩
    let start : Service Float := .new (CategoryConfig.empty.declare "eco" "Economic" "") .default
    let service := (answer (answer start
      (json .post "/arguments" "[\"A/B\",\"a\",\"eco\",\"why\",[\"Z\",\"A/B\",\"Z\"]]")).2
      (json .post "/arguments" "[\"C\",\"c\",\"eco\",null,[\"A/B\"],[\"Y\"]]")).2
    let reading : Request := ⟨.get, "/graph", none, ""⟩
    let asking : Request := ⟨.get, "/arguments/A%2FB?again", none, ""⟩
    Reachable .default service ∧
      answer service reading = (.json 200 service.exportDocument.toJson, service) ∧
      service.exportDocument.nodes.map DocumentNode.id = service.graph.ids ∧
      ∃ node ∈ service.exportDocument.nodes,
        (node.id, node.attacks, node.attackedBy) = ("A/B", ["A/B", "Z"], ["A/B", "C"]) ∧
        node.score.isSome = true ∧ node.attacks.Pairwise (· < ·) ∧
          node.attackedBy.Pairwise (· < ·) ∧
            answer service asking = (.json 200 (nodeView node), service) := by
  intro json start service reading asking
  have reachable : Reachable .default service := .answer _ (.answer _ (.new _))
  obtain ⟨exported, ids, _, shown⟩ := shown_as_exported reachable
  have rows : service.exportDocument.nodes.map (fun node =>
      (node.id, node.attacks, node.attackedBy)) =
        [("A/B", ["A/B", "Z"], ["A/B", "C"]), ("C", ["A/B"], ["Y"])] := by decide +kernel
  obtain ⟨node, member, held⟩ := List.mem_map.1 (rows ▸ List.mem_cons_self)
  obtain ⟨scored, attacks, attackedBy, asked⟩ := shown node member
  have decoded : percentDecode? "A%2FB" = some node.id := by
    rw [(Prod.mk.inj held).1]
    decide +kernel
  exact ⟨reachable, exported reading rfl (by decide +kernel), ids.1, node, member, held, scored,
    attacks, attackedBy, asked asking "A%2FB" rfl (by decide +kernel) decoded⟩

end Http

end WeightedArgumentation
