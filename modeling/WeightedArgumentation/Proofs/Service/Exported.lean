import WeightedArgumentation.Proofs.Document.Codec
import WeightedArgumentation.Proofs.Document.RoundTrip
import WeightedArgumentation.Proofs.Weights.Moderate

/-!
# The exported document of a service

The means that a service holds are finite in whatever state it can be, so the text of its
exported document is one that is read back.  The scores may come back with other digits, but a
graph is built without them: it is the graph that was exported, and under the same slider it has
the weights and the evaluation that are held already.
-/

namespace WeightedArgumentation

/-- What an exported document of a reachable graph is read as still describes the graph: its
nodes state what the arguments state, and no number takes part. -/
theorem Graph.Reachable.toGraph_reread {g : Graph} (reachable : g.Reachable)
    (scores : Option (Table Float)) (globalScores : Option (GlobalScores Float)) :
    (Document.ofGraph g scores globalScores).reread.toGraph = .ok g := by
  have specs : (Document.ofGraph g scores globalScores).reread.nodes.map DocumentNode.toSpec =
      g.arguments.map Argument.toSpec := by
    rw [Document.reread, Document.ofGraph, List.map_map, List.map_map]
    exact List.map_congr_left fun argument member =>
      Document.toSpec_exportNode reachable.symmetric scores member
  have categories : (Document.ofGraph g scores globalScores).reread.categories = g.categories :=
    g.categories.ofTables_labels_colors
  rw [Document.toGraph, categories, specs, reachable.load_toSpec]

namespace Service

variable {solver : SolverConfig Float} {service : Service Float}

theorem Reachable.finiteMeans_exportDocument (reachable : Reachable solver service) :
    ∀ scores, service.exportDocument.globalScores = some scores → scores.FiniteMeans := by
  rintro scores ⟨⟩ row member
  exact reachable.isFinite_mean member

/-- The document of a reachable service is read back. -/
theorem Reachable.decode_exportDocument (reachable : Reachable solver service)
    (style : Json.Style) :
    Json.decode Document.read (String.ofList (service.exportDocument.toJson.write style)) =
      .ok service.exportDocument.reread :=
  Document.decode_toJson reachable.finiteMeans_exportDocument style

/-- The document of a reachable service is read back from the line that ends with it. -/
theorem Reachable.ofText_exportDocument_line (reachable : Reachable solver service) :
    Document.ofText (service.exportDocument.toText ++ "\n") =
      .ok service.exportDocument.reread := by
  have line : service.exportDocument.toText ++ "\n" =
      String.ofList (service.exportDocument.toJson.write (.indented 0) ++ ['\n']) := by
    rw [String.ofList_append]
    rfl
  rw [Document.ofText, line]
  exact Document.decode_toJson_append reachable.finiteMeans_exportDocument _
    (List.forall_mem_singleton.2 rfl)

/-- Loading its own document leaves a reachable service as it is. -/
theorem Reachable.load_exportDocument (reachable : Reachable solver service) :
    service.load service.exportDocument.reread = .ok service := by
  have consistent := reachable.consistent
  have settings : service.solver = solver := by
    rw [consistent.current]
    rfl
  have graph := reachable.graph_reachable.toGraph_reread (some service.evaluation.scores)
    (some service.evaluation.globalScores)
  refine attempt_load_eq_ok_iff.2 ⟨service.graph, graph, ?_⟩
  rw [settings]
  exact consistent.current

end Service

end WeightedArgumentation
