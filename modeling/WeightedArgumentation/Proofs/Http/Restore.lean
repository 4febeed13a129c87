import WeightedArgumentation.Proofs.Http.Session
import WeightedArgumentation.Proofs.Service.Exported

/-!
# Restoring an exported graph

What a server answers for its graph is the document of a reachable service.  Sent back as it was
received it is read again, given that it is short enough for the server to read, and loading it
leaves the service as it is.
-/

namespace WeightedArgumentation

namespace Http

/-- The body of a response as it is sent. -/
def Content.body : Content → String
  | .json value => value.compact
  | .text plain => plain
  | .withheld => ""

variable {solver : SolverConfig Float} {service : Service Float} {reading restoring : Request}

theorem answer_reading (method : reading.method = .get)
    (target : Route.ofTarget? reading.target = some .graph) :
    answer service reading = (.json 200 service.exportDocument.toJson, service) := by
  rw [answer_eq_answerAt target (by simp [method]) (by simp [method]), method]
  rfl

/-- A request that sends back what the server has just answered for its graph, and is not too long
to be read, is answered with the evaluation that is held already, and changes nothing: every
sequence of later requests is answered as if it had not been sent. -/
theorem answer_restoring (reachable : Reachable solver service)
    (get : reading.method = .get) (source : Route.ofTarget? reading.target = some .graph)
    (put : restoring.method = .put) (target : Route.ofTarget? restoring.target = some .graph)
    (announced : restoring.contentType.any announcesJson = true)
    (sentBack : restoring.body = (answer service reading).1.content.body)
    (within : restoring.body.utf8ByteSize ≤ bodyLimit) :
    answer service restoring = (.json 200 service.evaluation.toJson, service) ∧
      ∀ later, serve service (restoring :: later) =
        (.json 200 service.evaluation.toJson :: (serve service later).1,
          (serve service later).2) := by
  have commanded := reachable.service_reachable
  have body : Json.decode Document.read restoring.body = .ok service.exportDocument.reread := by
    rw [sentBack, answer_reading get source]
    exact commanded.decode_exportDocument .compact
  have unchanged : answer service restoring = (.json 200 service.evaluation.toJson, service) := by
    rw [answer_eq_answerAt target (by simp [put]) (by simp [put]), put, answerAt, withBody,
      readBody, if_pos announced, if_pos within, body]
    dsimp only
    rw [loadGraph, commanded.load_exportDocument]
    rfl
  constructor
  · exact unchanged
  · intro later
    simp only [serve, unchanged]

/-- Two arguments that attack each other and ids that no argument has, in the categories of a
loaded document and with the slider moved to a quarter. -/
theorem answer_restoring_of_dangling :
    let json (method : Method) (target body : String) : Request :=
      ⟨method, target, some "application/json", body⟩
    let labels := "\x7b\"eco\":\"\\u00e9\",\"env\":\"\"\x7d"
    let nodes := "[[\"B\",\"b\",\"env\",0.1]]"
    let loading := json .put "/graph" ("[\x7b\x7d," ++ labels ++ ",null," ++ nodes ++ "]")
    let creating := json .post "/arguments"
      "[\"A\",\"a\",\"eco\",\"\\n\",[\"B\",\"Z\"],[\"B\",\"Y\"]]"
    let start : Service Float := .new (CategoryConfig.empty.declare "env" "" "#5dba6f") .default
    let service := (answer (answer (answer start loading).2 creating).2
      (json .put "/weights" "[0.25]")).2
    let reading : Request := ⟨.get, "/graph", none, ""⟩
    let restoring := json .put "/graph?again" (answer service reading).1.content.body
    Reachable .default service ∧ service.graph.ids = ["B", "A"] ∧
      service.graph.categories.keys = ["eco", "env"] ∧
      answer service restoring = (.json 200 service.evaluation.toJson, service) ∧
      ∀ later, serve service (restoring :: later) =
        (.json 200 service.evaluation.toJson :: (serve service later).1,
          (serve service later).2) := by
  intro json labels nodes loading creating start service reading restoring
  have reachable : Reachable .default service := .answer _ (.answer _ (.answer _ (.new _)))
  have sentBack : restoring.body = (answer service reading).1.content.body := rfl
  have within : restoring.body.utf8ByteSize ≤ bodyLimit := by decide +kernel
  exact ⟨reachable, by decide +kernel, by decide +kernel,
    answer_restoring reachable rfl (by decide +kernel) rfl (by decide +kernel) (by decide +kernel)
      sentBack within⟩

end Http

end WeightedArgumentation
