import WeightedArgumentation.Proofs.Graph.Load
import WeightedArgumentation.Proofs.Graph.NextId
import WeightedArgumentation.Proofs.Http.Session

/-!
# Creating without an id

A client may leave the id of a new argument out and then gets the one that the server
suggests.  The suggested id is free and normalized, so such a request is never refused for
its id: when its label and its category are fit, the argument is created, and under the
very id that asking for a suggestion would have shown.
-/

namespace WeightedArgumentation

/-- A specification with the suggested id is accepted when its label and its category
are. -/
theorem Graph.create_suggestId {g : Graph} {spec : ArgumentSpec} (suggested : spec.id = g.suggestId)
    (label : Text.trim spec.label ≠ "") (category : Text.trim spec.category ≠ "")
    (configured : g.categories.isEmpty = true ∨ Text.trim spec.category ∈ g.categories.keys) :
    ∃ changed, g.create spec = .ok changed ∧ changed.ids = g.ids ++ [g.suggestId] := by
  have proper := g.proper_suggestId
  have id : spec.normalized.id = g.suggestId := by
    rw [ArgumentSpec.normalized, suggested, proper.trim_eq]
  have faultless : spec.normalized.fault? g.categories = none :=
    ArgumentSpec.fault?_eq_none_iff.2 ⟨id ▸ proper.nonempty, label, category, configured⟩
  have fresh : spec.normalized.id ∉ g.ids := id ▸ g.suggestId_not_mem
  refine ⟨g.enter spec.normalized fresh, create_eq_ok_iff.2 ⟨faultless, fresh, rfl⟩, ?_⟩
  rw [ids_enter, id]

namespace Http

/-- A request creates an argument that it gives no id, with a label and a category that
the graph of the service accepts. -/
structure CreatesUnnamed (service : Service Float) (request : Request) (body : ArgumentRequest) :
    Prop where
  method : request.method = .post
  target : Route.ofTarget? request.target = some .arguments
  reads : readBody ArgumentRequest.read request = .ok body
  unnamed : body.id = none
  label : Text.trim body.label ≠ ""
  category : Text.trim body.category ≠ ""
  configured : service.graph.categories.isEmpty = true ∨
    Text.trim body.category ∈ service.graph.categories.keys

variable {service : Service Float} {request : Request}

theorem answer_creating (post : request.method = .post)
    (target : Route.ofTarget? request.target = some .arguments) {body : ArgumentRequest}
    (reads : readBody ArgumentRequest.read request = .ok body) :
    answer service request = createArgument service body := by
  rw [answer_eq_answerAt target (by simp [post]) (by simp [post]), post, answerAt, withBody, reads]

/-- An argument without an id is created under the suggested one. -/
theorem CreatesUnnamed.answer_eq {body : ArgumentRequest}
    (creates : CreatesUnnamed service request body) :
    ∃ changed : Service Float,
      answer service request =
        (.json 201 (changeView service.graph.suggestId changed.evaluation), changed) ∧
      changed.graph.ids = service.graph.ids ++ [service.graph.suggestId] := by
  have suggested : (body.toSpec service.graph.suggestId).id = service.graph.suggestId := by
    rw [ArgumentRequest.toSpec, creates.unnamed, Option.getD_none]
  obtain ⟨g, created, ids⟩ :=
    Graph.create_suggestId suggested creates.label creates.category creates.configured
  have granted : service.create (body.toSpec service.graph.suggestId) =
      .ok (service.withGraph g) := by
    rw [Service.create, created, Except.map]
  refine ⟨service.withGraph g, ?_, ids⟩
  rw [answer_creating creates.method creates.target creates.reads, createArgument, granted,
    afterChange, suggested, service.graph.proper_suggestId.trim_eq]

/-- Asking for a suggestion shows the suggested id and changes nothing. -/
theorem answer_nextId (asks : request.method = .get)
    (target : Route.ofTarget? request.target = some .nextId) (service : Service Float) :
    answer service request = (.json 200 (idView service.graph.suggestId), service) := by
  rw [answer_eq_answerAt target (by simp [asks]) (by simp [asks]), asks, answerAt]

/-- The suggested id of a graph is free and normalized, whatever its ids are.  When the
largest number that they form is the largest of 64 bits, the suggestion is the first free
number from 1 on, which is at most one more than the number of arguments and is found by
every search that goes that far.  So in whatever state a session is, an argument without
an id whose label and category are accepted is created under the id that asking for a
suggestion shows. -/
theorem suggested_id_is_created :
    (∀ g : Graph, g.suggestId ∉ g.ids ∧ Text.Proper g.suggestId ∧
      (g.largestInIds = Graph.largestNumber → ∃ k, 1 ≤ k ∧ k ≤ g.size + 1 ∧
        g.suggestId = Graph.numbered k ∧ Graph.numbered k ∉ g.ids ∧
          (∀ j, 1 ≤ j → j < k → Graph.numbered j ∈ g.ids) ∧
            ∀ limit, g.size < limit → g.firstFree? limit = some g.suggestId)) ∧
    ∀ (service : Service Float) request body, CreatesUnnamed service request body →
      ∃ id changed,
        answer service request = (.json 201 (changeView id changed.evaluation), changed) ∧
        changed.graph.ids = service.graph.ids ++ [id] ∧
        ∀ asked : Request, asked.method = .get → Route.ofTarget? asked.target = some .nextId →
          answer service asked = (.json 200 (idView id), service) := by
  constructor
  · intro g
    exact ⟨g.suggestId_not_mem, g.proper_suggestId, Graph.suggestId_of_largest⟩
  · intro service request body creates
    obtain ⟨changed, answered, ids⟩ := creates.answer_eq
    refine ⟨service.graph.suggestId, changed, answered, ids, ?_⟩
    intro asked asks target
    exact answer_nextId asks target service

/-- The largest number of 64 bits, `A1`, a number that is too large to count, several runs
of digits and digits that are not decimal are taken; the id is null in one request and
left out of the other. -/
theorem suggested_id_is_created_of_largest :
    let json (method : Method) (target body : String) : Request :=
      ⟨method, target, some "application/json", body⟩
    let start : Service Float := .new (CategoryConfig.empty.declare "eco" "Economic" "") .default
    let service := (answer (answer (answer (answer start
      (json .post "/arguments" "[\"A18446744073709551615\",\"a\",\"eco\"]")).2
      (json .post "/arguments" "[\"x0A1\",\"b\",\"eco\"]")).2
      (json .post "/arguments" "[\"99999999999999999999999\",\"c\",\"eco\"]")).2
      (json .post "/arguments" "[\"A1\",\"d\",\"eco\",null,[\"\u0662\"]]")).2
    let request := json .post "/arguments" "[null,\" e \",\"eco\",null,[\"A1\"]]"
    let body : ArgumentRequest := ⟨none, " e ", "eco", none, ["A1"], []⟩
    Reachable .default service ∧ service.graph.suggestId = "A2" ∧
      CreatesUnnamed service request body ∧
      ∃ id changed,
        answer service request = (.json 201 (changeView id changed.evaluation), changed) ∧
        changed.graph.ids = service.graph.ids ++ [id] ∧
        ∀ asked : Request, asked.method = .get → Route.ofTarget? asked.target = some .nextId →
          answer service asked = (.json 200 (idView id), service) := by
  intro json start service request body
  have reachable : Reachable .default service :=
    .answer _ (.answer _ (.answer _ (.answer _ (.new _))))
  have creates : CreatesUnnamed service request body :=
    ⟨rfl, by decide +kernel, by cbv, rfl, by decide +kernel, by decide +kernel,
      .inr (by decide +kernel)⟩
  exact ⟨reachable, by decide +kernel, creates,
    suggested_id_is_created.2 service request body creates⟩

end Http

end WeightedArgumentation
