import WeightedArgumentation.Http.Api
import WeightedArgumentation.Proofs.Service.Consistent

/-!
# Sessions

A session is a sequence of requests to one server, each answered by the service that
the request before it left behind.  What an answer can do to a service is said once
(`answer_effect`): nothing, evaluate it again, or carry out a command that was granted.
Only the last can change anything, because a reachable service holds nothing stale; it
is reported as a success, and no method that is meant for reading asks for it.
-/

namespace WeightedArgumentation.Http

/-- The request was carried out. -/
def Response.Success (response : Response) : Prop :=
  200 ≤ response.status ∧ response.status < 300

instance (response : Response) : Decidable response.Success :=
  inferInstanceAs (Decidable (200 ≤ response.status ∧ response.status < 300))

/-- The methods that are meant for reading only. -/
def Method.isSafe : Method → Bool
  | .get | .head | .options => true
  | .post | .put | .delete | .other _ => false

/-! ## What an answer does -/

/-- A request that is neither for a head nor for the options of a resource is answered by
the resource at its target. -/
theorem answer_eq_answerAt {request : Request} {route : Route}
    (target : Route.ofTarget? request.target = some route) (notHead : request.method ≠ .head)
    (notOptions : request.method ≠ .options) (service : Service Float) :
    answer service request = answerAt service request route request.method := by
  rw [answer]
  split
  next options => exact absurd options notOptions
  next head => exact absurd head notHead
  next => rw [answerBy, target]

/-- What an answer to a request with some method can do to a service. -/
inductive Effect (service : Service Float) (method : Method) : Answer → Prop
  | keep (response : Response) : Effect service method (response, service)
  | recompute (response : Response) : Effect service method (response, service.recompute)
  | change {response : Response} {changed : Service Float} (command : Service.Command Float)
      (changing : method.isSafe = false) (success : response.Success)
      (granted : service.attempt command = .ok changed) :
      Effect service method (response, changed)

section Handlers

variable {service : Service Float} {method : Method}

/-- A command that is tried and reported as a success when it is granted. -/
theorem effect_afterChange (command : Service.Command Float) (changing : method.isSafe = false)
    {report : Service Float → Response} (success : ∀ changed, (report changed).Success) :
    Effect service method (afterChange service (service.attempt command) report) := by
  cases tried : service.attempt command with
  | ok changed => exact .change command changing (success changed) tried
  | error e => exact .keep _

theorem effect_withBody {α : Type} {reader : Json.Reader α} {request : Request}
    {handle : α → Answer} (handled : ∀ value, Effect service method (handle value)) :
    Effect service method (withBody reader request service handle) := by
  rw [withBody]
  split
  next value _ => exact handled value
  next => exact .keep _

theorem effect_withId {segment : String} {handle : String → Answer}
    (handled : ∀ id, Effect service method (handle id)) :
    Effect service method (withId segment service handle) := by
  rw [withId]
  split
  next id _ => exact handled id
  next => exact .keep _

theorem effect_showArgument (id : String) : Effect service method (showArgument service id) := by
  rw [showArgument]
  split
  next => exact .keep _
  next => exact .keep _

end Handlers

/-- Each resource answers each method with one of the effects. -/
theorem answerAt_effect (service : Service Float) (request : Request) (route : Route)
    (method : Method) : Effect service method (answerAt service request route method) := by
  have ok (content : Content) : Response.Success ⟨200, content⟩ := by
    simp [Response.Success]
  have created (content : Content) : Response.Success ⟨201, content⟩ := by
    simp [Response.Success]
  cases route with
  | graph =>
      cases method with
      | get => exact .keep _
      | put =>
          apply effect_withBody
          intro document
          exact effect_afterChange (.load document) rfl fun _ => ok _
      | _ => exact .keep _
  | arguments =>
      cases method with
      | post =>
          apply effect_withBody
          intro body
          exact effect_afterChange (.edit (.create _)) rfl fun _ => created _
      | _ => exact .keep _
  | nextId =>
      cases method with
      | _ => exact .keep _
  | argument segment =>
      cases method with
      | get => exact effect_withId effect_showArgument
      | put =>
          apply effect_withId
          intro id
          apply effect_withBody
          intro body
          exact effect_afterChange (.edit (.update id _)) rfl fun _ => ok _
      | delete =>
          apply effect_withId
          intro id
          exact effect_afterChange (.edit (.remove id)) rfl fun _ => ok _
      | _ => exact .keep _
  | weights =>
      cases method with
      | put =>
          apply effect_withBody
          intro body
          exact .change (.setSlider body.slider) rfl (ok _) rfl
      | _ => exact .keep _
  | scores =>
      cases method with
      | get => exact .recompute _
      | _ => exact .keep _

theorem answerBy_effect (service : Service Float) (request : Request) (method : Method) :
    Effect service method (answerBy service request method) := by
  rw [answerBy]
  split
  next route _ => exact answerAt_effect service request route method
  next => exact .keep _

/-- Every answer has one of the effects. -/
theorem answer_effect (service : Service Float) (request : Request) :
    Effect service request.method (answer service request) := by
  rw [answer]
  split
  next => exact .keep _
  next =>
    -- the body is left out of an answer to GET, which changes nothing
    have effect := answerBy_effect service request .get
    generalize answerBy service request .get = given at effect ⊢
    cases effect with
    | keep response => exact .keep _
    | recompute response => exact .recompute _
    | change command changing success granted => cases changing
  next => exact answerBy_effect service request request.method

/-! ## Sessions -/

/-- The services of a server with given solver settings: the one that it starts with,
over no arguments or over a document, and what any request leaves behind. -/
inductive Reachable (solver : SolverConfig Float) : Service Float → Prop
  | new (categories : CategoryConfig) : Reachable solver (.new categories solver)
  | ofDocument {document : Document Float} {service : Service Float} :
      Service.ofDocument document solver = .ok service → Reachable solver service
  | answer {service : Service Float} (request : Request) :
      Reachable solver service → Reachable solver (answer service request).2

/-- The responses to the requests of a session, and the service after them. -/
def serve (service : Service Float) : List Request → List Response × Service Float
  | [] => ([], service)
  | request :: later =>
      let answered := answer service request
      let rest := serve answered.2 later
      (answered.1 :: rest.1, rest.2)

variable {solver : SolverConfig Float} {service : Service Float}

/-- Whatever an answer leaves behind could have been reached by a command. -/
theorem Effect.reachable {method : Method} {given : Answer} (effect : Effect service method given)
    (reachable : Service.Reachable solver service) : Service.Reachable solver given.2 := by
  cases effect with
  | keep response => exact reachable
  | recompute response => exact reachable.after .recompute
  | @change response changed command changing success granted =>
      have after := reachable.after command
      rw [Service.after, granted] at after
      exact after

/-- What a session reaches, commands reach. -/
theorem Reachable.service_reachable (reachable : Reachable solver service) :
    Service.Reachable solver service := by
  induction reachable with
  | new categories => exact .new categories
  | ofDocument made => exact .ofDocument made
  | answer request _ ih => exact (answer_effect _ request).reachable ih

/-- A request that fails, or that is meant for reading only, leaves a consistent service
as it is. -/
theorem Effect.eq_of_idle {method : Method} {given : Answer} (effect : Effect service method given)
    (consistent : service.Consistent solver)
    (idle : ¬ given.1.Success ∨ method.isSafe = true) : given.2 = service := by
  cases effect with
  | keep response => rfl
  | recompute response => exact consistent.recompute_eq
  | change command changing success granted =>
      cases idle with
      | inl failed => exact absurd success failed
      | inr safe =>
          rw [changing] at safe
          cases safe

/-- A request whose response is not a success, or whose method is `GET`, `HEAD` or
`OPTIONS`, leaves the service as it is, and every sequence of later requests is answered
as if it had not been sent. -/
theorem answer_unchanged (reachable : Reachable solver service) (request : Request)
    (idle : ¬ (answer service request).1.Success ∨ request.method.isSafe = true) :
    (answer service request).2 = service ∧
      ∀ later, serve service (request :: later) =
        ((answer service request).1 :: (serve service later).1, (serve service later).2) := by
  have consistent := reachable.service_reachable.consistent
  have unchanged := (answer_effect service request).eq_of_idle consistent idle
  constructor
  · exact unchanged
  · intro later
    simp only [serve, unchanged]

/-- A document that names one id twice is refused, and asking for the scores evaluates the
graph again, after two arguments were created and the slider was moved. -/
theorem answer_unchanged_of_refused :
    let json (method : Method) (target body : String) : Request :=
      ⟨method, target, some "application/json", body⟩
    let start : Service Float := .new (CategoryConfig.empty.declare "eco" "Economic" "") .default
    let service := (answer (answer (answer start
      (json .post "/arguments" "[null,\"a\",\"eco\",null,[\"A2\"]]")).2
      (json .post "/arguments" "[null,\"b\",\"eco\",null,[\"A1\",\"Z\"]]")).2
      (json .put "/weights" "[0.25]")).2
    let refused : Request := json .put "/graph"
      "[\x7b\x7d,\x7b\"eco\":\"Economic\"\x7d,null,[[\"A\",\"a\",\"eco\"],[\" A\",\"b\",\"eco\"]]]"
    let scores : Request := ⟨.get, "/scores?fresh", none, ""⟩
    Reachable .default service ∧ service.graph.ids = ["A1", "A2"] ∧
      (answer service refused).1.status = 409 ∧ (answer service scores).1.status = 200 ∧
      ((answer service refused).2 = service ∧ ∀ later, serve service (refused :: later) =
        ((answer service refused).1 :: (serve service later).1, (serve service later).2)) ∧
      ((answer service scores).2 = service ∧ ∀ later, serve service (scores :: later) =
        ((answer service scores).1 :: (serve service later).1, (serve service later).2)) := by
  intro json start service refused scores
  have reachable : Reachable .default service := .answer _ (.answer _ (.answer _ (.new _)))
  have conflict : (answer service refused).1.status = 409 := by decide +kernel
  have failed : ¬ (answer service refused).1.Success := by
    rw [Response.Success, conflict]
    decide
  exact ⟨reachable, by decide +kernel, conflict, by decide +kernel,
    answer_unchanged reachable refused (.inl failed),
    answer_unchanged reachable scores (.inr rfl)⟩

end WeightedArgumentation.Http
