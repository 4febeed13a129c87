import WeightedArgumentation.Proofs.Http.Addressing

/-!
# The status of a change

What is answered to a change depends on the request and on the graph that the server holds, and
on nothing else.  A creation is refused for its fields before it is refused for an id that is
taken.  An update looks for its argument first, so that what its body says does not matter when
there is none, and then at the id that the body states and at the other fields.  The tables of
the statuses (`creationStatus`, `updateStatus`, `removalStatus`) say so in terms of the trimmed
texts of the body; the sections before them say what each edit of a graph comes to.

The only error that is reported as one of the server is that of two views of the attack relation
that disagree.  No edit and no load ends with it, so that no request is answered with such a
status (`answer_status_mem`, `serve_status_mem`).
-/

namespace WeightedArgumentation.Http

/-! ## Outcomes of changes -/

section Outcomes

variable {α β : Type} {success : Nat}

/-- The status that the outcome of a change is reported with, given that of a success. -/
def outcomeStatus (success : Nat) : Except GraphError α → Nat
  | .ok _ => success
  | .error e => (ApiError.ofGraphError e).status

@[simp] theorem outcomeStatus_map (f : α → β) (result : Except GraphError α) :
    outcomeStatus success (result.map f) = outcomeStatus success result := by
  cases result with
  | ok value => rfl
  | error e => rfl

theorem status_afterChange {service : Service Float} {result : Except GraphError (Service Float)}
    {view : Service Float → Json.Value} :
    (afterChange service result fun changed => .json success (view changed)).1.status =
      outcomeStatus success result := by
  cases result with
  | ok changed => rfl
  | error e => rfl

variable {g : Graph} {spec : ArgumentSpec} {id : String}

/-- A fault of the specification comes before an id that is taken. -/
theorem outcomeStatus_create :
    outcomeStatus success (g.create spec) =
      if spec.normalized.fault? g.categories ≠ none then 422
      else if spec.normalized.id ∈ g.ids then 409
      else success := by
  cases faulty : spec.normalized.fault? g.categories with
  | some fault =>
      rw [Graph.create_of_fault faulty, if_pos (Option.some_ne_none fault)]
      rfl
  | none =>
      rw [if_neg (not_not_intro rfl)]
      by_cases taken : spec.normalized.id ∈ g.ids
      · rw [Graph.create_of_taken faulty taken, if_pos taken]
        rfl
      · rw [Graph.create_of_fresh faulty taken, if_neg taken]
        rfl

/-- An argument that is missing comes before an id that is changed, and this before a fault. -/
theorem outcomeStatus_update :
    outcomeStatus success (g.update id spec) =
      if id ∉ g.ids then 404
      else if (spec.normalized.id ≠ "" ∧ spec.normalized.id ≠ id) ∨
          { spec.normalized with id := id }.fault? g.categories ≠ none then 422
      else success := by
  by_cases present : id ∈ g.ids
  · rw [if_neg (not_not_intro present), Graph.update, if_pos present]
    by_cases allowed : spec.normalized.id = "" ∨ spec.normalized.id = id
    · have kept : Graph.keepId id spec.normalized = .ok { spec.normalized with id := id } :=
        Graph.keepId_eq_ok_iff.2 ⟨allowed, rfl⟩
      have notRenamed : ¬ (spec.normalized.id ≠ "" ∧ spec.normalized.id ≠ id) := by
        rwa [← not_or, not_not]
      simp only [kept, notRenamed, false_or]
      cases faulty : { spec.normalized with id := id }.fault? g.categories with
      | some fault => rfl
      | none => rfl
    · rw [not_or] at allowed
      rw [Graph.keepId, if_neg allowed.1, if_neg allowed.2, if_pos (.inl allowed)]
      rfl
  · rw [if_pos present, Graph.update, if_neg present]
    rfl

theorem outcomeStatus_remove :
    outcomeStatus success (g.remove id) = if id ∈ g.ids then success else 404 := by
  rw [Graph.remove]
  cases found : g.get? id with
  | none =>
      rw [if_neg (Graph.get?_eq_none_iff.1 found)]
      rfl
  | some argument =>
      obtain ⟨member, rfl⟩ := Graph.get?_eq_some_iff.1 found
      have present : argument.id ∈ g.ids := List.mem_map_of_mem member
      rw [if_pos present]
      rfl

end Outcomes

/-! ## Statuses by what the body says -/

namespace ArgumentRequest

variable {body : ArgumentRequest} {categories : CategoryConfig} {id fallback : String}

/-- The label or the category of the body is not accepted: one of them is blank, or categories
are configured and this one is not. -/
def Unfit (body : ArgumentRequest) (categories : CategoryConfig) : Prop :=
  Text.trim body.label = "" ∨ Text.trim body.category = "" ∨
    categories.isEmpty = false ∧ Text.trim body.category ∉ categories.keys

instance : Decidable (body.Unfit categories) :=
  inferInstanceAs (Decidable (_ ∨ _ ∨ _ ∧ _))

/-- The body states an id that is neither blank nor the given one. -/
def Renames (body : ArgumentRequest) (id : String) : Prop :=
  ∃ stated ∈ body.id, Text.trim stated ≠ "" ∧ Text.trim stated ≠ id

instance : Decidable (body.Renames id) :=
  inferInstanceAs (Decidable (∃ stated ∈ body.id, _ ∧ _))

/-- Under whatever id the body is checked, what is at fault is the id or one of the other
fields. -/
theorem fault_iff :
    { (body.toSpec fallback).normalized with id := id }.fault? categories ≠ none ↔
      id = "" ∨ body.Unfit categories := by
  rw [ne_eq, ArgumentSpec.fault?_eq_none_iff, not_and_or, not_and_or, not_and_or, not_or,
    not_not, not_not, not_not, Bool.not_eq_true]
  rfl

/-- A missing id that is filled in with a trimmed one does not rename. -/
theorem renames_iff (proper : Text.Proper id) :
    (body.toSpec id).normalized.id ≠ "" ∧ (body.toSpec id).normalized.id ≠ id ↔
      body.Renames id := by
  change Text.trim (body.id.getD id) ≠ "" ∧ Text.trim (body.id.getD id) ≠ id ↔ _
  rw [Renames]
  cases body.id with
  | none => simp [proper.trim_eq]
  | some stated => simp

end ArgumentRequest

/-- The status of a creation: 422 when the id, the label or the category is not accepted, and
then 409 when the id is taken. -/
def creationStatus (g : Graph) (body : ArgumentRequest) : Nat :=
  let id := Text.trim (body.id.getD g.suggestId)
  if id = "" ∨ body.Unfit g.categories then 422
  else if id ∈ g.ids then 409
  else 201

/-- The status of an update: 404 when there is nothing to update, and then 422 when the body
states another id or its label or its category is not accepted. -/
def updateStatus (g : Graph) (id : String) (body : ArgumentRequest) : Nat :=
  if id ∉ g.ids then 404
  else if body.Renames id ∨ body.Unfit g.categories then 422
  else 200

/-- The status of a removal: 404 when there is nothing to remove. -/
def removalStatus (g : Graph) (id : String) : Nat := if id ∈ g.ids then 200 else 404

variable {service : Service Float} {request : Request} {segment id : String}

theorem status_createArgument (body : ArgumentRequest) :
    (createArgument service body).1.status = creationStatus service.graph body := by
  rw [createArgument, status_afterChange, Service.create, outcomeStatus_map, outcomeStatus_create,
    creationStatus]
  exact if_congr ArgumentRequest.fault_iff rfl rfl

theorem status_updateArgument (reachable : service.graph.Reachable) (body : ArgumentRequest) :
    (updateArgument service id body).1.status = updateStatus service.graph id body := by
  rw [updateArgument, status_afterChange, Service.update, outcomeStatus_map, outcomeStatus_update,
    updateStatus]
  by_cases stored : id ∈ service.graph.ids
  · obtain ⟨argument, member, rfl⟩ := List.mem_map.1 stored
    have proper : Text.Proper argument.id := (reachable.toSpec_wellFormed member).record.id
    have faulty : { (body.toSpec argument.id).normalized with id := argument.id }.fault?
        service.graph.categories ≠ none ↔ body.Unfit service.graph.categories := by
      rw [ArgumentRequest.fault_iff, or_iff_right proper.nonempty]
    rw [if_neg (not_not_intro stored), if_neg (not_not_intro stored)]
    exact if_congr (or_congr (ArgumentRequest.renames_iff proper) faulty) rfl rfl
  · rw [if_pos stored, if_pos stored]

theorem status_deleteArgument :
    (deleteArgument service id).1.status = removalStatus service.graph id := by
  rw [deleteArgument, status_afterChange, Service.remove, outcomeStatus_map, outcomeStatus_remove,
    removalStatus]

/-! ## All statuses -/

/-- The statuses that the server answers with. -/
def statuses : List Nat := [200, 201, 400, 404, 405, 409, 413, 415, 422]

/-- The first conflict of specifications is a fault or an id that is taken. -/
theorem status_of_conflict {categories : CategoryConfig} {taken : List String}
    {specs : List ArgumentSpec} {error : GraphError}
    (conflict : Graph.conflict? categories taken specs = some error) :
    (ApiError.ofGraphError error).status ∈ statuses := by
  induction specs generalizing taken with
  | nil => cases conflict
  | cons spec rest ih =>
      rw [Graph.conflict?] at conflict
      split at conflict
      next =>
        obtain rfl := Option.some.inj conflict
        simp [ApiError.ofGraphError, ApiError.status, statuses]
      next =>
        split at conflict
        next =>
          obtain rfl := Option.some.inj conflict
          simp [ApiError.ofGraphError, ApiError.status, statuses]
        next => exact ih conflict

theorem outcomeStatus_load_mem (categories : CategoryConfig) (specs : List ArgumentSpec) :
    outcomeStatus 200 (Graph.load categories specs) ∈ statuses := by
  rw [Graph.load]
  split
  next error conflict => exact status_of_conflict conflict
  next => simp [outcomeStatus, statuses]

theorem status_readBody_mem {α : Type} {reader : Json.Reader α} {response : Response}
    (unread : readBody reader request = .error response) : response.status ∈ statuses := by
  rw [readBody] at unread
  split at unread
  next =>
    split at unread
    next =>
      split at unread
      next => cases unread
      next failure _ =>
        obtain rfl := Except.error.inj unread
        cases failure with
        | _ => simp [unreadableBody, Response.plain, statuses]
    next =>
      obtain rfl := Except.error.inj unread
      simp [bodyTooLong, Response.plain, statuses]
  next =>
    obtain rfl := Except.error.inj unread
    simp [unsupportedMedia, Response.plain, statuses]

theorem status_withBody_mem {α : Type} {reader : Json.Reader α} {handle : α → Answer}
    (handled : ∀ value, (handle value).1.status ∈ statuses) :
    (withBody reader request service handle).1.status ∈ statuses := by
  rw [withBody]
  split
  next value _ => exact handled value
  next response unread => exact status_readBody_mem unread

theorem status_withId_mem {handle : String → Answer}
    (handled : ∀ id, (handle id).1.status ∈ statuses) :
    (withId segment service handle).1.status ∈ statuses := by
  rw [withId]
  split
  next id _ => exact handled id
  next => simp [invalidId, Response.plain, statuses]

theorem status_showArgument_mem : (showArgument service id).1.status ∈ statuses := by
  rw [showArgument]
  split
  next => simp [Response.json, statuses]
  next => simp [ApiError.ofGraphError, ApiError.response, ApiError.status, Response.json, statuses]

@[simp] theorem Response.status_withoutBody (response : Response) :
    response.withoutBody.status = response.status := by
  rw [Response.withoutBody]
  split
  next => rfl
  next => rfl

/-- Each resource answers each method with one of the statuses. -/
theorem answerAt_status_mem (service : Service Float) (request : Request) (route : Route)
    (method : Method) : (answerAt service request route method).1.status ∈ statuses := by
  have ok (value : Json.Value) : (Response.json 200 value).status ∈ statuses := by
    simp [Response.json, statuses]
  have refused : methodNotAllowed.status ∈ statuses := by decide
  cases route with
  | graph =>
      cases method with
      | get => exact ok _
      | put =>
          apply status_withBody_mem
          intro document
          rw [loadGraph, status_afterChange, Service.load, outcomeStatus_map]
          exact outcomeStatus_load_mem _ _
      | _ => exact refused
  | arguments =>
      cases method with
      | post =>
          apply status_withBody_mem
          intro body
          rw [status_createArgument, creationStatus]
          split_ifs <;> decide
      | _ => exact refused
  | nextId =>
      cases method with
      | get => exact ok _
      | _ => exact refused
  | argument segment =>
      cases method with
      | get => exact status_withId_mem fun id => status_showArgument_mem
      | put =>
          apply status_withId_mem
          intro id
          apply status_withBody_mem
          intro body
          rw [updateArgument, status_afterChange, Service.update, outcomeStatus_map,
            outcomeStatus_update]
          split_ifs <;> decide
      | delete =>
          apply status_withId_mem
          intro id
          rw [status_deleteArgument, removalStatus]
          split_ifs <;> decide
      | _ => exact refused
  | weights =>
      cases method with
      | get => exact ok _
      | put => exact status_withBody_mem fun body => ok _
      | _ => exact refused
  | scores =>
      cases method with
      | get => exact ok _
      | _ => exact refused

theorem answerBy_status_mem (service : Service Float) (request : Request) (method : Method) :
    (answerBy service request method).1.status ∈ statuses := by
  rw [answerBy]
  split
  next route _ => exact answerAt_status_mem service request route method
  next => simp [unknownPath, Response.plain, statuses]

/-- Every answer has one of the statuses. -/
theorem answer_status_mem (service : Service Float) (request : Request) :
    (answer service request).1.status ∈ statuses := by
  rw [answer]
  split
  next => simp [Response.plain, statuses]
  next =>
    simp only [Response.status_withoutBody]
    exact answerBy_status_mem service request .get
  next => exact answerBy_status_mem service request request.method

/-- Every response of a session has one of the statuses. -/
theorem serve_status_mem (service : Service Float) (requests : List Request) :
    ∀ response ∈ (serve service requests).1, response.status ∈ statuses := by
  induction requests generalizing service with
  | nil =>
      intro response none
      cases none
  | cons request later ih =>
      intro response given
      rcases List.mem_cons.1 given with rfl | given
      · exact answer_status_mem service request
      · exact ih (answer service request).2 response given

theorem lt_of_mem_statuses {status : Nat} (member : status ∈ statuses) : status < 500 := by
  have bounded : ∀ status ∈ statuses, status < 500 := by decide
  exact bounded status member

/-! ## Changes in a session -/

variable {solver : SolverConfig Float}

/-- In whatever state a session is, the status of a change is that of the tables: of a creation
with a body that can be read, and of an update with such a body and a removal for any segment
that stands for an id, other than the one with a resource of its own.  And whatever is sent in
whatever order, nothing is answered with the status of a fault of the server. -/
theorem change_status_decided (reachable : Reachable solver service) :
    (∀ request body, request.method = .post →
      Route.ofTarget? request.target = some .arguments →
        readBody ArgumentRequest.read request = .ok body →
          (answer service request).1.status = creationStatus service.graph body) ∧
    (∀ request segment id, Route.ofTarget? request.target = some (.argument segment) →
      percentDecode? segment = some id →
        (request.method = .put → ∀ body, readBody ArgumentRequest.read request = .ok body →
          (answer service request).1.status = updateStatus service.graph id body) ∧
        (request.method = .delete →
          (answer service request).1.status = removalStatus service.graph id)) ∧
    ∀ requests, ∀ response ∈ (serve service requests).1, response.status < 500 := by
  refine ⟨?creating, ?addressing, ?serving⟩
  case creating =>
    intro request body post target reads
    rw [answer_creating post target reads, status_createArgument]
  case addressing =>
    intro request segment id target decoded
    constructor
    · intro put body reads
      rw [answer_updating put target decoded reads,
        status_updateArgument reachable.service_reachable.graph_reachable]
    · intro delete
      rw [answer_deleting delete target decoded, status_deleteArgument]
  case serving =>
    intro requests response given
    exact lt_of_mem_statuses (serve_status_mem service requests response given)

/-- A session with the arguments `A` and `A1`.  A creation is refused for a blank label although
its id is taken, then for the id alone, and goes through without an id; an update of what is not
there is refused for that although its body is at fault as well, one that states another id is
refused, and one that states a blank id goes through; a removal goes through under an escaped
path. -/
theorem change_status_decided_of_two :
    let json (method : Method) (target body : String) : Request :=
      ⟨method, target, some "application/json", body⟩
    let start : Service Float := .new (CategoryConfig.empty.declare "eco" "Economic" "") .default
    let service := (answer (answer start
      (json .post "/arguments" "[\"A\",\"a\",\"eco\"]")).2
      (json .post "/arguments" "[null,\"b\",\"eco\",null,[\"A\"]]")).2
    let creating (body : String) := (answer service (json .post "/arguments" body)).1.status
    let updating (target body : String) := (answer service (json .put target body)).1.status
    let removing (target : String) := (answer service (json .delete target "")).1.status
    Reachable .default service ∧ service.graph.ids = ["A", "A1"] ∧
      (creating "[\" A\",\" \",\"eco\"]" = 422 ∧ creating "[\" A\",\"c\",\"eco\"]" = 409 ∧
        creating "[null,\"c\",\" eco\"]" = 201) ∧
      (updating "/arguments/a" "[\"A\",\"\",\"x\"]" = 404 ∧
        updating "/arguments/A" "[\"A1\",\"c\",\"eco\"]" = 422 ∧
          updating "/arguments/A" "[\" \",\"c\",\"eco\"]" = 200) ∧
      (removing "/arguments/%41" = 200 ∧ removing "/arguments/a" = 404) ∧
      ∀ requests, ∀ response ∈ (serve service requests).1, response.status < 500 := by
  intro json start service creating updating removing
  have reachable : Reachable .default service := .answer _ (.answer _ (.new _))
  obtain ⟨creation, change, safe⟩ := change_status_decided reachable
  let stated (id : Option String) (label category : String) : ArgumentRequest :=
    ⟨id, label, category, none, [], []⟩
  have collection : Route.ofTarget? "/arguments" = some .arguments := by decide +kernel
  have created {body : String} (request : ArgumentRequest)
      (reads : readBody ArgumentRequest.read (json .post "/arguments" body) = .ok request) :
      creating body = creationStatus service.graph request :=
    creation (json .post "/arguments" body) request rfl collection reads
  have updated {target body : String} (segment id : String) (request : ArgumentRequest)
      (route : Route.ofTarget? target = some (.argument segment))
      (decoded : percentDecode? segment = some id)
      (reads : readBody ArgumentRequest.read (json .put target body) = .ok request) :
      updating target body = updateStatus service.graph id request :=
    (change (json .put target body) segment id route decoded).1 rfl request reads
  have removed {target : String} (segment id : String)
      (route : Route.ofTarget? target = some (.argument segment))
      (decoded : percentDecode? segment = some id) :
      removing target = removalStatus service.graph id :=
    (change (json .delete target "") segment id route decoded).2 rfl
  refine ⟨reachable, by decide +kernel, ⟨?_, ?_, ?_⟩, ⟨?_, ?_, ?_⟩, ⟨?_, ?_⟩, safe⟩
  · rw [created (stated (some " A") " " "eco") (by cbv)]
    decide +kernel
  · rw [created (stated (some " A") "c" "eco") (by cbv)]
    decide +kernel
  · rw [created (stated none "c" " eco") (by cbv)]
    decide +kernel
  · rw [updated "a" "a" (stated (some "A") "" "x") (by decide +kernel) (by decide +kernel)
      (by cbv)]
    decide +kernel
  · rw [updated "A" "A" (stated (some "A1") "c" "eco") (by decide +kernel) (by decide +kernel)
      (by cbv)]
    decide +kernel
  · rw [updated "A" "A" (stated (some " ") "c" "eco") (by decide +kernel) (by decide +kernel)
      (by cbv)]
    decide +kernel
  · rw [removed "%41" "A" (by decide +kernel) (by decide +kernel)]
    decide +kernel
  · rw [removed "a" "a" (by decide +kernel) (by decide +kernel)]
    decide +kernel

end WeightedArgumentation.Http
