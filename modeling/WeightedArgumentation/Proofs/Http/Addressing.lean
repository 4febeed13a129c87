import WeightedArgumentation.Proofs.Graph.WellFormed
import WeightedArgumentation.Proofs.Http.Percent
import WeightedArgumentation.Proofs.Http.SuggestedId

/-!
# Arguments by their path

An id may be any text with something in it and no blanks around it, and may thus hold
slashes, percent signs and whatever else a path uses for itself.  Percent-encoded it is one
segment of a path, from which the id is read back, so that the path of an argument is never
taken for another resource or another argument.

There is one exception.  The id `next-id` has nothing to encode, and its path is that of the
suggested id.  An argument of this id is still found when a character that could stand for
itself is escaped.
-/

namespace WeightedArgumentation

/-- A specification that states the id of an argument anew and has no fault restates the
argument. -/
theorem Graph.update_of_id_eq {g : Graph} {spec : ArgumentSpec} {id : String}
    (named : spec.normalized.id = id) (stored : id ∈ g.ids)
    (faultless : spec.normalized.fault? g.categories = none) :
    g.update id spec = .ok (g.restate spec.normalized) := by
  subst named
  exact update_eq_ok_iff.2 ⟨stored, .inr rfl, faultless, rfl⟩

namespace Http

/-! ## Routes -/

theorem after?_append (beginning rest : List Char) :
    after? beginning (beginning ++ rest) = some rest := by
  induction beginning with
  | nil => rfl
  | cons c beginning ih => rw [List.cons_append, after?, if_pos rfl, ih]

/-- A target that starts with a slash and nowhere ends a path is itself the path. -/
theorem pathOf_slash {rest : List Char} (unended : ∀ c ∈ rest, endsPath c = false) :
    pathOf (String.ofList ('/' :: rest)) = '/' :: rest := by
  have whole : ('/' :: rest).takeWhile (!endsPath ·) = '/' :: rest := by
    rw [List.takeWhile_eq_self_iff]
    intro c member
    rcases List.mem_cons.1 member with rfl | member
    · rfl
    · simp [unended c member]
  rw [pathOf, String.toList_ofList, afterHost?_slash]
  exact whole

/-- A segment behind `/arguments/` is the route of an argument, unless it is the one that has a
resource of its own. -/
theorem Route.ofTarget?_arguments {segment : List Char}
    (inside : ∀ c ∈ segment, staysInSegment c = true) (nonempty : segment ≠ [])
    (unshadowed : segment ≠ "next-id".toList) :
    ofTarget? (String.ofList ("/arguments/".toList ++ segment)) =
      some (.argument (String.ofList segment)) := by
  have noSlash : '/' ∉ segment := by
    intro member
    cases inside '/' member
  have unended : ∀ c ∈ "arguments/".toList ++ segment, endsPath c = false := by
    intro c member
    rcases List.mem_append.1 member with fixed | free
    · have fixedUnended : "arguments/".toList.all (!endsPath ·) = true := by decide +kernel
      simpa using List.all_eq_true.1 fixedUnended c fixed
    · have stays := inside c free
      simp only [staysInSegment, Bool.and_eq_true, Bool.not_eq_true'] at stays
      exact stays.2
  have path : pathOf (String.ofList ("/arguments/".toList ++ segment)) =
      "/arguments/".toList ++ segment := pathOf_slash unended
  have behind : (after? "/arguments/".toList ("/arguments/".toList ++ segment)).bind ofSegment? =
      some (.argument (String.ofList segment)) := by
    rw [after?_append, Option.bind_some, ofSegment?, if_neg, if_neg unshadowed]
    simp [nonempty, noSlash]
  simp only [ofTarget?, path, behind]
  simp

/-- The path of a percent-encoded id is the route of an argument. -/
theorem Route.ofTarget?_percentEncode {id : String} (nonempty : id ≠ "")
    (unshadowed : id ≠ "next-id") :
    ofTarget? ("/arguments/" ++ percentEncode id) = some (.argument (percentEncode id)) := by
  have target : "/arguments/" ++ percentEncode id =
      String.ofList ("/arguments/".toList ++ (percentEncode id).toList) := by
    rw [String.ofList_append, String.ofList_toList, String.ofList_toList]
  rw [target, ofTarget?_arguments, String.ofList_toList]
  · intro c member
    exact staysInSegment_of_mem_percentEncode member
  · intro empty
    apply nonempty
    apply percentEncode_injective
    rw [String.toList_eq_nil_iff] at empty
    rw [empty]
    rfl
  · intro shadowed
    apply unshadowed
    apply percentEncode_injective
    rw [String.toList_inj] at shadowed
    rw [shadowed]
    decide +kernel

/-! ## What requests for an argument do -/

/-- A body without an id whose label and category are accepted. -/
structure ArgumentRequest.FitsUnnamed (body : ArgumentRequest) (categories : CategoryConfig) :
    Prop where
  unnamed : body.id = none
  label : Text.trim body.label ≠ ""
  category : Text.trim body.category ≠ ""
  configured : categories.isEmpty = true ∨ Text.trim body.category ∈ categories.keys

/-- Requests for a target act on the argument of an id and on no other: `GET` shows it, `PUT`
with an accepted body that has no id replaces its record and its attacks by those of the body,
and `DELETE` takes it out. -/
structure ActsOn (service : Service Float) (target id : String) : Prop where
  get : ∀ request : Request, request.method = .get → request.target = target →
    ∃ argument, service.argument? id = some argument ∧
      answer service request = (.json 200 (argumentView argument (service.score? id)), service)
  put : ∀ (request : Request) (body : ArgumentRequest), request.method = .put →
    request.target = target → readBody ArgumentRequest.read request = .ok body →
      body.FitsUnnamed service.graph.categories →
        ∃ g : Graph, g.store = service.graph.store.update id (body.toSpec id).normalized ∧
          answer service request =
            (.json 200 (changeView id (service.withGraph g).evaluation), service.withGraph g)
  delete : ∀ request : Request, request.method = .delete → request.target = target →
    ∃ g : Graph, g.store = service.graph.store.remove id ∧
      answer service request =
        (.json 200 (changeView id (service.withGraph g).evaluation), service.withGraph g)

variable {service : Service Float} {request : Request} {segment id : String}

theorem answer_showing (get : request.method = .get)
    (target : Route.ofTarget? request.target = some (.argument segment))
    (decoded : percentDecode? segment = some id) {argument : Argument}
    (found : service.argument? id = some argument) :
    answer service request = (.json 200 (argumentView argument (service.score? id)), service) := by
  rw [answer_eq_answerAt target (by simp [get]) (by simp [get]), get, answerAt, withId, decoded]
  dsimp only
  rw [showArgument, found]

theorem answer_updating (put : request.method = .put)
    (target : Route.ofTarget? request.target = some (.argument segment))
    (decoded : percentDecode? segment = some id) {body : ArgumentRequest}
    (reads : readBody ArgumentRequest.read request = .ok body) :
    answer service request = updateArgument service id body := by
  rw [answer_eq_answerAt target (by simp [put]) (by simp [put]), put, answerAt, withId, decoded]
  dsimp only
  rw [withBody, reads]

theorem answer_deleting (delete : request.method = .delete)
    (target : Route.ofTarget? request.target = some (.argument segment))
    (decoded : percentDecode? segment = some id) :
    answer service request = deleteArgument service id := by
  rw [answer_eq_answerAt target (by simp [delete]) (by simp [delete]), delete, answerAt, withId,
    decoded]

/-- The argument of a stored id is acted on by every target whose route has a segment that
stands for the id. -/
theorem actsOn_of_route {target : String} (reachable : service.graph.Reachable)
    (route : Route.ofTarget? target = some (.argument segment))
    (decoded : percentDecode? segment = some id) (stored : id ∈ service.graph.ids) :
    ActsOn service target id := by
  obtain ⟨argument, member, rfl⟩ := List.mem_map.1 stored
  have found : service.graph.get? argument.id = some argument :=
    Graph.get?_eq_some_iff.2 ⟨member, rfl⟩
  have proper : Text.Proper argument.id := (reachable.toSpec_wellFormed member).record.id
  constructor
  case get =>
    rintro request get rfl
    exact ⟨argument, found, answer_showing get route decoded found⟩
  case put =>
    rintro request body put rfl reads fits
    have named : (body.toSpec argument.id).normalized.id = argument.id := by
      rw [ArgumentRequest.toSpec, ArgumentSpec.normalized, fits.unnamed, Option.getD_none,
        proper.trim_eq]
    have updated : service.graph.update argument.id (body.toSpec argument.id) =
        .ok (service.graph.restate (body.toSpec argument.id).normalized) := by
      apply Graph.update_of_id_eq named stored
      exact ArgumentSpec.fault?_eq_none_iff.2
        ⟨named.symm ▸ proper.nonempty, fits.label, fits.category, fits.configured⟩
    refine ⟨service.graph.restate (body.toSpec argument.id).normalized, ?_, ?_⟩
    · rw [Graph.store_restate (named.symm ▸ stored), named]
    · rw [answer_updating put route decoded reads, updateArgument, Service.update, updated]
      rfl
  case delete =>
    rintro request delete rfl
    have removed : service.graph.remove argument.id =
        .ok (argument, service.graph.discard argument.id) :=
      Graph.remove_eq_ok_iff.2 ⟨found, rfl⟩
    refine ⟨service.graph.discard argument.id, Graph.store_discard, ?_⟩
    rw [answer_deleting delete route decoded, deleteArgument, Service.remove, removed]
    rfl

/-! ## The path of the suggested id -/

theorem Route.ofTarget?_next_id :
    ofTarget? ("/arguments/" ++ percentEncode "next-id") = some .nextId := by
  decide +kernel

/-- The suggested id can only be asked for. -/
theorem answer_nextId_refusing (target : Route.ofTarget? request.target = some .nextId)
    (changing : request.method = .put ∨ request.method = .delete) :
    answer service request = (methodNotAllowed, service) := by
  rcases changing with put | delete
  · rw [answer_eq_answerAt target (by simp [put]) (by simp [put]), put]
    rfl
  · rw [answer_eq_answerAt target (by simp [delete]) (by simp [delete]), delete]
    rfl

/-- Requests for a target are about the suggested id, whatever the ids of the arguments are:
`GET` shows it, and neither `PUT` nor `DELETE` is allowed. -/
structure Suggests (service : Service Float) (target : String) : Prop where
  get : ∀ request : Request, request.method = .get → request.target = target →
    answer service request = (.json 200 (idView service.graph.suggestId), service)
  put : ∀ request : Request, request.method = .put → request.target = target →
    answer service request = (.plain 405 "", service)
  delete : ∀ request : Request, request.method = .delete → request.target = target →
    answer service request = (.plain 405 "", service)

/-- In every state the path of `next-id` is about the suggested id. -/
theorem suggests_next_id (service : Service Float) :
    Suggests service ("/arguments/" ++ percentEncode "next-id") := by
  constructor
  case get =>
    intro request get target
    exact answer_nextId get (target ▸ Route.ofTarget?_next_id) service
  case put =>
    intro request put target
    exact answer_nextId_refusing (target ▸ Route.ofTarget?_next_id) (.inl put)
  case delete =>
    intro request delete target
    exact answer_nextId_refusing (target ▸ Route.ofTarget?_next_id) (.inr delete)

/-! ## Stored arguments -/

variable {solver : SolverConfig Float}

/-- In whatever state a session is, the path of the percent-encoded id of an argument acts on
that argument, whatever the id is but `next-id`; and on an argument with this id the path acts
in which the hyphen is escaped as well.  The path of `next-id` itself is that of the suggested
id, in every state of every service. -/
theorem stored_argument_addressable (reachable : Reachable solver service)
    (stored : id ∈ service.graph.ids) :
    (id ≠ "next-id" → ActsOn service ("/arguments/" ++ percentEncode id) id) ∧
      (id = "next-id" → ActsOn service "/arguments/next%2Did" id) ∧
      ∀ other : Service Float, Suggests other ("/arguments/" ++ percentEncode "next-id") := by
  have graph := reachable.service_reachable.graph_reachable
  refine ⟨?unshadowed, ?shadowed, suggests_next_id⟩
  case unshadowed =>
    intro unshadowed
    have nonempty : id ≠ "" := by
      obtain ⟨argument, member, rfl⟩ := List.mem_map.1 stored
      exact (graph.toSpec_wellFormed member).record.id.nonempty
    exact actsOn_of_route graph (Route.ofTarget?_percentEncode nonempty unshadowed)
      (percentDecode?_percentEncode id) stored
  case shadowed =>
    rintro rfl
    have route : Route.ofTarget? "/arguments/next%2Did" = some (.argument "next%2Did") := by
      decide +kernel
    exact actsOn_of_route graph route (by decide +kernel) stored

/-- Two arguments, one of them with an id that holds a slash, an escape, a question mark, a
blank and a letter of several bytes, the other with the id `next-id`.  The first is updated to
attack the second and itself, and the path of the second shows what is suggested next. -/
theorem stored_argument_addressable_of_reserved :
    let json (method : Method) (target body : String) : Request :=
      ⟨method, target, some "application/json", body⟩
    let start : Service Float := .new (CategoryConfig.empty.declare "eco" "Economic" "") .default
    let service := (answer (answer start
      (json .post "/arguments" "[\"a/%2F? \u00e9\",\"a\",\"eco\"]")).2
      (json .post "/arguments" "[\" next-id\",\"b\",\"eco\",null,[\"a/%2F? \u00e9\"]]")).2
    let target := "/arguments/" ++ percentEncode "a/%2F? é"
    let updating := json .put target
      "[null,\" c\",\"eco\",null,[\"next-id\",\"a/%2F? \u00e9\"],[\"next-id\"]]"
    let stated : ArgumentSpec :=
      ⟨"a/%2F? é", "c", "eco", none, ["next-id", "a/%2F? é"], ["next-id"]⟩
    Reachable .default service ∧ service.graph.ids = ["a/%2F? é", "next-id"] ∧
      target = "/arguments/a%2F%252F%3F%20%C3%A9" ∧
      ActsOn service target "a/%2F? é" ∧
      (∃ g : Graph, g.store = service.graph.store.update "a/%2F? é" stated ∧
        answer service updating =
          (.json 200 (changeView "a/%2F? é" (service.withGraph g).evaluation),
            service.withGraph g)) ∧
      ActsOn service "/arguments/next%2Did" "next-id" ∧
      (answer service (json .get "/arguments/next-id" "")).1 = .json 200 (idView "A3") := by
  intro json start service target updating stated
  have reachable : Reachable .default service := .answer _ (.answer _ (.new _))
  have ids : service.graph.ids = ["a/%2F? é", "next-id"] := by decide +kernel
  have first : "a/%2F? é" ∈ service.graph.ids := ids ▸ by decide
  have second : "next-id" ∈ service.graph.ids := ids ▸ by decide
  have acts : ActsOn service target "a/%2F? é" :=
    (stored_argument_addressable reachable first).1 (by decide)
  let body : ArgumentRequest := ⟨none, " c", "eco", none, ["next-id", "a/%2F? é"], ["next-id"]⟩
  have fits : body.FitsUnnamed service.graph.categories :=
    ⟨rfl, by decide +kernel, by decide +kernel, .inr (by decide +kernel)⟩
  have normalized : (body.toSpec "a/%2F? é").normalized = stated := by decide +kernel
  have reads : readBody ArgumentRequest.read updating = .ok body := by cbv
  obtain ⟨g, stores, answered⟩ := acts.put updating body rfl rfl reads fits
  obtain ⟨_, escaped, suggests⟩ := stored_argument_addressable reachable second
  have suggested : service.graph.suggestId = "A3" := by decide +kernel
  have shown := (suggests service).get (json .get "/arguments/next-id" "") rfl (by decide +kernel)
  rw [suggested] at shown
  exact ⟨reachable, ids, by decide +kernel, acts, ⟨g, normalized ▸ stores, answered⟩,
    escaped rfl, congrArg Prod.fst shown⟩

/-! ## The exception -/

/-- In no state does the path of `next-id` act on an argument of this id. -/
theorem not_actsOn_next_id (service : Service Float) :
    ¬ ActsOn service ("/arguments/" ++ percentEncode "next-id") "next-id" := by
  intro acts
  obtain ⟨g, _, removed⟩ := acts.delete ⟨.delete, _, none, ""⟩ rfl rfl
  rw [(suggests_next_id service).delete _ rfl rfl] at removed
  have status : 405 = 200 := congrArg (·.1.status) removed
  cases status

/-- An argument may have the id `next-id`, but its path shows the suggested id and knows
neither `PUT` nor `DELETE`. -/
theorem next_id_not_addressable :
    let json (method : Method) (target body : String) : Request :=
      ⟨method, target, some "application/json", body⟩
    let start : Service Float := .new (CategoryConfig.empty.declare "eco" "Economic" "") .default
    let service := (answer start
      (json .post "/arguments" "[\"next-id\",\"a\",\"eco\"]")).2
    let target := "/arguments/" ++ percentEncode "next-id"
    Reachable .default service ∧ "next-id" ∈ service.graph.ids ∧
      (answer service (json .get target "")).1 = .json 200 (idView "A1") ∧
      (answer service (json .put target "[null,\"b\",\"eco\"]")).1.status = 405 ∧
      (answer service (json .delete target "")).1.status = 405 ∧
      ¬ ActsOn service target "next-id" := by
  intro json start service target
  have reachable : Reachable .default service := .answer _ (.new _)
  have suggested : service.graph.suggestId = "A1" := by decide +kernel
  have shown := (suggests_next_id service).get (json .get target "") rfl rfl
  rw [suggested] at shown
  exact ⟨reachable, by decide +kernel, congrArg Prod.fst shown, by decide +kernel,
    by decide +kernel, not_actsOn_next_id service⟩

end Http

end WeightedArgumentation
