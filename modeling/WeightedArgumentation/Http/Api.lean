import WeightedArgumentation.Graph.NextId
import WeightedArgumentation.Http.ApiError
import WeightedArgumentation.Http.Body
import WeightedArgumentation.Http.MediaType
import WeightedArgumentation.Http.Percent
import WeightedArgumentation.Http.Route

/-!
# The API

The server's answer to a request is a function of the service it holds: a
response, and the service afterwards.  A request that is refused leaves the
service as it was.

A handler looks first at the id in the path, then at the content type, then at
the length of the body, then at what the body says, and last at the graph.
-/

namespace WeightedArgumentation.Http

/-- A response and the service afterwards. -/
abbrev Answer := Response × Service Float

/-- The response to a path whose id is not UTF-8. -/
def invalidId : Response := .plain 400 "Invalid URL: Invalid UTF-8 in `id`"

/-- The response to a body that is not announced as JSON. -/
def unsupportedMedia : Response :=
  .plain 415 "Expected request with `Content-Type: application/json`"

/-- The largest number of bytes in a body that is read. -/
def bodyLimit : Nat := 2097152

/-- The response to a body with more bytes. -/
def bodyTooLong : Response := .plain 413 "Failed to buffer the request body"

/-- The response to a body that cannot be read. -/
def unreadableBody : Json.Failure → Response
  | .mismatch _ => .plain 422 "Failed to deserialize the JSON body into the target type"
  | _ => .plain 400 "Failed to parse the request body as JSON"

/-- The response to a method that a resource does not know. -/
def methodNotAllowed : Response := .plain 405 ""

/-- The response to a path without a resource. -/
def unknownPath : Response := .plain 404 ""

/-- The body of a request, or the response to one that cannot be read. -/
def readBody {α : Type} (reader : Json.Reader α) (request : Request) : Except Response α :=
  if request.contentType.any announcesJson then
    if request.body.utf8ByteSize ≤ bodyLimit then
      match Json.decode reader request.body with
      | .ok value => .ok value
      | .error failure => .error (unreadableBody failure)
    else .error bodyTooLong
  else .error unsupportedMedia

/-- Answers with a handler for the body of a request. -/
def withBody {α : Type} (reader : Json.Reader α) (request : Request) (service : Service Float)
    (handle : α → Answer) : Answer :=
  match readBody reader request with
  | .ok value => handle value
  | .error response => (response, service)

/-- Answers with a handler for the id in a path. -/
def withId (segment : String) (service : Service Float) (handle : String → Answer) : Answer :=
  match percentDecode? segment with
  | some id => handle id
  | none => (invalidId, service)

/-- The answer to a change: the new service, or the error that refused it. -/
def afterChange (service : Service Float) (result : Except GraphError (Service Float))
    (success : Service Float → Response) : Answer :=
  match result with
  | .ok changed => (success changed, changed)
  | .error e => ((ApiError.ofGraphError e).response, service)

/-- Replaces the graph by that of a document. -/
def loadGraph (service : Service Float) (document : Document Float) : Answer :=
  afterChange service (service.load document) fun changed => .json 200 changed.evaluation.toJson

/-- Creates an argument; one without an id gets the suggested one. -/
def createArgument (service : Service Float) (request : ArgumentRequest) : Answer :=
  let spec := request.toSpec service.graph.suggestId
  afterChange service (service.create spec) fun changed =>
    .json 201 (changeView (Text.trim spec.id) changed.evaluation)

/-- Shows an argument. -/
def showArgument (service : Service Float) (id : String) : Answer :=
  match service.argument? id with
  | some argument => (.json 200 (argumentView argument (service.score? id)), service)
  | none => ((ApiError.ofGraphError (.notFound id)).response, service)

/-- Updates an argument; one without an id keeps its own. -/
def updateArgument (service : Service Float) (id : String) (request : ArgumentRequest) : Answer :=
  afterChange service (service.update id (request.toSpec id)) fun changed =>
    .json 200 (changeView id changed.evaluation)

/-- Removes an argument. -/
def deleteArgument (service : Service Float) (id : String) : Answer :=
  afterChange service (service.remove id) fun changed =>
    .json 200 (changeView id changed.evaluation)

/-- Moves the importance slider. -/
def setWeights (service : Service Float) (request : SliderRequest) : Answer :=
  let changed := service.setSlider request.slider
  (.json 200 (weightsChangeView changed), changed)

/-- Evaluates the graph again and shows the evaluation. -/
def showScores (service : Service Float) : Answer :=
  let changed := service.recompute
  (.json 200 changed.evaluation.toJson, changed)

/-- The answer of a resource to a request, with `GET` for `HEAD`. -/
def answerAt (service : Service Float) (request : Request) (route : Route) (method : Method) :
    Answer :=
  match route, method with
  | .graph, .get => (.json 200 service.exportDocument.toJson, service)
  | .graph, .put => withBody Document.read request service (loadGraph service)
  | .arguments, .post => withBody ArgumentRequest.read request service (createArgument service)
  | .nextId, .get => (.json 200 (idView service.graph.suggestId), service)
  | .argument segment, .get => withId segment service (showArgument service)
  | .argument segment, .put =>
      withId segment service fun id =>
        withBody ArgumentRequest.read request service (updateArgument service id)
  | .argument segment, .delete => withId segment service (deleteArgument service)
  | .weights, .get => (.json 200 (weightsView service), service)
  | .weights, .put => withBody SliderRequest.read request service (setWeights service)
  | .scores, .get => showScores service
  | _, _ => (methodNotAllowed, service)

/-- The answer of the resource at a request's target. -/
def answerBy (service : Service Float) (request : Request) (method : Method) : Answer :=
  match Route.ofTarget? request.target with
  | some route => answerAt service request route method
  | none => (unknownPath, service)

/-- The answer to a request.  `OPTIONS` is allowed everywhere, and `HEAD` is
answered like `GET`, without the body. -/
def answer (service : Service Float) (request : Request) : Answer :=
  match request.method with
  | .options => (.plain 200 "", service)
  | .head =>
      let (response, service) := answerBy service request .get
      (response.withoutBody, service)
  | method => answerBy service request method

end WeightedArgumentation.Http
