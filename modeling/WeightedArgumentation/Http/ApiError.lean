import WeightedArgumentation.Graph.Error
import WeightedArgumentation.Http.Message

/-!
# Errors of the API

An API error has a status, a code for programs and a message for people.  Each
error of a graph becomes one of them.
-/

namespace WeightedArgumentation.Http

/-- Why a request is answered with an error, with the message for people. -/
inductive ApiError
  | notFound (message : String)
  | badRequest (message : String)
  | validationFailed (message : String)
  | conflict (message : String)
  | internalError (message : String)
  deriving DecidableEq, Repr

namespace ApiError

/-- The status of the response. -/
def status : ApiError → Nat
  | .notFound _ => 404
  | .badRequest _ => 400
  | .validationFailed _ => 422
  | .conflict _ => 409
  | .internalError _ => 500

/-- The code for programs. -/
def code : ApiError → String
  | .notFound _ => "NOT_FOUND"
  | .badRequest _ => "BAD_REQUEST"
  | .validationFailed _ => "VALIDATION_FAILED"
  | .conflict _ => "CONFLICT"
  | .internalError _ => "INTERNAL_ERROR"

/-- The message for people. -/
def message : ApiError → String
  | .notFound message
  | .badRequest message
  | .validationFailed message
  | .conflict message
  | .internalError message => message

/-- The kind of the error in words. -/
def kind : ApiError → String
  | .notFound _ => "not found"
  | .badRequest _ => "bad request"
  | .validationFailed _ => "validation failed"
  | .conflict _ => "conflict"
  | .internalError _ => "internal error"

/-- The error as one line for a log. -/
def description (e : ApiError) : String := e.kind ++ ": " ++ e.message

/-- The API error of a graph error. -/
def ofGraphError (e : GraphError) : ApiError :=
  match e with
  | .invalid _ _ => .validationFailed e.message
  | .duplicate _ => .conflict e.message
  | .notFound _ => .notFound e.message
  | .inconsistent _ => .internalError e.message

/-- The response that reports an error. -/
def response (e : ApiError) : Response :=
  .json e.status (.object [
    ("error", .object [("code", .string e.code), ("message", .string e.message)]),
    ("success", .bool false)])

end ApiError

end WeightedArgumentation.Http
