import WeightedArgumentation.Json.Value

/-!
# Requests and responses

A request is a method, a target, an optional content type and a body.  Only bodies
in UTF-8 are modelled, so that a body is a text.  A response is a status and, unless
it was asked for with `HEAD`, a JSON value or a plain text.
-/

namespace WeightedArgumentation.Http

/-- The methods that are told apart. -/
inductive Method
  | get
  | head
  | post
  | put
  | delete
  | options
  | other (name : String)
  deriving DecidableEq, Repr

/-- The method of a name. -/
def Method.ofName : String → Method
  | "GET" => .get
  | "HEAD" => .head
  | "POST" => .post
  | "PUT" => .put
  | "DELETE" => .delete
  | "OPTIONS" => .options
  | name => .other name

/-- What is asked of the server.  The body is the text that its bytes are in UTF-8. -/
structure Request where
  method : Method
  target : String
  contentType : Option String
  body : String

/-- What a response carries. -/
inductive Content where
  | json (value : Json.Value)
  | text (text : String)
  | withheld

/-- What the server answers. -/
structure Response where
  status : Nat
  content : Content

namespace Response

/-- A response with a JSON body. -/
def json (status : Nat) (value : Json.Value) : Response := ⟨status, .json value⟩

/-- A response with a plain text. -/
def plain (status : Nat) (text : String) : Response := ⟨status, .text text⟩

/-- The response to the same request without its body. -/
def withoutBody (response : Response) : Response :=
  match response.content with
  | .text _ => { response with content := .text "" }
  | _ => { response with content := .withheld }

end Response

end WeightedArgumentation.Http
