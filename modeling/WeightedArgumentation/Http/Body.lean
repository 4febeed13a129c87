import WeightedArgumentation.Document.Codec
import WeightedArgumentation.Service
import WeightedArgumentation.Weights.Caption

/-!
# Bodies of requests and responses

What clients send and what they get, as JSON.
-/

namespace WeightedArgumentation.Http

open Json (Reader Record Value)

/-- What a client states about an argument.  The id may be left out. -/
structure ArgumentRequest where
  id : Option String
  label : String
  category : String
  description : Option String
  attacks : List String
  attackedBy : List String
  deriving DecidableEq, Repr

namespace ArgumentRequest

/-- The specification that a request makes, with an id for one that has none. -/
def toSpec (request : ArgumentRequest) (fallback : String) : ArgumentSpec where
  id := request.id.getD fallback
  label := request.label
  category := request.category
  description := request.description
  attacks := request.attacks
  attackedBy := request.attackedBy

/-- The fields of an argument request. -/
def recordFields : Record ArgumentRequest :=
  Record.pure ArgumentRequest.mk
    |>.optional "id" (Json.nullable Json.text) none
    |>.required "label" Json.text
    |>.required "category" Json.text
    |>.optional "description" (Json.nullable Json.text) none
    |>.optional "attacks" (Json.listOf Json.text) []
    |>.optional "attackedBy" (Json.listOf Json.text) []

/-- Reads an argument request. -/
def read : Reader ArgumentRequest := Json.record "ArgumentRequest" recordFields

end ArgumentRequest

/-- A slider position that a client asks for. -/
structure SliderRequest where
  slider : Float

/-- Reads a slider request. -/
def SliderRequest.read : Reader SliderRequest :=
  Json.record "SetWeightsRequest" (Record.pure SliderRequest.mk |>.required "slider" Json.real)

/-- A number, or null when there is none. -/
def numberOrNull : Option Float → Value
  | some x => .ofFloat x
  | none => .null

/-- An argument with its score. -/
def argumentView (argument : Argument) (score : Option Float) : Value :=
  .object ([("id", .string argument.id), ("label", .string argument.label),
      ("category", .string argument.category)] ++
    Json.optionalMember "description" (argument.description.map .string) ++
    [("score", numberOrNull score), ("attacks", .ofTexts argument.attacks.toList),
      ("attackedBy", .ofTexts argument.attackedBy.toList)])

/-- The id that a change affected and the evaluation after it. -/
def changeView (id : String) (evaluation : Evaluation Float) : Value :=
  .object [("id", .string id), ("evaluation", evaluation.toJson)]

/-- A suggested id. -/
def idView (id : String) : Value := .object [("id", .string id)]

/-- The members that describe the slider and its weight table. -/
def weightMembers (slider : Slider Float) (weights : WeightTable Float) : List (String × Value) :=
  [("slider", slider.toJson), ("label", .string slider.caption), ("weights", weights.toJson)]

/-- The slider and its weight table. -/
def weightsView (service : Service Float) : Value :=
  .object (weightMembers service.slider service.weights)

/-- The slider, its weight table and the evaluation. -/
def weightsChangeView (service : Service Float) : Value :=
  .object (weightMembers service.slider service.weights ++
    [("evaluation", service.evaluation.toJson)])

end WeightedArgumentation.Http
