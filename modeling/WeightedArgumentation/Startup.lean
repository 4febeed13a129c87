import WeightedArgumentation.Decimal.Setting
import WeightedArgumentation.Document.Codec
import WeightedArgumentation.File.Fault
import WeightedArgumentation.Service

/-!
# Starting the server

The server takes its settings from variables of its environment: the port, the
document to start with, and when the solver stops.  A variable that is not set
leaves the setting at its default.  The service starts with the graph of the
document, or with an empty graph over no categories.
-/

namespace WeightedArgumentation

/-- The settings of a server. -/
structure ServerSettings where
  port : Nat
  document : Option String
  solver : SolverConfig Float

/-- Why a server cannot start. -/
inductive StartupError where
  | invalidVariable (name value : String)
  | unreadable (path : String) (fault : FileFault)
  | notDocument (failure : Json.Failure)
  | invalidGraph (e : GraphError)

/-- The words for a text that is not JSON of the wanted type. -/
def Json.Failure.words : Json.Failure → String
  | .malformed => "the text is not JSON"
  | .unfinished => "the text ends too early"
  | .mismatch misfit => misfit.message

/-- The message of an error. -/
def StartupError.message : StartupError → String
  | .invalidVariable name value => "invalid value for " ++ name ++ ": '" ++ value ++ "'"
  | .unreadable path fault => "failed to read snapshot " ++ path ++ ": " ++ fault.message
  | .notDocument failure => "invalid snapshot: serialization error: " ++ failure.words
  | .invalidGraph e => "invalid snapshot: " ++ e.message

namespace ServerSettings

/-- The variable of the port. -/
def portVariable : String := "ARGWEIGH_PORT"

/-- The variable of the document's path. -/
def documentVariable : String := "ARGWEIGH_SNAPSHOT"

/-- The variable of the cap on passes. -/
def maxIterationsVariable : String := "ARGWEIGH_MAX_ITERATIONS"

/-- The variable of the tolerance. -/
def toleranceVariable : String := "ARGWEIGH_TOLERANCE"

/-- The value of a variable, read without the blanks around it, or a default if
it is not set. -/
def setting {α : Type} (lookup : String → Option String) (name : String)
    (parse : String → Option α) (absent : α) : Except StartupError α :=
  match lookup name with
  | none => .ok absent
  | some value =>
      match parse (Text.trim value) with
      | some parsed => .ok parsed
      | none => .error (.invalidVariable name value)

/-- The settings that variables describe.  A blank path is no path. -/
def ofVariables (lookup : String → Option String) : Except StartupError ServerSettings := do
  let port ← setting lookup portVariable (Decimal.naturalSetting? (UInt16.size - 1)) 3000
  let document := (lookup documentVariable).filter fun path => Text.trim path ≠ ""
  let standard : SolverConfig Float := .default
  let maxIterations ← setting lookup maxIterationsVariable
    (Decimal.naturalSetting? (UInt64.size - 1)) standard.maxIterations
  let tolerance ← setting lookup toleranceVariable Decimal.floatSetting? standard.tolerance
  return {
    port := port
    document := document
    solver := { standard with maxIterations := maxIterations, tolerance := tolerance } }

/-- The service to start with. -/
def service (settings : ServerSettings) (read : String → Except FileFault String) :
    Except StartupError (Service Float) :=
  match settings.document with
  | none => .ok (.new .empty settings.solver)
  | some path =>
      match read path with
      | .error fault => .error (.unreadable path fault)
      | .ok source =>
          match Document.ofText source with
          | .error failure => .error (.notDocument failure)
          | .ok document =>
              match Service.ofDocument document settings.solver with
              | .error e => .error (.invalidGraph e)
              | .ok service => .ok service

end ServerSettings

end WeightedArgumentation
