import WeightedArgumentation.Graph.Snapshot
import WeightedArgumentation.Json.Decode

/-!
# Graphs as JSON

How specifications, arguments, attacks, snapshots and categories are read from
JSON and written as JSON.
-/

namespace WeightedArgumentation

open Json (Reader Record Value)

/-- A member that is left out when there is no value. -/
def Json.optionalMember (name : String) : Option Value → List (String × Value)
  | none => []
  | some value => [(name, value)]

/-- A text, or null. -/
def Json.textOrNull : Option String → Value
  | none => .null
  | some text => .string text

namespace ArgumentSpec

/-- The fields of a specification. -/
def recordFields : Record ArgumentSpec :=
  Record.pure ArgumentSpec.mk
    |>.required "id" Json.text
    |>.required "label" Json.text
    |>.required "category" Json.text
    |>.optional "description" (Json.nullable Json.text) none
    |>.optional "attacks" (Json.listOf Json.text) []
    |>.optional "attacked_by" (Json.listOf Json.text) []

/-- Reads a specification. -/
def read : Reader ArgumentSpec := Json.record "NodeSpec" recordFields

/-- A specification as JSON; a missing description is left out. -/
def toJson (spec : ArgumentSpec) : Value :=
  .object ([("id", .string spec.id), ("label", .string spec.label),
      ("category", .string spec.category)] ++
    Json.optionalMember "description" (spec.description.map .string) ++
    [("attacks", .ofTexts spec.attacks), ("attacked_by", .ofTexts spec.attackedBy)])

end ArgumentSpec

namespace Argument

/-- Reads a set of ids from a list. -/
def readIds : Reader (SortedSet String) := fun reading =>
  (Json.listOf Json.text reading).map SortedSet.ofList

/-- The fields of an argument. -/
def recordFields : Record Argument :=
  Record.pure Argument.mk
    |>.required "id" Json.text
    |>.required "label" Json.text
    |>.required "category" Json.text
    |>.namedOptional "description" (Json.nullable Json.text) none
    |>.required "attacks" readIds
    |>.required "attacked_by" readIds

/-- Reads an argument. -/
def read : Reader Argument := Json.record "ArgumentNode" recordFields

/-- An argument as JSON; a missing description is null. -/
def toJson (argument : Argument) : Value :=
  .object [("id", .string argument.id), ("label", .string argument.label),
    ("category", .string argument.category),
    ("description", Json.textOrNull argument.description),
    ("attacks", .ofTexts argument.attacks.toList),
    ("attacked_by", .ofTexts argument.attackedBy.toList)]

end Argument

namespace Attack

/-- The fields of an attack. -/
def recordFields : Record Attack :=
  Record.pure Attack.mk
    |>.required "source" Json.text
    |>.required "target" Json.text

/-- Reads an attack. -/
def read : Reader Attack := Json.record "AttackEdge" recordFields

/-- An attack as JSON. -/
def toJson (attack : Attack) : Value :=
  .object [("source", .string attack.source), ("target", .string attack.target)]

end Attack

namespace GraphSnapshot

/-- The fields of a snapshot. -/
def recordFields : Record GraphSnapshot :=
  Record.pure GraphSnapshot.mk
    |>.required "nodes" (Json.listOf Argument.read)
    |>.required "edges" (Json.listOf Attack.read)

/-- Reads a snapshot. -/
def read : Reader GraphSnapshot := Json.record "GraphSnapshot" recordFields

/-- A snapshot as JSON. -/
def toJson (snapshot : GraphSnapshot) : Value :=
  .object [("nodes", .array (snapshot.nodes.map Argument.toJson)),
    ("edges", .array (snapshot.edges.map Attack.toJson))]

end GraphSnapshot

namespace Category

/-- The fields of a category. -/
def recordFields : Record Category :=
  Record.pure Category.mk
    |>.required "label" Json.text
    |>.required "color" Json.text

/-- Reads a category. -/
def read : Reader Category := Json.record "CategoryDef" recordFields

/-- A category as JSON. -/
def toJson (category : Category) : Value :=
  .object [("label", .string category.label), ("color", .string category.color)]

end Category

namespace CategoryConfig

/-- Reads a configuration of categories. -/
def read : Reader CategoryConfig := fun reading =>
  (Json.tableOf Category.read reading).map CategoryConfig.mk

/-- A configuration of categories as JSON. -/
def toJson (config : CategoryConfig) : Value :=
  .object (config.table.rows.map fun row => (row.1, row.2.toJson))

end CategoryConfig

end WeightedArgumentation
