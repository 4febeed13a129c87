import WeightedArgumentation.Document.Basic
import WeightedArgumentation.Graph.Codec
import WeightedArgumentation.Semantics.Codec

/-!
# Documents as JSON

How documents are read from JSON and written as JSON.  Every member of a
document may be left out; a missing or null score, description or global score
is absent, and absent ones are not written.
-/

namespace WeightedArgumentation

open Json (Reader Record Value)

/-- A table of texts as JSON. -/
def Json.ofTextTable (texts : Table String) : Value :=
  .object (texts.rows.map fun row => (row.1, .string row.2))

namespace DocumentNode

/-- The fields of a node. -/
def recordFields : Record (DocumentNode Float) :=
  Record.pure DocumentNode.mk
    |>.required "id" Json.text
    |>.required "label" Json.text
    |>.required "cat" Json.text
    |>.optional "score" (Json.nullable Json.real) none
    |>.optional "desc" (Json.nullable Json.text) none
    |>.optional "attacks" (Json.listOf Json.text) []
    |>.optional "attackedBy" (Json.listOf Json.text) []

/-- Reads a node. -/
def read : Reader (DocumentNode Float) := Json.record "SnapshotNode" recordFields

/-- A node as JSON. -/
def toJson (node : DocumentNode Float) : Value :=
  .object ([("id", .string node.id), ("label", .string node.label),
      ("cat", .string node.category)] ++
    Json.optionalNumber "score" node.score ++
    Json.optionalMember "desc" (node.description.map .string) ++
    [("attacks", .ofTexts node.attacks), ("attackedBy", .ofTexts node.attackedBy)])

end DocumentNode

namespace Document

/-- The fields of a document. -/
def recordFields : Record (Document Float) :=
  Record.pure Document.mk
    |>.optional "colors" (Json.tableOf Json.text) .empty
    |>.optional "cats" (Json.tableOf Json.text) .empty
    |>.optional "globalScores" (Json.nullable GlobalScores.read) none
    |>.optional "nodes" (Json.listOf DocumentNode.read) []

/-- Reads a document. -/
def read : Reader (Document Float) := Json.record "SnapshotDocument" recordFields

/-- A document as JSON. -/
def toJson (document : Document Float) : Value :=
  .object ([("colors", Json.ofTextTable document.colors),
      ("cats", Json.ofTextTable document.labels)] ++
    Json.optionalMember "globalScores" (document.globalScores.map GlobalScores.toJson) ++
    [("nodes", .array (document.nodes.map DocumentNode.toJson))])

/-- The document that a text holds. -/
def ofText (source : String) : Except Json.Failure (Document Float) := Json.decode read source

/-- The text of a document, over several lines. -/
def toText (document : Document Float) : String := document.toJson.pretty

end Document

end WeightedArgumentation
