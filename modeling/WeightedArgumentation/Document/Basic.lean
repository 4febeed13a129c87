import WeightedArgumentation.Graph.Edit
import WeightedArgumentation.Semantics.Aggregate

/-!
# Documents

A document holds a graph and its scores for storage and exchange: the labels
and colours of the categories, the scores of the whole graph, and a node for
each argument.  Building a graph ignores the scores.  Exporting a graph takes
each node's relation lists from the attack relation of the whole graph, so an
exported document states every attack from both of its ends.
-/

namespace WeightedArgumentation

universe u

/-- An argument in a document. -/
structure DocumentNode (R : Type u) where
  id : String
  label : String
  category : String
  score : Option R
  description : Option String
  attacks : List String
  attackedBy : List String

/-- A graph with its scores. -/
structure Document (R : Type u) where
  colors : Table String
  labels : Table String
  globalScores : Option (GlobalScores R)
  nodes : List (DocumentNode R)

variable {R : Type u}

/-- What a node states about its argument. -/
def DocumentNode.toSpec (node : DocumentNode R) : ArgumentSpec where
  id := node.id
  label := node.label
  category := node.category
  description := node.description
  attacks := node.attacks
  attackedBy := node.attackedBy

namespace Document

/-- The categories that a document names. -/
def categories (document : Document R) : CategoryConfig :=
  .ofTables document.labels document.colors

/-- The graph that a document describes. -/
def toGraph (document : Document R) : Except GraphError Graph :=
  Graph.load document.categories (document.nodes.map DocumentNode.toSpec)

/-- The ids that an id attacks, in the order of the relation. -/
def targets (attacks : List Attack) (id : String) : List String :=
  (attacks.filter (·.source = id)).map Attack.target

/-- The ids that attack an id, in the order of the relation. -/
def sources (attacks : List Attack) (id : String) : List String :=
  (attacks.filter (·.target = id)).map Attack.source

/-- An argument as a node, with its lists taken from the attack relation. -/
def exportNode (attacks : List Attack) (scores : Option (Table R)) (argument : Argument) :
    DocumentNode R where
  id := argument.id
  label := argument.label
  category := argument.category
  score := scores.bind (·.get? argument.id)
  description := argument.description
  attacks := targets attacks argument.id
  attackedBy := sources attacks argument.id

/-- The document of a graph, with the scores given. -/
def ofGraph (g : Graph) (scores : Option (Table R)) (globalScores : Option (GlobalScores R)) :
    Document R where
  colors := g.categories.colors
  labels := g.categories.labels
  globalScores := globalScores
  nodes := g.arguments.map (exportNode g.attacks.toList scores)

end Document

end WeightedArgumentation
