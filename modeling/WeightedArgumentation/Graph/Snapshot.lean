import WeightedArgumentation.Graph.Basic

/-!
# Snapshots of a graph

A snapshot lists the arguments in their order and the attack relation in its
order.
-/

namespace WeightedArgumentation

/-- The arguments and the attacks of a graph. -/
structure GraphSnapshot where
  nodes : List Argument
  edges : List Attack
  deriving DecidableEq

/-- A graph's arguments with its attack relation. -/
def Graph.snapshot (g : Graph) : GraphSnapshot := ⟨g.arguments, g.attacks.toList⟩

end WeightedArgumentation
