import WeightedArgumentation.Graph.Basic
import WeightedArgumentation.Graph.Error

/-!
# Symmetry of the attack relation

The two views of the attack relation agree when an argument lists another as
its target exactly when the other lists it as its attacker.
-/

namespace WeightedArgumentation.Graph

/-- The two views agree for every pair of arguments. -/
def Symmetric (g : Graph) : Prop :=
  ∀ a ∈ g.arguments, ∀ b ∈ g.arguments, b.id ∈ a.attacks ↔ a.id ∈ b.attackedBy

/-- The first target of an argument that does not list it as its attacker. -/
def unmirroredAttack? (g : Graph) (argument : Argument) : Option Asymmetry :=
  argument.attacks.toList.findSome? fun target =>
    match g.get? target with
    | some other =>
        if argument.id ∈ other.attackedBy then none
        else some (.unmirroredAttack argument.id target)
    | none => none

/-- The first attacker of an argument that does not list it as its target. -/
def unmirroredAttacker? (g : Graph) (argument : Argument) : Option Asymmetry :=
  argument.attackedBy.toList.findSome? fun source =>
    match g.get? source with
    | some other =>
        if argument.id ∈ other.attacks then none
        else some (.unmirroredAttacker argument.id source)
    | none => none

/-- The first disagreement between the two views, argument by argument. -/
def asymmetry? (g : Graph) : Option Asymmetry :=
  g.arguments.findSome? fun argument =>
    (g.unmirroredAttack? argument).or (g.unmirroredAttacker? argument)

/-- Reports the first disagreement between the two views. -/
def verify (g : Graph) : Except GraphError Unit :=
  match g.asymmetry? with
  | some asymmetry => .error (.inconsistent asymmetry)
  | none => .ok ()

end WeightedArgumentation.Graph
