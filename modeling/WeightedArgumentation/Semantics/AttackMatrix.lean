import WeightedArgumentation.Graph.Basic
import WeightedArgumentation.Weights.Basic

/-!
# The attack structure of a graph

For solving, a graph is reduced to what the scores depend on: the attacks between
the positions of its arguments, each with the weight of the attacker's category.
Attacks are added target by target, on each target in ascending order of the
attackers' ids; attackers that no argument stands for drop out.  The attackers of
one target are then read in the opposite order, the one that was added last first,
which fixes the order of every sum.
-/

namespace WeightedArgumentation

universe u

/-- The weighted attackers of the argument at each of `n` positions. -/
abbrev AttackMatrix (R : Type u) (n : Nat) := Vector (List (R × Fin n)) n

/-- An attack between the arguments at two of `n` positions, with the weight of the
attacker's category. -/
structure WeightedAttack (R : Type u) (n : Nat) where
  source : Fin n
  target : Fin n
  weight : R

/-- Attacks between the arguments at `n` positions. -/
structure AttackStructure (R : Type u) (n : Nat) where
  newestFirst : List (WeightedAttack R n)

namespace AttackStructure

variable {R : Type u} {n : Nat}

/-- The structure without attacks. -/
def empty : AttackStructure R n := ⟨[]⟩

/-- Adds an attack. -/
def add (attacks : AttackStructure R n) (attack : WeightedAttack R n) : AttackStructure R n :=
  ⟨attack :: attacks.newestFirst⟩

/-- The weighted attackers of a target, the one that was added last first. -/
def attackersOf (attacks : AttackStructure R n) (target : Fin n) : List (R × Fin n) :=
  (attacks.newestFirst.filter (·.target = target)).map fun attack => (attack.weight, attack.source)

theorem attackersOf_add (attacks : AttackStructure R n) (attack : WeightedAttack R n)
    (target : Fin n) :
    (attacks.add attack).attackersOf target =
      (if attack.target = target then [(attack.weight, attack.source)] else []) ++
        attacks.attackersOf target := by
  rw [add, attackersOf, List.filter_cons]
  by_cases same : attack.target = target
  · simp [attackersOf, same]
  · simp [attackersOf, same]

/-- The weighted attackers at each position. -/
def matrix (attacks : AttackStructure R n) : AttackMatrix R n := .ofFn attacks.attackersOf

end AttackStructure

namespace Graph

/-- The position of the argument with an id. -/
def position? (g : Graph) (id : String) : Option (Fin g.size) :=
  g.arguments.findFinIdx? (·.id = id)

variable {R : Type u} [Scalar R]

/-- Adds the attack of an attacker on a target, if an argument stands for the
attacker. -/
def addAttack (g : Graph) (weights : WeightTable R) (target : Fin g.size)
    (attacks : AttackStructure R g.size) (attacker : String) : AttackStructure R g.size :=
  match g.position? attacker with
  | some source =>
      attacks.add ⟨source, target, weights.strength (g.arguments.get source).category⟩
  | none => attacks

/-- Adds the attacks of all attackers of a target. -/
def addAttacks (g : Graph) (weights : WeightTable R) (attacks : AttackStructure R g.size)
    (target : Fin g.size) : AttackStructure R g.size :=
  (g.arguments.get target).attackedBy.toList.foldl (g.addAttack weights target) attacks

/-- The attack structure of a graph under a weight table. -/
def attackStructure (g : Graph) (weights : WeightTable R) : AttackStructure R g.size :=
  (List.finRange g.size).foldl (g.addAttacks weights) .empty

/-- The weighted attackers of all arguments under a weight table. -/
def attackMatrix (g : Graph) (weights : WeightTable R) : AttackMatrix R g.size :=
  (g.attackStructure weights).matrix

end Graph

end WeightedArgumentation
