import WeightedArgumentation.Semantics.AttackMatrix

/-!
# The weighted h-categorizer

The score of an argument is `1 / (1 + s)`, where `s` adds the scores of its
attackers, each scaled by the weight of the attacker's category.  The scores
are found by passes from the vector of ones: every pass computes a whole new
vector from the one before.  Passes end when the largest change of a score
falls below the tolerance, or when the cap on passes is reached.
-/

namespace WeightedArgumentation

universe u

/-- The ways of scoring a graph. -/
inductive GradualSemantics
  | hCategorizer
  deriving DecidableEq, Repr

/-- When the passes end. -/
structure SolverConfig (R : Type u) where
  semantics : GradualSemantics
  maxIterations : Nat
  tolerance : R

/-- How the passes ended. -/
structure Convergence (R : Type u) where
  iterations : Nat
  maxDelta : R
  converged : Bool

/-- The scores of all positions and how they were reached. -/
structure Settled (R : Type u) (n : Nat) where
  scores : Vector R n
  convergence : Convergence R

/-- The scores of a graph by id, in the order of its arguments, and how they
were reached. -/
structure Solution (R : Type u) where
  scores : Table R
  convergence : Convergence R

variable {R : Type u} [Scalar R]

/-- At most a hundred passes, with the tolerance `1e-6`. -/
def SolverConfig.default : SolverConfig R where
  semantics := .hCategorizer
  maxIterations := 100
  tolerance := 1e-6

namespace AttackMatrix

variable {n : Nat}

/-- The score of an argument whose attackers have the given scores. -/
def categorize (attackers : List (R × Fin n)) (scores : Vector R n) : R :=
  (1 : R) / ((1 : R) + Scalar.total (attackers.map fun attacker => attacker.1 * scores[attacker.2]))

/-- One pass: every score from the scores before. -/
def pass (matrix : AttackMatrix R n) (scores : Vector R n) : Vector R n :=
  Vector.map (fun attackers => categorize attackers scores) matrix

/-- The largest change between two vectors of scores. -/
def change (before after : Vector R n) : R :=
  (Vector.zipWith (fun b a => Scalar.magnitude (a - b)) before after).foldl Scalar.larger 0

/-- Runs passes from the given scores until the change falls below the
tolerance, at most `budget` more; `done` have been run and the last of them
changed the scores by `delta`. -/
def settleFrom (matrix : AttackMatrix R n) (tolerance : R) :
    (budget done : Nat) → (delta : R) → Vector R n → Settled R n
  | 0, done, delta, scores => ⟨scores, ⟨done, delta, false⟩⟩
  | budget + 1, done, _, scores =>
      let next := matrix.pass scores
      let delta := change scores next
      if Scalar.less delta tolerance then ⟨next, ⟨done + 1, delta, true⟩⟩
      else settleFrom matrix tolerance budget (done + 1) delta next

/-- Runs passes from the vector of ones. -/
def settle (matrix : AttackMatrix R n) (config : SolverConfig R) : Settled R n :=
  settleFrom matrix config.tolerance config.maxIterations 0 0 (.replicate n 1)

end AttackMatrix

/-- The scores of positions as a table by id. -/
def Graph.scoreTable (g : Graph) (scores : Vector R g.size) : Table R where
  rows := List.ofFn fun position : Fin g.size => ((g.arguments.get position).id, scores[position])
  distinct := by
    have : (List.ofFn fun position : Fin g.size =>
        ((g.arguments.get position).id, scores[position])).map Prod.fst =
          g.arguments.map Argument.id := by
      apply List.ext_getElem <;> simp
    rw [this]
    exact g.distinct

/-- The scores of all arguments of a graph. -/
def solve (g : Graph) (weights : WeightTable R) (config : SolverConfig R) : Solution R :=
  match config.semantics with
  | .hCategorizer =>
      let settled := (g.attackMatrix weights).settle config
      ⟨g.scoreTable settled.scores, settled.convergence⟩

end WeightedArgumentation
