import WeightedArgumentation.Argument

/-!
# Errors of a graph

A change to a graph is refused for one of three causes: a field of the
specification, an id that is taken, or an id that no argument has.  The fourth
cause reports two views of the attack relation that disagree.
-/

namespace WeightedArgumentation

/-- How the two views of the attack relation can disagree. -/
inductive Asymmetry
  | unmirroredAttack (source target : String)
  | unmirroredAttacker (target source : String)
  | described (reason : String)
  deriving DecidableEq, Repr

/-- The words for a disagreement. -/
def Asymmetry.reason : Asymmetry → String
  | .unmirroredAttack source target =>
      "'" ++ source ++ "' attacks '" ++ target ++ "' but is missing from its attacked_by"
  | .unmirroredAttacker target source =>
      "'" ++ target ++ "' is attacked by '" ++ source ++ "' but is missing from its attacks"
  | .described reason => reason

/-- Why a graph refuses an operation. -/
inductive GraphError
  | invalid (field : SpecField) (fault : SpecFault)
  | duplicate (id : String)
  | notFound (id : String)
  | inconsistent (asymmetry : Asymmetry)
  deriving DecidableEq, Repr

/-- The message of an error. -/
def GraphError.message : GraphError → String
  | .invalid field fault => "invalid " ++ field.name ++ ": " ++ fault.reason
  | .duplicate id => "duplicate argument id: '" ++ id ++ "'"
  | .notFound id => "argument not found: '" ++ id ++ "'"
  | .inconsistent asymmetry => "graph inconsistency: " ++ asymmetry.reason

end WeightedArgumentation
