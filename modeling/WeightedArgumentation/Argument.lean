import WeightedArgumentation.Attack
import WeightedArgumentation.Category
import WeightedArgumentation.Text.Blank

/-!
# Arguments and their specifications

An `Argument` is what a graph holds: an id, a label, a category, perhaps a
description, and the two views of the attack relation from its place, the ids
it attacks and the ids it is attacked by.  An `ArgumentSpec` is what a caller
states about one argument, with relation lists that need not be ordered, unique
or mirrored anywhere.

Normalizing a specification trims every text and drops what is blank.  A
normalized specification is valid when its id, label and category are not
empty and its category is configured, or nothing is configured.
-/

namespace WeightedArgumentation

/-- What a caller states about one argument. -/
structure ArgumentSpec where
  id : String
  label : String
  category : String
  description : Option String
  attacks : List String
  attackedBy : List String
  deriving DecidableEq, Repr

/-- An argument as a graph holds it. -/
structure Argument where
  id : String
  label : String
  category : String
  description : Option String
  attacks : SortedSet String
  attackedBy : SortedSet String
  deriving DecidableEq

/-- The fields of a specification that can be refused. -/
inductive SpecField
  | id
  | label
  | category
  deriving DecidableEq, Repr

/-- Why the value of a field is refused. -/
inductive SpecFault
  | blank
  | unknownCategory (key : String)
  | idChange (current requested : String)
  | described (reason : String)
  deriving DecidableEq, Repr

namespace SpecField

/-- The name of a field in messages. -/
def name : SpecField → String
  | .id => "id"
  | .label => "label"
  | .category => "category"

end SpecField

namespace SpecFault

/-- The words for a fault. -/
def reason : SpecFault → String
  | .blank => "must not be empty"
  | .unknownCategory key => "unknown category '" ++ key ++ "'"
  | .idChange current requested =>
      "cannot change id '" ++ current ++ "' to '" ++ requested ++ "'"
  | .described reason => reason

end SpecFault

namespace ArgumentSpec

/-- The trimmed entries of a relation list, without the blank ones. -/
def trimEntries (entries : List String) : List String :=
  (entries.map Text.trim).filter (· ≠ "")

/-- The specification with every text trimmed, without blank relation entries
and without a blank description. -/
def normalized (spec : ArgumentSpec) : ArgumentSpec where
  id := Text.trim spec.id
  label := Text.trim spec.label
  category := Text.trim spec.category
  description := (spec.description.map Text.trim).filter (· ≠ "")
  attacks := trimEntries spec.attacks
  attackedBy := trimEntries spec.attackedBy

/-- The first field, if any, that keeps a normalized specification out of a
graph over the given categories, and what is wrong with it. -/
def fault? (spec : ArgumentSpec) (categories : CategoryConfig) : Option (SpecField × SpecFault) :=
  if spec.id = "" then some (.id, .blank)
  else if spec.label = "" then some (.label, .blank)
  else if spec.category = "" then some (.category, .blank)
  else if !categories.isEmpty && !categories.contains spec.category then
    some (.category, .unknownCategory spec.category)
  else none

/-- The attacks that a specification states, from either side. -/
def stated (spec : ArgumentSpec) : List Attack :=
  Attack.stated spec.id spec.attacks spec.attackedBy

end ArgumentSpec

namespace Argument

/-- An argument with the fields of a specification and no attacks. -/
def detached (spec : ArgumentSpec) : Argument where
  id := spec.id
  label := spec.label
  category := spec.category
  description := spec.description
  attacks := .empty
  attackedBy := .empty

/-- The specification that states an argument as it stands. -/
def toSpec (argument : Argument) : ArgumentSpec where
  id := argument.id
  label := argument.label
  category := argument.category
  description := argument.description
  attacks := argument.attacks.toList
  attackedBy := argument.attackedBy.toList

/-- The attacks that an argument's two views show. -/
def stated (argument : Argument) : List Attack :=
  Attack.stated argument.id argument.attacks.toList argument.attackedBy.toList

/-- Records an attack in the views of an argument that takes part in it. -/
def link (argument : Argument) (attack : Attack) : Argument :=
  { argument with
    attacks :=
      if argument.id = attack.source then argument.attacks.insert attack.target
      else argument.attacks
    attackedBy :=
      if argument.id = attack.target then argument.attackedBy.insert attack.source
      else argument.attackedBy }

@[simp] theorem id_link (argument : Argument) (attack : Attack) :
    (argument.link attack).id = argument.id := rfl

@[simp] theorem mem_attacks_link {argument : Argument} {attack : Attack} {id : String} :
    id ∈ (argument.link attack).attacks ↔
      id ∈ argument.attacks ∨ argument.id = attack.source ∧ id = attack.target := by
  unfold link
  split <;> simp_all [or_comm]

@[simp] theorem mem_attackedBy_link {argument : Argument} {attack : Attack} {id : String} :
    id ∈ (argument.link attack).attackedBy ↔
      id ∈ argument.attackedBy ∨ argument.id = attack.target ∧ id = attack.source := by
  unfold link
  simp only
  split <;> simp_all [or_comm]

/-- Forgets an id: the argument with that id loses all its attacks, every other
one those it shares with that id. -/
def forget (argument : Argument) (id : String) : Argument :=
  if argument.id = id then { argument with attacks := .empty, attackedBy := .empty }
  else
    { argument with
      attacks := argument.attacks.erase id
      attackedBy := argument.attackedBy.erase id }

@[simp] theorem id_forget (argument : Argument) (id : String) :
    (argument.forget id).id = argument.id := by
  unfold forget
  split <;> rfl

@[simp] theorem mem_attacks_forget {argument : Argument} {id target : String} :
    target ∈ (argument.forget id).attacks ↔
      target ∈ argument.attacks ∧ argument.id ≠ id ∧ target ≠ id := by
  unfold forget
  split <;> simp_all

@[simp] theorem mem_attackedBy_forget {argument : Argument} {id source : String} :
    source ∈ (argument.forget id).attackedBy ↔
      source ∈ argument.attackedBy ∧ argument.id ≠ id ∧ source ≠ id := by
  unfold forget
  split <;> simp_all

/-- Takes label, category and description from a specification of the same id. -/
def describe (argument : Argument) (spec : ArgumentSpec) : Argument :=
  if argument.id = spec.id then
    { argument with
      label := spec.label
      category := spec.category
      description := spec.description }
  else argument

@[simp] theorem id_describe (argument : Argument) (spec : ArgumentSpec) :
    (argument.describe spec).id = argument.id := by
  unfold describe
  split <;> rfl

end Argument

end WeightedArgumentation
