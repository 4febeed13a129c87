import WeightedArgumentation.Argument

/-!
# Argument graphs

A graph holds arguments of distinct ids in the order in which they came, over a
fixed configuration of categories.  Each argument carries its own two views of
the attack relation.  An attack may name an id that no argument has; it is then
held by the one end that exists.

The attack relation of the whole graph is the union of all views
(`mem_attacks`).
-/

namespace WeightedArgumentation

/-- Arguments of distinct ids over a configuration of categories. -/
structure Graph where
  categories : CategoryConfig
  arguments : List Argument
  distinct : (arguments.map Argument.id).Nodup

namespace Graph

instance : DecidableEq Graph := fun g h =>
  if same : g.categories = h.categories ∧ g.arguments = h.arguments then
    .isTrue (by cases g; cases h; simp_all)
  else
    .isFalse fun e => same (e ▸ ⟨rfl, rfl⟩)

/-- Graphs are determined by their categories and their arguments. -/
theorem ext {g h : Graph} (categories : g.categories = h.categories)
    (arguments : g.arguments = h.arguments) : g = h := by
  cases g; cases h; simp_all

/-- The graph without arguments. -/
def empty (categories : CategoryConfig) : Graph := ⟨categories, [], List.nodup_nil⟩

/-- The number of arguments. -/
abbrev size (g : Graph) : Nat := g.arguments.length

/-- The ids in the order of the arguments. -/
def ids (g : Graph) : List String := g.arguments.map Argument.id

/-- The argument with an id. -/
def get? (g : Graph) (id : String) : Option Argument :=
  g.arguments.find? (·.id = id)

/-- Whether an argument has this id. -/
def contains (g : Graph) (id : String) : Bool := id ∈ g.ids

@[simp] theorem contains_iff {g : Graph} {id : String} : g.contains id = true ↔ id ∈ g.ids := by
  simp [contains]

/-- An argument is found under an id exactly when it is in the graph and has that id. -/
theorem get?_eq_some_iff {g : Graph} {id : String} {argument : Argument} :
    g.get? id = some argument ↔ argument ∈ g.arguments ∧ argument.id = id := by
  obtain ⟨categories, arguments, distinct⟩ := g
  simp only [get?]
  induction arguments with
  | nil => simp
  | cons first rest ih =>
    simp only [List.map_cons, List.nodup_cons] at distinct
    by_cases here : first.id = id
    · rw [List.find?_cons_of_pos (by simpa using here)]
      constructor
      · rintro ⟨⟩
        exact ⟨by simp, here⟩
      · rintro ⟨member, same⟩
        rcases List.mem_cons.1 member with rfl | member
        · rfl
        · exact absurd (here.trans same.symm ▸ List.mem_map_of_mem member) distinct.1
    · rw [List.find?_cons_of_neg (by simpa using here), ih distinct.2]
      constructor
      · rintro ⟨member, same⟩
        exact ⟨List.mem_cons_of_mem _ member, same⟩
      · rintro ⟨member, same⟩
        rcases List.mem_cons.1 member with rfl | member
        · exact absurd same here
        · exact ⟨member, same⟩

/-- Nothing is found under an id exactly when no argument has it. -/
theorem get?_eq_none_iff {g : Graph} {id : String} : g.get? id = none ↔ id ∉ g.ids := by
  simp [get?, ids]

/-- The attack relation: every attack that some argument's views show, each
once, ordered by source and target. -/
def attacks (g : Graph) : SortedSet Attack :=
  .ofList (g.arguments.flatMap Argument.stated)

/-- An attack belongs to the relation exactly when its source lists the target
or its target lists the source. -/
theorem mem_attacks {g : Graph} {attack : Attack} :
    attack ∈ g.attacks ↔
      (∃ argument ∈ g.arguments, argument.id = attack.source ∧ attack.target ∈ argument.attacks) ∨
        (∃ argument ∈ g.arguments,
          argument.id = attack.target ∧ attack.source ∈ argument.attackedBy) := by
  unfold attacks
  rw [SortedSet.mem_ofList]
  simp only [List.mem_flatMap, Argument.stated, Attack.mem_stated, SortedSet.mem_def]
  grind

/-- Changes every argument by a function that keeps its id. -/
def revise (g : Graph) (f : Argument → Argument) (keeps : ∀ a, (f a).id = a.id) : Graph where
  categories := g.categories
  arguments := g.arguments.map f
  distinct := by
    have : (g.arguments.map f).map Argument.id = g.arguments.map Argument.id := by
      simp [List.map_map, Function.comp_def, keeps]
    rw [this]
    exact g.distinct

@[simp] theorem ids_revise {g : Graph} {f : Argument → Argument} (keeps : ∀ a, (f a).id = a.id) :
    (g.revise f keeps).ids = g.ids := by
  simp [revise, ids, List.map_map, Function.comp_def, keeps]

/-- Adds an argument of a new id at the end. -/
def append (g : Graph) (argument : Argument) (fresh : argument.id ∉ g.ids) : Graph where
  categories := g.categories
  arguments := g.arguments ++ [argument]
  distinct := by
    simp only [List.map_append, List.map_cons, List.map_nil, List.nodup_append, g.distinct,
      List.nodup_cons, List.not_mem_nil, not_false_eq_true, List.nodup_nil, and_self,
      List.mem_cons, or_false, ne_eq, forall_eq, true_and]
    intro id member same
    exact fresh (same ▸ member)

/-- Takes out the argument with an id. -/
def delete (g : Graph) (id : String) : Graph where
  categories := g.categories
  arguments := g.arguments.filter (·.id ≠ id)
  distinct := g.distinct.sublist (List.filter_sublist.map _)

/-- Records an attack at each of its ends that exists. -/
def link (g : Graph) (attack : Attack) : Graph :=
  g.revise (·.link attack) fun _ => rfl

/-- Records the attacks of a list. -/
def linkAll (g : Graph) (attacks : List Attack) : Graph :=
  attacks.foldl link g

/-- Forgets every attack that an id takes part in. -/
def forget (g : Graph) (id : String) : Graph :=
  g.revise (·.forget id) fun a => a.id_forget id

@[simp] theorem ids_link {g : Graph} {attack : Attack} : (g.link attack).ids = g.ids :=
  ids_revise _

@[simp] theorem ids_linkAll {g : Graph} {attacks : List Attack} :
    (g.linkAll attacks).ids = g.ids := by
  induction attacks generalizing g with
  | nil => rfl
  | cons attack rest ih => exact ih.trans ids_link

@[simp] theorem ids_forget {g : Graph} {id : String} : (g.forget id).ids = g.ids :=
  ids_revise _

end Graph

end WeightedArgumentation
