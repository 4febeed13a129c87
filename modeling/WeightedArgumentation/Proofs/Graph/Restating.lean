import WeightedArgumentation.Proofs.Graph.WellFormed

/-!
# Stating an argument again

An update forgets every attack of an argument and records those of its specification
instead.  When the specification is the one that states the argument as it stands, both
steps together change nothing.  Two invariants are behind this.  The stored texts are well
formed, so the specification passes the check and is stored as it is.  The views agree, so
the argument lists every attack that is forgotten with it, the dangling ones and those on
itself included.
-/

namespace WeightedArgumentation.Graph

variable {g : Graph} {argument : Argument}

/-- Restates the argument with an id as it stands. -/
def confirm (g : Graph) (id : String) : Except GraphError Graph :=
  match g.get? id with
  | none => .error (.notFound id)
  | some argument => g.update id argument.toSpec

/-- An argument of a symmetric graph states all attacks that its id takes part in. -/
theorem Symmetric.mem_statedSet_toSpec (symmetric : g.Symmetric) (member : argument ∈ g.arguments)
    {attack : Attack} :
    attack ∈ argument.toSpec.statedSet ↔
      attack ∈ g.attacks ∧ (attack.source = argument.id ∨ attack.target = argument.id) := by
  obtain ⟨source, target⟩ := attack
  rw [ArgumentSpec.mem_statedSet, ArgumentSpec.stated, Attack.mem_stated]
  change source = argument.id ∧ target ∈ argument.attacks ∨
    target = argument.id ∧ source ∈ argument.attackedBy ↔ _
  rw [symmetric.mem_attacks_iff member, symmetric.mem_attackedBy_iff member]
  constructor
  · rintro (⟨rfl, related⟩ | ⟨rfl, related⟩)
    · exact ⟨related, .inl rfl⟩
    · exact ⟨related, .inr rfl⟩
  · rintro ⟨related, rfl | rfl⟩
    · exact .inl ⟨rfl, related⟩
    · exact .inr ⟨rfl, related⟩

/-- Replacing the record and the attacks of an argument by its own leaves the store as it is. -/
theorem Symmetric.store_update_toSpec (symmetric : g.Symmetric)
    (member : argument ∈ g.arguments) :
    g.store.update argument.id argument.toSpec = g.store := by
  apply AttackStore.ext
  · have kept : ∀ record ∈ g.store.records,
        (if record.id = argument.id then argument.toSpec.record else record) = record := by
      intro record recorded
      obtain ⟨other, otherMember, rfl⟩ := List.mem_map.1 recorded
      split
      next same =>
        obtain rfl := eq_of_id_eq otherMember member same
        rfl
      next => rfl
    exact (List.map_congr_left kept).trans (List.map_id' _)
  · apply Set.ext
    intro attack
    rw [AttackStore.update, Set.mem_union, symmetric.mem_statedSet_toSpec member]
    change (attack ∈ g.attacks ∧ attack.source ≠ argument.id ∧ attack.target ≠ argument.id) ∨ _ ↔
      attack ∈ g.attacks
    grind

theorem Reachable.update_toSpec (reachable : g.Reachable) (member : argument ∈ g.arguments) :
    g.update argument.id argument.toSpec = .ok g := by
  obtain ⟨normalized, faultless⟩ :=
    ArgumentSpec.wellFormed_iff.1 (reachable.toSpec_wellFormed member)
  have present : argument.id ∈ g.ids := mem_ids.2 ⟨argument, member, rfl⟩
  have symmetric := reachable.symmetric
  rw [update_eq_ok_iff, normalized]
  refine ⟨present, .inr rfl, faultless, ?_⟩
  refine eq_of_store_eq symmetric (symmetric.restate _) (categories_restate g _).symm ?_
  exact ((store_restate present).trans (symmetric.store_update_toSpec member)).symm

theorem Reachable.confirm (reachable : g.Reachable) {id : String} (present : id ∈ g.ids) :
    g.confirm id = .ok g := by
  obtain ⟨argument, member, rfl⟩ := mem_ids.1 present
  rw [Graph.confirm, get?_eq_some_iff.2 ⟨member, rfl⟩]
  exact reachable.update_toSpec member

/-- In a reachable graph, updating an argument by the specification that states it as it
stands is granted and leaves the graph as it is: the order of the arguments, everything that is
known of each of them, and all attacks.  So does restating any arguments one after another. -/
theorem restating_changes_nothing (reachable : g.Reachable) :
    (∀ id argument, g.get? id = some argument → g.update id argument.toSpec = .ok g) ∧
      ∀ ids : List String, (∀ id ∈ ids, id ∈ g.ids) → ids.foldlM Graph.confirm g = .ok g := by
  constructor
  · intro id argument found
    obtain ⟨member, rfl⟩ := get?_eq_some_iff.1 found
    exact reachable.update_toSpec member
  · intro ids present
    induction ids with
    | nil => rfl
    | cons id rest ih =>
        rw [List.foldlM_cons, reachable.confirm (present id List.mem_cons_self)]
        exact ih fun other member => present other (List.mem_cons_of_mem id member)

/-- An argument that attacks itself, one that does not exist and one that was created later
and again after its removal; it is attacked from both of them. -/
theorem restating_changes_nothing_of_recreated :
    let g := ((((Graph.empty .empty).after
      (.create ⟨"A", "a", "eco", some " why ", ["Z", "A", "B"], ["Y "]⟩)).after
        (.create ⟨"B", "b", "env", none, ["A", "X"], []⟩)).after (.remove "B")).after
          (.create ⟨" B", "again", "env", some " ", [], ["B", "A", "A"]⟩)
    g.Reachable ∧
      g.attacks.toList = [⟨"A", "A"⟩, ⟨"A", "B"⟩, ⟨"A", "Z"⟩, ⟨"B", "B"⟩, ⟨"Y", "A"⟩] ∧
      (∀ id argument, g.get? id = some argument → g.update id argument.toSpec = .ok g) ∧
      ["B", "A", "B"].foldlM Graph.confirm g = .ok g := by
  intro g
  have reachable : g.Reachable := .after _ (.after _ (.after _ (.after _ (.empty _))))
  have present : ∀ id ∈ ["B", "A", "B"], id ∈ g.ids := by decide +kernel
  obtain ⟨once, often⟩ := restating_changes_nothing reachable
  exact ⟨reachable, by decide +kernel, once, often ["B", "A", "B"] present⟩

end WeightedArgumentation.Graph
