import WeightedArgumentation.Proofs.Graph.Reachable

/-!
# The attack relation under changes

What recording and forgetting attacks does to the attacks that one argument
shows, and from there to the attack relation of a graph.  An attack belongs to
the relation as soon as one end shows it, so every change is described by the
attacks it adds and those it takes away, whatever the two views looked like
before.  The categories stay as they are.
-/

namespace WeightedArgumentation

namespace Argument

theorem mem_stated {argument : Argument} {attack : Attack} :
    attack ∈ argument.stated ↔
      (attack.source = argument.id ∧ attack.target ∈ argument.attacks) ∨
        (attack.target = argument.id ∧ attack.source ∈ argument.attackedBy) :=
  Attack.mem_stated

theorem touches_of_mem_stated {argument : Argument} {attack : Attack}
    (stated : attack ∈ argument.stated) :
    attack.source = argument.id ∨ attack.target = argument.id := by
  rcases mem_stated.1 stated with ⟨source, _⟩ | ⟨target, _⟩
  · exact .inl source
  · exact .inr target

@[simp] theorem id_detached (spec : ArgumentSpec) : (detached spec).id = spec.id := rfl

@[simp] theorem attacks_detached (spec : ArgumentSpec) : (detached spec).attacks = .empty := rfl

@[simp] theorem attackedBy_detached (spec : ArgumentSpec) :
    (detached spec).attackedBy = .empty := rfl

@[simp] theorem not_mem_stated_detached {spec : ArgumentSpec} {attack : Attack} :
    attack ∉ (detached spec).stated := by
  simp [mem_stated]

@[simp] theorem attacks_describe (argument : Argument) (spec : ArgumentSpec) :
    (argument.describe spec).attacks = argument.attacks := by
  rw [describe]
  split <;> rfl

@[simp] theorem attackedBy_describe (argument : Argument) (spec : ArgumentSpec) :
    (argument.describe spec).attackedBy = argument.attackedBy := by
  rw [describe]
  split <;> rfl

@[simp] theorem mem_stated_describe {argument : Argument} {spec : ArgumentSpec}
    {attack : Attack} : attack ∈ (argument.describe spec).stated ↔ attack ∈ argument.stated := by
  simp [mem_stated]

theorem mem_stated_forget {argument : Argument} {id : String} {attack : Attack} :
    attack ∈ (argument.forget id).stated ↔
      attack ∈ argument.stated ∧ attack.source ≠ id ∧ attack.target ≠ id := by
  simp only [mem_stated, id_forget, mem_attacks_forget, mem_attackedBy_forget]
  grind

/-- Records the attacks of a list in the views of an argument. -/
def linkAll (argument : Argument) (attacks : List Attack) : Argument :=
  attacks.foldl link argument

@[simp] theorem id_linkAll (argument : Argument) (attacks : List Attack) :
    (argument.linkAll attacks).id = argument.id := by
  induction attacks generalizing argument with
  | nil => rfl
  | cons attack rest ih => exact ih (argument.link attack)

@[simp] theorem mem_attacks_linkAll {argument : Argument} {attacks : List Attack}
    {target : String} :
    target ∈ (argument.linkAll attacks).attacks ↔
      target ∈ argument.attacks ∨ ⟨argument.id, target⟩ ∈ attacks := by
  induction attacks generalizing argument with
  | nil => simp [linkAll]
  | cons attack rest ih =>
      obtain ⟨source, other⟩ := attack
      have step := @ih (argument.link ⟨source, other⟩)
      simp only [linkAll, List.foldl_cons] at step ⊢
      rw [step]
      simp only [mem_attacks_link, id_link, List.mem_cons, Attack.mk.injEq]
      grind

@[simp] theorem mem_attackedBy_linkAll {argument : Argument} {attacks : List Attack}
    {source : String} :
    source ∈ (argument.linkAll attacks).attackedBy ↔
      source ∈ argument.attackedBy ∨ ⟨source, argument.id⟩ ∈ attacks := by
  induction attacks generalizing argument with
  | nil => simp [linkAll]
  | cons attack rest ih =>
      obtain ⟨other, target⟩ := attack
      have step := @ih (argument.link ⟨other, target⟩)
      simp only [linkAll, List.foldl_cons] at step ⊢
      rw [step]
      simp only [mem_attackedBy_link, id_link, List.mem_cons, Attack.mk.injEq]
      grind

theorem mem_stated_linkAll {argument : Argument} {attacks : List Attack} {attack : Attack} :
    attack ∈ (argument.linkAll attacks).stated ↔
      attack ∈ argument.stated ∨
        attack ∈ attacks ∧ (attack.source = argument.id ∨ attack.target = argument.id) := by
  obtain ⟨source, target⟩ := attack
  simp only [mem_stated, id_linkAll, mem_attacks_linkAll, mem_attackedBy_linkAll]
  grind

end Argument

theorem ArgumentSpec.touches_of_mem_stated {spec : ArgumentSpec} {attack : Attack}
    (stated : attack ∈ spec.stated) : attack.source = spec.id ∨ attack.target = spec.id := by
  rcases Attack.mem_stated.1 stated with ⟨source, _⟩ | ⟨target, _⟩
  · exact .inl source
  · exact .inr target

namespace Graph

/-- The attack relation holds what some argument states. -/
theorem mem_attacks_iff_stated {g : Graph} {attack : Attack} :
    attack ∈ g.attacks ↔ ∃ argument ∈ g.arguments, attack ∈ argument.stated := by
  simp [attacks]

theorem mem_ids {g : Graph} {id : String} :
    id ∈ g.ids ↔ ∃ argument ∈ g.arguments, argument.id = id :=
  List.mem_map

/-- An argument is determined by its id. -/
theorem eq_of_id_eq {g : Graph} {a b : Argument} (aMember : a ∈ g.arguments)
    (bMember : b ∈ g.arguments) (same : a.id = b.id) : a = b := by
  have aFound := get?_eq_some_iff.2 ⟨aMember, same⟩
  have bFound := get?_eq_some_iff.2 ⟨bMember, rfl⟩
  exact Option.some.inj (aFound.symm.trans bFound)

theorem mem_attacks_revise {g : Graph} {f : Argument → Argument}
    {keeps : ∀ a, (f a).id = a.id} {attack : Attack} :
    attack ∈ (g.revise f keeps).attacks ↔ ∃ argument ∈ g.arguments, attack ∈ (f argument).stated := by
  rw [mem_attacks_iff_stated]
  constructor
  · rintro ⟨_, member, stated⟩
    obtain ⟨argument, inGraph, rfl⟩ := List.mem_map.1 member
    exact ⟨argument, inGraph, stated⟩
  · rintro ⟨argument, inGraph, stated⟩
    exact ⟨f argument, List.mem_map_of_mem inGraph, stated⟩

/-- Recording a list of attacks is one change of every argument. -/
theorem linkAll_eq_revise (g : Graph) (attacks : List Attack) :
    g.linkAll attacks = g.revise (·.linkAll attacks) fun a => a.id_linkAll attacks := by
  induction attacks generalizing g with
  | nil => exact ext rfl (by simp [linkAll, revise, Argument.linkAll])
  | cons attack rest ih =>
      have step := ih (g.link attack)
      simp only [linkAll, List.foldl_cons] at step ⊢
      rw [step]
      apply ext
      · rfl
      · simp [link, revise, Argument.linkAll, Function.comp_def]

/-- Recording a list of attacks adds those with an end in the graph. -/
theorem mem_attacks_linkAll {g : Graph} {attacks : List Attack} {attack : Attack} :
    attack ∈ (g.linkAll attacks).attacks ↔
      attack ∈ g.attacks ∨
        attack ∈ attacks ∧ (attack.source ∈ g.ids ∨ attack.target ∈ g.ids) := by
  rw [linkAll_eq_revise, mem_attacks_revise]
  simp only [mem_attacks_iff_stated, Argument.mem_stated_linkAll, mem_ids]
  grind

theorem mem_attacks_forget {g : Graph} {id : String} {attack : Attack} :
    attack ∈ (g.forget id).attacks ↔
      attack ∈ g.attacks ∧ attack.source ≠ id ∧ attack.target ≠ id := by
  rw [forget, mem_attacks_revise]
  simp only [mem_attacks_iff_stated, Argument.mem_stated_forget]
  grind

theorem mem_attacks_discard {g : Graph} {id : String} {attack : Attack} :
    attack ∈ (g.discard id).attacks ↔
      attack ∈ g.attacks ∧ attack.source ≠ id ∧ attack.target ≠ id := by
  rw [discard, mem_attacks_forget, mem_attacks_iff_stated, mem_attacks_iff_stated]
  constructor
  · rintro ⟨⟨argument, member, stated⟩, avoided⟩
    exact ⟨⟨argument, (List.mem_filter.1 member).1, stated⟩, avoided⟩
  · rintro ⟨⟨argument, member, stated⟩, avoided⟩
    refine ⟨⟨argument, List.mem_filter.2 ⟨member, ?_⟩, stated⟩, avoided⟩
    -- the argument with the id itself states only attacks that touch the id
    rcases Argument.touches_of_mem_stated stated with source | target
    · simpa [← source] using avoided.1
    · simpa [← target] using avoided.2

/-- The pending attacks of an id are those of the relation that name it. -/
theorem mem_pending {g : Graph} {id : String} {attack : Attack} :
    attack ∈ g.pending id ↔ attack ∈ g.attacks ∧ (attack.source = id ∨ attack.target = id) := by
  simp [pending, mem_attacks_iff_stated]

/-- Entering a specification adds the attacks that it states. -/
theorem mem_attacks_enter {g : Graph} {spec : ArgumentSpec} {fresh : spec.id ∉ g.ids}
    {attack : Attack} :
    attack ∈ (g.enter spec fresh).attacks ↔ attack ∈ g.attacks ∨ attack ∈ spec.stated := by
  have before : attack ∈ (g.append (.detached spec) fresh).attacks ↔ attack ∈ g.attacks := by
    simp [mem_attacks_iff_stated, append, or_and_right, exists_or]
  have own : spec.id ∈ (g.append (.detached spec) fresh).ids := by
    simp [ids, append, Argument.detached]
  have touches := @ArgumentSpec.touches_of_mem_stated spec attack
  rw [enter, mem_attacks_linkAll, before, List.mem_append, mem_pending]
  grind

/-- Restating an argument replaces the attacks it takes part in. -/
theorem mem_attacks_restate {g : Graph} {spec : ArgumentSpec} (present : spec.id ∈ g.ids)
    {attack : Attack} :
    attack ∈ (g.restate spec).attacks ↔
      (attack ∈ g.attacks ∧ attack.source ≠ spec.id ∧ attack.target ≠ spec.id) ∨
        attack ∈ spec.stated := by
  have described : attack ∈ ((g.forget spec.id).revise (·.describe spec)
      fun a => a.id_describe spec).attacks ↔ attack ∈ (g.forget spec.id).attacks := by
    rw [mem_attacks_revise]
    simp [mem_attacks_iff_stated]
  have touches := @ArgumentSpec.touches_of_mem_stated spec attack
  rw [restate, mem_attacks_linkAll, described, mem_attacks_forget, ids_revise, ids_forget]
  grind

/-- Assembling specifications records every attack that they state. -/
theorem mem_attacks_assemble {categories : CategoryConfig} {specs : List ArgumentSpec}
    {distinct : (specs.map ArgumentSpec.id).Nodup} {attack : Attack} :
    attack ∈ (assemble categories specs distinct).attacks ↔
      ∃ spec ∈ specs, attack ∈ spec.stated := by
  have bare : attack ∉ (detached categories specs distinct).attacks := by
    simp [mem_attacks_iff_stated, detached]
  have touches : attack ∈ specs.flatMap ArgumentSpec.stated →
      attack.source ∈ (detached categories specs distinct).ids ∨
        attack.target ∈ (detached categories specs distinct).ids := by
    simp only [List.mem_flatMap, ids, detached, List.map_map, List.mem_map]
    rintro ⟨spec, member, stated⟩
    rcases ArgumentSpec.touches_of_mem_stated stated with source | target
    · exact .inl ⟨spec, member, source.symm⟩
    · exact .inr ⟨spec, member, target.symm⟩
  rw [assemble, mem_attacks_linkAll, ← List.mem_flatMap]
  grind

/-! ## The ids -/

@[simp] theorem ids_restate (g : Graph) (spec : ArgumentSpec) : (g.restate spec).ids = g.ids := by
  rw [restate, ids_linkAll, ids_revise, ids_forget]

theorem ids_discard (g : Graph) (id : String) : (g.discard id).ids = g.ids.filter (· ≠ id) := by
  rw [discard, ids_forget, ids, ids, delete, List.filter_map]
  rfl

/-! ## The categories -/

theorem categories_linkAll (g : Graph) (attacks : List Attack) :
    (g.linkAll attacks).categories = g.categories := by
  rw [linkAll_eq_revise]
  rfl

@[simp] theorem categories_enter {g : Graph} {spec : ArgumentSpec} (fresh : spec.id ∉ g.ids) :
    (g.enter spec fresh).categories = g.categories :=
  categories_linkAll _ _

@[simp] theorem categories_restate (g : Graph) (spec : ArgumentSpec) :
    (g.restate spec).categories = g.categories :=
  categories_linkAll _ _

@[simp] theorem categories_discard (g : Graph) (id : String) :
    (g.discard id).categories = g.categories := rfl

@[simp] theorem categories_assemble {categories : CategoryConfig} {specs : List ArgumentSpec}
    {distinct : (specs.map ArgumentSpec.id).Nodup} :
    (assemble categories specs distinct).categories = categories :=
  categories_linkAll _ _

/-- No edit changes the categories. -/
theorem categories_of_attempt {g changed : Graph} {edit : Edit}
    (granted : g.attempt edit = .ok changed) : changed.categories = g.categories := by
  cases edit with
  | create spec =>
      rw [attempt_create, create_eq_ok_iff] at granted
      rcases granted with ⟨_, fresh, rfl⟩
      exact categories_enter fresh
  | update id spec =>
      rw [attempt_update, update_eq_ok_iff] at granted
      rcases granted with ⟨_, _, _, rfl⟩
      exact categories_restate g _
  | remove id =>
      rw [attempt_remove_eq_ok_iff] at granted
      rcases granted with ⟨_, rfl⟩
      exact categories_discard g id

end Graph

end WeightedArgumentation
