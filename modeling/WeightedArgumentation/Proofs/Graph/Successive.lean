import WeightedArgumentation.Proofs.Graph.Load
import WeightedArgumentation.Proofs.Graph.LoadOrder

/-!
# Edits of one argument in a row

Several edits of the same argument come to less than they seem.  An update retracts what the
argument takes part in and records its specification in its place.  A removal and a creation
take the argument out, adopt what is still stated about its id, and put it at the end.  Both
forget every attack of the id, whichever end states it, so nothing is left to be adopted and
the place of the argument is the only difference.  For the same reason a second update leaves
no trace of the first one.

A creation that is taken back leaves the graph without the id: what it recorded is gone, and
so are the attacks on an id that did not exist yet.

In the store all of this is set algebra, because whatever a specification states touches its
own id.
-/

namespace WeightedArgumentation

/-! ## Stores -/

namespace AttackStore

variable {store : AttackStore} {id : String} {spec : ArgumentSpec}

/-- What a specification states is gone once its id is forgotten. -/
theorem attacksWithout_create (store : AttackStore) (spec : ArgumentSpec) :
    (store.create spec).attacksWithout spec.id = store.attacksWithout spec.id := by
  apply Set.ext
  intro attack
  have touches := @ArgumentSpec.touches_of_mem_statedSet spec attack
  change (attack ∈ store.attacks ∨ attack ∈ spec.statedSet) ∧ _ ↔ attack ∈ store.attacks ∧ _
  grind

theorem attacksWithout_remove (store : AttackStore) (id : String) :
    (store.remove id).attacksWithout id = store.attacksWithout id := by
  apply Set.ext
  intro attack
  change (attack ∈ store.attacks ∧ _) ∧ _ ↔ attack ∈ store.attacks ∧ _
  rw [and_assoc, and_self]

/-- A record that is replaced in its place is the same as one that comes last. -/
theorem records_update_perm (distinct : (store.records.map ArgumentRecord.id).Nodup)
    (present : id ∈ store.records.map ArgumentRecord.id) :
    (store.update id spec).records.Perm ((store.remove id).create spec).records := by
  obtain ⟨records, attacks⟩ := store
  simp only [update, remove, create] at *
  induction records with
  | nil => cases present
  | cons first rest ih =>
      obtain ⟨new, later⟩ := List.nodup_cons.1 distinct
      by_cases same : first.id = id
      · -- the rest does not have the id, so it is neither changed nor filtered
        have others : ∀ record ∈ rest, record.id ≠ id :=
          fun record member equal => new (same.trans equal.symm ▸ List.mem_map_of_mem member)
        have kept : (rest.map fun record => if record.id = id then spec.record else record) = rest :=
          (List.map_congr_left fun record member => if_neg (others record member)).trans
            (List.map_id' rest)
        have unfiltered : rest.filter (·.id ≠ id) = rest :=
          List.filter_eq_self.2 fun record member => decide_eq_true (others record member)
        rw [List.map_cons, if_pos same, kept, List.filter_cons_of_neg (by simpa using same),
          unfiltered]
        exact (List.perm_append_singleton spec.record rest).symm
      · have elsewhere := ih later ((List.mem_cons.1 present).resolve_left (Ne.symm same))
        rw [List.map_cons, if_neg same, List.filter_cons_of_pos (by simpa using same)]
        exact elsewhere.cons first

/-- Of two updates of one id only the later counts. -/
theorem update_update (store : AttackStore) (first later : ArgumentSpec) :
    (store.update first.id first).update first.id later = store.update first.id later := by
  apply AttackStore.ext
  · simp only [update, List.map_map]
    apply List.map_congr_left
    intro record _
    by_cases same : record.id = first.id
    · simp [same, ArgumentSpec.record]
    · simp [same]
  · -- an update leaves the attacks that a removal and a creation leave
    have forgotten : (store.update first.id first).attacksWithout first.id =
        store.attacksWithout first.id :=
      (attacksWithout_create (store.remove first.id) first).trans
        (store.attacksWithout_remove first.id)
    exact congrArg (· ∪ later.statedSet) forgotten

/-- Taking back a creation is removing its id. -/
theorem remove_create (store : AttackStore) (spec : ArgumentSpec) :
    (store.create spec).remove spec.id = store.remove spec.id := by
  apply AttackStore.ext
  · simp [remove, create, List.filter_append, ArgumentSpec.record]
  · exact store.attacksWithout_create spec

end AttackStore

/-! ## Graphs -/

namespace Graph

variable {g : Graph} {id : String} {spec : ArgumentSpec}

/-- Removes the argument with an id and creates it again, under its id, from a
specification. -/
def recreate (g : Graph) (id : String) (spec : ArgumentSpec) : Except GraphError Graph :=
  match g.remove id with
  | .error e => .error e
  | .ok (_, rest) => rest.create { spec with id := id }

theorem recreate_eq_ok_iff {changed : Graph} :
    g.recreate id spec = .ok changed ↔
      id ∈ g.ids ∧ (g.discard id).create { spec with id := id } = .ok changed := by
  rw [recreate]
  split
  next e refused =>
    have absent : id ∉ g.ids := by
      intro present
      obtain ⟨argument, member, same⟩ := mem_ids.1 present
      have granted := remove_eq_ok_iff.2 ⟨get?_eq_some_iff.2 ⟨member, same⟩, rfl⟩
      rw [refused] at granted
      cases granted
    simp [absent]
  next argument rest granted =>
    obtain ⟨found, rfl⟩ := remove_eq_ok_iff.1 granted
    obtain ⟨member, same⟩ := get?_eq_some_iff.1 found
    have present : id ∈ g.ids := mem_ids.2 ⟨argument, member, same⟩
    simp [present]

/-- The ids of a reachable graph are trimmed, so normalizing leaves them as they are. -/
theorem Reachable.normalized_with_id (reachable : g.Reachable) (present : id ∈ g.ids) :
    { spec with id := id }.normalized = { spec.normalized with id := id } := by
  obtain ⟨argument, member, rfl⟩ := mem_ids.1 present
  have trimmed : Text.trim argument.id = argument.id :=
    (reachable.toSpec_wellFormed member).record.id.trim_eq
  rw [ArgumentSpec.normalized, trimmed]
  rfl

theorem not_mem_ids_discard (g : Graph) (id : String) : id ∉ (g.discard id).ids := by
  simp [ids_discard]

theorem map_id_records (g : Graph) : g.store.records.map ArgumentRecord.id = g.ids :=
  List.map_map

/-- Whether an update is granted and whether the argument can be recreated is decided by the
same check. -/
theorem Reachable.recreate_eq_ok_iff (reachable : g.Reachable) {changed : Graph} :
    g.recreate id spec = .ok changed ↔
      id ∈ g.ids ∧ { spec.normalized with id := id }.fault? g.categories = none ∧
        changed = (g.discard id).enter { spec.normalized with id := id }
          (g.not_mem_ids_discard id) := by
  rw [Graph.recreate_eq_ok_iff, create_eq_ok_iff, categories_discard]
  constructor
  · rintro ⟨present, faultless, fresh, rfl⟩
    refine ⟨present, ?_, ?_⟩
    · rwa [reachable.normalized_with_id present] at faultless
    · simp only [reachable.normalized_with_id present]
  · rintro ⟨present, faultless, rfl⟩
    have normalized : { spec with id := id }.normalized = { spec.normalized with id := id } :=
      reachable.normalized_with_id present
    refine ⟨present, normalized ▸ faultless, ?_⟩
    simp only [normalized]
    exact ⟨g.not_mem_ids_discard id, trivial⟩

theorem attacks_enter_discard (present : spec.id ∈ g.ids) :
    ((g.discard spec.id).enter spec (g.not_mem_ids_discard spec.id)).attacks =
      (g.restate spec).attacks := by
  apply SortedSet.ext
  intro attack
  rw [mem_attacks_enter, mem_attacks_discard, mem_attacks_restate present]

/-- Restating an argument makes the same arguments as taking it out and entering it again. -/
theorem Symmetric.arguments_restate_perm (symmetric : g.Symmetric) (present : spec.id ∈ g.ids) :
    (g.restate spec).arguments.Perm
      ((g.discard spec.id).enter spec (g.not_mem_ids_discard spec.id)).arguments := by
  apply arguments_perm_of_records_perm (symmetric.restate spec)
    ((symmetric.discard spec.id).enter (g.not_mem_ids_discard spec.id))
    (attacks_enter_discard present).symm
  rw [store_restate present, store_enter, store_discard]
  apply AttackStore.records_update_perm
  · rw [map_id_records]
    exact g.distinct
  · rw [map_id_records]
    exact present

/-- Of two restatements of one argument only the later counts. -/
theorem Symmetric.restate_restate (symmetric : g.Symmetric) {first later : ArgumentSpec}
    (present : first.id ∈ g.ids) (same : later.id = first.id) :
    (g.restate first).restate later = g.restate later := by
  have presentLater : later.id ∈ g.ids := same ▸ present
  apply eq_of_store_eq ((symmetric.restate first).restate later) (symmetric.restate later)
  · simp only [categories_restate]
  · rw [store_restate_restate present presentLater, store_restate presentLater, same,
      AttackStore.update_update]

/-- After an update, another update of the argument is answered as if the first one had not
been made. -/
theorem Symmetric.update_update (symmetric : g.Symmetric) {updated : Graph}
    (granted : g.update id spec = .ok updated) (later : ArgumentSpec) :
    updated.update id later = g.update id later := by
  obtain ⟨present, _, _, rfl⟩ := update_eq_ok_iff.1 granted
  rw [update, update, ids_restate, if_pos present, if_pos present]
  cases kept : keepId id later.normalized with
  | error e => rfl
  | ok named =>
      obtain ⟨_, rfl⟩ := keepId_eq_ok_iff.1 kept
      simp only [categories_restate]
      split
      next => rfl
      next => exact congrArg Except.ok (symmetric.restate_restate present rfl)

/-- In a reachable graph, updating an argument succeeds exactly when removing it and creating
it again does.  Both then have the same attacks and the same argument under every id, and only
the place of the argument differs.  Of the attacks that it took part in before, the update
leaves those that its specification states, and of two updates only the later counts. -/
theorem updating_is_recreating (reachable : g.Reachable) (present : id ∈ g.ids)
    (named : Text.trim spec.id = "" ∨ Text.trim spec.id = id) :
    ((∃ updated, g.update id spec = .ok updated) ↔
      ∃ recreated, g.recreate id spec = .ok recreated) ∧
    (∀ updated recreated, g.update id spec = .ok updated → g.recreate id spec = .ok recreated →
      updated.categories = recreated.categories ∧ updated.attacks = recreated.attacks ∧
        (∀ other, updated.get? other = recreated.get? other) ∧
          updated.ids = g.ids ∧ recreated.ids = g.ids.filter (· ≠ id) ++ [id]) ∧
    ∀ updated, g.update id spec = .ok updated →
      (∀ attack : Attack, attack.source = id ∨ attack.target = id →
        (attack ∈ updated.attacks ↔ attack ∈ (spec.normalized.fillId id).statedSet)) ∧
      ∀ later, updated.update id later = g.update id later := by
  have symmetric := reachable.symmetric
  refine ⟨?succeeds, ?agree, ?traceless⟩
  case succeeds =>
    simp only [update_eq_ok_iff, reachable.recreate_eq_ok_iff]
    constructor
    · rintro ⟨_, _, _, faultless, _⟩
      exact ⟨_, present, faultless, rfl⟩
    · rintro ⟨_, _, faultless, _⟩
      exact ⟨_, present, named, faultless, rfl⟩
  case agree =>
    intro updated recreated granted again
    obtain ⟨_, _, _, rfl⟩ := update_eq_ok_iff.1 granted
    obtain ⟨_, _, rfl⟩ := reachable.recreate_eq_ok_iff.1 again
    refine ⟨?_, (attacks_enter_discard present).symm, ?_, g.ids_restate _, ?_⟩
    · rw [categories_restate, categories_enter, categories_discard]
    · exact get?_eq_of_perm (symmetric.arguments_restate_perm present)
    · rw [ids_enter, ids_discard]
  case traceless =>
    intro updated granted
    refine ⟨fun attack touches => ?_, symmetric.update_update granted⟩
    obtain ⟨_, allowed, _, rfl⟩ := update_eq_ok_iff.1 granted
    rw [mem_attacks_restate present, fillId_eq allowed, ArgumentSpec.mem_statedSet]
    apply or_iff_right
    rintro ⟨_, source, target⟩
    exact touches.elim source target

/-- An argument that attacks itself, one that does not exist and another one that attacks it
back.  Its update leaves the id out, restates one of these attacks from the other end and drops
the rest. -/
theorem updating_is_recreating_of_restated :
    let g := ((Graph.empty .empty).after
      (.create ⟨"A", "a", "eco", none, ["Z", "A", "B"], ["Y"]⟩)).after
        (.create ⟨"B", "b", "env", none, ["A"], []⟩)
    let spec : ArgumentSpec := ⟨" ", "again", "env", some "why", ["X"], ["B", "A"]⟩
    let updated := g.after (.update "A" spec)
    g.Reachable ∧ "A" ∈ g.ids ∧ Text.trim spec.id = "" ∧
      g.attacks.toList = [⟨"A", "A"⟩, ⟨"A", "B"⟩, ⟨"A", "Z"⟩, ⟨"B", "A"⟩, ⟨"Y", "A"⟩] ∧
      updated.attacks.toList = [⟨"A", "A"⟩, ⟨"A", "X"⟩, ⟨"B", "A"⟩] ∧
      g.update "A" spec = .ok updated ∧
      ∃ recreated, g.recreate "A" spec = .ok recreated ∧
        (updated.categories = recreated.categories ∧ updated.attacks = recreated.attacks ∧
          (∀ other, updated.get? other = recreated.get? other) ∧
            updated.ids = g.ids ∧ recreated.ids = g.ids.filter (· ≠ "A") ++ ["A"]) ∧
        (∀ attack : Attack, attack.source = "A" ∨ attack.target = "A" →
          (attack ∈ updated.attacks ↔ attack ∈ (spec.normalized.fillId "A").statedSet)) ∧
        ∀ later, updated.update "A" later = g.update "A" later := by
  intro g spec updated
  have reachable : g.Reachable := .after _ (.after _ (.empty _))
  have present : "A" ∈ g.ids := by decide +kernel
  have blank : Text.trim spec.id = "" := by decide +kernel
  have granted : g.update "A" spec = .ok updated := by decide +kernel
  obtain ⟨succeeds, agree, traceless⟩ := updating_is_recreating reachable present (.inl blank)
  obtain ⟨recreated, again⟩ := succeeds.1 ⟨updated, granted⟩
  exact ⟨reachable, present, blank, by decide +kernel, by decide +kernel, granted, recreated, again,
    agree updated recreated granted again, traceless updated granted⟩

/-! ## Taking back a creation -/

end Graph

/-- An argument with an id taken out of both its views. -/
def Argument.without (argument : Argument) (id : String) : Argument :=
  { argument with
    attacks := argument.attacks.erase id
    attackedBy := argument.attackedBy.erase id }

theorem Argument.without_eq_self_iff {argument : Argument} {id : String} :
    argument.without id = argument ↔ id ∉ argument.attacks ∧ id ∉ argument.attackedBy := by
  constructor
  · intro same
    rw [← same]
    simp [without]
  · rintro ⟨target, attacker⟩
    have targets : argument.attacks.erase id = argument.attacks := SortedSet.ext fun other => by
      rw [SortedSet.mem_erase]
      exact and_iff_left_of_imp fun listed same => target (same ▸ listed)
    have attackers : argument.attackedBy.erase id = argument.attackedBy :=
      SortedSet.ext fun other => by
        rw [SortedSet.mem_erase]
        exact and_iff_left_of_imp fun listed same => attacker (same ▸ listed)
    rw [without, targets, attackers]

namespace Graph

variable {g : Graph} {id : String}

/-- Without an argument of that id, discarding an id takes it out of all views. -/
theorem arguments_discard_of_absent (absent : id ∉ g.ids) :
    (g.discard id).arguments = g.arguments.map (·.without id) := by
  have different : ∀ argument ∈ g.arguments, argument.id ≠ id :=
    fun argument member same => absent (mem_ids.2 ⟨argument, member, same⟩)
  have kept : g.arguments.filter (·.id ≠ id) = g.arguments :=
    List.filter_eq_self.2 fun argument member => decide_eq_true (different argument member)
  change (g.arguments.filter (·.id ≠ id)).map (·.forget id) = _
  rw [kept]
  exact List.map_congr_left fun argument member => if_neg (different argument member)

/-- Discarding what was entered is discarding its id. -/
theorem Symmetric.discard_enter (symmetric : g.Symmetric) {spec : ArgumentSpec}
    (fresh : spec.id ∉ g.ids) : (g.enter spec fresh).discard spec.id = g.discard spec.id := by
  apply eq_of_store_eq ((symmetric.enter fresh).discard spec.id) (symmetric.discard spec.id)
  · rw [categories_discard, categories_discard, categories_enter]
  · rw [store_discard, store_discard, store_enter, AttackStore.remove_create]

/-- Removing an argument right after its creation succeeds and leaves the graph as it was, but
for its id, which is taken out of every view.  So the graph is the same again exactly when no
argument named the id before it existed. -/
theorem removing_undoes_creating (reachable : g.Reachable) {spec : ArgumentSpec} {created : Graph}
    (granted : g.create spec = .ok created) :
    ∃ argument left, created.remove (Text.trim spec.id) = .ok (argument, left) ∧
      left.categories = g.categories ∧
        left.arguments = g.arguments.map (·.without (Text.trim spec.id)) ∧
          (left = g ↔ ∀ a ∈ g.arguments,
            Text.trim spec.id ∉ a.attacks ∧ Text.trim spec.id ∉ a.attackedBy) := by
  obtain ⟨_, fresh, rfl⟩ := create_eq_ok_iff.1 granted
  have present : spec.normalized.id ∈ (g.enter spec.normalized fresh).ids := by
    rw [ids_enter]
    exact List.mem_append_right g.ids List.mem_cons_self
  obtain ⟨argument, member, same⟩ := mem_ids.1 present
  have removed := remove_eq_ok_iff.2 ⟨get?_eq_some_iff.2 ⟨member, same⟩, rfl⟩
  rw [reachable.symmetric.discard_enter fresh] at removed
  have views := g.arguments_discard_of_absent fresh
  refine ⟨argument, _, removed, g.categories_discard _, views, ?_⟩
  constructor
  · intro undone a aMember
    rw [undone] at views
    rw [views] at aMember
    obtain ⟨old, _, rfl⟩ := List.mem_map.1 aMember
    simp [Argument.without, ArgumentSpec.normalized]
  · intro unnamed
    apply ext (g.categories_discard _)
    rw [views]
    exact (List.map_congr_left fun a aMember =>
      Argument.without_eq_self_iff.2 (unnamed a aMember)).trans (List.map_id' g.arguments)

/-- An id that two arguments named before it existed, one as a target and one as an attacker.
They no longer do once it was created and removed, and the rest is as before. -/
theorem removing_undoes_creating_of_dangling :
    let g := ((Graph.empty .empty).after (.create ⟨"A", "a", "eco", none, ["Z", "A"], []⟩)).after
      (.create ⟨"B", "b", "env", none, ["Y"], ["A", "Z"]⟩)
    let spec : ArgumentSpec := ⟨" Z", "z", "env", none, ["B", "Z", "X"], ["A", "B"]⟩
    let created := g.after (.create spec)
    g.Reachable ∧ g.create spec = .ok created ∧
      ∃ argument left, created.remove (Text.trim spec.id) = .ok (argument, left) ∧
        left.categories = g.categories ∧
          left.arguments = g.arguments.map (·.without (Text.trim spec.id)) ∧
            left.attacks.toList = [⟨"A", "A"⟩, ⟨"A", "B"⟩, ⟨"B", "Y"⟩] ∧ left ≠ g := by
  intro g spec created
  have reachable : g.Reachable := .after _ (.after _ (.empty _))
  have granted : g.create spec = .ok created := by decide +kernel
  obtain ⟨argument, left, removed, categories, views, undone⟩ :=
    removing_undoes_creating reachable granted
  have evaluated : (created.remove (Text.trim spec.id)).map Prod.snd =
      .ok (created.after (.remove "Z")) := by decide +kernel
  rw [removed] at evaluated
  obtain rfl := Except.ok.inj evaluated
  exact ⟨reachable, granted, argument, _, removed, categories, views, by decide +kernel,
    mt undone.1 (by decide +kernel)⟩

end Graph

end WeightedArgumentation
