import Mathlib.Data.Set.Basic
import WeightedArgumentation.Proofs.Graph.Symmetry

/-!
# The graph as records and one set of attacks

A graph keeps every attack in the views of the arguments at its ends.  Seen from
outside it is simpler: a list of records, one for each argument, and one set of
attacks.  On this `AttackStore` an edit is a single equation for each part, and
the graph follows these equations, whatever the attacks name and from whichever
side they are stated.

On symmetric graphs nothing else is kept: the categories and the store determine
the graph.
-/

namespace WeightedArgumentation

/-- What is known of an argument apart from its attacks. -/
structure ArgumentRecord where
  id : String
  label : String
  category : String
  description : Option String
  deriving DecidableEq, Repr

def Argument.record (argument : Argument) : ArgumentRecord :=
  ⟨argument.id, argument.label, argument.category, argument.description⟩

/-- Records in their order and one set of attacks. -/
@[ext] structure AttackStore where
  records : List ArgumentRecord
  attacks : Set Attack

namespace ArgumentSpec

def record (spec : ArgumentSpec) : ArgumentRecord :=
  ⟨spec.id, spec.label, spec.category, spec.description⟩

/-- The attacks that a specification states: from its id to each of its targets
and from each of its attackers to its id. -/
def statedSet (spec : ArgumentSpec) : Set Attack :=
  { attack | attack.source = spec.id ∧ attack.target ∈ spec.attacks } ∪
    { attack | attack.target = spec.id ∧ attack.source ∈ spec.attackedBy }

/-- The specification with a blank id filled in. -/
def fillId (spec : ArgumentSpec) (id : String) : ArgumentSpec :=
  if spec.id = "" then { spec with id := id } else spec

theorem mem_statedSet {spec : ArgumentSpec} {attack : Attack} :
    attack ∈ spec.statedSet ↔ attack ∈ spec.stated := by
  rw [stated, Attack.mem_stated]
  rfl

theorem touches_of_mem_statedSet {spec : ArgumentSpec} {attack : Attack}
    (stated : attack ∈ spec.statedSet) : attack.source = spec.id ∨ attack.target = spec.id :=
  touches_of_mem_stated (mem_statedSet.1 stated)

end ArgumentSpec

namespace AttackStore

/-- The attacks of a store that an id takes no part in. -/
def attacksWithout (store : AttackStore) (id : String) : Set Attack :=
  { attack ∈ store.attacks | attack.source ≠ id ∧ attack.target ≠ id }

/-- Appends a record and adds the attacks that its specification states. -/
def create (store : AttackStore) (spec : ArgumentSpec) : AttackStore where
  records := store.records ++ [spec.record]
  attacks := store.attacks ∪ spec.statedSet

/-- Replaces the record of an id in its place, and the attacks of that id by those
that a specification states. -/
def update (store : AttackStore) (id : String) (spec : ArgumentSpec) : AttackStore where
  records := store.records.map fun record => if record.id = id then spec.record else record
  attacks := store.attacksWithout id ∪ spec.statedSet

/-- Deletes the record of an id and the attacks that the id takes part in. -/
def remove (store : AttackStore) (id : String) : AttackStore where
  records := store.records.filter (·.id ≠ id)
  attacks := store.attacksWithout id

/-- The records of specifications with all the attacks that any of them states. -/
def load (specs : List ArgumentSpec) : AttackStore where
  records := specs.map ArgumentSpec.record
  attacks := { attack | ∃ spec ∈ specs, attack ∈ spec.statedSet }

end AttackStore

namespace Argument

/-- An argument is its record with its two views. -/
theorem eq_of_views_eq {a b : Argument} (record : a.record = b.record)
    (attacks : a.attacks = b.attacks) (attackedBy : a.attackedBy = b.attackedBy) : a = b := by
  cases a
  cases b
  simp_all [Argument.record]

@[simp] theorem record_detached (spec : ArgumentSpec) :
    (detached spec).record = spec.record := rfl

@[simp] theorem record_forget (argument : Argument) (id : String) :
    (argument.forget id).record = argument.record := by
  rw [forget]
  split <;> rfl

@[simp] theorem record_linkAll (argument : Argument) (attacks : List Attack) :
    (argument.linkAll attacks).record = argument.record := by
  induction attacks generalizing argument with
  | nil => rfl
  | cons attack rest ih => exact ih (argument.link attack)

@[simp] theorem record_describe (argument : Argument) (spec : ArgumentSpec) :
    (argument.describe spec).record =
      if argument.record.id = spec.id then spec.record else argument.record := by
  rw [describe]
  by_cases same : argument.id = spec.id
  · simp [record, ArgumentSpec.record, same]
  · simp [record, same]

end Argument

namespace Graph

/-- A graph seen as records and one set of attacks. -/
def store (g : Graph) : AttackStore where
  records := g.arguments.map Argument.record
  attacks := { attack | attack ∈ g.attacks }

@[simp] theorem arguments_linkAll (g : Graph) (attacks : List Attack) :
    (g.linkAll attacks).arguments = g.arguments.map (·.linkAll attacks) := by
  rw [linkAll_eq_revise]
  rfl

theorem records_linkAll (g : Graph) (attacks : List Attack) :
    (g.linkAll attacks).store.records = g.store.records := by
  simp [store, Function.comp_def]

theorem store_empty (categories : CategoryConfig) :
    (empty categories).store = ⟨[], ∅⟩ := by
  apply AttackStore.ext
  · rfl
  · apply Set.ext
    intro attack
    simp [store, empty, mem_attacks_iff_stated]

/-- Entering a specification is creation in the store. -/
theorem store_enter {g : Graph} {spec : ArgumentSpec} (fresh : spec.id ∉ g.ids) :
    (g.enter spec fresh).store = g.store.create spec := by
  apply AttackStore.ext
  · rw [enter, records_linkAll]
    simp [store, append, AttackStore.create]
  · apply Set.ext
    intro attack
    simp only [store, AttackStore.create, Set.mem_ofPred_eq, Set.mem_union, mem_attacks_enter,
      ArgumentSpec.mem_statedSet]

/-- Restating an argument is an update in the store. -/
theorem store_restate {g : Graph} {spec : ArgumentSpec} (present : spec.id ∈ g.ids) :
    (g.restate spec).store = g.store.update spec.id spec := by
  apply AttackStore.ext
  · rw [restate, records_linkAll]
    simp [store, revise, forget, AttackStore.update, Function.comp_def]
  · apply Set.ext
    intro attack
    simp only [store, AttackStore.update, AttackStore.attacksWithout, Set.mem_ofPred_eq,
      Set.mem_union, mem_attacks_restate present, ArgumentSpec.mem_statedSet]

theorem store_restate_restate {g : Graph} {first second : ArgumentSpec}
    (firstPresent : first.id ∈ g.ids) (secondPresent : second.id ∈ g.ids) :
    ((g.restate first).restate second).store =
      (g.store.update first.id first).update second.id second := by
  have presentStill : second.id ∈ (g.restate first).ids := by rwa [ids_restate]
  rw [store_restate presentStill, store_restate firstPresent]

/-- Discarding an argument is removal from the store. -/
theorem store_discard {g : Graph} {id : String} :
    (g.discard id).store = g.store.remove id := by
  apply AttackStore.ext
  · simp only [store, discard, forget, revise, delete, AttackStore.remove, List.map_map,
      List.filter_map, Function.comp_def, Argument.record_forget]
    rfl
  · apply Set.ext
    intro attack
    simp only [store, AttackStore.remove, AttackStore.attacksWithout, Set.mem_ofPred_eq,
      mem_attacks_discard]

/-- Assembling specifications is loading them into a store. -/
theorem store_assemble {categories : CategoryConfig} {specs : List ArgumentSpec}
    {distinct : (specs.map ArgumentSpec.id).Nodup} :
    (assemble categories specs distinct).store = AttackStore.load specs := by
  apply AttackStore.ext
  · rw [assemble, records_linkAll]
    simp [store, detached, AttackStore.load, Function.comp_def]
  · apply Set.ext
    intro attack
    simp only [store, AttackStore.load, Set.mem_ofPred_eq, mem_attacks_assemble,
      ArgumentSpec.mem_statedSet]

/-- On symmetric graphs with the same attacks an argument is determined by its record. -/
theorem eq_of_record_eq {g h : Graph} (gSymmetric : g.Symmetric) (hSymmetric : h.Symmetric)
    (attacks : ∀ attack, attack ∈ g.attacks ↔ attack ∈ h.attacks) {a b : Argument}
    (aMember : a ∈ g.arguments) (bMember : b ∈ h.arguments) (record : a.record = b.record) :
    a = b := by
  have ids : a.id = b.id := congrArg ArgumentRecord.id record
  have targets : a.attacks = b.attacks := SortedSet.ext fun target => by
    rw [gSymmetric.mem_attacks_iff aMember, hSymmetric.mem_attacks_iff bMember, attacks, ids]
  have attackers : a.attackedBy = b.attackedBy := SortedSet.ext fun source => by
    rw [gSymmetric.mem_attackedBy_iff aMember, hSymmetric.mem_attackedBy_iff bMember,
      attacks, ids]
  exact Argument.eq_of_views_eq record targets attackers

/-- On symmetric graphs the store leaves nothing out. -/
theorem eq_of_store_eq {g h : Graph} (gSymmetric : g.Symmetric) (hSymmetric : h.Symmetric)
    (categories : g.categories = h.categories) (stores : g.store = h.store) : g = h := by
  have records : g.arguments.map Argument.record = h.arguments.map Argument.record :=
    congrArg AttackStore.records stores
  have attacks (attack : Attack) : attack ∈ g.attacks ↔ attack ∈ h.attacks :=
    iff_of_eq (congrArg (fun store => attack ∈ store.attacks) stores)
  refine ext categories (List.ext_getElem ?_ fun position gBound hBound => ?_)
  · simpa using congrArg List.length records
  · have record : (g.arguments[position]).record = (h.arguments[position]).record := by
      have entries := congrArg (·[position]?) records
      simpa [gBound, hBound] using entries
    exact eq_of_record_eq gSymmetric hSymmetric attacks (List.getElem_mem gBound)
      (List.getElem_mem hBound) record

/-- An id that an update accepts is the current one once it is filled in. -/
theorem fillId_eq {id : String} {spec : ArgumentSpec} (allowed : spec.id = "" ∨ spec.id = id) :
    spec.fillId id = { spec with id := id } := by
  rw [ArgumentSpec.fillId]
  split
  next => rfl
  next named =>
    obtain rfl := allowed.resolve_left named
    rfl

/-- Edits of a graph are edits of its store: a creation appends one record and
adds what its specification states, an update replaces one record and the attacks
of its id, a removal deletes one record and the attacks of its id and hands out
the argument as it stood, and a loaded graph has the records of its
specifications and all that they state. -/
theorem refines_store (g : Graph) :
    (∀ spec changed, g.create spec = .ok changed →
      changed.store = g.store.create spec.normalized) ∧
    (∀ id spec changed, g.update id spec = .ok changed →
      changed.store = g.store.update id (spec.normalized.fillId id)) ∧
    (∀ id argument changed, g.remove id = .ok (argument, changed) →
      g.get? id = some argument ∧ changed.store = g.store.remove id) ∧
    (∀ categories specs loaded, load categories specs = .ok loaded →
      loaded.store = AttackStore.load (specs.map ArgumentSpec.normalized)) := by
  refine ⟨?create, ?update, ?remove, ?load⟩
  case create =>
    intro spec changed granted
    obtain ⟨_, fresh, rfl⟩ := create_eq_ok_iff.1 granted
    exact store_enter fresh
  case update =>
    intro id spec changed granted
    obtain ⟨present, allowed, _, rfl⟩ := update_eq_ok_iff.1 granted
    rw [fillId_eq allowed]
    exact store_restate present
  case remove =>
    intro id argument changed granted
    obtain ⟨found, rfl⟩ := remove_eq_ok_iff.1 granted
    exact ⟨found, store_discard⟩
  case load =>
    intro categories specs loaded granted
    obtain ⟨_, rfl⟩ := load_eq_ok_iff.1 granted
    exact store_assemble

/-- Each edit of a graph whose one argument attacks an id that does not exist yet,
and two specifications that state one attack three times. -/
theorem refines_store_of_pending :
    let g := (Graph.empty .empty).after (.create ⟨"A", "a", "eco", none, ["Z", "A"], []⟩)
    let target : ArgumentSpec := ⟨" Z", "z", "env", none, [], ["Y"]⟩
    let renewed : ArgumentSpec := ⟨"", "renewed", "eco", none, ["Z"], ["Z"]⟩
    let both : ArgumentSpec := ⟨"Y", "y", "eco", none, ["Z", "Z"], []⟩
    (g.create target = .ok (g.after (.create target)) ∧
      (g.after (.create target)).store = g.store.create target.normalized) ∧
    (g.update "A" renewed = .ok (g.after (.update "A" renewed)) ∧
      (g.after (.update "A" renewed)).store =
        g.store.update "A" (renewed.normalized.fillId "A")) ∧
    (∃ argument, g.remove "A" = .ok (argument, g.after (.remove "A")) ∧
      g.get? "A" = some argument ∧ (g.after (.remove "A")).store = g.store.remove "A") ∧
    ∃ loaded, load .empty [target, both] = .ok loaded ∧
      loaded.store = AttackStore.load ([target, both].map ArgumentSpec.normalized) := by
  intro g target renewed both
  have created : g.create target = .ok (g.after (.create target)) := by decide +kernel
  have updated : g.update "A" renewed = .ok (g.after (.update "A" renewed)) := by decide +kernel
  have removed : g.remove "A" =
      .ok ((g.get? "A").get (by decide +kernel), g.after (.remove "A")) := by decide +kernel
  have agree : conflict? .empty [] ([target, both].map ArgumentSpec.normalized) = none := by
    decide +kernel
  have loaded := load_eq_ok_iff.2 ⟨agree, rfl⟩
  exact ⟨⟨created, (refines_store g).1 _ _ created⟩,
    ⟨updated, (refines_store g).2.1 _ _ _ updated⟩,
    ⟨_, removed, (refines_store g).2.2.1 _ _ _ removed⟩,
    ⟨_, loaded, (refines_store g).2.2.2 _ _ _ loaded⟩⟩

end Graph

end WeightedArgumentation
