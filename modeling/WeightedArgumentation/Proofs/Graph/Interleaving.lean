import WeightedArgumentation.Graph.Snapshot
import WeightedArgumentation.Proofs.Graph.Store

/-!
# Interleaved updates of two arguments

Two clients update different arguments of one graph, in either order.  An update replaces all
attacks that its argument takes part in, so the two updates touch the same attacks only where
the arguments attack one another: there the later one decides.  Everywhere else both orders
leave what neither argument takes part in and add what both specifications state.

So no update is lost exactly when the specifications say the same about the attacks between
the two arguments.
-/

namespace WeightedArgumentation

/-- The attacks of two arguments on one another, in either direction. -/
def Attack.between (a b : String) : Set Attack :=
  { attack | (attack.source = a ∧ attack.target = b) ∨ (attack.source = b ∧ attack.target = a) }

theorem Attack.mem_between {a b : String} {attack : Attack} :
    attack ∈ between a b ↔
      (attack.source = a ∧ attack.target = b) ∨ (attack.source = b ∧ attack.target = a) :=
  Iff.rfl

theorem Attack.between_comm (a b : String) : between a b = between b a :=
  Set.ext fun _ => or_comm

/-! ## Stores -/

namespace AttackStore

variable {store : AttackStore} {first second : ArgumentSpec}

/-- After two updates the attacks are those that neither id takes part in, what the first
specification states apart from the second id, and all that the second one states. -/
theorem mem_attacks_update_update {attack : Attack} :
    attack ∈ ((store.update first.id first).update second.id second).attacks ↔
      (attack ∈ (store.remove first.id).attacksWithout second.id ∨
        attack ∈ first.statedSet ∧ attack.source ≠ second.id ∧ attack.target ≠ second.id) ∨
          attack ∈ second.statedSet := by
  change ((attack ∈ store.attacksWithout first.id ∨ attack ∈ first.statedSet) ∧ _) ∨ _ ↔ _
  rw [or_and_right]
  rfl

/-- Between the two ids the second update decides. -/
theorem mem_attacks_update_update_of_between {attack : Attack}
    (between : attack ∈ Attack.between first.id second.id) :
    attack ∈ ((store.update first.id first).update second.id second).attacks ↔
      attack ∈ second.statedSet := by
  rw [mem_attacks_update_update]
  apply or_iff_right
  rw [Attack.mem_between] at between
  rintro (⟨_, source, target⟩ | ⟨_, source, target⟩)
  · exact between.elim (fun forth => target forth.2) fun back => source back.1
  · exact between.elim (fun forth => target forth.2) fun back => source back.1

/-- Apart from the attacks between the two ids, nothing that is stated is lost. -/
theorem mem_attacks_update_update_of_apart (different : first.id ≠ second.id) {attack : Attack}
    (apart : attack ∉ Attack.between first.id second.id) :
    attack ∈ ((store.update first.id first).update second.id second).attacks ↔
      attack ∈ (store.remove first.id).attacksWithout second.id ∨
        attack ∈ first.statedSet ∨ attack ∈ second.statedSet := by
  have kept : attack ∈ first.statedSet → attack.source ≠ second.id ∧ attack.target ≠ second.id := by
    intro stated
    have touches := ArgumentSpec.touches_of_mem_statedSet stated
    rw [Attack.mem_between] at apart
    grind
  rw [mem_attacks_update_update, or_assoc, and_iff_left_of_imp kept]

/-- What two ids take no part in does not depend on which of them is removed first. -/
theorem attacksWithout_remove_comm (store : AttackStore) (a b : String) :
    (store.remove a).attacksWithout b = (store.remove b).attacksWithout a := by
  apply Set.ext
  intro attack
  change (attack ∈ store.attacks ∧ _) ∧ _ ↔ (attack ∈ store.attacks ∧ _) ∧ _
  exact and_right_comm

/-- Records of different ids may be replaced in either order. -/
theorem records_update_comm (store : AttackStore) (different : first.id ≠ second.id) :
    ((store.update first.id first).update second.id second).records =
      ((store.update second.id second).update first.id first).records := by
  simp only [update, List.map_map]
  apply List.map_congr_left
  intro record _
  by_cases isFirst : record.id = first.id
  · simp [isFirst, different, ArgumentSpec.record]
  · by_cases isSecond : record.id = second.id
    · simp [isSecond, different.symm, ArgumentSpec.record]
    · simp [isFirst, isSecond]

end AttackStore

/-! ## Graphs -/

namespace Graph

/-- Two graphs differ at most in some attacks: they have the same categories, the same records
in the same order and all other attacks in common, in the relation and in every view. -/
structure AgreesApartFrom (g h : Graph) (disputed : Set Attack) : Prop where
  categories : g.categories = h.categories
  records : g.arguments.map Argument.record = h.arguments.map Argument.record
  attacks : ∀ attack ∉ disputed, attack ∈ g.attacks ↔ attack ∈ h.attacks
  targets : ∀ id a b, g.get? id = some a → h.get? id = some b →
    ∀ target, ⟨id, target⟩ ∉ disputed → (target ∈ a.attacks ↔ target ∈ b.attacks)
  attackers : ∀ id a b, g.get? id = some a → h.get? id = some b →
    ∀ source, ⟨source, id⟩ ∉ disputed → (source ∈ a.attackedBy ↔ source ∈ b.attackedBy)

variable {g h : Graph} {disputed : Set Attack}

/-- On symmetric graphs the views follow the relation. -/
theorem Symmetric.agreesApartFrom (gSymmetric : g.Symmetric) (hSymmetric : h.Symmetric)
    (categories : g.categories = h.categories) (records : g.store.records = h.store.records)
    (attacks : ∀ attack ∉ disputed, attack ∈ g.attacks ↔ attack ∈ h.attacks) :
    g.AgreesApartFrom h disputed := by
  refine ⟨categories, records, attacks, ?targets, ?attackers⟩
  case targets =>
    intro id a b aFound bFound target undisputed
    obtain ⟨aMember, rfl⟩ := get?_eq_some_iff.1 aFound
    obtain ⟨bMember, same⟩ := get?_eq_some_iff.1 bFound
    rw [gSymmetric.mem_attacks_iff aMember, hSymmetric.mem_attacks_iff bMember, same]
    exact attacks _ undisputed
  case attackers =>
    intro id a b aFound bFound source undisputed
    obtain ⟨aMember, rfl⟩ := get?_eq_some_iff.1 aFound
    obtain ⟨bMember, same⟩ := get?_eq_some_iff.1 bFound
    rw [gSymmetric.mem_attackedBy_iff aMember, hSymmetric.mem_attackedBy_iff bMember, same]
    exact attacks _ undisputed

theorem snapshot_eq_iff (categories : g.categories = h.categories) :
    g.snapshot = h.snapshot ↔ g = h := by
  constructor
  · intro same
    exact ext categories (congrArg GraphSnapshot.nodes same)
  · intro same
    rw [same]

section Restating

variable {first second : ArgumentSpec}

/-- Between two restated arguments stands what the later specification states. -/
theorem attacks_restate_restate_between (firstPresent : first.id ∈ g.ids)
    (secondPresent : second.id ∈ g.ids) :
    ((g.restate first).restate second).store.attacks ∩ Attack.between first.id second.id =
      second.statedSet ∩ Attack.between first.id second.id := by
  apply Set.ext
  intro attack
  rw [store_restate_restate firstPresent secondPresent]
  exact and_congr_left AttackStore.mem_attacks_update_update_of_between

/-- Restating two arguments in either order makes a difference only between them. -/
theorem Symmetric.restate_comm (symmetric : g.Symmetric) (different : first.id ≠ second.id)
    (firstPresent : first.id ∈ g.ids) (secondPresent : second.id ∈ g.ids) :
    ((g.restate first).restate second).AgreesApartFrom ((g.restate second).restate first)
      (Attack.between first.id second.id) := by
  have one := store_restate_restate firstPresent secondPresent
  have other := store_restate_restate secondPresent firstPresent
  apply Symmetric.agreesApartFrom ((symmetric.restate first).restate second)
    ((symmetric.restate second).restate first)
  · simp only [categories_restate]
  · rw [one, other, AttackStore.records_update_comm _ different]
  · intro attack apart
    change attack ∈ ((g.restate first).restate second).store.attacks ↔
      attack ∈ ((g.restate second).restate first).store.attacks
    rw [one, other, AttackStore.mem_attacks_update_update_of_apart different apart,
      AttackStore.mem_attacks_update_update_of_apart different.symm
        (Attack.between_comm _ _ ▸ apart),
      AttackStore.attacksWithout_remove_comm]
    exact or_congr_right or_comm

/-- The order does not matter exactly when both specifications state the same between them. -/
theorem Symmetric.restate_comm_iff (symmetric : g.Symmetric) (different : first.id ≠ second.id)
    (firstPresent : first.id ∈ g.ids) (secondPresent : second.id ∈ g.ids) :
    (g.restate first).restate second = (g.restate second).restate first ↔
      first.statedSet ∩ Attack.between first.id second.id =
        second.statedSet ∩ Attack.between first.id second.id := by
  have later := attacks_restate_restate_between firstPresent secondPresent
  have earlier := attacks_restate_restate_between secondPresent firstPresent
  rw [Attack.between_comm] at earlier
  rw [← later, ← earlier]
  constructor
  · intro same
    rw [same]
  · intro agree
    have apart := symmetric.restate_comm different firstPresent secondPresent
    apply eq_of_store_eq ((symmetric.restate first).restate second)
      ((symmetric.restate second).restate first) apart.categories
    apply AttackStore.ext apart.records
    apply Set.ext
    intro attack
    by_cases between : attack ∈ Attack.between first.id second.id
    · have both := Set.ext_iff.1 agree attack
      simpa only [Set.mem_inter_iff, between, and_true] using both.symm
    · exact apart.attacks attack between

end Restating

/-- Updates of two arguments that are both granted can be made in either order.  Both orders
lead to the same graph exactly when the specifications state the same attacks between the two
arguments.  In any case the results differ at most in these attacks, which are those that the
later update states. -/
theorem interleaved_updates (reachable : g.Reachable) {a b : String} (different : a ≠ b)
    {s t : ArgumentSpec} {ga gb : Graph} (aGranted : g.update a s = .ok ga)
    (bGranted : g.update b t = .ok gb) :
    ∃ ab ba, ga.update b t = .ok ab ∧ gb.update a s = .ok ba ∧
      (ab.snapshot = ba.snapshot ↔
        (s.normalized.fillId a).statedSet ∩ Attack.between a b =
          (t.normalized.fillId b).statedSet ∩ Attack.between a b) ∧
      ab.AgreesApartFrom ba (Attack.between a b) ∧
      ab.store.attacks ∩ Attack.between a b =
        (t.normalized.fillId b).statedSet ∩ Attack.between a b ∧
      ba.store.attacks ∩ Attack.between a b =
        (s.normalized.fillId a).statedSet ∩ Attack.between a b := by
  have symmetric := reachable.symmetric
  obtain ⟨aPresent, aNamed, aFaultless, rfl⟩ := update_eq_ok_iff.1 aGranted
  obtain ⟨bPresent, bNamed, bFaultless, rfl⟩ := update_eq_ok_iff.1 bGranted
  rw [fillId_eq aNamed, fillId_eq bNamed]
  generalize first_eq : { s.normalized with id := a } = first at aFaultless ⊢
  generalize second_eq : { t.normalized with id := b } = second at bFaultless ⊢
  obtain rfl : first.id = a := by rw [← first_eq]
  obtain rfl : second.id = b := by rw [← second_eq]
  refine ⟨(g.restate first).restate second, (g.restate second).restate first, ?bLater, ?aLater,
    ?snapshots, ?apart, ?between, ?betweenBack⟩
  case bLater =>
    rw [update_eq_ok_iff, ids_restate, categories_restate, second_eq]
    exact ⟨bPresent, bNamed, bFaultless, rfl⟩
  case aLater =>
    rw [update_eq_ok_iff, ids_restate, categories_restate, first_eq]
    exact ⟨aPresent, aNamed, aFaultless, rfl⟩
  case snapshots =>
    have apart := symmetric.restate_comm different aPresent bPresent
    rw [snapshot_eq_iff apart.categories]
    exact symmetric.restate_comm_iff different aPresent bPresent
  case apart => exact symmetric.restate_comm different aPresent bPresent
  case between => exact attacks_restate_restate_between aPresent bPresent
  case betweenBack =>
    rw [Attack.between_comm]
    exact attacks_restate_restate_between bPresent aPresent

/-- Two arguments that attack one another.  In the first pair of updates one specification
states both attacks again and the other only one of them, so the other order loses an attack.
In the second pair both state the same, each from its own end. -/
theorem interleaved_updates_of_mutual :
    let g := (((Graph.empty .empty).after
      (.create ⟨"A", "a", "eco", none, ["B", "A", "Z"], []⟩)).after
        (.create ⟨"B", "b", "env", none, ["A"], ["C"]⟩)).after
          (.create ⟨"C", "c", "care", none, [], ["A"]⟩)
    let s : ArgumentSpec := ⟨"A", "first", "eco", none, ["B", "C"], ["B", "Y"]⟩
    let partly : ArgumentSpec := ⟨" ", "second", "env", none, ["A", "B"], ["C"]⟩
    let alike : ArgumentSpec := ⟨"B", "third", "env", none, [" A "], ["A", "A", "C"]⟩
    let ga := g.after (.update "A" s)
    let gb := g.after (.update "B" partly)
    let gc := g.after (.update "B" alike)
    g.Reachable ∧ "A" ≠ "B" ∧ g.update "A" s = .ok ga ∧ g.update "B" partly = .ok gb ∧
      g.update "B" alike = .ok gc ∧
      (∃ ab ba, ga.update "B" partly = .ok ab ∧ gb.update "A" s = .ok ba ∧
        ab.snapshot ≠ ba.snapshot ∧ ab.AgreesApartFrom ba (Attack.between "A" "B")) ∧
      ∃ ac ca, ga.update "B" alike = .ok ac ∧ gc.update "A" s = .ok ca ∧
        ac.snapshot = ca.snapshot := by
  intro g s partly alike ga gb gc
  have reachable : g.Reachable := .after _ (.after _ (.after _ (.empty _)))
  have different : "A" ≠ "B" := by decide
  have granted : g.update "A" s = .ok ga := by decide +kernel
  have partlyGranted : g.update "B" partly = .ok gb := by decide +kernel
  have alikeGranted : g.update "B" alike = .ok gc := by decide +kernel
  obtain ⟨ab, ba, abRuns, baRuns, sameAB, apart, _⟩ :=
    interleaved_updates reachable different granted partlyGranted
  obtain ⟨ac, ca, acRuns, caRuns, sameAC, _⟩ :=
    interleaved_updates reachable different granted alikeGranted
  refine ⟨reachable, different, granted, partlyGranted, alikeGranted,
    ⟨ab, ba, abRuns, baRuns, mt sameAB.1 ?lost, apart⟩, ac, ca, acRuns, caRuns, sameAC.2 ?kept⟩
  case lost =>
    intro same
    have forth := Set.ext_iff.1 same ⟨"A", "B"⟩
    simp only [Set.mem_inter_iff, Attack.mem_between, ArgumentSpec.mem_statedSet] at forth
    revert forth
    decide +kernel
  case kept =>
    apply Set.ext
    rintro ⟨source, target⟩
    apply and_congr_left
    rw [ArgumentSpec.mem_statedSet, ArgumentSpec.mem_statedSet]
    rintro (⟨rfl, rfl⟩ | ⟨rfl, rfl⟩)
    · decide +kernel
    · decide +kernel

end Graph

end WeightedArgumentation
