import Mathlib.Data.List.Nodup
import WeightedArgumentation.Proofs.Graph.WellFormed

/-!
# The order of the specifications of a load

Whether specifications can make a graph together depends on each of them alone and on their
ids being distinct, and the attacks that are recorded are those that any of them states.
Neither depends on their order, although the fault that is reported does.  On symmetric
graphs the records and the attacks determine every argument, so a load in another order
holds the same arguments in that order.
-/

namespace WeightedArgumentation.Graph

variable {g h : Graph}

/-- Whether specifications agree does not depend on their order. -/
theorem conflict?_eq_none_of_perm {categories : CategoryConfig} {taken : List String}
    {specs others : List ArgumentSpec} (perm : specs.Perm others)
    (agree : conflict? categories taken specs = none) :
    conflict? categories taken others = none := by
  obtain ⟨faultless, distinct, fresh⟩ := conflict?_eq_none_iff.1 agree
  refine conflict?_eq_none_iff.2 ⟨?_, (perm.map _).nodup_iff.1 distinct, ?_⟩
  · intro spec member
    exact faultless spec (perm.mem_iff.2 member)
  · intro spec member
    exact fresh spec (perm.mem_iff.2 member)

theorem exists_load_of_perm {categories : CategoryConfig} {specs others : List ArgumentSpec}
    (perm : specs.Perm others) (loads : ∃ g, load categories specs = .ok g) :
    ∃ h, load categories others = .ok h := by
  obtain ⟨g, loaded⟩ := loads
  obtain ⟨agree, rfl⟩ := load_eq_ok_iff.1 loaded
  exact ⟨_, load_eq_ok_iff.2 ⟨conflict?_eq_none_of_perm (perm.map _) agree, rfl⟩⟩

theorem arguments_nodup (g : Graph) : g.arguments.Nodup :=
  List.Nodup.of_map Argument.id g.distinct

/-- Symmetric graphs with the same attacks and the same records in any order hold the same
arguments in any order. -/
theorem arguments_perm_of_records_perm (gSymmetric : g.Symmetric) (hSymmetric : h.Symmetric)
    (attacks : g.attacks = h.attacks) (records : g.store.records.Perm h.store.records) :
    g.arguments.Perm h.arguments := by
  have held {g h : Graph} (gSymmetric : g.Symmetric) (hSymmetric : h.Symmetric)
      (attacks : g.attacks = h.attacks) (records : g.store.records ⊆ h.store.records) :
      g.arguments ⊆ h.arguments := by
    intro a aMember
    obtain ⟨b, bMember, record⟩ := List.mem_map.1 (records (List.mem_map_of_mem aMember))
    have same : ∀ attack, attack ∈ g.attacks ↔ attack ∈ h.attacks := fun _ => by rw [attacks]
    rw [eq_of_record_eq gSymmetric hSymmetric same aMember bMember record.symm]
    exact bMember
  rw [List.perm_ext_iff_of_nodup g.arguments_nodup h.arguments_nodup]
  intro argument
  constructor
  · exact fun member => held gSymmetric hSymmetric attacks records.subset member
  · exact fun member => held hSymmetric gSymmetric attacks.symm records.symm.subset member

/-- Graphs that hold the same arguments in any order have the same argument under every id. -/
theorem get?_eq_of_perm (perm : g.arguments.Perm h.arguments) (id : String) :
    g.get? id = h.get? id := by
  apply Option.ext
  intro argument
  rw [get?_eq_some_iff, get?_eq_some_iff, perm.mem_iff]

/-! ## Loading -/

section Assemble

variable {categories : CategoryConfig} {specs others : List ArgumentSpec}
variable {distinct : (specs.map ArgumentSpec.id).Nodup}
variable {otherDistinct : (others.map ArgumentSpec.id).Nodup}

@[simp] theorem ids_assemble :
    (assemble categories specs distinct).ids = specs.map ArgumentSpec.id := by
  rw [assemble, ids_linkAll]
  simp [ids, detached, Function.comp_def]

theorem attacks_assemble_of_perm (perm : specs.Perm others) :
    (assemble categories specs distinct).attacks =
      (assemble categories others otherDistinct).attacks := by
  apply SortedSet.ext
  intro attack
  simp only [mem_attacks_assemble, perm.mem_iff]

/-- Specifications in another order make the same arguments in another order. -/
theorem arguments_assemble_perm (perm : specs.Perm others) :
    (assemble categories specs distinct).arguments.Perm
      (assemble categories others otherDistinct).arguments := by
  apply arguments_perm_of_records_perm symmetric_assemble symmetric_assemble
  · exact attacks_assemble_of_perm perm
  · rw [store_assemble, store_assemble]
    exact perm.map ArgumentSpec.record

end Assemble

/-- Loading specifications in another order succeeds exactly when loading them does.  The
graph then has the same categories, the same attacks and the same argument under every id,
and only the order of its arguments is another one. -/
theorem load_order_free (categories : CategoryConfig) {specs others : List ArgumentSpec}
    (perm : specs.Perm others) :
    ((∃ g, load categories specs = .ok g) ↔ ∃ h, load categories others = .ok h) ∧
      ∀ g h, load categories specs = .ok g → load categories others = .ok h →
        g.categories = h.categories ∧ g.attacks = h.attacks ∧
          (∀ id, g.get? id = h.get? id) ∧ g.arguments.Perm h.arguments := by
  constructor
  · exact ⟨exists_load_of_perm perm, exists_load_of_perm perm.symm⟩
  · intro g h gLoaded hLoaded
    obtain ⟨_, rfl⟩ := load_eq_ok_iff.1 gLoaded
    obtain ⟨_, rfl⟩ := load_eq_ok_iff.1 hLoaded
    have normalized := perm.map ArgumentSpec.normalized
    refine ⟨?categories, attacks_assemble_of_perm normalized, ?lookup,
      arguments_assemble_perm normalized⟩
    case categories => rw [categories_assemble, categories_assemble]
    case lookup => exact get?_eq_of_perm (arguments_assemble_perm normalized)

/-- Three specifications and their reverse.  One attack is stated twice at its source and once
more at its target, another only at its target, and two have an end that does not exist. -/
theorem load_order_free_of_reversed :
    let categories := CategoryConfig.empty.declare "eco" "Economic" ""
    let specs : List ArgumentSpec :=
      [⟨" A", "a", "eco", some "why", ["B", " B ", "Z"], []⟩,
        ⟨"B", "b", " eco ", none, ["B", ""], ["A"]⟩, ⟨"C", "c\n", "eco", none, [], ["A", "Y"]⟩]
    specs.Perm specs.reverse ∧
      ∃ g h, load categories specs = .ok g ∧ load categories specs.reverse = .ok h ∧
        g.ids = ["A", "B", "C"] ∧ h.ids = ["C", "B", "A"] ∧
          g.categories = h.categories ∧ g.attacks = h.attacks ∧
            (∀ id, g.get? id = h.get? id) ∧ g.arguments.Perm h.arguments := by
  intro categories specs
  have perm : specs.Perm specs.reverse := specs.reverse_perm.symm
  have agree : conflict? categories [] (specs.map ArgumentSpec.normalized) = none := by
    decide +kernel
  have reversed : conflict? categories [] (specs.reverse.map ArgumentSpec.normalized) = none := by
    decide +kernel
  have gLoaded := load_eq_ok_iff.2 ⟨agree, rfl⟩
  have hLoaded := load_eq_ok_iff.2 ⟨reversed, rfl⟩
  have gIds : (specs.map ArgumentSpec.normalized).map ArgumentSpec.id = ["A", "B", "C"] := by
    decide +kernel
  have hIds : (specs.reverse.map ArgumentSpec.normalized).map ArgumentSpec.id =
      ["C", "B", "A"] := by
    decide +kernel
  exact ⟨perm, _, _, gLoaded, hLoaded, ids_assemble.trans gIds, ids_assemble.trans hIds,
    (load_order_free categories perm).2 _ _ gLoaded hLoaded⟩

end WeightedArgumentation.Graph
