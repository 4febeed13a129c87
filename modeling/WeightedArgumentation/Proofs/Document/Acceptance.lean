import WeightedArgumentation.Proofs.Category.TwoTables
import WeightedArgumentation.Proofs.Document.RoundTrip

/-!
# Which documents are accepted

A document is loaded exactly when every node has an id, a label and a category that are not
blank, no two ids are the same after trimming, and every category is one that the document names
in one of its two tables, unless it names none.  What the nodes list as attacks does not matter
(`toGraph_eq_ok_iff`).

The category of a node is trimmed before it is looked up, and the keys of the tables are taken as
they are written.  So a key with blanks around it is configured, but no node can be in it: a node
that names it exactly as the table does is looked up under the trimmed key and refused, unless
that one is named as well (`accepted_iff_trimmed_named`, `blank_edged_category_refused`).
-/

namespace WeightedArgumentation

universe u

/-! ## Specifications -/

/-- Among specifications with distinct ids the first conflict is a fault of one of them. -/
theorem Graph.fault_of_conflict {categories : CategoryConfig} {taken : List String}
    {specs : List ArgumentSpec} {error : GraphError}
    (distinct : (specs.map ArgumentSpec.id).Nodup) (free : ∀ spec ∈ specs, spec.id ∉ taken)
    (conflict : conflict? categories taken specs = some error) :
    ∃ spec ∈ specs, ∃ field fault,
      spec.fault? categories = some (field, fault) ∧ error = .invalid field fault := by
  induction specs generalizing taken with
  | nil => cases conflict
  | cons spec rest ih =>
      rw [conflict?] at conflict
      split at conflict
      next field fault faulty =>
        exact ⟨spec, List.mem_cons_self, field, fault, faulty, (Option.some.inj conflict).symm⟩
      next =>
        rw [if_neg (free spec List.mem_cons_self)] at conflict
        obtain ⟨fresh, restDistinct⟩ := List.nodup_cons.1 distinct
        have restFree : ∀ other ∈ rest, other.id ∉ spec.id :: taken := by
          intro other member listed
          rcases List.mem_cons.1 listed with same | passed
          · exact fresh (same ▸ List.mem_map_of_mem member)
          · exact free other (List.mem_cons_of_mem _ member) passed
        obtain ⟨faulty, member, rest⟩ := ih restDistinct restFree conflict
        exact ⟨faulty, List.mem_cons_of_mem _ member, rest⟩

/-- A specification with an id, a label and a category can only be at fault for a category that
is not configured. -/
theorem ArgumentSpec.fault_of_filled {spec : ArgumentSpec} {categories : CategoryConfig}
    {field : SpecField} {fault : SpecFault} (id : spec.id ≠ "") (label : spec.label ≠ "")
    (category : spec.category ≠ "") (faulty : spec.fault? categories = some (field, fault)) :
    spec.category ∉ categories.keys ∧ field = .category ∧
      fault = .unknownCategory spec.category := by
  have known : categories.contains spec.category = true ↔ spec.category ∈ categories.keys :=
    Table.contains_iff
  rw [fault?, if_neg id, if_neg label, if_neg category] at faulty
  split at faulty
  next unknown =>
    obtain ⟨rfl, rfl⟩ := Prod.mk.inj (Option.some.inj faulty)
    rw [Bool.and_eq_true, Bool.not_eq_true', Bool.not_eq_true'] at unknown
    rw [← known, unknown.2]
    exact ⟨Bool.false_ne_true, rfl, rfl⟩
  next => cases faulty

/-! ## Documents -/

namespace Document

variable {R : Type u} {document : Document R}

/-- The document gives the key a label or a colour. -/
def Names (document : Document R) (key : String) : Prop :=
  key ∈ document.labels.keys ∨ key ∈ document.colors.keys

instance (document : Document R) (key : String) : Decidable (document.Names key) :=
  inferInstanceAs (Decidable (_ ∨ _))

theorem mem_keys_categories {key : String} :
    key ∈ document.categories.keys ↔ document.Names key :=
  CategoryConfig.mem_keys_ofTables

/-- The ids that loading compares are the trimmed ones. -/
theorem ids_normalized (document : Document R) :
    ((document.nodes.map DocumentNode.toSpec).map ArgumentSpec.normalized).map ArgumentSpec.id =
      document.nodes.map fun node => Text.trim node.id := by
  rw [List.map_map, List.map_map]
  rfl

/-- A document is accepted exactly when its nodes have ids, labels and categories, the ids are
distinct after trimming, and the trimmed categories are named, or none are. -/
theorem toGraph_eq_ok_iff :
    (∃ g, document.toGraph = .ok g) ↔
      (∀ node ∈ document.nodes, Text.trim node.id ≠ "" ∧ Text.trim node.label ≠ "" ∧
        Text.trim node.category ≠ "" ∧
          (document.labels.isEmpty = true ∧ document.colors.isEmpty = true ∨
            document.Names (Text.trim node.category))) ∧
        (document.nodes.map fun node => Text.trim node.id).Nodup := by
  have loads : (∃ g, document.toGraph = .ok g) ↔ Graph.conflict? document.categories []
      ((document.nodes.map DocumentNode.toSpec).map ArgumentSpec.normalized) = none := by
    simp only [toGraph, Graph.load_eq_ok_iff]
    constructor
    · rintro ⟨_, agree, _⟩
      exact agree
    · intro agree
      exact ⟨_, agree, rfl⟩
  rw [loads, Graph.conflict?_eq_none_iff, ids_normalized]
  simp only [List.mem_map, forall_exists_index, and_imp, forall_apply_eq_imp_iff₂,
    ArgumentSpec.fault?_eq_none_iff, List.not_mem_nil, not_false_eq_true, implies_true, and_true]
  simp only [← CategoryConfig.isEmpty_ofTables, ← mem_keys_categories]
  rfl

/-- Every node has an id, a label and a category that are not blank, the ids are distinct after
trimming, and every category is named as it is written. -/
structure NamesCategories (document : Document R) : Prop where
  id : ∀ node ∈ document.nodes, Text.trim node.id ≠ ""
  label : ∀ node ∈ document.nodes, Text.trim node.label ≠ ""
  category : ∀ node ∈ document.nodes, Text.trim node.category ≠ ""
  distinct : (document.nodes.map fun node => Text.trim node.id).Nodup
  named : ∀ node ∈ document.nodes, document.Names node.category

/-- The tables are not empty when a node is in a category that they name, so that only its trimmed
category matters. -/
theorem NamesCategories.accepted_iff (names : document.NamesCategories) :
    (∃ g, document.toGraph = .ok g) ↔
      ∀ node ∈ document.nodes, document.Names (Text.trim node.category) := by
  rw [toGraph_eq_ok_iff]
  constructor
  · rintro ⟨accepted, _⟩ node member
    rcases (accepted node member).2.2.2 with ⟨noLabels, noColors⟩ | named
    · have written := names.named node member
      simp only [Table.isEmpty, List.isEmpty_iff] at noLabels noColors
      simp [Names, Table.keys, noLabels, noColors] at written
    · exact named
  · intro named
    refine ⟨fun node member => ?_, names.distinct⟩
    exact ⟨names.id node member, names.label node member, names.category node member,
      .inr (named node member)⟩

/-- Ids and labels are not at fault, so that a document is refused for a category. -/
theorem NamesCategories.cause_of_refused (names : document.NamesCategories) {error : GraphError}
    (refused : document.toGraph = .error error) :
    ∃ node ∈ document.nodes, ¬ document.Names (Text.trim node.category) ∧
      error = .invalid .category (.unknownCategory (Text.trim node.category)) := by
  have distinct := names.distinct
  rw [← ids_normalized] at distinct
  obtain ⟨spec, member, field, fault, faulty, rfl⟩ := Graph.fault_of_conflict distinct
    (fun _ _ => List.not_mem_nil) (Graph.load_eq_error_iff.1 refused)
  rw [List.map_map] at member
  obtain ⟨node, nodeMember, rfl⟩ := List.mem_map.1 member
  obtain ⟨unnamed, rfl, rfl⟩ := ArgumentSpec.fault_of_filled (names.id node nodeMember)
    (names.label node nodeMember) (names.category node nodeMember) faulty
  exact ⟨node, nodeMember, mt mem_keys_categories.2 unnamed, rfl⟩

/-- A document that names the categories of its nodes is accepted exactly when it names them
without their blanks too, whatever the nodes list as attacks.  Otherwise it is refused for the
trimmed category of one of its nodes. -/
theorem accepted_iff_trimmed_named (names : document.NamesCategories) :
    ((∃ g, document.toGraph = .ok g) ↔
      ∀ node ∈ document.nodes, document.Names (Text.trim node.category)) ∧
    ∀ error, document.toGraph = .error error → ∃ node ∈ document.nodes,
      ¬ document.Names (Text.trim node.category) ∧
        error = .invalid .category (.unknownCategory (Text.trim node.category)) := by
  constructor
  · exact names.accepted_iff
  · intro error refused
    exact names.cause_of_refused refused

/-- A category that is named with a blank in front and without it, one of them only by its colour,
and lists with blank, repeated and unknown ids. -/
theorem accepted_iff_trimmed_named_of_both :
    let labels := (Table.empty.set " eco" "Economic").set "env" ""
    let document : Document Float := ⟨Table.empty.set "eco" "#e0b050", labels, none,
      [⟨" A", "a\n", " eco", none, some " ", ["", " B", "B", "Z"], [" A "]⟩,
        ⟨"B", "b", "env", some 7, none, [], ["Y", "\t"]⟩]⟩
    document.NamesCategories ∧
      (∀ node ∈ document.nodes, document.Names (Text.trim node.category)) ∧
      ∃ g, document.toGraph = .ok g := by
  intro labels document
  have names : document.NamesCategories :=
    ⟨by decide +kernel, by decide +kernel, by decide +kernel, by decide +kernel,
      by decide +kernel⟩
  have trimmed : ∀ node ∈ document.nodes, document.Names (Text.trim node.category) := by
    decide +kernel
  exact ⟨names, trimmed, (accepted_iff_trimmed_named names).1.2 trimmed⟩

/-- A document whose only category starts with a blank.  Its node names the category as the
document does and is refused for an unknown one. -/
theorem blank_edged_category_refused :
    let document : Document Float := ⟨.empty, Table.empty.set " eco" "Economic", none,
      [⟨"A", "a", " eco", none, none, [], []⟩]⟩
    document.NamesCategories ∧ document.categories.contains " eco" = true ∧
      document.toGraph = .error (.invalid .category (.unknownCategory "eco")) ∧
      ¬ ∃ g, document.toGraph = .ok g := by
  intro document
  have names : document.NamesCategories :=
    ⟨by decide +kernel, by decide +kernel, by decide +kernel, by decide +kernel,
      by decide +kernel⟩
  have refused : document.toGraph = .error (.invalid .category (.unknownCategory "eco")) := by
    decide +kernel
  refine ⟨names, by decide +kernel, refused, ?_⟩
  rintro ⟨g, accepted⟩
  rw [refused] at accepted
  cases accepted

end Document

end WeightedArgumentation
