import WeightedArgumentation.Category

/-!
# Categories split into two tables

A configuration is stored as a table of labels and a table of colours over the same keys.  Two
tables that were not made by splitting one configuration need not agree on their keys.  They
describe the labelled keys in their order and then those that only have a colour, in theirs
(`rows_ofTables`).

When the tables come from a configuration every colour belongs to a labelled key, so no key is
added and the labelled ones are the configuration again.  Hence splitting loses nothing, and what
two tables describe is not changed by splitting and rebuilding it (`rebuilding_undoes_splitting`).
-/

namespace WeightedArgumentation.CategoryConfig

/-! ## Declaring the rows of a table -/

section Declare

variable {config : CategoryConfig} {key label color : String}

theorem rows_declare_of_new (new : key ∉ config.keys) :
    (config.declare key label color).table.rows = config.table.rows ++ [(key, ⟨label, color⟩)] :=
  Table.put_of_absent new

theorem keys_declare_of_new (new : key ∉ config.keys) :
    (config.declare key label color).keys = config.keys ++ [key] := by
  rw [CategoryConfig.keys, declare, Table.keys_set]
  exact if_neg new

end Declare

/-- Declaring categories of new keys adds them at the end. -/
theorem rows_foldl_declare (color : String → String) {rows : List (String × String)}
    {config : CategoryConfig} (distinct : (config.keys ++ rows.map Prod.fst).Nodup) :
    (rows.foldl (fun config row => config.declare row.1 row.2 (color row.1)) config).table.rows =
      config.table.rows ++ rows.map fun row => (row.1, ⟨row.2, color row.1⟩) := by
  induction rows generalizing config with
  | nil => simp
  | cons row rest ih =>
      have new : row.1 ∉ config.keys := by
        intro present
        exact (List.nodup_append.1 distinct).2.2 row.1 present row.1 (by simp) rfl
      rw [List.foldl_cons, ih]
      · simp [rows_declare_of_new new]
      · simpa [keys_declare_of_new new] using distinct

/-- Colours of new keys add categories at the end, which are their own labels. -/
theorem rows_foldl_declare_missing {rows : List (String × String)} {config : CategoryConfig}
    (distinct : (rows.map Prod.fst).Nodup) :
    (rows.foldl (fun config row =>
      if config.contains row.1 then config else config.declare row.1 row.1 row.2)
        config).table.rows =
      config.table.rows ++ (rows.filter fun row => row.1 ∉ config.keys).map
        fun row => (row.1, ⟨row.1, row.2⟩) := by
  induction rows generalizing config with
  | nil => simp
  | cons row rest ih =>
      have contained : config.contains row.1 = true ↔ row.1 ∈ config.keys := Table.contains_iff
      obtain ⟨fresh, restDistinct⟩ := List.nodup_cons.1 distinct
      rw [List.foldl_cons]
      by_cases present : row.1 ∈ config.keys
      · rw [if_pos (contained.2 present), ih restDistinct,
          List.filter_cons_of_neg (by simpa using present)]
      · -- the rows behind have other keys, so that they are as new as before
        have later : (rest.filter fun row' => row'.1 ∉ config.keys ++ [row.1]) =
            rest.filter fun row' => row'.1 ∉ config.keys := by
          apply List.filter_congr
          intro other member
          have different : other.1 ≠ row.1 := by
            intro same
            exact fresh (same ▸ List.mem_map_of_mem member)
          simp [different]
        rw [if_neg (mt contained.1 present), ih restDistinct, keys_declare_of_new present, later,
          rows_declare_of_new present, List.filter_cons_of_pos (by simpa using present),
          List.map_cons, List.append_assoc, List.singleton_append]

/-! ## What two tables describe -/

/-- Two tables describe the labelled keys in their order and then those that only have a
colour, in theirs. -/
theorem rows_ofTables (labels colors : Table String) :
    (ofTables labels colors).table.rows =
      (labels.rows.map fun row => (row.1, ⟨row.2, (colors.get? row.1).getD ""⟩)) ++
        (colors.rows.filter fun row => row.1 ∉ labels.keys).map
          fun row => (row.1, ⟨row.1, row.2⟩) := by
  let color (key : String) : String := (colors.get? key).getD ""
  have labelled : (labels.rows.foldl (fun config row => config.declare row.1 row.2 (color row.1))
      empty).table.rows = labels.rows.map fun row => (row.1, ⟨row.2, color row.1⟩) :=
    rows_foldl_declare color labels.distinct
  have keys : (labels.rows.foldl (fun config row => config.declare row.1 row.2 (color row.1))
      empty).keys = labels.keys := by
    rw [CategoryConfig.keys, Table.keys, labelled]
    simp [Table.keys, Function.comp_def]
  rw [ofTables, rows_foldl_declare_missing colors.distinct, labelled, keys]

theorem keys_ofTables (labels colors : Table String) :
    (ofTables labels colors).keys = labels.keys ++ colors.keys.filter (· ∉ labels.keys) := by
  simp [CategoryConfig.keys, Table.keys, rows_ofTables, List.filter_map, Function.comp_def]

theorem mem_keys_ofTables {labels colors : Table String} {key : String} :
    key ∈ (ofTables labels colors).keys ↔ key ∈ labels.keys ∨ key ∈ colors.keys := by
  rw [keys_ofTables, List.mem_append, List.mem_filter, decide_eq_true_eq]
  grind

theorem isEmpty_ofTables {labels colors : Table String} :
    (ofTables labels colors).isEmpty = true ↔
      labels.isEmpty = true ∧ colors.isEmpty = true := by
  simp only [CategoryConfig.isEmpty, Table.isEmpty, List.isEmpty_iff, rows_ofTables,
    List.append_eq_nil_iff, List.map_eq_nil_iff, and_congr_right_iff]
  intro empty
  simp [Table.keys, empty, List.eq_nil_iff_forall_not_mem]

/-- A category is described by the row of its label and that of its colour. -/
theorem get?_ofTables_eq_some_iff {labels colors : Table String} {key : String}
    {category : Category} :
    (ofTables labels colors).get? key = some category ↔
      (∃ label, labels.get? key = some label ∧ category = ⟨label, (colors.get? key).getD ""⟩) ∨
        key ∉ labels.keys ∧ ∃ color, colors.get? key = some color ∧ category = ⟨key, color⟩ := by
  rw [CategoryConfig.get?, Table.get?_eq_some_iff, rows_ofTables, List.mem_append]
  apply or_congr
  case h₁ =>
    simp only [List.mem_map, Prod.mk.injEq, Table.get?_eq_some_iff]
    constructor
    · rintro ⟨⟨_, label⟩, member, rfl, rfl⟩
      exact ⟨label, member, rfl⟩
    · rintro ⟨label, member, rfl⟩
      exact ⟨(key, label), member, rfl, rfl⟩
  case h₂ =>
    simp only [List.mem_map, List.mem_filter, decide_eq_true_eq, Prod.mk.injEq,
      Table.get?_eq_some_iff]
    constructor
    · rintro ⟨⟨_, color⟩, ⟨member, unlabelled⟩, rfl, rfl⟩
      exact ⟨unlabelled, color, member, rfl⟩
    · rintro ⟨unlabelled, color, member, rfl⟩
      exact ⟨(key, color), ⟨member, unlabelled⟩, rfl, rfl⟩

theorem get?_ofTables (labels colors : Table String) (key : String) :
    (ofTables labels colors).get? key =
      if key ∈ labels.keys ∨ key ∈ colors.keys then
        some ⟨(labels.get? key).getD key, (colors.get? key).getD ""⟩
      else none := by
  have labelled : (labels.get? key).isSome = true ↔ key ∈ labels.keys := Table.contains_iff
  have colored : (colors.get? key).isSome = true ↔ key ∈ colors.keys := Table.contains_iff
  apply Option.ext
  intro category
  rw [get?_ofTables_eq_some_iff]
  simp only [← labelled, ← colored]
  cases labels.get? key <;> cases colors.get? key <;> simp [eq_comm]

/-! ## Splitting and rebuilding -/

/-- A configuration is rebuilt from its labels and its colours. -/
theorem ofTables_labels_colors (config : CategoryConfig) :
    ofTables config.labels config.colors = config := by
  have unlabelled : (config.colors.rows.filter fun row => row.1 ∉ config.labels.keys) = [] := by
    rw [List.filter_eq_nil_iff]
    intro row member
    have listed : row.1 ∈ config.colors.keys := List.mem_map_of_mem member
    rw [colors, Table.keys_map] at listed
    simpa [labels] using listed
  have restored : ∀ row ∈ config.table.rows,
      (row.1, Category.mk row.2.label ((config.colors.get? row.1).getD "")) = row := by
    intro row member
    simp [colors, Table.get?_eq_some_iff.2 member]
  have labelled : (config.labels.rows.map fun row =>
      (row.1, Category.mk row.2 ((config.colors.get? row.1).getD ""))) = config.table.rows := by
    rw [labels, Table.map, List.map_map]
    exact (List.map_congr_left restored).trans (List.map_id' _)
  have rows : (ofTables config.labels config.colors).table.rows = config.table.rows := by
    rw [rows_ofTables, unlabelled, labelled, List.map_nil, List.append_nil]
  exact congrArg CategoryConfig.mk (Table.ext rows)

/-- Every configuration is rebuilt from its labels and its colours, in its order.  Any two tables
describe the keys of the first in their order and then the keys that only the second has, in
theirs, each once.  A key has its label, or itself without one, and its colour, or an empty one.
Splitting and rebuilding this changes nothing. -/
theorem rebuilding_undoes_splitting (labels colors : Table String) :
    (∀ config : CategoryConfig, ofTables config.labels config.colors = config) ∧
    (ofTables labels colors).keys = labels.keys ++ colors.keys.filter (· ∉ labels.keys) ∧
    (ofTables labels colors).keys.Nodup ∧
    (∀ key, (ofTables labels colors).get? key =
      if key ∈ labels.keys ∨ key ∈ colors.keys then
        some ⟨(labels.get? key).getD key, (colors.get? key).getD ""⟩
      else none) ∧
    ofTables (ofTables labels colors).labels (ofTables labels colors).colors =
      ofTables labels colors := by
  refine ⟨ofTables_labels_colors, keys_ofTables labels colors, ?once, get?_ofTables labels colors,
    ofTables_labels_colors _⟩
  case once => exact (ofTables labels colors).table.distinct

/-- Tables whose keys overlap and come in another order. -/
example :
    let labels := (Table.empty.set "env" "Environmental").set "eco" "Economic"
    let colors := ((Table.empty.set "care" "#7777e0").set "eco" "#e0b050").set "law" ""
    (ofTables labels colors).table.rows =
      [("env", ⟨"Environmental", ""⟩), ("eco", ⟨"Economic", "#e0b050"⟩),
        ("care", ⟨"care", "#7777e0"⟩), ("law", ⟨"law", ""⟩)] := by
  decide +kernel

end WeightedArgumentation.CategoryConfig
