/-!
# Insertion-ordered tables

A table keeps rows of a text key and a value in the order in which the keys
first arrived, one row for each key.  Writing a key that is present replaces
its value and leaves its place.
-/

namespace WeightedArgumentation

universe u v

/-- Rows of distinct keys and their values, in order of arrival. -/
structure Table (α : Type u) where
  rows : List (String × α)
  distinct : (rows.map Prod.fst).Nodup

namespace Table

variable {α : Type u} {β : Type v}

instance [DecidableEq α] : DecidableEq (Table α) := fun s t =>
  if h : s.rows = t.rows then
    .isTrue (by cases s; cases t; simp_all)
  else
    .isFalse fun e => h (congrArg rows e)

/-- Tables are determined by their rows. -/
theorem ext {s t : Table α} (h : s.rows = t.rows) : s = t := by
  cases s; cases t; simp_all

/-- The table without rows. -/
def empty : Table α := ⟨[], .nil⟩

/-- The keys in order of arrival. -/
def keys (table : Table α) : List String := table.rows.map Prod.fst

/-- The values in the order of their keys. -/
def values (table : Table α) : List α := table.rows.map Prod.snd

/-- The number of rows. -/
def size (table : Table α) : Nat := table.rows.length

/-- Whether there is no row. -/
def isEmpty (table : Table α) : Bool := table.rows.isEmpty

/-- The value of the first row with this key. -/
def find (key : String) : List (String × α) → Option α
  | [] => none
  | (k, value) :: rest => if k = key then some value else find key rest

/-- The value of a key. -/
def get? (table : Table α) (key : String) : Option α := find key table.rows

/-- Whether a key is present. -/
def contains (table : Table α) (key : String) : Bool := (table.get? key).isSome

theorem find_isSome_iff {key : String} {rows : List (String × α)} :
    (find key rows).isSome = true ↔ key ∈ rows.map Prod.fst := by
  induction rows with
  | nil => simp [find]
  | cons row rest ih =>
    obtain ⟨k, value⟩ := row
    by_cases here : k = key
    · simp [find, here]
    · simp [find, here, ih, Ne.symm here]

/-- A key is present exactly when it is one of the `keys`. -/
@[simp] theorem contains_iff {table : Table α} {key : String} :
    table.contains key = true ↔ key ∈ table.keys :=
  find_isSome_iff

theorem find_eq_some_iff {key : String} {value : α} {rows : List (String × α)}
    (distinct : (rows.map Prod.fst).Nodup) :
    find key rows = some value ↔ (key, value) ∈ rows := by
  induction rows with
  | nil => simp [find]
  | cons row rest ih =>
    obtain ⟨k, other⟩ := row
    simp only [List.map_cons, List.nodup_cons] at distinct
    unfold find
    split
    · rename_i here
      subst here
      constructor
      · rintro ⟨⟩
        simp
      · intro member
        rcases List.mem_cons.1 member with h | member
        · cases h; rfl
        · exact absurd (List.mem_map_of_mem member) distinct.1
    · rename_i elsewhere
      rw [ih distinct.2]
      simp [Ne.symm elsewhere]

/-- A value is found exactly when its row is in the table. -/
theorem get?_eq_some_iff {table : Table α} {key : String} {value : α} :
    table.get? key = some value ↔ (key, value) ∈ table.rows :=
  find_eq_some_iff table.distinct

/-- Replaces the value of a key in its place, or adds a row at the end. -/
def put (key : String) (value : α) : List (String × α) → List (String × α)
  | [] => [(key, value)]
  | (k, old) :: rest =>
      if k = key then (key, value) :: rest else (k, old) :: put key value rest

theorem keys_put {key : String} {value : α} {rows : List (String × α)} :
    (put key value rows).map Prod.fst =
      if key ∈ rows.map Prod.fst then rows.map Prod.fst
      else rows.map Prod.fst ++ [key] := by
  induction rows with
  | nil => simp [put]
  | cons row rest ih =>
    obtain ⟨k, old⟩ := row
    unfold put
    split
    · rename_i here
      simp [here]
    · rename_i elsewhere
      simp only [List.map_cons, ih, List.mem_cons, Ne.symm elsewhere, false_or]
      split <;> rfl

theorem distinct_put {key : String} {value : α} {rows : List (String × α)}
    (h : (rows.map Prod.fst).Nodup) : ((put key value rows).map Prod.fst).Nodup := by
  rw [keys_put]
  split
  · exact h
  · rename_i absent
    simp only [List.nodup_append, h, List.nodup_cons, List.not_mem_nil, not_false_eq_true,
      List.nodup_nil, and_self, List.mem_cons, or_false, ne_eq, forall_eq, true_and]
    intro k member same
    exact absent (same ▸ member)

theorem put_of_absent {key : String} {value : α} {rows : List (String × α)}
    (absent : key ∉ rows.map Prod.fst) : put key value rows = rows ++ [(key, value)] := by
  induction rows with
  | nil => rfl
  | cons row rest ih =>
      obtain ⟨k, old⟩ := row
      simp only [List.map_cons, List.mem_cons, not_or] at absent
      rw [put, if_neg (Ne.symm absent.1), ih absent.2, List.cons_append]

/-- Writes a value under a key. -/
def set (table : Table α) (key : String) (value : α) : Table α :=
  ⟨put key value table.rows, distinct_put table.distinct⟩

/-- A present key keeps its place and a new one comes last. -/
theorem keys_set {table : Table α} {key : String} {value : α} :
    (table.set key value).keys =
      if key ∈ table.keys then table.keys else table.keys ++ [key] :=
  keys_put

theorem find_put {key k : String} {value : α} {rows : List (String × α)} :
    find k (put key value rows) = if k = key then some value else find k rows := by
  induction rows with
  | nil => simp [put, find, eq_comm]
  | cons row rest ih =>
    obtain ⟨first, old⟩ := row
    unfold put
    split
    · rename_i here
      subst here
      simp only [find, eq_comm]
      grind
    · simp only [find, ih]
      grind

/-- Writing a key changes what is found under that key alone. -/
@[simp] theorem get?_set {table : Table α} {key k : String} {value : α} :
    (table.set key value).get? k = if k = key then some value else table.get? k :=
  find_put

/-- The table that writing the rows one after another gives. -/
def ofList (rows : List (String × α)) : Table α :=
  rows.foldl (fun table row => table.set row.1 row.2) empty

/-- The same keys with changed values. -/
def map (f : α → β) (table : Table α) : Table β :=
  ⟨table.rows.map fun row => (row.1, f row.2), by
    simpa [List.map_map, Function.comp_def] using table.distinct⟩

@[simp] theorem keys_map (f : α → β) (table : Table α) :
    (table.map f).keys = table.keys := by
  simp [map, keys, List.map_map, Function.comp_def]

@[simp] theorem get?_map (f : α → β) (table : Table α) (key : String) :
    (table.map f).get? key = (table.get? key).map f := by
  obtain ⟨rows, distinct⟩ := table
  simp only [get?, map]
  clear distinct
  induction rows with
  | nil => rfl
  | cons row rest ih =>
      simp only [List.map_cons, find, ih]
      split <;> rfl

/-- A table of the given distinct keys, each with the value `f` gives it. -/
def ofKeys (keys : List String) (distinct : keys.Nodup) (f : String → α) : Table α :=
  ⟨keys.map fun key => (key, f key), by
    simpa [List.map_map, Function.comp_def] using distinct⟩

/-- Whether two tables hold the same keys with matching values, in any order. -/
def sameContents (same : α → α → Bool) (s t : Table α) : Bool :=
  s.size == t.size && s.rows.all fun row =>
    match t.get? row.1 with
    | some value => same row.2 value
    | none => false

end Table

end WeightedArgumentation
