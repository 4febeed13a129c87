import Mathlib.Data.List.Nodup
import WeightedArgumentation.Json.Decode
import WeightedArgumentation.Proofs.Json.Written

/-!
# Typed values read back

A typed reader gives back what was written for lists, tables and records of values that it
gives back.  A record is read from an object that names each of its fields at most once and
nothing else; which fields are left out is decided field by field.
-/

namespace WeightedArgumentation

/-- With distinct keys it does not matter from which end rows are searched. -/
theorem Table.find_reverse {α : Type*} {rows : List (String × α)}
    (distinct : (rows.map Prod.fst).Nodup) (key : String) : Table.find key rows.reverse = Table.find key rows := by
  have distinctReverse : (rows.reverse.map Prod.fst).Nodup := by
    rwa [List.map_reverse, List.nodup_reverse]
  apply Option.ext
  intro value
  rw [Table.find_eq_some_iff distinct, Table.find_eq_some_iff distinctReverse, List.mem_reverse]

namespace Json

universe u v

variable {α : Type u} {β : Type v}

/-- A text of one value, with or without blanks behind it, is read as what its value shows. -/
theorem decode_write (reader : Reader α) {value : Value} (spelled : value.Spelled) (style : Style)
    {blanks : List Char} (blank : ∀ c ∈ blanks, isSpace c = true) :
    decode reader (String.ofList (value.write style ++ blanks)) = reader value.reading := by
  rw [decode, String.toList_ofList, readFront_write spelled style (endsNumber_of_isSpace blank)]
  dsimp only
  rw [skipSpace_eq_nil blank]
  cases reader value.reading <;> rfl

/-! ## Lists and tables -/

theorem listOf_reading {reader : Reader α} {items : List β} (toJson : β → Value) (f : β → α)
    (reads : ∀ item ∈ items, reader (toJson item).reading = .ok (f item)) :
    listOf reader (Value.array (items.map toJson)).reading = .ok (items.map f) := by
  have each : readEach reader (Value.itemReadings (items.map toJson)) = .ok (items.map f) := by
    induction items with
    | nil => rfl
    | cons item rest ih =>
        rw [List.map_cons, Value.itemReadings, readEach, reads item List.mem_cons_self]
        dsimp only
        rw [ih fun other member => reads other (List.mem_cons_of_mem item member)]
        rfl
  rw [Value.reading, listOf, each]
  rfl

theorem readRows_append {reader : Reader α} {rows : List (String × β)} {toJson : β → Value}
    {f : β → α} (reads : ∀ row ∈ rows, reader (toJson row.2).reading = .ok (f row.2))
    (table : Table α) (distinct : (table.keys ++ rows.map Prod.fst).Nodup) :
    ∃ read, readRows reader table
        (Value.memberReadings (rows.map fun row => (row.1, toJson row.2))) = .ok read ∧
      read.rows = table.rows ++ rows.map fun row => (row.1, f row.2) := by
  induction rows generalizing table with
  | nil => exact ⟨table, rfl, by simp⟩
  | cons row rest ih =>
      obtain ⟨key, value⟩ := row
      have absent : key ∉ table.keys := by
        simp only [List.map_cons, List.nodup_append] at distinct
        intro present
        exact distinct.2.2 key present key List.mem_cons_self rfl
      have placed : (table.set key (f value)).rows = table.rows ++ [(key, f value)] :=
        Table.put_of_absent absent
      have keys : (table.set key (f value)).keys = table.keys ++ [key] := by
        rw [Table.keys_set, if_neg absent]
      obtain ⟨read, readRest, rows⟩ := ih
        (fun row member => reads row (List.mem_cons_of_mem _ member)) (table.set key (f value))
        (by simpa [keys] using distinct)
      refine ⟨read, ?_, ?_⟩
      · rw [List.map_cons, Value.memberReadings, readRows, memberName]
        simp only [reads (key, value) List.mem_cons_self, readRest]
      · rw [rows, placed]
        simp

theorem tableOf_reading {reader : Reader α} {table : Table β} (toJson : β → Value) (f : β → α)
    (reads : ∀ row ∈ table.rows, reader (toJson row.2).reading = .ok (f row.2)) :
    tableOf reader (Value.object (table.rows.map fun row => (row.1, toJson row.2))).reading =
      .ok (table.map f) := by
  obtain ⟨read, readAll, rows⟩ := readRows_append reads .empty
    (by simpa [Table.keys, Table.empty] using table.distinct)
  have same : read = table.map f := Table.ext (by simpa [Table.empty, Table.map] using rows)
  rw [Value.reading, tableOf, readAll, same]
  rfl

/-! ## Records -/

/-- A record is built as a value from the places found for its fields, each of which holds
what its field wants. -/
structure Record.Fits (record : Record α) (slots : Slots) (value : α) : Prop where
  build : record.build slots = .ok value
  check : ∀ field ∈ record.fields, ∀ reading, Table.find field.name slots = some reading →
    field.check reading = .ok ()

namespace Record

variable {slots : Slots}

theorem fits_pure (value : α) : (pure value).Fits slots value :=
  ⟨rfl, fun _ member => nomatch member⟩

theorem Fits.field {record : Record (α → β)} {f : α → β} (fits : record.Fits slots f)
    {name : String} {required : Presence} {reader : Reader α} {absent : Except Failure α} {value : α}
    (reads : (Table.find name slots).elim absent reader = .ok value) :
    (record.field name required reader absent).Fits slots (f value) where
  build := by
    rw [Record.field]
    simp only [fits.build, reads]
  check field member reading found := by
    rcases List.mem_append.1 member with earlier | last
    · exact fits.check field earlier reading found
    · obtain rfl := List.mem_singleton.1 last
      rw [found, Option.elim_some] at reads
      simp [reads, Except.map]

theorem Fits.required {record : Record (α → β)} {f : α → β} (fits : record.Fits slots f)
    {name : String} {reader : Reader α} {reading : Reading} {value : α}
    (found : Table.find name slots = some reading) (reads : reader reading = .ok value) :
    (record.required name reader).Fits slots (f value) :=
  fits.field (by rw [found]; exact reads)

theorem Fits.optional {record : Record (α → β)} {f : α → β} (fits : record.Fits slots f)
    {name : String} {reader : Reader α} {absent value : α}
    (reads : (Table.find name slots).elim (.ok absent) reader = .ok value) :
    (record.optional name reader absent).Fits slots (f value) :=
  fits.field reads

theorem Fits.present {record : Record (α → β)} {f : α → β} (fits : record.Fits slots f)
    {name : String} {reader : Reader α} {absent value : α} {reading : Reading}
    (found : Table.find name slots = some reading) (reads : reader reading = .ok value) :
    (record.optional name reader absent).Fits slots (f value) :=
  fits.optional (by rw [found]; exact reads)

end Record

/-- The places that the members of an object make. -/
def slotsOf (members : List (String × Value)) : Slots :=
  members.map fun member => (member.1, member.2.reading)

theorem map_fst_slotsOf (members : List (String × Value)) :
    (slotsOf members).map Prod.fst = members.map Prod.fst := by
  simp [slotsOf]

/-- Members that are known and named once become the places of their object. -/
theorem slotsOfMembers_append {fields : List Field} {members : List (String × Value)}
    (slots : Slots) (distinct : (slots.map Prod.fst ++ members.map Prod.fst).Nodup)
    (known : ∀ member ∈ members, ∃ field, fields.find? (·.name = member.1) = some field ∧
      field.check member.2.reading = .ok ()) :
    slotsOfMembers fields slots (Value.memberReadings members) =
      .ok ((slotsOf members).reverse ++ slots) := by
  induction members generalizing slots with
  | nil => rfl
  | cons member rest ih =>
      obtain ⟨name, value⟩ := member
      obtain ⟨field, found, checked⟩ := known _ List.mem_cons_self
      have absent : (Table.find name slots).isSome = false := by
        rw [Bool.eq_false_iff, ne_eq, Table.find_isSome_iff]
        simp only [List.map_cons, List.nodup_append] at distinct
        exact fun present => distinct.2.2 name present name List.mem_cons_self rfl
      have restKnown := ih ((name, value.reading) :: slots)
        (by simpa [List.nodup_middle] using distinct)
        fun member listed => known member (List.mem_cons_of_mem _ listed)
      rw [Value.memberReadings, slotsOfMembers, memberName]
      simp [found, absent, checked, restKnown, slotsOf]

/-- A place is found from either end of an object that names each field once. -/
theorem find_slotsOf_reverse {members : List (String × Value)}
    (distinct : (members.map Prod.fst).Nodup) (name : String) :
    Table.find name (slotsOf members).reverse = Table.find name (slotsOf members) :=
  Table.find_reverse (by rwa [map_fst_slotsOf]) name

/-- A record is read from an object that names fields of the record, in their order.  How it is
built may depend on its places only by what is found in them. -/
theorem record_reading {recordOf : Record α} {members : List (String × Value)} {value : α}
    (name : String) (distinct : (recordOf.fields.map Field.name).Nodup)
    (ordered : (members.map Prod.fst).Sublist (recordOf.fields.map Field.name))
    (fits : ∀ places, (∀ field, Table.find field places = Table.find field (slotsOf members)) →
      recordOf.Fits places value) :
    record name recordOf (Value.object members).reading = .ok value := by
  have once := ordered.nodup distinct
  have fits := fits (slotsOf members).reverse (find_slotsOf_reverse once)
  have checked : ∀ member ∈ members, ∃ field,
      recordOf.fields.find? (·.name = member.1) = some field ∧
        field.check member.2.reading = .ok () := by
    intro member inObject
    obtain ⟨named, inFields, sameName⟩ :=
      List.mem_map.1 (ordered.subset (List.mem_map_of_mem inObject))
    have listed : (recordOf.fields.find? (·.name = member.1)).isSome := by
      rw [List.find?_isSome]
      exact ⟨named, inFields, decide_eq_true sameName⟩
    obtain ⟨field, found⟩ := Option.isSome_iff_exists.1 listed
    have name : field.name = member.1 := by simpa using List.find?_some found
    refine ⟨field, found, fits.check field (List.mem_of_find?_eq_some found) _ ?_⟩
    rw [name, find_slotsOf_reverse once, Table.find_eq_some_iff (by rwa [map_fst_slotsOf])]
    exact List.mem_map.2 ⟨member, inObject, rfl⟩
  have slots := slotsOfMembers_append [] (by simpa using once) checked
  rw [List.append_nil] at slots
  rw [Value.reading, record, slots]
  exact fits.build

end Json

end WeightedArgumentation
