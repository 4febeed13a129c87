import WeightedArgumentation.Proofs.Graph.Store
import WeightedArgumentation.Proofs.Text.Trim

/-!
# Well-formed graphs

A text is proper when it is trimmed and not empty.  A specification is well
formed when all its texts are proper and its category is configured, or nothing
is configured.  These are the specifications that normalizing leaves as they are
and that have no fault (`ArgumentSpec.wellFormed_iff`).

The arguments of a reachable graph state well-formed specifications.  What an
argument lists may have been stated by another argument, so the invariant speaks
of the store: every record is well formed and every attack has proper ends.  Read off
the arguments (`stored_arguments_wellFormed`), it says that each could be normalized and
checked again without a change or a fault.
-/

namespace WeightedArgumentation

/-- A text with something in it and no blanks around it. -/
structure Text.Proper (text : String) : Prop where
  trimmed : Text.Trimmed text
  nonempty : text ≠ ""

theorem Text.proper_trim {text : String} (nonempty : Text.trim text ≠ "") :
    Text.Proper (Text.trim text) :=
  ⟨Text.trimmed_trim text, nonempty⟩

theorem Text.Proper.trim_eq {text : String} (proper : Text.Proper text) : Text.trim text = text :=
  Text.trim_eq_self_iff.2 proper.trimmed

/-- All texts of a record are proper and its category may be used. -/
structure ArgumentRecord.WellFormed (record : ArgumentRecord) (categories : CategoryConfig) :
    Prop where
  id : Text.Proper record.id
  label : Text.Proper record.label
  category : Text.Proper record.category
  description : ∀ text, record.description = some text → Text.Proper text
  configured : categories.isEmpty = true ∨ record.category ∈ categories.keys

namespace ArgumentSpec

/-- The record of a specification is well formed, and all ids that it lists are
proper. -/
structure WellFormed (spec : ArgumentSpec) (categories : CategoryConfig) : Prop where
  record : spec.record.WellFormed categories
  attacks : ∀ target ∈ spec.attacks, Text.Proper target
  attackedBy : ∀ source ∈ spec.attackedBy, Text.Proper source

variable {spec : ArgumentSpec} {categories : CategoryConfig}

/-! ## What normalizing and checking ask for -/

theorem proper_of_mem_trimEntries {entries : List String} {entry : String}
    (member : entry ∈ trimEntries entries) : Text.Proper entry := by
  obtain ⟨trimmed, nonempty⟩ := List.mem_filter.1 member
  obtain ⟨text, _, rfl⟩ := List.mem_map.1 trimmed
  exact Text.proper_trim (by simpa using nonempty)

theorem proper_of_normalized_description {text : String}
    (found : spec.normalized.description = some text) : Text.Proper text := by
  obtain ⟨inner, nonempty⟩ := Option.filter_eq_some_iff.1 found
  obtain ⟨raw, _, rfl⟩ := Option.map_eq_some_iff.1 inner
  exact Text.proper_trim (by simpa using nonempty)

theorem trimEntries_eq_self_iff {entries : List String} :
    trimEntries entries = entries ↔ ∀ entry ∈ entries, Text.Proper entry := by
  constructor
  · intro same entry member
    rw [← same] at member
    exact proper_of_mem_trimEntries member
  · intro proper
    have trimmed : entries.map Text.trim = entries.map fun entry => entry :=
      List.map_congr_left fun entry member => (proper entry member).trim_eq
    rw [trimEntries, trimmed, List.map_id', List.filter_eq_self]
    intro entry member
    simpa using (proper entry member).nonempty

theorem trimDescription_eq_self_iff {description : Option String} :
    (description.map Text.trim).filter (· ≠ "") = description ↔
      ∀ text, description = some text → Text.Proper text := by
  cases description with
  | none => simp
  | some text =>
      constructor
      · intro same other found
        obtain rfl := Option.some.inj found
        obtain ⟨trimmed, nonempty⟩ := Option.filter_eq_some_iff.1 same
        have trimEq := Option.some.inj trimmed
        exact ⟨Text.trim_eq_self_iff.1 trimEq, by simpa using nonempty⟩
      · intro proper
        have textProper := proper text rfl
        simp [textProper.trim_eq, textProper.nonempty]

/-- What normalizing gives, field by field. -/
theorem normalized_eq_iff_fields {normal : ArgumentSpec} :
    spec.normalized = normal ↔
      Text.trim spec.id = normal.id ∧ Text.trim spec.label = normal.label ∧
        Text.trim spec.category = normal.category ∧
          (spec.description.map Text.trim).filter (· ≠ "") = normal.description ∧
            trimEntries spec.attacks = normal.attacks ∧
              trimEntries spec.attackedBy = normal.attackedBy := by
  cases normal
  simp only [normalized, ArgumentSpec.mk.injEq]

/-- A specification has no fault exactly when its id, label and category are not
empty and the category may be used. -/
theorem fault?_eq_none_iff :
    spec.fault? categories = none ↔
      spec.id ≠ "" ∧ spec.label ≠ "" ∧ spec.category ≠ "" ∧
        (categories.isEmpty = true ∨ spec.category ∈ categories.keys) := by
  have known : categories.contains spec.category = true ↔ spec.category ∈ categories.keys :=
    Table.contains_iff
  rw [fault?, ← known]
  grind

/-- Well-formed specifications are those that are normalized and have no fault. -/
theorem wellFormed_iff :
    spec.WellFormed categories ↔ spec.normalized = spec ∧ spec.fault? categories = none := by
  rw [normalized_eq_iff_fields, fault?_eq_none_iff, Text.trim_eq_self_iff, Text.trim_eq_self_iff,
    Text.trim_eq_self_iff, trimDescription_eq_self_iff, trimEntries_eq_self_iff,
    trimEntries_eq_self_iff]
  constructor
  · rintro ⟨⟨id, label, category, description, configured⟩, attacks, attackedBy⟩
    exact ⟨⟨id.trimmed, label.trimmed, category.trimmed, description, attacks, attackedBy⟩,
      id.nonempty, label.nonempty, category.nonempty, configured⟩
  · rintro ⟨⟨id, label, category, description, attacks, attackedBy⟩,
      idNonempty, labelNonempty, categoryNonempty, configured⟩
    exact ⟨⟨⟨id, idNonempty⟩, ⟨label, labelNonempty⟩, ⟨category, categoryNonempty⟩, description,
      configured⟩, attacks, attackedBy⟩

/-- A normalized specification without fault is well formed, and so it is under
any proper id. -/
theorem wellFormed_of_faultless {id : String} (trimmed : Text.Trimmed id)
    (faultless : { spec.normalized with id := id }.fault? categories = none) :
    { spec.normalized with id := id }.WellFormed categories := by
  obtain ⟨idNonempty, labelNonempty, categoryNonempty, configured⟩ :=
    fault?_eq_none_iff.1 faultless
  refine ⟨⟨⟨trimmed, idNonempty⟩, Text.proper_trim labelNonempty,
    Text.proper_trim categoryNonempty, ?description, configured⟩, ?attacks, ?attackedBy⟩
  case description => exact fun _ => proper_of_normalized_description
  case attacks => exact fun _ => proper_of_mem_trimEntries
  case attackedBy => exact fun _ => proper_of_mem_trimEntries

/-- A well-formed specification states only attacks with proper ends. -/
theorem WellFormed.ends (wellFormed : spec.WellFormed categories) {attack : Attack}
    (stated : attack ∈ spec.statedSet) :
    Text.Proper attack.source ∧ Text.Proper attack.target := by
  rcases stated with ⟨source, listed⟩ | ⟨target, listed⟩
  · exact ⟨source ▸ wellFormed.record.id, wellFormed.attacks _ listed⟩
  · exact ⟨wellFormed.attackedBy _ listed, target ▸ wellFormed.record.id⟩

end ArgumentSpec

/-! ## Stores -/

namespace AttackStore

/-- All records of a store are well formed and all its attacks have proper ends. -/
structure WellFormed (store : AttackStore) (categories : CategoryConfig) : Prop where
  records : ∀ record ∈ store.records, record.WellFormed categories
  ends : ∀ attack ∈ store.attacks, Text.Proper attack.source ∧ Text.Proper attack.target

variable {store : AttackStore} {categories : CategoryConfig} {spec : ArgumentSpec}

theorem WellFormed.create (wellFormed : store.WellFormed categories)
    (specWellFormed : spec.WellFormed categories) : (store.create spec).WellFormed categories := by
  constructor
  · intro record member
    rcases List.mem_append.1 member with old | new
    · exact wellFormed.records record old
    · obtain rfl := List.mem_singleton.1 new
      exact specWellFormed.record
  · rintro attack (old | new)
    · exact wellFormed.ends attack old
    · exact specWellFormed.ends new

theorem WellFormed.update (wellFormed : store.WellFormed categories) (id : String)
    (specWellFormed : spec.WellFormed categories) :
    (store.update id spec).WellFormed categories := by
  constructor
  · intro record member
    obtain ⟨old, oldMember, rfl⟩ := List.mem_map.1 member
    split
    next => exact specWellFormed.record
    next => exact wellFormed.records old oldMember
  · rintro attack (⟨old, _⟩ | new)
    · exact wellFormed.ends attack old
    · exact specWellFormed.ends new

theorem WellFormed.remove (wellFormed : store.WellFormed categories) (id : String) :
    (store.remove id).WellFormed categories := by
  constructor
  · intro record member
    exact wellFormed.records record (List.mem_filter.1 member).1
  · rintro attack ⟨old, _⟩
    exact wellFormed.ends attack old

theorem wellFormed_load {specs : List ArgumentSpec}
    (specsWellFormed : ∀ spec ∈ specs, spec.WellFormed categories) :
    (load specs).WellFormed categories := by
  constructor
  · intro record member
    obtain ⟨spec, specMember, rfl⟩ := List.mem_map.1 member
    exact (specsWellFormed spec specMember).record
  · rintro attack ⟨spec, specMember, stated⟩
    exact (specsWellFormed spec specMember).ends stated

end AttackStore

/-! ## Graphs -/

namespace Graph

variable {g : Graph}

/-- Specifications agree exactly when none of them has a fault and their ids are
distinct and not taken. -/
theorem conflict?_eq_none_iff {categories : CategoryConfig} {taken : List String}
    {specs : List ArgumentSpec} :
    conflict? categories taken specs = none ↔
      (∀ spec ∈ specs, spec.fault? categories = none) ∧
        (specs.map ArgumentSpec.id).Nodup ∧ ∀ spec ∈ specs, spec.id ∉ taken := by
  induction specs generalizing taken with
  | nil => simp [conflict?]
  | cons first rest ih =>
      rw [conflict?]
      split
      next field fault faulty => simp [faulty]
      next faultless =>
        split
        next repeated => simp [repeated]
        next fresh =>
          rw [ih]
          simp only [List.map_cons, List.nodup_cons, List.mem_map, List.mem_cons, not_or]
          grind

/-- Every edit keeps the store well formed. -/
theorem wellFormed_of_attempt {changed : Graph} {edit : Edit}
    (wellFormed : g.store.WellFormed g.categories) (granted : g.attempt edit = .ok changed) :
    changed.store.WellFormed changed.categories := by
  rw [categories_of_attempt granted]
  cases edit with
  | create spec =>
      rw [attempt_create, create_eq_ok_iff] at granted
      rcases granted with ⟨faultless, fresh, rfl⟩
      rw [store_enter]
      exact wellFormed.create
        (ArgumentSpec.wellFormed_of_faultless (Text.trimmed_trim spec.id) faultless)
  | update id spec =>
      rw [attempt_update, update_eq_ok_iff] at granted
      rcases granted with ⟨present, _, faultless, rfl⟩
      obtain ⟨argument, member, rfl⟩ := mem_ids.1 present
      have current := wellFormed.records argument.record (List.mem_map_of_mem member)
      rw [store_restate present]
      exact wellFormed.update _
        (ArgumentSpec.wellFormed_of_faultless current.id.trimmed faultless)
  | remove id =>
      rw [attempt_remove_eq_ok_iff] at granted
      rcases granted with ⟨_, rfl⟩
      rw [store_discard]
      exact wellFormed.remove id

/-- The store of every reachable graph is well formed. -/
theorem Reachable.store_wellFormed (reachable : g.Reachable) :
    g.store.WellFormed g.categories := by
  induction reachable with
  | empty categories =>
      rw [store_empty]
      exact ⟨fun _ => nofun, fun _ => nofun⟩
  | @load categories specs _ loaded =>
      obtain ⟨agree, rfl⟩ := load_eq_ok_iff.1 loaded
      rw [store_assemble, categories_assemble]
      refine AttackStore.wellFormed_load fun spec member => ?_
      have faultless := (conflict?_eq_none_iff.1 agree).1 spec member
      obtain ⟨raw, _, rfl⟩ := List.mem_map.1 member
      exact ArgumentSpec.wellFormed_of_faultless (Text.trimmed_trim raw.id) faultless
  | after edit _ ih =>
      exact holds_after (P := fun g => g.store.WellFormed g.categories) ih
        fun _ granted => wellFormed_of_attempt ih granted

/-- Every argument of a reachable graph states a well-formed specification. -/
theorem Reachable.toSpec_wellFormed (reachable : g.Reachable) {argument : Argument}
    (member : argument ∈ g.arguments) : argument.toSpec.WellFormed g.categories := by
  have wellFormed := reachable.store_wellFormed
  refine ⟨wellFormed.records argument.record (List.mem_map_of_mem member), ?attacks, ?attackedBy⟩
  case attacks =>
    intro target listed
    have related : ⟨argument.id, target⟩ ∈ g.attacks :=
      mem_attacks.2 (.inl ⟨argument, member, rfl, listed⟩)
    exact (wellFormed.ends _ related).2
  case attackedBy =>
    intro source listed
    have related : ⟨source, argument.id⟩ ∈ g.attacks :=
      mem_attacks.2 (.inr ⟨argument, member, rfl, listed⟩)
    exact (wellFormed.ends _ related).1

end Graph

/-! ## Stored arguments -/

/-- All texts of an argument are proper, its category may be used, and it lists only
proper ids. -/
structure Argument.WellFormed (argument : Argument) (categories : CategoryConfig) : Prop where
  id : Text.Proper argument.id
  label : Text.Proper argument.label
  category : Text.Proper argument.category
  description : ∀ text, argument.description = some text → Text.Proper text
  configured : categories.isEmpty = true ∨ argument.category ∈ categories.keys
  attacks : ∀ target, target ∈ argument.attacks → Text.Proper target
  attackedBy : ∀ source, source ∈ argument.attackedBy → Text.Proper source

theorem Argument.wellFormed_toSpec {argument : Argument} {categories : CategoryConfig} :
    argument.toSpec.WellFormed categories ↔ argument.WellFormed categories := by
  constructor
  · intro spec
    exact ⟨spec.record.id, spec.record.label, spec.record.category, spec.record.description,
      spec.record.configured, spec.attacks, spec.attackedBy⟩
  · intro stored
    exact ⟨⟨stored.id, stored.label, stored.category, stored.description, stored.configured⟩,
      stored.attacks, stored.attackedBy⟩

namespace Graph

variable {g : Graph}

theorem categories_after (g : Graph) (edit : Edit) : (g.after edit).categories = g.categories :=
  holds_after (P := fun changed => changed.categories = g.categories) rfl
    fun _ granted => categories_of_attempt granted

/-- No sequence of edits changes the categories. -/
theorem categories_foldl_after (g : Graph) (edits : List Edit) :
    (edits.foldl after g).categories = g.categories := by
  induction edits generalizing g with
  | nil => rfl
  | cons edit rest ih => exact (ih (g.after edit)).trans (g.categories_after edit)

/-- In a reachable graph every argument is well formed, which means that the specification
it states is normalized and has no fault.  Whatever edits follow, granted or refused, the
categories stay the same.  That an argument is found under its own id holds of every graph,
reachable or not, because it is looked up by that id. -/
theorem stored_arguments_wellFormed (reachable : g.Reachable) :
    (∀ id argument, g.get? id = some argument →
      argument.id = id ∧ argument.WellFormed g.categories ∧
        argument.toSpec.normalized = argument.toSpec ∧
          argument.toSpec.fault? g.categories = none) ∧
    (∀ (argument : Argument) (categories : CategoryConfig), argument.WellFormed categories ↔
      argument.toSpec.normalized = argument.toSpec ∧ argument.toSpec.fault? categories = none) ∧
    ∀ edits : List Edit, (edits.foldl after g).categories = g.categories := by
  refine ⟨?stored, ?meaning, g.categories_foldl_after⟩
  case stored =>
    intro id argument found
    obtain ⟨member, same⟩ := get?_eq_some_iff.1 found
    have spec := reachable.toSpec_wellFormed member
    exact ⟨same, Argument.wellFormed_toSpec.1 spec, ArgumentSpec.wellFormed_iff.1 spec⟩
  case meaning =>
    intro argument categories
    exact Argument.wellFormed_toSpec.symm.trans ArgumentSpec.wellFormed_iff

/-- Blanks around every text, an attack stated before its target existed, an update that
leaves the id out, and an argument of a category that is not configured. -/
theorem stored_arguments_wellFormed_of_blanks :
    let categories := (CategoryConfig.empty.declare "eco" "Economic" "").declare "env" "" ""
    let g := ((((Graph.empty categories).after
      (.create ⟨" A ", "a\n", " eco", some "  ", [" B", ""], ["\tZ "]⟩)).after
        (.create ⟨"B", "b", "env", none, ["\u2003A", "A"], []⟩)).after
          (.update "A" ⟨" ", " again", "env ", some " why ", ["B "], ["B", " Y"]⟩)).after
            (.create ⟨"C", "c", "care", none, [], []⟩)
    g.Reachable ∧ g.ids = ["A", "B"] ∧
      (∀ id argument, g.get? id = some argument →
        argument.id = id ∧ argument.WellFormed g.categories ∧
          argument.toSpec.normalized = argument.toSpec ∧
            argument.toSpec.fault? g.categories = none) ∧
      ∀ edits : List Edit, (edits.foldl after g).categories = g.categories := by
  intro categories g
  have reachable : g.Reachable := .after _ (.after _ (.after _ (.after _ (.empty _))))
  obtain ⟨stored, _, kept⟩ := stored_arguments_wellFormed reachable
  exact ⟨reachable, by decide +kernel, stored, kept⟩

end Graph

end WeightedArgumentation
