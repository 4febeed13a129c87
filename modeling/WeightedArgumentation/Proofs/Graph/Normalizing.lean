import Mathlib.Data.List.Forall2
import WeightedArgumentation.Proofs.Graph.Load
import WeightedArgumentation.Proofs.Graph.WellFormed
import WeightedArgumentation.Proofs.Text.Padding

/-!
# Edits read normalized specifications

Normalizing replaces every text by its core and keeps the relation entries that are not blank, one
by one and in their order (`normalized_eq_iff`).  Doing it again changes nothing.

A graph records the attacks of a list one after another, and a view keeps each id once, so only
which attacks are in the list matters (`linkAll_congr`).  Every edit normalizes what it is given
before it looks at it.  So specifications that have the same content when they are normalized,
which means the same record and the same ids in their lists, have the same outcome: the same
graph or the same error.  These are the specifications that differ only in blanks around their
texts, in blank entries, and in the order and repetition of the other entries
(`sameStatement_iff`).
-/

namespace WeightedArgumentation

namespace ArgumentSpec

variable {spec other normal : ArgumentSpec}

/-! ## The normal form -/

/-- The texts are the cores of those of another specification.  A description with an empty core
is none, and blank entries of the lists are left out. -/
structure IsNormalFormOf (normal spec : ArgumentSpec) : Prop where
  id : Text.IsCore normal.id spec.id
  label : Text.IsCore normal.label spec.label
  category : Text.IsCore normal.category spec.category
  description : ∀ text, normal.description = some text ↔
    text ≠ "" ∧ ∃ raw, spec.description = some raw ∧ Text.IsCore text raw
  attacks : List.Forall₂ Text.IsCore normal.attacks (spec.attacks.filter (¬ Text.Blank ·))
  attackedBy : List.Forall₂ Text.IsCore normal.attackedBy (spec.attackedBy.filter (¬ Text.Blank ·))

theorem trimEntries_eq_map (entries : List String) :
    trimEntries entries = (entries.filter (¬ Text.Blank ·)).map Text.trim := by
  rw [trimEntries, List.filter_map]
  apply congrArg (List.map Text.trim)
  apply List.filter_congr
  intro entry _
  simp [← Text.trim_eq_empty_iff]

theorem trimEntries_eq_iff {entries cores : List String} :
    trimEntries entries = cores ↔
      List.Forall₂ Text.IsCore cores (entries.filter (¬ Text.Blank ·)) := by
  have core : Text.IsCore = fun core text => core = Text.trim text := by
    funext core text
    exact propext (Text.trim_eq_iff.symm.trans eq_comm)
  rw [trimEntries_eq_map, core, ← List.forall₂_map_right_iff, List.forall₂_eq_eq_eq]
  exact eq_comm

theorem trimDescription_eq_iff {raw description : Option String} :
    (raw.map Text.trim).filter (· ≠ "") = description ↔
      ∀ text, description = some text ↔
        text ≠ "" ∧ ∃ given, raw = some given ∧ Text.IsCore text given := by
  rw [Option.ext_iff]
  apply forall_congr'
  intro text
  simp only [Option.filter_eq_some_iff, Option.map_eq_some_iff, Text.trim_eq_iff, decide_eq_true_eq]
  grind

/-- Normalizing gives the normal form of a specification, the only one that it has. -/
theorem normalized_eq_iff : spec.normalized = normal ↔ normal.IsNormalFormOf spec := by
  rw [normalized_eq_iff_fields, Text.trim_eq_iff, Text.trim_eq_iff, Text.trim_eq_iff,
    trimDescription_eq_iff, trimEntries_eq_iff, trimEntries_eq_iff]
  constructor
  · intro ⟨id, label, category, description, attacks, attackedBy⟩
    exact ⟨id, label, category, description, attacks, attackedBy⟩
  · intro ⟨id, label, category, description, attacks, attackedBy⟩
    exact ⟨id, label, category, description, attacks, attackedBy⟩

theorem normalized_normalized (spec : ArgumentSpec) :
    spec.normalized.normalized = spec.normalized := by
  have trimmed (text : String) : Text.trim (Text.trim text) = Text.trim text :=
    Text.trim_eq_self_iff.2 (Text.trimmed_trim text)
  have listed (entries : List String) : trimEntries (trimEntries entries) = trimEntries entries :=
    trimEntries_eq_self_iff.2 fun _ => proper_of_mem_trimEntries
  have described : (spec.normalized.description.map Text.trim).filter (· ≠ "") =
      spec.normalized.description :=
    trimDescription_eq_self_iff.2 fun _ => proper_of_normalized_description
  exact normalized_eq_iff_fields.2 ⟨trimmed spec.id, trimmed spec.label, trimmed spec.category,
    described, listed spec.attacks, listed spec.attackedBy⟩

/-! ## Specifications that state the same -/

/-- Every entry that is not blank is listed by others as well, perhaps with other blanks around
it. -/
def EntriesWithin (entries others : List String) : Prop :=
  ∀ entry ∈ entries, Text.Blank entry ∨ ∃ other ∈ others, Text.SameText entry other

instance (entries others : List String) : Decidable (EntriesWithin entries others) :=
  inferInstanceAs (Decidable (∀ entry ∈ entries,
    Text.Blank entry ∨ ∃ other ∈ others, Text.SameText entry other))

/-- Lists that differ only in blank entries, in blanks around the others, and in their order and
repetition. -/
def SameEntries (entries others : List String) : Prop :=
  EntriesWithin entries others ∧ EntriesWithin others entries

instance (entries others : List String) : Decidable (SameEntries entries others) :=
  inferInstanceAs (Decidable (_ ∧ _))

/-- Specifications that differ only in blanks around their texts and in lists with the same
entries.  A blank description is as good as none. -/
structure SameStatement (spec other : ArgumentSpec) : Prop where
  id : Text.SameText spec.id other.id
  label : Text.SameText spec.label other.label
  category : Text.SameText spec.category other.category
  description : Text.SameText (spec.description.getD "") (other.description.getD "")
  attacks : SameEntries spec.attacks other.attacks
  attackedBy : SameEntries spec.attackedBy other.attackedBy

/-- Specifications with the same record that list the same ids. -/
structure SameContent (spec other : ArgumentSpec) : Prop where
  record : spec.record = other.record
  attacks : ∀ id, id ∈ spec.attacks ↔ id ∈ other.attacks
  attackedBy : ∀ id, id ∈ spec.attackedBy ↔ id ∈ other.attackedBy

theorem mem_trimEntries {entries : List String} {core : String} :
    core ∈ trimEntries entries ↔ core ≠ "" ∧ ∃ entry ∈ entries, Text.trim entry = core := by
  simp only [trimEntries, List.mem_filter, List.mem_map, decide_eq_true_eq]
  exact and_comm

theorem entriesWithin_iff {entries others : List String} :
    EntriesWithin entries others ↔ trimEntries entries ⊆ trimEntries others := by
  constructor
  · intro within core member
    obtain ⟨nonempty, entry, listed, rfl⟩ := mem_trimEntries.1 member
    obtain blank | ⟨other, otherListed, same⟩ := within entry listed
    · exact absurd (Text.trim_eq_empty_iff.2 blank) nonempty
    · exact mem_trimEntries.2 ⟨nonempty, other, otherListed, (Text.sameText_iff.1 same).symm⟩
  · intro subset entry listed
    by_cases blank : Text.Blank entry
    · exact .inl blank
    · have nonempty : Text.trim entry ≠ "" := mt Text.trim_eq_empty_iff.1 blank
      obtain ⟨_, other, otherListed, same⟩ :=
        mem_trimEntries.1 (subset (mem_trimEntries.2 ⟨nonempty, entry, listed, rfl⟩))
      exact .inr ⟨other, otherListed, Text.sameText_iff.2 same.symm⟩

theorem sameEntries_iff {entries others : List String} :
    SameEntries entries others ↔ ∀ id, id ∈ trimEntries entries ↔ id ∈ trimEntries others := by
  rw [SameEntries, entriesWithin_iff, entriesWithin_iff]
  constructor
  · intro within id
    exact ⟨fun listed => within.1 listed, fun listed => within.2 listed⟩
  · intro same
    exact ⟨fun id => (same id).1, fun id => (same id).2⟩

/-- The normalized description is decided by the core of the given one. -/
theorem trimDescription_eq (description : Option String) :
    (description.map Text.trim).filter (· ≠ "") =
      if Text.trim (description.getD "") = "" then none
      else some (Text.trim (description.getD "")) := by
  have nothing : Text.trim "" = "" := Text.trim_eq_empty_iff.2 Text.blank_empty
  cases description with
  | none => simp [nothing]
  | some text =>
      by_cases empty : Text.trim text = ""
      · simp [empty]
      · simp [empty]

theorem sameDescription_iff {description other : Option String} :
    Text.SameText (description.getD "") (other.getD "") ↔
      (description.map Text.trim).filter (· ≠ "") = (other.map Text.trim).filter (· ≠ "") := by
  rw [Text.sameText_iff, trimDescription_eq, trimDescription_eq]
  grind

/-- Specifications state the same exactly when they have the same content once they are
normalized. -/
theorem sameStatement_iff :
    spec.SameStatement other ↔ spec.normalized.SameContent other.normalized := by
  constructor
  · intro same
    refine ⟨?record, sameEntries_iff.1 same.attacks, sameEntries_iff.1 same.attackedBy⟩
    case record =>
      simp only [record, normalized, ArgumentRecord.mk.injEq]
      exact ⟨Text.sameText_iff.1 same.id, Text.sameText_iff.1 same.label,
        Text.sameText_iff.1 same.category, sameDescription_iff.1 same.description⟩
  · intro same
    obtain ⟨id, label, category, description⟩ := ArgumentRecord.mk.inj same.record
    exact ⟨Text.sameText_iff.2 id, Text.sameText_iff.2 label, Text.sameText_iff.2 category,
      sameDescription_iff.2 description, sameEntries_iff.2 same.attacks,
      sameEntries_iff.2 same.attackedBy⟩

theorem SameContent.refl (spec : ArgumentSpec) : spec.SameContent spec :=
  ⟨rfl, fun _ => .rfl, fun _ => .rfl⟩

/-- A specification states what its normal form states. -/
theorem sameStatement_normalized (spec : ArgumentSpec) : spec.SameStatement spec.normalized := by
  rw [sameStatement_iff, normalized_normalized]
  exact .refl spec.normalized

/-! ## What is read of a specification -/

namespace SameContent

theorem id (same : spec.SameContent other) : spec.id = other.id :=
  congrArg ArgumentRecord.id same.record

theorem withId (same : spec.SameContent other) (id : String) :
    { spec with id := id }.SameContent { other with id := id } :=
  ⟨congrArg ({ · with id := id }) same.record, same.attacks, same.attackedBy⟩

theorem fault?_eq (same : spec.SameContent other) (categories : CategoryConfig) :
    spec.fault? categories = other.fault? categories := by
  have label : spec.label = other.label := congrArg ArgumentRecord.label same.record
  have category : spec.category = other.category := congrArg ArgumentRecord.category same.record
  rw [fault?, fault?, same.id, label, category]

theorem mem_stated (same : spec.SameContent other) (attack : Attack) :
    attack ∈ spec.stated ↔ attack ∈ other.stated := by
  rw [stated, stated, Attack.mem_stated, Attack.mem_stated, same.id, same.attacks,
    same.attackedBy]

theorem detached_eq (same : spec.SameContent other) :
    Argument.detached spec = Argument.detached other := by
  obtain ⟨id, label, category, description⟩ := ArgumentRecord.mk.inj same.record
  rw [Argument.detached, Argument.detached, id, label, category, description]

theorem describe_eq (same : spec.SameContent other) (argument : Argument) :
    argument.describe spec = argument.describe other := by
  obtain ⟨id, label, category, description⟩ := ArgumentRecord.mk.inj same.record
  rw [Argument.describe, Argument.describe, id, label, category, description]

/-- An update fills in the id of both or refuses both for the same reason. -/
theorem keepId (same : spec.SameContent other) (id : String) :
    (Graph.keepId id spec = .ok { spec with id := id } ∧
      Graph.keepId id other = .ok { other with id := id }) ∨
    ∃ error, Graph.keepId id spec = .error error ∧ Graph.keepId id other = .error error := by
  by_cases allowed : spec.id = "" ∨ spec.id = id
  · have otherAllowed : other.id = "" ∨ other.id = id := same.id ▸ allowed
    exact .inl ⟨Graph.keepId_eq_ok_iff.2 ⟨allowed, rfl⟩,
      Graph.keepId_eq_ok_iff.2 ⟨otherAllowed, rfl⟩⟩
  · obtain ⟨named, different⟩ := not_or.1 allowed
    refine .inr ⟨.invalid .id (.idChange id spec.id), ?_, ?_⟩
    · rw [Graph.keepId, if_neg named, if_neg different]
    · rw [Graph.keepId, ← same.id, if_neg named, if_neg different]

end SameContent

end ArgumentSpec

/-! ## Recording attacks -/

theorem Argument.linkAll_congr {attacks others : List Attack}
    (same : ∀ attack, attack ∈ attacks ↔ attack ∈ others) (argument : Argument) :
    argument.linkAll attacks = argument.linkAll others := by
  have records : (argument.linkAll attacks).record = (argument.linkAll others).record := by
    rw [record_linkAll, record_linkAll]
  have targets : (argument.linkAll attacks).attacks = (argument.linkAll others).attacks :=
    SortedSet.ext fun target => by rw [mem_attacks_linkAll, mem_attacks_linkAll, same]
  have attackers : (argument.linkAll attacks).attackedBy = (argument.linkAll others).attackedBy :=
    SortedSet.ext fun source => by rw [mem_attackedBy_linkAll, mem_attackedBy_linkAll, same]
  exact eq_of_views_eq records targets attackers

namespace Graph

variable {g : Graph} {spec other : ArgumentSpec}

/-- Only which attacks are in a list matters, neither their order nor how often. -/
theorem linkAll_congr {attacks others : List Attack}
    (same : ∀ attack, attack ∈ attacks ↔ attack ∈ others) (g : Graph) :
    g.linkAll attacks = g.linkAll others := by
  apply ext
  · rw [categories_linkAll, categories_linkAll]
  · rw [arguments_linkAll, arguments_linkAll]
    exact List.map_congr_left fun argument _ => argument.linkAll_congr same

/-! ## Edits -/

theorem enter_congr (same : spec.SameContent other) (fresh : spec.id ∉ g.ids)
    (otherFresh : other.id ∉ g.ids) : g.enter spec fresh = g.enter other otherFresh := by
  have appended : g.append (.detached spec) fresh = g.append (.detached other) otherFresh := by
    apply ext
    · rfl
    · exact congrArg (g.arguments ++ [·]) same.detached_eq
  rw [enter, enter, appended]
  apply linkAll_congr
  intro attack
  rw [List.mem_append, List.mem_append, same.id, same.mem_stated]

theorem restate_congr (same : spec.SameContent other) : g.restate spec = g.restate other := by
  have described : (g.forget spec.id).revise (·.describe spec) (fun a => a.id_describe spec) =
      (g.forget other.id).revise (·.describe other) fun a => a.id_describe other := by
    apply ext
    · rfl
    · simp only [revise, same.id, same.describe_eq]
  rw [restate, restate, described]
  exact linkAll_congr same.mem_stated _

theorem create_congr (same : spec.SameStatement other) : g.create spec = g.create other := by
  have content := ArgumentSpec.sameStatement_iff.1 same
  have faults := content.fault?_eq g.categories
  cases faulty : spec.normalized.fault? g.categories with
  | some found => rw [create_of_fault faulty, create_of_fault (faults ▸ faulty)]
  | none =>
      have otherFaultless := faults ▸ faulty
      by_cases taken : spec.normalized.id ∈ g.ids
      · have otherTaken := content.id ▸ taken
        rw [create_of_taken faulty taken, create_of_taken otherFaultless otherTaken, content.id]
      · have otherFresh := content.id ▸ taken
        rw [create_of_fresh faulty taken, create_of_fresh otherFaultless otherFresh,
          enter_congr content taken otherFresh]

theorem update_congr (same : spec.SameStatement other) (id : String) :
    g.update id spec = g.update id other := by
  have content := ArgumentSpec.sameStatement_iff.1 same
  rw [update, update]
  split
  next =>
    obtain ⟨kept, otherKept⟩ | ⟨error, refused, otherRefused⟩ := content.keepId id
    · have filled := content.withId id
      rw [kept, otherKept]
      simp only [filled.fault?_eq]
      split
      next => rfl
      next => exact congrArg Except.ok (restate_congr filled)
    · rw [refused, otherRefused]
  next => rfl

/-! ## Loading -/

theorem conflict?_congr (categories : CategoryConfig) {specs others : List ArgumentSpec}
    (same : List.Forall₂ ArgumentSpec.SameContent specs others) (taken : List String) :
    conflict? categories taken specs = conflict? categories taken others := by
  induction same generalizing taken with
  | nil => rfl
  | cons content _ ih =>
      rw [conflict?, conflict?, content.fault?_eq, content.id, ih]

theorem map_detached_congr {specs others : List ArgumentSpec}
    (same : List.Forall₂ ArgumentSpec.SameContent specs others) :
    specs.map Argument.detached = others.map Argument.detached := by
  induction same with
  | nil => rfl
  | cons content _ ih => rw [List.map_cons, List.map_cons, content.detached_eq, ih]

theorem mem_stated_congr {specs others : List ArgumentSpec}
    (same : List.Forall₂ ArgumentSpec.SameContent specs others) (attack : Attack) :
    attack ∈ specs.flatMap ArgumentSpec.stated ↔ attack ∈ others.flatMap ArgumentSpec.stated := by
  induction same with
  | nil => rfl
  | cons content _ ih =>
      rw [List.flatMap_cons, List.flatMap_cons, List.mem_append, List.mem_append,
        content.mem_stated, ih]

theorem assemble_congr {categories : CategoryConfig} {specs others : List ArgumentSpec}
    (same : List.Forall₂ ArgumentSpec.SameContent specs others)
    (distinct : (specs.map ArgumentSpec.id).Nodup)
    (otherDistinct : (others.map ArgumentSpec.id).Nodup) :
    assemble categories specs distinct = assemble categories others otherDistinct := by
  have bare : detached categories specs distinct = detached categories others otherDistinct :=
    ext rfl (map_detached_congr same)
  rw [assemble, assemble, bare]
  exact linkAll_congr (mem_stated_congr same) _

theorem load_congr (categories : CategoryConfig) {specs others : List ArgumentSpec}
    (same : List.Forall₂ ArgumentSpec.SameStatement specs others) :
    load categories specs = load categories others := by
  have content : List.Forall₂ ArgumentSpec.SameContent (specs.map ArgumentSpec.normalized)
      (others.map ArgumentSpec.normalized) := by
    rw [List.forall₂_map_left_iff, List.forall₂_map_right_iff]
    exact same.imp fun _ _ => ArgumentSpec.sameStatement_iff.1
  have conflicts := conflict?_congr categories content []
  cases conflict : conflict? categories [] (others.map ArgumentSpec.normalized) with
  | some error =>
      rw [load_eq_error_iff.2 conflict, load_eq_error_iff.2 (conflicts.trans conflict)]
  | none =>
      rw [load_eq_ok_iff.2 ⟨conflict, rfl⟩, load_eq_ok_iff.2 ⟨conflicts.trans conflict, rfl⟩,
        assemble_congr content]

/-- Normalizing gives the one specification whose texts are the cores of the given ones and whose
lists are the cores of the given entries that are not blank, one by one; doing it again changes
nothing.  Creating, updating and loading have the same outcome, which may be an error, for a
specification and for its normal form.  So they have for any two specifications that differ only
in blanks around their texts, in blank entries, and in the order and repetition of entries. -/
theorem edits_factor_through_normalized (g : Graph) (spec : ArgumentSpec) :
    (spec.normalized.normalized = spec.normalized ∧ spec.SameStatement spec.normalized ∧
      ∀ normal, spec.normalized = normal ↔ normal.IsNormalFormOf spec) ∧
    (g.create spec.normalized = g.create spec ∧
      ∀ id, g.update id spec.normalized = g.update id spec) ∧
    (∀ other, spec.SameStatement other →
      g.create spec = g.create other ∧ ∀ id, g.update id spec = g.update id other) ∧
    ∀ (categories : CategoryConfig) (specs : List ArgumentSpec),
      load categories (specs.map ArgumentSpec.normalized) = load categories specs ∧
        ∀ others, List.Forall₂ ArgumentSpec.SameStatement specs others →
          load categories specs = load categories others := by
  have normal := spec.sameStatement_normalized
  refine ⟨?projection, ?normalForm, ?same, ?loads⟩
  case projection =>
    exact ⟨spec.normalized_normalized, normal, fun _ => ArgumentSpec.normalized_eq_iff⟩
  case normalForm => exact ⟨(create_congr normal).symm, fun id => (update_congr normal id).symm⟩
  case same =>
    intro other same
    exact ⟨create_congr same, update_congr same⟩
  case loads =>
    intro categories specs
    refine ⟨?_, fun _ same => load_congr categories same⟩
    have normals : List.Forall₂ ArgumentSpec.SameStatement specs
        (specs.map ArgumentSpec.normalized) :=
      List.forall₂_map_right_iff.2
        (List.forall₂_same.2 fun given _ => given.sameStatement_normalized)
    exact (load_congr categories normals).symm

/-- Two ways to state one argument.  They differ in the blanks around every text, one of them has
a blank description, and their lists hold other blank entries and the same ids in another order
and number.  What they state is created and restated where one of the ids is pending, and loaded
with another specification. -/
theorem edits_factor_through_normalized_of_restated :
    let g := (Graph.empty .empty).after (.create ⟨"B", "b", "env", none, ["A", "B"], []⟩)
    let spec : ArgumentSpec := ⟨" A", "a\n", "eco ", some " \t", [" B", "", "Z", "B "], ["Y"]⟩
    let other : ArgumentSpec := ⟨"A\u3000", " a", "\u2003eco", none, ["Z", "\u0085B"],
      ["Y ", " ", "Y"]⟩
    let target : ArgumentSpec := ⟨"B", "b", "eco", none, ["A"], []⟩
    spec.SameStatement other ∧ spec.normalized.attacks = ["B", "Z", "B"] ∧
      spec.normalized ≠ other.normalized ∧
      (g.create spec = g.create other ∧ g.create other = .ok (g.after (.create other))) ∧
      (∀ id, (g.after (.create spec)).update id spec = (g.after (.create spec)).update id other) ∧
      (g.after (.create spec)).attacks.toList =
        [⟨"A", "B"⟩, ⟨"A", "Z"⟩, ⟨"B", "A"⟩, ⟨"B", "B"⟩, ⟨"Y", "A"⟩] ∧
      load .empty [spec, target] = load .empty [other, target] ∧
      ∃ loaded, load .empty [other, target] = .ok loaded := by
  intro g spec other target
  have same : spec.SameStatement other :=
    ⟨by decide +kernel, by decide +kernel, by decide +kernel, by decide +kernel,
      by decide +kernel, by decide +kernel⟩
  have unchanged : target.SameStatement target :=
    ArgumentSpec.sameStatement_iff.2 (.refl target.normalized)
  have granted : g.create other = .ok (g.after (.create other)) := by decide +kernel
  have agree : conflict? .empty [] ([other, target].map ArgumentSpec.normalized) = none := by
    decide +kernel
  obtain ⟨_, _, created, loaded⟩ := edits_factor_through_normalized g spec
  obtain ⟨_, _, updated, _⟩ := edits_factor_through_normalized (g.after (.create spec)) spec
  exact ⟨same, by decide +kernel, by decide +kernel, ⟨(created other same).1, granted⟩,
    (updated other same).2, by decide +kernel,
    (loaded .empty [spec, target]).2 [other, target] (.cons same (.cons unchanged .nil)),
    _, load_eq_ok_iff.2 ⟨agree, rfl⟩⟩

end Graph

end WeightedArgumentation
