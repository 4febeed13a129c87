import WeightedArgumentation.Graph.Edit

/-!
# Reachable graphs

A graph comes into being without arguments or from a list of specifications, and
changes by edits.  An edit is tried: when it is refused the graph stays as it
was.  The reachable graphs are those that any sequence of edits leads to.

Each edit has one lemma that says when it succeeds and what it then makes of the
graph; nothing else about an edit has to be unfolded.
-/

namespace WeightedArgumentation

namespace Graph

/-- A change that can be asked of a graph. -/
inductive Edit
  | create (spec : ArgumentSpec)
  | update (id : String) (spec : ArgumentSpec)
  | remove (id : String)
  deriving DecidableEq, Repr

/-- What becomes of a graph when an edit is tried. -/
def attempt (g : Graph) : Edit → Except GraphError Graph
  | .create spec => g.create spec
  | .update id spec => g.update id spec
  | .remove id => (g.remove id).map Prod.snd

@[simp] theorem attempt_create (g : Graph) (spec : ArgumentSpec) :
    g.attempt (.create spec) = g.create spec := rfl

@[simp] theorem attempt_update (g : Graph) (id : String) (spec : ArgumentSpec) :
    g.attempt (.update id spec) = g.update id spec := rfl

/-- The graph after an edit was tried: a refused edit leaves it as it is. -/
def after (g : Graph) (edit : Edit) : Graph :=
  match g.attempt edit with
  | .ok changed => changed
  | .error _ => g

/-- What holds of a graph, and of what an edit makes of it when it is granted, holds
after the edit was tried. -/
theorem holds_after {P : Graph → Prop} {g : Graph} {edit : Edit} (held : P g)
    (granted : ∀ changed, g.attempt edit = .ok changed → P changed) : P (g.after edit) := by
  rw [after]
  split
  next changed ok => exact granted changed ok
  next => exact held

/-- The graphs that any sequence of edits, granted or refused, leads to from an
empty graph or from a loaded one. -/
inductive Reachable : Graph → Prop
  | empty (categories : CategoryConfig) : Reachable (.empty categories)
  | load {categories : CategoryConfig} {specs : List ArgumentSpec} {g : Graph} :
      Graph.load categories specs = .ok g → Reachable g
  | after {g : Graph} (edit : Edit) : Reachable g → Reachable (g.after edit)

/-- Whatever an edit makes of a reachable graph is reachable. -/
theorem Reachable.of_attempt {g changed : Graph} {edit : Edit} (reachable : Reachable g)
    (granted : g.attempt edit = .ok changed) : Reachable changed := by
  have same : g.after edit = changed := by
    rw [Graph.after, granted]
  rw [← same]
  exact reachable.after edit

/-! ## What the edits do -/

/-- Adds the argument of a normalized specification, with the attacks that it
and the arguments before it state. -/
def enter (g : Graph) (spec : ArgumentSpec) (fresh : spec.id ∉ g.ids) : Graph :=
  (g.append (.detached spec) fresh).linkAll (g.pending spec.id ++ spec.stated)

/-- Replaces what is known of an argument by a normalized specification of the
same id. -/
def restate (g : Graph) (spec : ArgumentSpec) : Graph :=
  ((g.forget spec.id).revise (·.describe spec) fun a => a.id_describe spec).linkAll spec.stated

/-- Takes out an argument with all its attacks. -/
def discard (g : Graph) (id : String) : Graph := (g.delete id).forget id

/-- The graph of normalized specifications with distinct ids. -/
def assemble (categories : CategoryConfig) (specs : List ArgumentSpec)
    (distinct : (specs.map ArgumentSpec.id).Nodup) : Graph :=
  (detached categories specs distinct).linkAll (specs.flatMap ArgumentSpec.stated)

/-- Creating succeeds exactly for a specification without fault and of a new id,
and then enters it. -/
theorem create_eq_ok_iff {g changed : Graph} {spec : ArgumentSpec} :
    g.create spec = .ok changed ↔
      spec.normalized.fault? g.categories = none ∧
        ∃ fresh : spec.normalized.id ∉ g.ids, changed = g.enter spec.normalized fresh := by
  simp only [create]
  split
  next faulty => simp [faulty]
  next faultless =>
    split
    next taken => simp [taken]
    next fresh =>
      simp only [Except.ok.injEq, faultless, true_and]
      constructor
      · intro same
        exact ⟨fresh, same.symm⟩
      · rintro ⟨_, same⟩
        exact same.symm

/-- The id of an update may be left blank or repeat the current one. -/
theorem keepId_eq_ok_iff {id : String} {spec kept : ArgumentSpec} :
    keepId id spec = .ok kept ↔ (spec.id = "" ∨ spec.id = id) ∧ kept = { spec with id := id } := by
  rw [keepId]
  split
  next blank =>
    simp only [Except.ok.injEq, blank, true_or, true_and]
    exact eq_comm
  next named =>
    split
    next same =>
      subst same
      simp only [Except.ok.injEq, or_true, true_and]
      exact eq_comm
    next other => simp [named, other]

/-- Updating succeeds exactly for an existing id and a specification without
fault that may bear it, and then restates the argument. -/
theorem update_eq_ok_iff {g changed : Graph} {id : String} {spec : ArgumentSpec} :
    g.update id spec = .ok changed ↔
      id ∈ g.ids ∧ (spec.normalized.id = "" ∨ spec.normalized.id = id) ∧
        { spec.normalized with id := id }.fault? g.categories = none ∧
          changed = g.restate { spec.normalized with id := id } := by
  rw [update]
  split
  next present =>
    cases kept : keepId id spec.normalized with
    | error e =>
        have refused : ¬ (spec.normalized.id = "" ∨ spec.normalized.id = id) := by
          intro allowed
          have := keepId_eq_ok_iff.2 ⟨allowed, rfl⟩
          rw [kept] at this
          cases this
        simp [refused]
    | ok named =>
        obtain ⟨allowed, rfl⟩ := keepId_eq_ok_iff.1 kept
        simp only
        split
        next faulty => simp [faulty]
        next faultless =>
          simp only [Except.ok.injEq, present, allowed, faultless, true_and]
          exact eq_comm
  next absent => simp [absent]

/-- Removing succeeds exactly for an existing id, hands out its argument and
discards it. -/
theorem remove_eq_ok_iff {g changed : Graph} {id : String} {argument : Argument} :
    g.remove id = .ok (argument, changed) ↔
      g.get? id = some argument ∧ changed = g.discard id := by
  rw [remove]
  cases found : g.get? id with
  | none => simp
  | some other => simp [discard, eq_comm]

/-- As an edit, removing keeps only the graph that is left. -/
theorem attempt_remove_eq_ok_iff {g changed : Graph} {id : String} :
    g.attempt (.remove id) = .ok changed ↔ id ∈ g.ids ∧ changed = g.discard id := by
  cases found : g.get? id with
  | none =>
      have absent := get?_eq_none_iff.1 found
      have refused : g.remove id = .error (.notFound id) := by rw [remove, found]
      simp [attempt, refused, Except.map, absent]
  | some argument =>
      have removed : g.remove id = .ok (argument, g.discard id) :=
        remove_eq_ok_iff.2 ⟨found, rfl⟩
      have present : id ∈ g.ids := by
        obtain ⟨member, rfl⟩ := get?_eq_some_iff.1 found
        exact List.mem_map_of_mem member
      simp only [attempt, removed, Except.map, Except.ok.injEq, present, true_and]
      exact eq_comm

/-- Loading succeeds exactly for specifications without conflict, and then
assembles them. -/
theorem load_eq_ok_iff {categories : CategoryConfig} {specs : List ArgumentSpec} {g : Graph} :
    load categories specs = .ok g ↔
      ∃ agree : conflict? categories [] (specs.map ArgumentSpec.normalized) = none,
        g = assemble categories (specs.map ArgumentSpec.normalized)
          (distinct_of_conflict?_eq_none agree).1 := by
  simp only [load]
  split
  next conflict => simp [conflict]
  next agree => simp [agree, assemble, eq_comm]

/-- Loading fails exactly for specifications with a conflict, and reports the first one. -/
theorem load_eq_error_iff {categories : CategoryConfig} {specs : List ArgumentSpec}
    {error : GraphError} :
    load categories specs = .error error ↔
      conflict? categories [] (specs.map ArgumentSpec.normalized) = some error := by
  simp only [load]
  split
  next other conflict => simp [conflict]
  next agree => simp [agree]

end Graph

end WeightedArgumentation
