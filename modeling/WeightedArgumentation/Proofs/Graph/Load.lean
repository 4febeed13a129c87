import WeightedArgumentation.Proofs.Graph.Store

/-!
# Loading and creating one by one

Loading checks all specifications first, then brings in all arguments and records
their attacks last.  Creating checks a specification, brings in its argument and
records its attacks before the next specification is looked at, so attacks that
point forward in the list stay pending for a while.  Both come to the same: the
graph when nothing is refused, and otherwise the error.

The check of a load goes through the specifications in their order and remembers
the ids that it has passed, as a graph under construction does.  So both find the
same first fault.  Without a fault both end in the same store, and on symmetric
graphs the store determines the graph.
-/

namespace WeightedArgumentation

namespace AttackStore

/-- Creating one after another adds all records and all attacks stated. -/
theorem foldl_create (store : AttackStore) (specs : List ArgumentSpec) :
    specs.foldl create store =
      { records := store.records ++ (load specs).records
        attacks := store.attacks ∪ (load specs).attacks } := by
  induction specs generalizing store with
  | nil => simp [load]
  | cons spec rest ih =>
      rw [List.foldl_cons, ih]
      apply AttackStore.ext
      · simp [create, load]
      · apply Set.ext
        intro attack
        simp [create, load, or_assoc]

end AttackStore

namespace Graph

variable {g : Graph}

@[simp] theorem ids_enter {spec : ArgumentSpec} (fresh : spec.id ∉ g.ids) :
    (g.enter spec fresh).ids = g.ids ++ [spec.id] := by
  rw [enter, ids_linkAll]
  simp [ids, append]

theorem create_of_fault {spec : ArgumentSpec} {field : SpecField} {fault : SpecFault}
    (faulty : spec.normalized.fault? g.categories = some (field, fault)) :
    g.create spec = .error (.invalid field fault) := by
  simp [create, faulty]

theorem create_of_taken {spec : ArgumentSpec}
    (faultless : spec.normalized.fault? g.categories = none)
    (taken : spec.normalized.id ∈ g.ids) :
    g.create spec = .error (.duplicate spec.normalized.id) := by
  simp [create, faultless, taken]

theorem create_of_fresh {spec : ArgumentSpec}
    (faultless : spec.normalized.fault? g.categories = none)
    (fresh : spec.normalized.id ∉ g.ids) :
    g.create spec = .ok (g.enter spec.normalized fresh) :=
  create_eq_ok_iff.2 ⟨faultless, fresh, rfl⟩

/-- The ids passed by the check of a load stay those of the graph under
construction. -/
theorem passed_enter {taken : List String} {spec : ArgumentSpec}
    (passed : ∀ id, id ∈ taken ↔ id ∈ g.ids) (fresh : spec.id ∉ g.ids) (id : String) :
    id ∈ spec.id :: taken ↔ id ∈ (g.enter spec fresh).ids := by
  simp [passed, or_comm]

/-- The first conflict of specifications is the error at which creating them one
after another stops. -/
theorem foldlM_create_of_conflict {taken : List String} {specs : List ArgumentSpec}
    {error : GraphError} (passed : ∀ id, id ∈ taken ↔ id ∈ g.ids)
    (conflict : conflict? g.categories taken (specs.map ArgumentSpec.normalized) = some error) :
    specs.foldlM create g = .error error := by
  induction specs generalizing g taken with
  | nil => cases conflict
  | cons spec rest ih =>
      rw [List.map_cons, conflict?] at conflict
      rw [List.foldlM_cons]
      split at conflict
      next field fault faulty =>
        obtain rfl := Option.some.inj conflict
        rw [create_of_fault faulty]
        rfl
      next faultless =>
        split at conflict
        next repeated =>
          obtain rfl := Option.some.inj conflict
          rw [create_of_taken faultless ((passed _).1 repeated)]
          rfl
        next unused =>
          have fresh : spec.normalized.id ∉ g.ids := fun present => unused ((passed _).2 present)
          rw [create_of_fresh faultless fresh]
          rw [← categories_enter fresh] at conflict
          exact ih (passed_enter passed fresh) conflict

/-- Without a conflict, creating one after another goes through and follows the
store. -/
theorem foldlM_create_of_agree {taken : List String} {specs : List ArgumentSpec}
    (symmetric : g.Symmetric) (passed : ∀ id, id ∈ taken ↔ id ∈ g.ids)
    (agree : conflict? g.categories taken (specs.map ArgumentSpec.normalized) = none) :
    ∃ built, specs.foldlM create g = .ok built ∧ built.Symmetric ∧
      built.categories = g.categories ∧
        built.store = (specs.map ArgumentSpec.normalized).foldl AttackStore.create g.store := by
  induction specs generalizing g taken with
  | nil => exact ⟨g, rfl, symmetric, rfl, rfl⟩
  | cons spec rest ih =>
      rw [List.map_cons, conflict?] at agree
      split at agree
      next => cases agree
      next faultless =>
        split at agree
        next => cases agree
        next unused =>
          have fresh : spec.normalized.id ∉ g.ids := fun present => unused ((passed _).2 present)
          rw [← categories_enter fresh] at agree
          obtain ⟨built, run, builtSymmetric, categories, store⟩ :=
            ih (symmetric.enter fresh) (passed_enter passed fresh) agree
          refine ⟨built, ?_, builtSymmetric, categories.trans (categories_enter fresh), ?_⟩
          · rw [List.foldlM_cons, create_of_fresh faultless fresh]
            exact run
          · rw [store, store_enter fresh, List.map_cons, List.foldl_cons]

/-- Loading specifications is creating them one after another in an empty graph:
it gives the same graph, or fails with the error at which the creations stop. -/
theorem load_eq_foldlM_create (categories : CategoryConfig) (specs : List ArgumentSpec) :
    load categories specs = specs.foldlM create (.empty categories) := by
  have passed : ∀ id, id ∈ ([] : List String) ↔ id ∈ (empty categories).ids := by
    intro id
    simp [ids, empty]
  rw [load]
  split
  next error conflict =>
    exact (foldlM_create_of_conflict passed conflict).symm
  next agree =>
    obtain ⟨built, run, symmetric, sameCategories, store⟩ :=
      foldlM_create_of_agree (Reachable.empty categories).symmetric passed agree
    rw [run]
    refine congrArg Except.ok (eq_of_store_eq symmetric_assemble symmetric ?_ ?_)
    · exact categories_assemble.trans sameCategories.symm
    · rw [store, AttackStore.foldl_create, store_empty, List.nil_append, Set.empty_union]
      exact store_assemble

end Graph

end WeightedArgumentation
