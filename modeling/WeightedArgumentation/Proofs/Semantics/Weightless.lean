import WeightedArgumentation.Proofs.Graph.Store
import WeightedArgumentation.Proofs.Semantics.Exact

/-!
# Attackers that weigh nothing

An attacker burdens an argument with its own score, scaled by the weight of its category, and
a weight that is not positive counts as zero.  So the attacks of arguments in such a category
can be deleted from a graph: every sum over attackers loses terms that are zero, in every
pass.  The arguments themselves stay.  They are still attacked and their scores still change,
so the largest change of a pass is the same as well and the passes end together.
-/

namespace WeightedArgumentation

/-! ## Deleting attacks -/

/-- The elements of a set that pass a test. -/
def SortedSet.filter {α : Type*} [LT α] (set : SortedSet α) (keep : α → Bool) : SortedSet α :=
  ⟨set.toList.filter keep, set.ascending.filter _⟩

@[simp] theorem SortedSet.mem_filter {α : Type*} [LT α] {set : SortedSet α} {keep : α → Bool}
    {a : α} : a ∈ set.filter keep ↔ a ∈ set ∧ keep a = true :=
  List.mem_filter

namespace Argument

/-- Keeps the attacks of an argument that pass a test. -/
def restrict (argument : Argument) (keep : Attack → Bool) : Argument :=
  { argument with
    attacks := argument.attacks.filter fun target => keep ⟨argument.id, target⟩
    attackedBy := argument.attackedBy.filter fun source => keep ⟨source, argument.id⟩ }

@[simp] theorem id_restrict (argument : Argument) (keep : Attack → Bool) :
    (argument.restrict keep).id = argument.id := rfl

theorem mem_stated_restrict {argument : Argument} {keep : Attack → Bool} {attack : Attack} :
    attack ∈ (argument.restrict keep).stated ↔ attack ∈ argument.stated ∧ keep attack = true := by
  obtain ⟨source, target⟩ := attack
  simp only [mem_stated, restrict, SortedSet.mem_filter]
  grind

end Argument

namespace Graph

/-- Keeps the attacks of a graph that pass a test, and deletes the others at both ends. -/
def restrict (g : Graph) (keep : Attack → Bool) : Graph :=
  g.revise (·.restrict keep) fun a => a.id_restrict keep

theorem mem_attacks_restrict {g : Graph} {keep : Attack → Bool} {attack : Attack} :
    attack ∈ (g.restrict keep).attacks ↔ attack ∈ g.attacks ∧ keep attack = true := by
  rw [restrict, mem_attacks_revise, mem_attacks_iff_stated]
  simp only [Argument.mem_stated_restrict]
  grind

theorem records_restrict (g : Graph) (keep : Attack → Bool) :
    (g.restrict keep).store.records = g.store.records :=
  List.map_map

theorem get?_restrict (g : Graph) (keep : Attack → Bool) (id : String) :
    (g.restrict keep).get? id = (g.get? id).map (·.restrict keep) :=
  List.find?_map

/-- The attackers that are left are those whose attack is kept. -/
theorem attackers_restrict (g : Graph) (keep : Attack → Bool) (a : Argument) :
    (g.restrict keep).attackers (a.restrict keep) =
      ((g.attackers a).filter fun b => keep ⟨b.id, a.id⟩).map (·.restrict keep) := by
  have kept : (a.restrict keep).attackedBy.toList =
      a.attackedBy.toList.filter fun source => keep ⟨source, a.id⟩ := rfl
  rw [attackers, attackers, kept, ← List.filter_reverse, List.filterMap_filter,
    List.filter_filterMap, List.map_filterMap]
  congr 1
  funext id
  rw [get?_restrict]
  cases found : g.get? id with
  | none => simp
  | some b =>
      obtain ⟨_, rfl⟩ := get?_eq_some_iff.1 found
      simp only [Option.map_some, Option.filter_some]
      split <;> rfl

/-! ## Attackers without weight -/

variable {K : Type*} [Field K] [LinearOrder K]

/-- The id is that of an argument in a category whose weight is not positive. -/
def Weightless (g : Graph) (weights : WeightTable K) (id : String) : Prop :=
  ∃ a ∈ g.arguments, a.id = id ∧ weights.weight a.category ≤ 0

instance (g : Graph) (weights : WeightTable K) (id : String) :
    Decidable (g.Weightless weights id) :=
  inferInstanceAs (Decidable (∃ a ∈ g.arguments, a.id = id ∧ weights.weight a.category ≤ 0))

/-- Whether an attack is not one from an argument without weight. -/
def weighs (g : Graph) (weights : WeightTable K) (attack : Attack) : Bool :=
  !decide (g.Weightless weights attack.source)

/-- The graph without the attacks from arguments without weight. -/
def withoutWeightless (g : Graph) (weights : WeightTable K) : Graph := g.restrict (g.weighs weights)

variable {g : Graph} {weights : WeightTable K} {a b : Argument}

theorem mem_attacks_withoutWeightless {attack : Attack} :
    attack ∈ (g.withoutWeightless weights).attacks ↔
      attack ∈ g.attacks ∧ ¬ g.Weightless weights attack.source := by
  rw [withoutWeightless, mem_attacks_restrict, weighs, Bool.not_eq_true', decide_eq_false_iff_not]

theorem weightless_iff (member : b ∈ g.arguments) :
    g.Weightless weights b.id ↔ weights.weight b.category ≤ 0 := by
  constructor
  · rintro ⟨other, otherMember, same, weight⟩
    obtain rfl := eq_of_id_eq otherMember member same
    exact weight
  · intro weight
    exact ⟨b, member, rfl, weight⟩

/-- A weight that is not positive counts as zero. -/
theorem strength_eq_zero {key : String} (weight : weights.weight key ≤ 0) :
    weights.strength key = 0 := by
  rw [WeightTable.strength, Scalar.clampNegative_eq_max, max_eq_left weight]

/-- A sum does not change when terms that are zero are left out. -/
theorem sum_map_filter_of_zero {α : Type*} {values : List α} {f : α → K} {keep : α → Bool}
    (zero : ∀ x ∈ values, keep x = false → f x = 0) :
    ((values.filter keep).map f).sum = (values.map f).sum := by
  induction values with
  | nil => rfl
  | cons first rest ih =>
      have later := ih fun x member => zero x (List.mem_cons_of_mem first member)
      cases kept : keep first with
      | true => simp [kept, later]
      | false => simp [kept, later, zero first List.mem_cons_self kept]

/-- Attackers without weight do not add to the burden of an argument. -/
theorem burden_withoutWeightless {scores others : Argument → K}
    (same : ∀ b, others (b.restrict (g.weighs weights)) = scores b) (a : Argument) :
    (g.withoutWeightless weights).burden weights others (a.restrict (g.weighs weights)) =
      g.burden weights scores a := by
  have contributions : ((g.withoutWeightless weights).attackers
      (a.restrict (g.weighs weights))).map
        (fun b => weights.strength b.category * others b) =
          ((g.attackers a).filter fun b => g.weighs weights ⟨b.id, a.id⟩).map
            fun b => weights.strength b.category * scores b := by
    rw [withoutWeightless, attackers_restrict, List.map_map]
    apply List.map_congr_left
    intro b _
    rw [← same b]
    rfl
  rw [burden, contributions, burden]
  apply sum_map_filter_of_zero
  intro b attacker dropped
  have weightless : g.Weightless weights b.id := by simpa [weighs] using dropped
  have weight := (weightless_iff (mem_arguments_of_mem_attackers attacker)).1 weightless
  rw [strength_eq_zero weight, zero_mul]

/-- Every number of passes gives an argument the score that it has with the attacks of
arguments without weight. -/
theorem scoreAfter_withoutWeightless (passes : Nat) (a : Argument) :
    (g.withoutWeightless weights).scoreAfter weights passes (a.restrict (g.weighs weights)) =
      g.scoreAfter weights passes a := by
  induction passes generalizing a with
  | zero => rfl
  | succ passes ih => rw [scoreAfter_succ, scoreAfter_succ, burden_withoutWeightless ih]

theorem rowsAfter_withoutWeightless :
    (g.withoutWeightless weights).rowsAfter weights = g.rowsAfter weights := by
  funext passes
  rw [rowsAfter, withoutWeightless, restrict, revise, List.map_map]
  apply List.map_congr_left
  intro a _
  exact congrArg (Prod.mk a.id) (scoreAfter_withoutWeightless passes a)

/-- An argument whose attackers have no weight keeps its score of one. -/
theorem scoreAfter_of_weightless_attackers
    (weightless : ∀ b ∈ g.attackers a, weights.weight b.category ≤ 0) (passes : Nat) :
    g.scoreAfter weights passes a = 1 := by
  cases passes with
  | zero => rfl
  | succ passes =>
      have unburdened : g.burden weights (g.scoreAfter weights passes) a = 0 := by
        apply List.sum_eq_zero
        intro contribution contributed
        obtain ⟨b, attacker, rfl⟩ := List.mem_map.1 contributed
        rw [strength_eq_zero (weightless b attacker), zero_mul]
      rw [scoreAfter_succ, unburdened, add_zero, div_one]

end Graph

/-- Deleting from a graph the attacks of all arguments whose category has no positive weight
leaves its arguments and changes nothing in how it is solved: the scores are the same, and the
passes end in the same way.  An argument that only such arguments attack scores one. -/
theorem weightless_attacks_count_for_nothing {K : Type*} [Field K] [LinearOrder K] (g : Graph)
    (weights : WeightTable K) (config : SolverConfig K) :
    (g.withoutWeightless weights).store.records = g.store.records ∧
    (∀ attack, attack ∈ (g.withoutWeightless weights).attacks ↔
      attack ∈ g.attacks ∧
        ¬ ∃ a ∈ g.arguments, a.id = attack.source ∧ weights.weight a.category ≤ 0) ∧
    solve (g.withoutWeightless weights) weights config = solve g weights config ∧
    ∀ a ∈ g.arguments, (∀ b ∈ g.attackers a, weights.weight b.category ≤ 0) →
      (solve g weights config).scores.get? a.id = some 1 := by
  refine ⟨g.records_restrict _, fun _ => Graph.mem_attacks_withoutWeightless,
    Graph.solve_eq_of_rowsAfter_eq Graph.rowsAfter_withoutWeightless config, ?_⟩
  intro a member weightless
  rw [get?_solve weights config member, Graph.scoreAfter_of_weightless_attackers weightless]

/-- An argument of negative weight on a cycle, which attacks itself as well and one that
nothing else attacks.  The table leaves a category out, which weighs one, and an attack from
an id that no argument has is not deleted. -/
theorem weightless_attacks_count_for_nothing_of_cycle :
    let g := ((((Graph.empty .empty).after
      (.create ⟨"A", "a", "eco", none, ["A", "B", "D"], []⟩)).after
        (.create ⟨"B", "b", "env", none, ["C"], ["Z", "C"]⟩)).after
          (.create ⟨"C", "c", "care", none, ["A"], []⟩)).after
            (.create ⟨"D", "d", "env", none, [], []⟩)
    let weights : WeightTable ℚ := ⟨.ofList [("eco", -3), ("env", 1 / 2)]⟩
    let config : SolverConfig ℚ := ⟨.hCategorizer, 3, 1 / 100⟩
    (g.withoutWeightless weights).attacks.toList =
        [⟨"B", "C"⟩, ⟨"C", "A"⟩, ⟨"C", "B"⟩, ⟨"Z", "B"⟩] ∧
      solve (g.withoutWeightless weights) weights config = solve g weights config ∧
      (solve g weights config).scores.get? "D" = some 1 := by
  intro g weights config
  obtain ⟨d, member, named⟩ : ∃ a ∈ g.arguments, a.id = "D" := by decide +kernel
  have weightless : ∀ a ∈ g.arguments, a.id = "D" → ∀ b ∈ g.attackers a,
      weights.weight b.category ≤ 0 := by decide +kernel
  obtain ⟨_, _, solved, unburdened⟩ := weightless_attacks_count_for_nothing g weights config
  refine ⟨by decide +kernel, solved, ?_⟩
  rw [← named]
  exact unburdened d member (weightless d member named)

end WeightedArgumentation
