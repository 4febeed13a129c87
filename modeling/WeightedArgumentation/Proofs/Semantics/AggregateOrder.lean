import WeightedArgumentation.Proofs.Semantics.InsertionOrder
import WeightedArgumentation.Proofs.Semantics.Shortcuts

/-!
# Aggregates and the order of the arguments

In exact arithmetic the mean of a category does not depend on the order of its members, and
the sums behind the final score do not depend on the order of the categories.  One thing does:
whether the categories count as balanced is judged by comparing every weight with that of the
first category, and being close up to a tolerance is not transitive.

So the final score is free of the order where the judgement is: where any two weights are close,
or each is far from some other one (`settled_iff`).  Where one weight is close to all others and
two of these are far from one another, the category that comes first decides between the plain
and the weighted mean.  A slider position just off the middle is such a case when a third
category is present (`finalScore_depends_on_order`).
-/

namespace WeightedArgumentation

variable {K : Type*} [Field K] [LinearOrder K]

namespace WeightTable

/-- Two categories weigh nearly the same. -/
def Close (weights : WeightTable K) (a b : String) : Prop :=
  |weights.strength a - weights.strength b| < epsilon

instance (weights : WeightTable K) (a b : String) : Decidable (weights.Close a b) :=
  inferInstanceAs (Decidable (|weights.strength a - weights.strength b| < epsilon))

/-- Any two of the categories weigh nearly the same, or each weighs clearly more or less than
some other one. -/
def Settled (weights : WeightTable K) (keys : Finset String) : Prop :=
  (∀ a ∈ keys, ∀ b ∈ keys, weights.Close a b) ∨ ∀ a ∈ keys, ∃ b ∈ keys, ¬ weights.Close b a

instance (weights : WeightTable K) (keys : Finset String) : Decidable (weights.Settled keys) :=
  inferInstanceAs (Decidable (_ ∨ _))

variable [IsStrictOrderedRing K] {weights : WeightTable K} {keys : Finset String}

theorem close_self (weights : WeightTable K) (key : String) : weights.Close key key := by
  rw [Close, sub_self, abs_zero]
  exact epsilon_pos

/-- Categories count as balanced when all of them are close to the one that is listed first. -/
theorem isBalancedOver_cons {first : String} {rest : List String}
    (listed : (first :: rest).toFinset = keys) :
    weights.isBalancedOver (first :: rest) = true ↔ ∀ key ∈ keys, weights.Close key first := by
  rw [isBalancedOver_cons_iff, ← listed]
  simp only [List.mem_toFinset, List.forall_mem_cons]
  exact (and_iff_right (weights.close_self first)).symm

/-- Any category may come first. -/
theorem exists_listing {first : String} (member : first ∈ keys) :
    ∃ rest, (first :: rest).Nodup ∧ (first :: rest).toFinset = keys := by
  refine ⟨(keys.erase first).toList, List.nodup_cons.2 ⟨?_, Finset.nodup_toList _⟩, ?_⟩
  · simp
  · rw [List.toFinset_cons, Finset.toList_toFinset, Finset.insert_erase member]

theorem Settled.isBalancedOver_eq (settled : weights.Settled keys) {list other : List String}
    (listed : list.toFinset = keys) (otherListed : other.toFinset = keys) :
    weights.isBalancedOver list = weights.isBalancedOver other := by
  have alike := listed.trans otherListed.symm
  cases list with
  | nil =>
      obtain rfl : other = [] := List.toFinset_eq_empty_iff other |>.1 alike.symm
      rfl
  | cons first rest =>
      cases other with
      | nil => cases (List.toFinset_eq_empty_iff (first :: rest)).1 alike
      | cons second others =>
          have firstMember : first ∈ keys := listed ▸ List.mem_toFinset.2 List.mem_cons_self
          have secondMember : second ∈ keys := otherListed ▸ List.mem_toFinset.2 List.mem_cons_self
          rw [Bool.eq_iff_iff, isBalancedOver_cons listed, isBalancedOver_cons otherListed]
          rcases settled with close | far
          · exact iff_of_true (fun key member => close key member first firstMember)
              fun key member => close key member second secondMember
          · have unbalanced (a : String) (member : a ∈ keys) : ¬ ∀ key ∈ keys, weights.Close key a := by
              intro all
              obtain ⟨b, bMember, apart⟩ := far a member
              exact apart (all b bMember)
            exact iff_of_false (unbalanced first firstMember) (unbalanced second secondMember)

/-- Whether categories count as balanced is independent of their order exactly when their
weights settle it. -/
theorem settled_iff :
    weights.Settled keys ↔ ∀ list other : List String, list.Nodup → other.Nodup →
      list.toFinset = keys → other.toFinset = keys →
        weights.isBalancedOver list = weights.isBalancedOver other := by
  constructor
  · intro settled list other _ _ listed otherListed
    exact settled.isBalancedOver_eq listed otherListed
  · intro same
    by_contra unsettled
    simp only [Settled, not_or, not_forall, not_exists, not_and, not_not] at unsettled
    obtain ⟨⟨a, aMember, b, bMember, far⟩, c, cMember, close⟩ := unsettled
    -- with `c` in front the categories are balanced, with `b` in front they are not
    obtain ⟨rest, nodup, listed⟩ := exists_listing cMember
    obtain ⟨others, otherNodup, otherListed⟩ := exists_listing bMember
    have balanced := same (c :: rest) (b :: others) nodup otherNodup listed otherListed
    rw [Bool.eq_iff_iff, isBalancedOver_cons listed, isBalancedOver_cons otherListed] at balanced
    exact far (balanced.1 close a aMember)

end WeightTable

namespace Graph

variable {g h : Graph}

/-! ## Means -/

theorem SameArguments.present (same : g.SameArguments h) : g.present = h.present :=
  List.toFinset_eq_of_perm _ _ <|
    same.map_perm fun _ _ equal => (Argument.unlabelled_eq_iff.1 equal).2.1

/-- The members of a category have the same scores, in any order. -/
theorem SameArguments.scores_members_perm (same : g.SameArguments h) (scores : Table K)
    (category : String) :
    ((members g.arguments category).map (scoreUnder scores)).Perm
      ((members h.arguments category).map (scoreUnder scores)) := by
  have tagged : (g.arguments.map fun a => (a.category, scoreUnder scores a)).Perm
      (h.arguments.map fun a => (a.category, scoreUnder scores a)) := by
    apply same.map_perm
    intro a b equal
    obtain ⟨id, sameCategory, _⟩ := Argument.unlabelled_eq_iff.1 equal
    rw [sameCategory, scoreUnder, id]
    rfl
  have filtered := (tagged.filter fun entry => entry.1 = category).map Prod.snd
  rw [List.filter_map, List.filter_map, List.map_map, List.map_map] at filtered
  exact filtered

theorem SameArguments.categoryMean (same : g.SameArguments h) (scores : Table K)
    (category : String) : g.categoryMean scores category = h.categoryMean scores category := by
  have perm := same.scores_members_perm scores category
  have count : (members g.arguments category).length = (members h.arguments category).length := by
    simpa using perm.length_eq
  rw [Graph.categoryMean, Graph.categoryMean, perm.sum_eq, count]

/-- A category that is present has its mean among the category scores, any other has none. -/
theorem get?_categoryScores (g : Graph) (scores : Table K) (weights : WeightTable K)
    (category : String) :
    (aggregate g scores weights).categoryScores.get? category =
      if category ∈ g.present then some (g.categoryMean scores category) else none := by
  rw [aggregate, Table.get?_map, get?_tallies]
  split
  next empty => simp [mem_present, empty]
  next filled =>
    rw [if_pos (mem_present.2 filled), Option.map_some, Tally.mean_ofList, categoryMean_eq_plainMean]

/-! ## The final score -/

theorem finalScore_of_nothing_present {scores : Table K} {weights : WeightTable K}
    (empty : g.present = ∅) : (aggregate g scores weights).finalScore = none := by
  have rows : (aggregate g scores weights).categoryScores.rows = [] := by
    rw [← List.length_eq_zero_iff, length_rows_aggregate, empty, Finset.card_empty]
  change finalScore (aggregate g scores weights).categoryScores weights = none
  rw [finalScore, Table.isEmpty, rows]
  rfl

/-- The final score depends on the order of the arguments only through the judgement whether
the categories are balanced. -/
theorem SameArguments.finalScore (same : g.SameArguments h) {scores : Table K}
    {weights : WeightTable K}
    (balanced : weights.isBalancedOver (aggregate g scores weights).categoryScores.keys =
      weights.isBalancedOver (aggregate h scores weights).categoryScores.keys) :
    (aggregate g scores weights).finalScore = (aggregate h scores weights).finalScore := by
  rcases g.present.eq_empty_or_nonempty with empty | nonempty
  · rw [finalScore_of_nothing_present empty, finalScore_of_nothing_present (same.present ▸ empty)]
  · rw [finalScore_aggregate nonempty, finalScore_aggregate (same.present ▸ nonempty), balanced,
      same.present]
    simp only [same.categoryMean]

end Graph

/-- For graphs that hold the same arguments in any order, every category has the same mean.
Whether the categories present count as balanced is independent of their order exactly when
their weights settle it, and then the final score is the same too. -/
theorem aggregate_order_free [IsStrictOrderedRing K] {g h : Graph} (same : g.SameArguments h)
    (scores : Table K) (weights : WeightTable K) :
    (∀ category, (aggregate g scores weights).categoryScores.get? category =
      (aggregate h scores weights).categoryScores.get? category) ∧
    (weights.Settled g.present ↔ ∀ list other : List String, list.Nodup → other.Nodup →
      list.toFinset = g.present → other.toFinset = g.present →
        weights.isBalancedOver list = weights.isBalancedOver other) ∧
    (weights.Settled g.present →
      (aggregate g scores weights).finalScore = (aggregate h scores weights).finalScore) := by
  refine ⟨?means, WeightTable.settled_iff, ?final⟩
  case means =>
    intro category
    rw [Graph.get?_categoryScores, Graph.get?_categoryScores, same.present, same.categoryMean]
  case final =>
    intro settled
    apply same.finalScore
    apply settled.isBalancedOver_eq
    · exact Graph.toFinset_keys_aggregate g scores weights
    · exact (Graph.toFinset_keys_aggregate h scores weights).trans same.present.symm

/-- Three arguments of two categories in two orders, one of them without a score, under weights
that are far from one another. -/
theorem aggregate_order_free_of_reversed :
    let a : ArgumentSpec := ⟨"A", "a", "eco", none, ["B"], []⟩
    let b : ArgumentSpec := ⟨"B", "b", "env", none, [], []⟩
    let c : ArgumentSpec := ⟨"C", "c", "eco", none, ["A"], []⟩
    let g := (((Graph.empty .empty).after (.create a)).after (.create b)).after (.create c)
    let h := (((Graph.empty .empty).after (.create c)).after (.create b)).after (.create a)
    let weights := (WeightTable.empty.set "eco" (1 / 2 : ℚ)).set "env" 2
    let scores := (Table.empty.set "A" (1 / 4 : ℚ)).set "B" 1
    g.SameArguments h ∧ weights.Settled g.present ∧ g.ids ≠ h.ids ∧
      (∀ category, (aggregate g scores weights).categoryScores.get? category =
        (aggregate h scores weights).categoryScores.get? category) ∧
      (aggregate g scores weights).finalScore = some (33 / 40) ∧
      (aggregate h scores weights).finalScore = some (33 / 40) := by
  intro a b c g h weights scores
  have same : g.SameArguments h := by
    unfold Graph.SameArguments
    decide +kernel
  have settled : weights.Settled g.present := by decide +kernel
  have final : (aggregate g scores weights).finalScore = some (33 / 40) := by decide +kernel
  obtain ⟨means, _, free⟩ := aggregate_order_free same scores weights
  exact ⟨same, settled, by decide +kernel, means, final, (free settled).symm.trans final⟩

/-- Three categories at a slider position just off the middle.  The weight of the third one is
close to those of the other two, which are not close to one another.  With the third category in
front the plain mean is taken, and once its argument was removed and created again the weighted
one. -/
theorem finalScore_depends_on_order :
    let config := ((CategoryConfig.empty.declare "care" "Care" "").declare "eco" "Economic"
      "").declare "env" "Environmental" ""
    let c : ArgumentSpec := ⟨"C", "c", "care", none, [], []⟩
    let g := (((Graph.empty config).after (.create c)).after
      (.create ⟨"E", "e", "eco", none, [], []⟩)).after (.create ⟨"V", "v", "env", none, [], []⟩)
    let h := (g.after (.remove "C")).after (.create c)
    let weights := WeightTable.ofSlider config (⟨1 / 2 + 1 / 2 ^ 31⟩ : Slider ℚ)
    let scores := ((Table.empty.set "C" (1 / 2 : ℚ)).set "E" 0).set "V" 1
    g.Reachable ∧ h.Reachable ∧ g.arguments.Perm h.arguments ∧
      weights.isBalancedOver ["care", "eco", "env"] = true ∧
      weights.isBalancedOver ["eco", "env", "care"] = false ∧
      (aggregate g scores weights).finalScore = some (1 / 2) ∧
      (aggregate h scores weights).finalScore = some (1 / 2 + 1 / (3 * 2 ^ 30)) ∧
      (aggregate g scores weights).finalScore ≠ (aggregate h scores weights).finalScore := by
  intro config c g h weights scores
  have reachable : g.Reachable := .after _ (.after _ (.after _ (.empty _)))
  exact ⟨reachable, .after _ (.after _ reachable), by decide +kernel, by decide +kernel,
    by decide +kernel, by decide +kernel, by decide +kernel, by decide +kernel⟩

end WeightedArgumentation
