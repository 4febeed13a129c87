import Mathlib.Data.List.Forall2
import WeightedArgumentation.Proofs.Graph.Relation
import WeightedArgumentation.Proofs.Semantics.Acyclic

/-!
# Influence travels one attack in a pass

A pass computes the score of an argument from the scores that its existing attackers had
before.  So what a score after some passes depends on is a tree: the attackers of the
argument, their attackers and so on, unfolded backwards for as many attacks as there were
passes.  Two graphs in which the trees of an argument coincide give it the same score,
whatever else they hold.  An argument from which only longer paths lead there, or none, has
no influence.

Nothing is computed with scores here.  The one law that is used says that a comparison is
transitive: no change is then below a tolerance that is not positive, so exactly as many
passes are run as the cap allows.
-/

namespace WeightedArgumentation

universe u

/-- Lists with equal images are paired element by element. -/
theorem forall₂_of_map_eq {α β γ : Type*} {left : List α} {right : List β} {f : α → γ} {f' : β → γ}
    (same : left.map f = right.map f') :
    List.Forall₂ (fun x y => (x ∈ left ∧ y ∈ right) ∧ f x = f' y) left right := by
  have equal : List.Forall₂ Eq (left.map f) (right.map f') := by
    rw [same]
    exact List.forall₂_refl _
  have paired := List.forall₂_map_right_iff.1 (List.forall₂_map_left_iff.1 equal)
  obtain ⟨length, images⟩ := List.forall₂_iff_zip.1 paired
  exact List.forall₂_iff_zip.2 ⟨length, fun pair => ⟨List.of_mem_zip pair, images pair⟩⟩

/-- The attackers of an argument unfolded backwards.  Every attacker comes with its id and
with the weight of its category; a tree is cut where the unfolding stops. -/
inductive AttackTree (R : Type u)
  | cut
  | node (attackers : List (String × R × AttackTree R))

namespace AttackTree

mutual

/-- Whether two trees are equal can be decided. -/
def decEq {R : Type u} [DecidableEq R] : (tree other : AttackTree R) → Decidable (tree = other)
  | .cut, .cut => .isTrue rfl
  | .cut, .node _ => .isFalse nofun
  | .node _, .cut => .isFalse nofun
  | .node attackers, .node others =>
      match decEqAttackers attackers others with
      | .isTrue same => .isTrue (congrArg node same)
      | .isFalse different => .isFalse fun same => different (node.inj same)

/-- Whether the attackers of two trees are equal can be decided. -/
def decEqAttackers {R : Type u} [DecidableEq R] :
    (attackers others : List (String × R × AttackTree R)) → Decidable (attackers = others)
  | [], [] => .isTrue rfl
  | [], _ :: _ => .isFalse nofun
  | _ :: _, [] => .isFalse nofun
  | (id, weight, tree) :: rest, (otherId, otherWeight, otherTree) :: others =>
      match decEq tree otherTree, decEqAttackers rest others with
      | .isTrue trees, .isTrue rests =>
          if same : id = otherId ∧ weight = otherWeight then
            .isTrue (by rw [same.1, same.2, trees, rests])
          else .isFalse (by simp_all)
      | .isFalse different, _ => .isFalse (by simp [different])
      | _, .isFalse different => .isFalse (by simp [different])

end

instance {R : Type u} [DecidableEq R] : DecidableEq (AttackTree R) := decEq

end AttackTree

variable {R : Type u} [Scalar R]

namespace Graph

/-- The existing attackers of an argument unfolded backwards to a depth. -/
def attackTree (g : Graph) (weights : WeightTable R) : (depth : Nat) → Argument → AttackTree R
  | 0, _ => .cut
  | depth + 1, argument => .node ((g.attackers argument).map fun attacker =>
      (attacker.id, weights.weight attacker.category, g.attackTree weights depth attacker))

/-- An attack path with this many attacks leads from one argument to another. -/
inductive PathBetween (g : Graph) : Nat → Argument → Argument → Prop
  | start {a : Argument} (member : a ∈ g.arguments) : PathBetween g 0 a a
  | attack {edges : Nat} {c b a : Argument} (attacks : g.Attacks c b)
      (path : PathBetween g edges b a) : PathBetween g (edges + 1) c a

/-- Every argument from which a path with at most `reach` attacks leads to `a` stands in
another graph as well, in a category of the same weight and, unless all the attacks are
used up, with the same existing attackers.  Nothing is said of any other argument. -/
def AgreesWithin (g h : Graph) (weights : WeightTable R) (reach : Nat) (a : Argument) : Prop :=
  ∀ edges c, g.PathBetween edges c a → edges ≤ reach →
    ∃ d ∈ h.arguments, d.id = c.id ∧ weights.weight d.category = weights.weight c.category ∧
      (edges < reach → (h.attackers d).map Argument.id = (g.attackers c).map Argument.id)

variable {g h : Graph} {weights : WeightTable R} {a b : Argument}

theorem PathBetween.mem_arguments {edges : Nat} {c : Argument} (path : g.PathBetween edges c a) :
    c ∈ g.arguments := by
  cases path with
  | start member => exact member
  | attack attacks _ => exact attacks.1

/-- A path is no shorter than what is lost on it of a rank that every attack lowers by one
at most. -/
theorem PathBetween.rank_le {rank : Argument → Nat}
    (steps : ∀ c b, g.Attacks c b → rank c ≤ rank b + 1) {edges : Nat} {c : Argument}
    (path : g.PathBetween edges c a) : rank c ≤ rank a + edges := by
  induction path with
  | start _ => exact Nat.le_refl _
  | attack attacks _ ih =>
      have step := steps _ _ attacks
      omega

/-! ## Attackers by id -/

/-- The ids of the existing attackers are those listed that an argument has. -/
theorem map_id_attackers (g : Graph) (a : Argument) :
    (g.attackers a).map Argument.id = a.attackedBy.toList.reverse.filter g.contains := by
  rw [attackers, List.map_filterMap, ← List.filterMap_eq_filter]
  congr 1
  funext id
  cases found : g.get? id with
  | none =>
      have absent : g.contains id = false :=
        Bool.eq_false_iff.2 fun present => get?_eq_none_iff.1 found (contains_iff.1 present)
      simp [Option.guard, absent]
  | some b =>
      obtain ⟨member, rfl⟩ := get?_eq_some_iff.1 found
      have present : g.contains b.id = true := contains_iff.2 (List.mem_map_of_mem member)
      simp [Option.guard, present]

/-- Taking out an argument leaves what no path with few attacks from it leads to. -/
theorem agreesWithin_discard {removed : Argument} {reach : Nat} (member : removed ∈ g.arguments)
    (far : ∀ edges, edges ≤ reach → ¬ g.PathBetween edges removed a) :
    g.AgreesWithin (g.discard removed.id) weights reach a := by
  intro edges c path within
  have other : c.id ≠ removed.id := by
    intro same
    obtain rfl := eq_of_id_eq path.mem_arguments member same
    exact far edges within path
  have forgotten : c.forget removed.id = { c with
      attacks := c.attacks.erase removed.id
      attackedBy := c.attackedBy.erase removed.id } := if_neg other
  refine ⟨c.forget removed.id, ?stands, c.id_forget removed.id, ?weight, ?attackers⟩
  case stands =>
    apply List.mem_map_of_mem
    exact List.mem_filter.2 ⟨path.mem_arguments, decide_eq_true other⟩
  case weight => rw [forgotten]
  case attackers =>
    intro further
    have unlisted : removed.id ∉ c.attackedBy.toList := by
      intro listed
      have attacker : removed ∈ g.attackers c := List.mem_filterMap.2
        ⟨removed.id, List.mem_reverse.2 listed, get?_eq_some_iff.2 ⟨member, rfl⟩⟩
      have attacks := attacks_of_mem_attackers path.mem_arguments attacker
      exact far (edges + 1) further (.attack attacks path)
    have kept : (c.forget removed.id).attackedBy.toList = c.attackedBy.toList := by
      rw [forgotten]
      apply List.filter_eq_self.2
      intro id listed
      exact decide_eq_true fun same => unlisted (same ▸ listed)
    rw [map_id_attackers, map_id_attackers, kept]
    apply List.filter_congr
    intro id listed
    have different : id ≠ removed.id := fun same => unlisted (same ▸ List.mem_reverse.1 listed)
    simp [contains, ids_discard, different]

/-! ## Equal scores -/

/-- Arguments of two graphs have equal scores after some passes when they are related in a
way that passes on to their attackers, in pairs of the same weight, for as many attacks. -/
theorem scoreAfter_eq_of_related (related : Nat → Argument → Argument → Prop)
    (step : ∀ depth a b, related (depth + 1) a b →
      List.Forall₂ (fun x y => weights.weight x.category = weights.weight y.category ∧
        related depth x y) (g.attackers a) (h.attackers b))
    {passes : Nat} (start : related passes a b) :
    g.scoreAfter weights passes a = h.scoreAfter weights passes b := by
  induction passes generalizing a b with
  | zero => rfl
  | succ passes ih =>
      have contributions : (g.attackers a).map (fun x =>
          weights.strength x.category * g.scoreAfter weights passes x) =
            (h.attackers b).map fun y =>
              weights.strength y.category * h.scoreAfter weights passes y := by
        rw [← List.forall₂_eq_eq_eq, List.forall₂_map_left_iff, List.forall₂_map_right_iff]
        refine (step passes a b start).imp fun x y alike => ?_
        obtain ⟨weight, onward⟩ := alike
        rw [WeightTable.strength, WeightTable.strength, weight, ih onward]
      rw [scoreAfter, scoreAfter, categorize, categorize, contributions]

/-- The score after some passes is determined by the tree to that depth. -/
theorem scoreAfter_eq_of_attackTree_eq {passes : Nat}
    (coincide : g.attackTree weights passes a = h.attackTree weights passes b) :
    g.scoreAfter weights passes a = h.scoreAfter weights passes b := by
  refine scoreAfter_eq_of_related (fun depth a b =>
    g.attackTree weights depth a = h.attackTree weights depth b) ?_ coincide
  intro depth a b coincide
  refine (forall₂_of_map_eq (AttackTree.node.inj coincide)).imp fun x y alike => ?_
  obtain ⟨_, weight, onward⟩ := Prod.mk.inj alike.2 |>.imp_right Prod.mk.inj
  exact ⟨weight, onward⟩

/-- The score after some passes is determined by the arguments from which no more attacks
lead there. -/
theorem AgreesWithin.scoreAfter_eq {passes : Nat} (agrees : g.AgreesWithin h weights passes a)
    (aMember : a ∈ g.arguments) (bMember : b ∈ h.arguments) (same : b.id = a.id) :
    g.scoreAfter weights passes a = h.scoreAfter weights passes b := by
  -- what is left of the attacks after the path walked so far is the depth still to unfold
  refine scoreAfter_eq_of_related (fun depth c d => d ∈ h.arguments ∧ d.id = c.id ∧
    ∃ edges, g.PathBetween edges c a ∧ edges + depth ≤ passes) ?_
      ⟨bMember, same, 0, .start aMember, by omega⟩
  rintro depth c d ⟨dMember, sameId, edges, path, within⟩
  obtain ⟨stands, standsMember, standsId, _, attackers⟩ := agrees edges c path (by omega)
  obtain rfl := eq_of_id_eq standsMember dMember (standsId.trans sameId.symm)
  refine (forall₂_of_map_eq (attackers (by omega)).symm).imp fun x y alike => ?_
  obtain ⟨⟨xAttacker, yAttacker⟩, xyId⟩ := alike
  have longer : g.PathBetween (edges + 1) x a :=
    .attack (attacks_of_mem_attackers path.mem_arguments xAttacker) path
  obtain ⟨other, otherMember, otherId, weight, _⟩ := agrees (edges + 1) x longer (by omega)
  have yMember := mem_arguments_of_mem_attackers yAttacker
  obtain rfl := eq_of_id_eq otherMember yMember (otherId.trans xyId)
  exact ⟨weight.symm, yMember, otherId, edges + 1, longer, by omega⟩

end Graph

/-! ## Running to the cap -/

section Cap

variable [Scalar.TransitiveLess R]

/-- A largest value that is below a bound leaves the value it started from below it. -/
theorem Scalar.less_of_foldl_larger_less {values : List R} {start bound : R}
    (below : less (values.foldl larger start) bound = true) : less start bound = true := by
  induction values generalizing start with
  | nil => exact below
  | cons value rest ih =>
      have first := ih below
      rw [larger] at first
      split at first
      next raised => exact TransitiveLess.less_trans raised first
      next => exact first

/-- No change is below a tolerance that is not positive, so the cap decides. -/
theorem Graph.iterations_eq_cap (g : Graph) (weights : WeightTable R) {config : SolverConfig R}
    (notPositive : Scalar.less 0 config.tolerance = false) :
    (solve g weights config).convergence.iterations = config.maxIterations := by
  have reports := g.solve_reports weights config
  cases outcome : (solve g weights config).convergence.converged with
  | false => exact (reports.capped outcome).1
  | true =>
      obtain ⟨positive, small⟩ := reports.settled outcome
      obtain ⟨before, last⟩ := Nat.exists_eq_succ_of_ne_zero (Nat.ne_of_gt positive)
      rw [last] at small
      have impossible := Scalar.less_of_foldl_larger_less small
      rw [notPositive] at impossible
      cases impossible

end Cap

/-- Solving gives an id the same score in two graphs. -/
def ScoredAlike (g h : Graph) (weights : WeightTable R) (config : SolverConfig R)
    (id : String) : Prop :=
  ∃ score, (solve g weights config).scores.get? id = some score ∧
    (solve h weights config).scores.get? id = some score

/-- With a tolerance that is not positive as many passes are run as the cap allows.  An
argument is then scored alike in two graphs in which the trees of its existing attackers
coincide to that depth, and so in every graph that agrees with its own on the arguments from
which a path with no more attacks leads there; taking out any other argument leaves its
score. -/
theorem influence_travels_one_attack_per_pass [Scalar.TransitiveLess R] {g : Graph} (h : Graph)
    (weights : WeightTable R) {config : SolverConfig R}
    (notPositive : Scalar.less 0 config.tolerance = false) {a : Argument}
    (member : a ∈ g.arguments) :
    (solve g weights config).convergence.iterations = config.maxIterations ∧
    (solve h weights config).convergence.iterations = config.maxIterations ∧
    (∀ b ∈ h.arguments, b.id = a.id →
      g.attackTree weights config.maxIterations a = h.attackTree weights config.maxIterations b →
        ScoredAlike g h weights config a.id) ∧
    (g.AgreesWithin h weights config.maxIterations a → ScoredAlike g h weights config a.id) ∧
    (∀ removed, g.remove removed.id = .ok (removed, h) →
      (∀ edges, edges ≤ config.maxIterations → ¬ g.PathBetween edges removed a) →
        ScoredAlike g h weights config a.id) := by
  have scored (graph : Graph) {c : Argument} (present : c ∈ graph.arguments) :
      (solve graph weights config).scores.get? c.id =
        some (graph.scoreAfter weights config.maxIterations c) := by
    rw [get?_solve weights config present, graph.iterations_eq_cap weights notPositive]
  have alike {b : Argument} (present : b ∈ h.arguments) (same : b.id = a.id)
      (equal : g.scoreAfter weights config.maxIterations a =
        h.scoreAfter weights config.maxIterations b) : ScoredAlike g h weights config a.id := by
    refine ⟨_, scored g member, ?_⟩
    rw [equal, ← same]
    exact scored h present
  have near (agrees : g.AgreesWithin h weights config.maxIterations a) :
      ScoredAlike g h weights config a.id := by
    obtain ⟨b, present, same, _⟩ := agrees 0 a (.start member) (Nat.zero_le _)
    exact alike present same (agrees.scoreAfter_eq member present same)
  refine ⟨g.iterations_eq_cap weights notPositive, h.iterations_eq_cap weights notPositive,
    ?coincide, near, ?remove⟩
  case coincide =>
    intro b present same coincide
    exact alike present same (Graph.scoreAfter_eq_of_attackTree_eq coincide)
  case remove =>
    intro removed granted far
    obtain ⟨found, rfl⟩ := Graph.remove_eq_ok_iff.1 granted
    exact near (Graph.agreesWithin_discard (Graph.get?_eq_some_iff.1 found).1 far)

/-- Two graphs in double precision that share the two attacks nearest to an argument and
little else: with two passes it is scored alike in both, though its attacker is not, and
with three it no longer is.  Taking out the argument that is three attacks away has no
effect within two passes. -/
theorem influence_travels_one_attack_per_pass_of_chain :
    let g := ((((Graph.empty .empty).after
      (.create ⟨"A", "a", "eco", none, ["B"], ["Z"]⟩)).after
        (.create ⟨"B", "b", "env", none, ["A"], ["C"]⟩)).after
          (.create ⟨"C", "c", "eco", none, [], ["D"]⟩)).after
            (.create ⟨"D", "d", "env", none, [], []⟩)
    let h := ((((Graph.empty .empty).after
      (.create ⟨"E", "e", "eco", none, ["C", "E"], []⟩)).after
        (.create ⟨"C", "c", "eco", none, ["B"], []⟩)).after
          (.create ⟨"B", "b", "env", some "why", ["A"], ["A", "Y"]⟩)).after
            (.create ⟨"A", "other", "eco", none, [], []⟩)
    let weights : WeightTable Float := (WeightTable.empty.set "eco" 0.3).set "env" 1.7
    let passes (cap : Nat) : SolverConfig Float := ⟨.hCategorizer, cap, -1⟩
    let score (graph : Graph) (cap : Nat) (id : String) :=
      (solve graph weights (passes cap)).scores.get? id
    ScoredAlike g h weights (passes 2) "A" ∧
    score g 2 "B" ≠ score h 2 "B" ∧ score g 3 "A" ≠ score h 3 "A" ∧
    ScoredAlike g (g.discard "D") weights (passes 2) "A" := by
  intro g h weights passes score
  have coincide : (g.get? "A").map (g.attackTree weights 2) =
      (h.get? "A").map (h.attackTree weights 2) := by decide +kernel
  have present : (g.get? "A").isSome = true := by decide +kernel
  have removal : (g.get? "D").isSome = true := by decide +kernel
  have notPositive : Scalar.less 0 (passes 2).tolerance = false := by decide +kernel
  obtain ⟨a, found⟩ := Option.isSome_iff_exists.1 present
  obtain ⟨d, foundD⟩ := Option.isSome_iff_exists.1 removal
  obtain ⟨member, named⟩ := Graph.get?_eq_some_iff.1 found
  obtain ⟨memberD, namedD⟩ := Graph.get?_eq_some_iff.1 foundD
  have alike : ScoredAlike g h weights (passes 2) a.id := by
    rw [found] at coincide
    obtain ⟨b, foundOther, trees⟩ := Option.map_eq_some_iff.1 coincide.symm
    obtain ⟨presentOther, namedOther⟩ := Graph.get?_eq_some_iff.1 foundOther
    have nearest := (influence_travels_one_attack_per_pass h weights notPositive member).2.2.1
    exact nearest b presentOther (namedOther.trans named.symm) trees.symm
  have without : ScoredAlike g (g.discard d.id) weights (passes 2) a.id := by
    -- the attacks that separate each argument from the first one
    let rank (c : Argument) : Nat := ["A", "B", "C", "D"].idxOf c.id
    have steps : ∀ c ∈ g.arguments, ∀ b ∈ g.arguments, ⟨c.id, b.id⟩ ∈ g.attacks →
        rank c ≤ rank b + 1 := by decide +kernel
    have far : ∀ edges, edges ≤ 2 → ¬ g.PathBetween edges d a := by
      intro edges within path
      have long := path.rank_le fun c b attacks => steps c attacks.1 b attacks.2.1 attacks.2.2
      have apart : rank d = 3 ∧ rank a = 0 := by
        constructor
        · exact congrArg ["A", "B", "C", "D"].idxOf namedD
        · exact congrArg ["A", "B", "C", "D"].idxOf named
      omega
    have granted : g.remove d.id = .ok (d, g.discard d.id) :=
      Graph.remove_eq_ok_iff.2 ⟨namedD.symm ▸ foundD, rfl⟩
    have others := (influence_travels_one_attack_per_pass (g.discard d.id) weights notPositive
      member).2.2.2.2
    exact others d granted far
  rw [named] at alike without
  rw [namedD] at without
  exact ⟨alike, by decide +kernel, by decide +kernel, without⟩

end WeightedArgumentation
