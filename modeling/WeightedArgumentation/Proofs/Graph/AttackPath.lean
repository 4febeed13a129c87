import Mathlib.Data.List.Basic
import Mathlib.Logic.Relation
import Mathlib.Order.Lattice.Nat
import WeightedArgumentation.Graph.Basic

/-!
# Attack paths

One argument of a graph attacks another when the attack relation has the pair of their
ids; attacks on ids that no argument has, or from such ids, are left out.  A path follows
attacks from argument to argument.  Where no argument reaches itself, no path meets an
argument twice, so every path is shorter than the graph and there is a longest one among
those that end at an argument, its depth.  Each attack leads to a greater depth.
-/

namespace WeightedArgumentation.Graph

/-- One argument of a graph attacks another. -/
def Attacks (g : Graph) (attacker target : Argument) : Prop :=
  attacker ∈ g.arguments ∧ target ∈ g.arguments ∧ ⟨attacker.id, target.id⟩ ∈ g.attacks

/-- No argument reaches itself by attacks. -/
def Acyclic (g : Graph) : Prop := ∀ a, ¬ Relation.TransGen g.Attacks a a

/-- An attack path with this many attacks ends at an argument. -/
inductive PathTo (g : Graph) : Nat → Argument → Prop
  | start {a : Argument} (member : a ∈ g.arguments) : PathTo g 0 a
  | attack {edges : Nat} {b a : Argument} (path : PathTo g edges b) (attacks : g.Attacks b a) :
      PathTo g (edges + 1) a

/-- The number of attacks on the longest path to an argument. -/
noncomputable def depth (g : Graph) (a : Argument) : Nat := sSup {edges | g.PathTo edges a}

/-- The number of attacks on the longest path; zero without arguments. -/
noncomputable def longestPath (g : Graph) : Nat := sSup {edges | ∃ a, g.PathTo edges a}

variable {g : Graph} {a b : Argument} {edges : Nat}

/-- A graph is acyclic when attacks raise some rank of the arguments. -/
theorem acyclic_of_rank (rank : Argument → Nat) (rises : ∀ b a, g.Attacks b a → rank b < rank a) :
    g.Acyclic := by
  have raised (b a : Argument) (reaches : Relation.TransGen g.Attacks b a) : rank b < rank a := by
    induction reaches with
    | single attacks => exact rises _ _ attacks
    | tail _ attacks ih => exact ih.trans (rises _ _ attacks)
  intro a cycle
  exact absurd (raised a a cycle) (Nat.lt_irrefl (rank a))

theorem acyclic_of_no_attacks (none : ∀ b a, ¬ g.Attacks b a) : g.Acyclic :=
  acyclic_of_rank (fun _ => 0) fun b a attacks => absurd attacks (none b a)

/-! ## Paths are short -/

/-- A path in an acyclic graph meets as many arguments as it has attacks, and one more,
which all lead to its end. -/
theorem PathTo.exists_met (path : g.PathTo edges a) (acyclic : g.Acyclic) :
    ∃ met : List Argument, met.length = edges + 1 ∧ met.Nodup ∧
      ∀ c ∈ met, c ∈ g.arguments ∧ (c = a ∨ Relation.TransGen g.Attacks c a) := by
  induction path with
  | @start a member =>
      refine ⟨[a], rfl, List.nodup_singleton a, ?_⟩
      intro c listed
      obtain rfl := List.mem_singleton.1 listed
      exact ⟨member, .inl rfl⟩
  | @attack edges b a path attacks ih =>
      obtain ⟨met, length, nodup, leads⟩ := ih
      have onward (c : Argument) (listed : c ∈ met) : Relation.TransGen g.Attacks c a := by
        cases (leads c listed).2 with
        | inl same => exact .single (same ▸ attacks)
        | inr reaches => exact reaches.tail attacks
      have new : a ∉ met := by
        intro listed
        exact acyclic a (onward a listed)
      refine ⟨a :: met, by rw [List.length_cons, length], List.nodup_cons.2 ⟨new, nodup⟩, ?_⟩
      intro c listed
      cases List.mem_cons.1 listed with
      | inl same => exact ⟨same ▸ attacks.2.1, .inl same⟩
      | inr before => exact ⟨(leads c before).1, .inr (onward c before)⟩

theorem PathTo.lt_size (path : g.PathTo edges a) (acyclic : g.Acyclic) : edges < g.size := by
  obtain ⟨met, length, nodup, leads⟩ := path.exists_met acyclic
  have contained : met ⊆ g.arguments := fun c listed => (leads c listed).1
  have bounded := (List.subperm_of_subset nodup contained).length_le
  rw [length] at bounded
  exact bounded

theorem bddAbove_paths (acyclic : g.Acyclic) : BddAbove {edges | ∃ a, g.PathTo edges a} := by
  refine ⟨g.size, ?_⟩
  rintro edges ⟨a, path⟩
  exact (path.lt_size acyclic).le

/-! ## Depth -/

/-- In an acyclic graph the depth of an argument is the length of a path to it, and no
path to it is longer. -/
theorem isGreatest_depth (acyclic : g.Acyclic) (member : a ∈ g.arguments) :
    IsGreatest {edges | g.PathTo edges a} (g.depth a) := by
  have contained : {edges | g.PathTo edges a} ⊆ {edges | ∃ a, g.PathTo edges a} :=
    fun _ path => ⟨a, path⟩
  have bounded := (bddAbove_paths acyclic).mono contained
  constructor
  · exact Nat.sSup_mem ⟨0, .start member⟩ bounded
  · intro edges path
    exact le_csSup bounded path

theorem isGreatest_longestPath (acyclic : g.Acyclic) (member : a ∈ g.arguments) :
    IsGreatest {edges | ∃ a, g.PathTo edges a} g.longestPath := by
  have bounded := bddAbove_paths acyclic
  constructor
  · exact Nat.sSup_mem ⟨0, a, .start member⟩ bounded
  · intro edges path
    exact le_csSup bounded path

theorem depth_le_longestPath (acyclic : g.Acyclic) (member : a ∈ g.arguments) :
    g.depth a ≤ g.longestPath :=
  (isGreatest_longestPath acyclic member).2 ⟨a, (isGreatest_depth acyclic member).1⟩

/-- An attack leads to a greater depth. -/
theorem Attacks.depth_lt (attacks : g.Attacks b a) (acyclic : g.Acyclic) :
    g.depth b < g.depth a :=
  (isGreatest_depth acyclic attacks.2.1).2
    (.attack (isGreatest_depth acyclic attacks.1).1 attacks)

theorem longestPath_le {bound : Nat} (bounded : ∀ edges a, g.PathTo edges a → edges ≤ bound) :
    g.longestPath ≤ bound := by
  apply csSup_le'
  rintro edges ⟨a, path⟩
  exact bounded edges a path

theorem longestPath_le_size (acyclic : g.Acyclic) : g.longestPath ≤ g.size :=
  longestPath_le fun _ _ path => (path.lt_size acyclic).le

theorem longestPath_eq_zero (none : ∀ b a, ¬ g.Attacks b a) : g.longestPath = 0 := by
  apply Nat.eq_zero_of_le_zero
  apply longestPath_le
  intro edges a path
  cases path with
  | start member => exact Nat.le_refl 0
  | attack path attacks => exact absurd attacks (none _ _)

end WeightedArgumentation.Graph
