import WeightedArgumentation.Graph.Symmetry
import WeightedArgumentation.Proofs.Graph.Relation

/-!
# The two views agree on every reachable graph

Symmetry is the invariant: of any two arguments, one lists the other as its
target exactly when the other lists it as its attacker.  Each edit keeps it.
Entering an argument is the one case where the graph passes through a state
without symmetry, because others may already name the new id; the attacks that
were pending close that gap.

Symmetry is the same as saying that each argument shows exactly the part of the
attack relation that it takes part in, and it is what `Graph.verify` checks.
-/

namespace WeightedArgumentation.Graph

variable {g : Graph}

/-! ## The check -/

/-- Nothing is reported of an argument's targets exactly when all that exist
list it as an attacker. -/
theorem unmirroredAttack?_eq_none_iff {argument : Argument} :
    g.unmirroredAttack? argument = none ↔
      ∀ other ∈ g.arguments, other.id ∈ argument.attacks → argument.id ∈ other.attackedBy := by
  simp only [unmirroredAttack?, List.findSome?_eq_none_iff]
  constructor
  · intro mirrored other member listed
    have checked := mirrored other.id listed
    simpa [get?_eq_some_iff.2 ⟨member, rfl⟩] using checked
  · intro mirrored target listed
    split
    next other found =>
      obtain ⟨member, rfl⟩ := get?_eq_some_iff.1 found
      simp [mirrored other member listed]
    next => rfl

theorem unmirroredAttacker?_eq_none_iff {argument : Argument} :
    g.unmirroredAttacker? argument = none ↔
      ∀ other ∈ g.arguments, other.id ∈ argument.attackedBy → argument.id ∈ other.attacks := by
  simp only [unmirroredAttacker?, List.findSome?_eq_none_iff]
  constructor
  · intro mirrored other member listed
    have checked := mirrored other.id listed
    simpa [get?_eq_some_iff.2 ⟨member, rfl⟩] using checked
  · intro mirrored source listed
    split
    next other found =>
      obtain ⟨member, rfl⟩ := get?_eq_some_iff.1 found
      simp [mirrored other member listed]
    next => rfl

/-- The check passes exactly on symmetric graphs. -/
theorem verify_eq_ok_iff : g.verify = .ok () ↔ g.Symmetric := by
  have noReport : g.verify = .ok () ↔ g.asymmetry? = none := by
    rw [verify]
    cases g.asymmetry? with
    | none => simp
    | some asymmetry => simp
  rw [noReport, asymmetry?, List.findSome?_eq_none_iff]
  simp only [Option.or_eq_none_iff, unmirroredAttack?_eq_none_iff,
    unmirroredAttacker?_eq_none_iff]
  constructor
  · intro mirrored a aMember b bMember
    exact ⟨(mirrored a aMember).1 b bMember, (mirrored b bMember).2 a aMember⟩
  · intro symmetric a aMember
    exact ⟨fun b bMember => (symmetric a aMember b bMember).1,
      fun b bMember => (symmetric b bMember a aMember).2⟩

/-! ## Edits keep symmetry -/

/-- Recording attacks makes a graph symmetric when they fill every gap between
the views. -/
theorem symmetric_linkAll {attacks : List Attack}
    (filled : ∀ a ∈ g.arguments, ∀ b ∈ g.arguments,
      b.id ∈ a.attacks ∨ ⟨a.id, b.id⟩ ∈ attacks ↔
        a.id ∈ b.attackedBy ∨ ⟨a.id, b.id⟩ ∈ attacks) :
    (g.linkAll attacks).Symmetric := by
  rw [linkAll_eq_revise]
  intro a aMember b bMember
  obtain ⟨a, aOld, rfl⟩ := List.mem_map.1 aMember
  obtain ⟨b, bOld, rfl⟩ := List.mem_map.1 bMember
  simpa using filled a aOld b bOld

theorem Symmetric.forget (symmetric : g.Symmetric) (id : String) :
    (g.forget id).Symmetric := by
  intro a aMember b bMember
  obtain ⟨a, aOld, rfl⟩ := List.mem_map.1 aMember
  obtain ⟨b, bOld, rfl⟩ := List.mem_map.1 bMember
  simp only [Argument.id_forget, Argument.mem_attacks_forget, Argument.mem_attackedBy_forget,
    symmetric a aOld b bOld]
  grind

theorem Symmetric.delete (symmetric : g.Symmetric) (id : String) :
    (g.delete id).Symmetric := by
  intro a aMember b bMember
  exact symmetric a (List.mem_filter.1 aMember).1 b (List.mem_filter.1 bMember).1

theorem Symmetric.discard (symmetric : g.Symmetric) (id : String) : (g.discard id).Symmetric :=
  (symmetric.delete id).forget id

/-- A new argument takes over what is pending for its id, so the views agree. -/
theorem Symmetric.enter (symmetric : g.Symmetric) {spec : ArgumentSpec}
    (fresh : spec.id ∉ g.ids) : (g.enter spec fresh).Symmetric := by
  have taken : ∀ argument ∈ g.arguments, ∀ attack ∈ argument.stated,
      attack.source = spec.id ∨ attack.target = spec.id →
        attack ∈ g.pending spec.id ++ spec.stated := by
    intro argument member attack stated touches
    have related := mem_attacks_iff_stated.2 ⟨argument, member, stated⟩
    exact List.mem_append_left _ (mem_pending.2 ⟨related, touches⟩)
  refine symmetric_linkAll fun a aMember b bMember => ?_
  rcases List.mem_append.1 aMember with aOld | aNew
  · rcases List.mem_append.1 bMember with bOld | bNew
    · rw [symmetric a aOld b bOld]
    · obtain rfl := List.mem_singleton.1 bNew
      simp only [Argument.id_detached, Argument.attackedBy_detached, SortedSet.not_mem_empty,
        false_or]
      refine or_iff_right_of_imp fun listed => ?_
      exact taken a aOld _ (Argument.mem_stated.2 (.inl ⟨rfl, listed⟩)) (.inr rfl)
  · obtain rfl := List.mem_singleton.1 aNew
    rcases List.mem_append.1 bMember with bOld | bNew
    · simp only [Argument.id_detached, Argument.attacks_detached, SortedSet.not_mem_empty,
        false_or]
      refine (or_iff_right_of_imp fun listed => ?_).symm
      exact taken b bOld _ (Argument.mem_stated.2 (.inr ⟨rfl, listed⟩)) (.inl rfl)
    · obtain rfl := List.mem_singleton.1 bNew
      simp

theorem Symmetric.restate (symmetric : g.Symmetric) (spec : ArgumentSpec) :
    (g.restate spec).Symmetric := by
  have forgotten := symmetric.forget spec.id
  refine symmetric_linkAll fun a aMember b bMember => ?_
  obtain ⟨a, aOld, rfl⟩ := List.mem_map.1 aMember
  obtain ⟨b, bOld, rfl⟩ := List.mem_map.1 bMember
  simp only [Argument.id_describe, Argument.attacks_describe, Argument.attackedBy_describe]
  rw [forgotten a aOld b bOld]

theorem symmetric_assemble {categories : CategoryConfig} {specs : List ArgumentSpec}
    {distinct : (specs.map ArgumentSpec.id).Nodup} :
    (assemble categories specs distinct).Symmetric := by
  refine symmetric_linkAll fun a aMember b bMember => ?_
  obtain ⟨aSpec, _, rfl⟩ := List.mem_map.1 aMember
  obtain ⟨bSpec, _, rfl⟩ := List.mem_map.1 bMember
  simp

/-- Every edit keeps the views in agreement. -/
theorem Symmetric.attempt {changed : Graph} {edit : Edit} (symmetric : g.Symmetric)
    (granted : g.attempt edit = .ok changed) : changed.Symmetric := by
  cases edit with
  | create spec =>
      rw [attempt_create, create_eq_ok_iff] at granted
      rcases granted with ⟨_, fresh, rfl⟩
      exact symmetric.enter fresh
  | update id spec =>
      rw [attempt_update, update_eq_ok_iff] at granted
      rcases granted with ⟨_, _, _, rfl⟩
      exact symmetric.restate _
  | remove id =>
      rw [attempt_remove_eq_ok_iff] at granted
      rcases granted with ⟨_, rfl⟩
      exact symmetric.discard id

/-- The views agree on every reachable graph. -/
theorem Reachable.symmetric (reachable : Reachable g) : g.Symmetric := by
  induction reachable with
  | empty categories =>
      intro a member
      cases member
  | load loaded =>
      obtain ⟨_, rfl⟩ := load_eq_ok_iff.1 loaded
      exact symmetric_assemble
  | after edit _ ih => exact holds_after ih fun _ granted => ih.attempt granted

/-! ## What the views show -/

/-- On a symmetric graph the targets of an argument are those that the attack
relation gives it. -/
theorem Symmetric.mem_attacks_iff (symmetric : g.Symmetric) {argument : Argument}
    (member : argument ∈ g.arguments) {target : String} :
    target ∈ argument.attacks ↔ ⟨argument.id, target⟩ ∈ g.attacks := by
  rw [mem_attacks]
  constructor
  · intro listed
    exact .inl ⟨argument, member, rfl, listed⟩
  · rintro (⟨other, otherMember, same, listed⟩ | ⟨other, otherMember, rfl, listed⟩)
    · obtain rfl := eq_of_id_eq otherMember member same
      exact listed
    · exact (symmetric argument member other otherMember).2 listed

theorem Symmetric.mem_attackedBy_iff (symmetric : g.Symmetric) {argument : Argument}
    (member : argument ∈ g.arguments) {source : String} :
    source ∈ argument.attackedBy ↔ ⟨source, argument.id⟩ ∈ g.attacks := by
  rw [mem_attacks]
  constructor
  · intro listed
    exact .inr ⟨argument, member, rfl, listed⟩
  · rintro (⟨other, otherMember, rfl, listed⟩ | ⟨other, otherMember, same, listed⟩)
    · exact (symmetric other otherMember argument member).1 listed
    · obtain rfl := eq_of_id_eq otherMember member same
      exact listed

/-- Each argument shows exactly the attacks of the relation that it takes part in. -/
def ShowsRelation (g : Graph) : Prop :=
  ∀ a ∈ g.arguments,
    (∀ target, target ∈ a.attacks ↔ ⟨a.id, target⟩ ∈ g.attacks) ∧
      ∀ source, source ∈ a.attackedBy ↔ ⟨source, a.id⟩ ∈ g.attacks

/-- On every reachable graph each argument shows exactly its part of the attack
relation, the views of any two arguments agree and the check passes, and it
passes right after every edit that is granted. -/
theorem views_agree (reachable : g.Reachable) :
    g.ShowsRelation ∧ g.Symmetric ∧ g.verify = .ok () ∧
      ∀ edit changed, g.attempt edit = .ok changed → changed.verify = .ok () := by
  have symmetric := reachable.symmetric
  refine ⟨?_, symmetric, verify_eq_ok_iff.2 symmetric, ?_⟩
  · intro a member
    exact ⟨fun _ => symmetric.mem_attacks_iff member,
      fun _ => symmetric.mem_attackedBy_iff member⟩
  · intro edit changed granted
    exact verify_eq_ok_iff.2 (reachable.of_attempt granted).symmetric

/-- A self-attack, an attack stated before its target existed, and an id that
was removed and created again. -/
theorem views_agree_of_recreated :
    let g := ((((Graph.empty .empty).after (.create ⟨"A", "a", "eco", none, ["B"], [" A "]⟩)).after
      (.create ⟨"B", "b", "env", none, ["B"], ["C", ""]⟩)).after (.remove "A")).after
        (.create ⟨"A", "again", "eco", none, [], ["B"]⟩)
    g.Reachable ∧ g.attacks.toList = [⟨"B", "A"⟩, ⟨"B", "B"⟩, ⟨"C", "B"⟩] ∧
      g.ShowsRelation ∧ g.Symmetric ∧ g.verify = .ok () ∧
        ∀ edit changed, g.attempt edit = .ok changed → changed.verify = .ok () := by
  intro g
  have reachable : g.Reachable := .after _ (.after _ (.after _ (.after _ (.empty _))))
  exact ⟨reachable, by decide +kernel, views_agree reachable⟩

end WeightedArgumentation.Graph
