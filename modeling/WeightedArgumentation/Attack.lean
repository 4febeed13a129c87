import WeightedArgumentation.SortedSet

/-!
# Attacks

An attack is a pair of argument ids: the source attacks the target.  Attacks
are ordered by source and then by target.
-/

namespace WeightedArgumentation

/-- The argument `source` attacks the argument `target`. -/
structure Attack where
  source : String
  target : String
  deriving DecidableEq, Repr

namespace Attack

instance : LT Attack where
  lt a b := a.source < b.source ∨ a.source = b.source ∧ a.target < b.target

theorem lt_iff {a b : Attack} :
    a < b ↔ a.source < b.source ∨ a.source = b.source ∧ a.target < b.target :=
  Iff.rfl

instance : DecidableLT Attack := fun a b =>
  inferInstanceAs (Decidable (a.source < b.source ∨ a.source = b.source ∧ a.target < b.target))

instance : StrictTotalOrder Attack where
  irrefl a h := by
    rcases h with h | ⟨_, h⟩
    · exact String.lt_irrefl _ h
    · exact String.lt_irrefl _ h
  trans := by
    rintro ⟨s, t⟩ ⟨s', t'⟩ ⟨s'', t''⟩ (h | ⟨e, h⟩) (k | ⟨f, k⟩)
    · exact .inl (String.lt_trans h k)
    · exact .inl (f ▸ h)
    · exact .inl (e ▸ k)
    · exact .inr ⟨e.trans f, String.lt_trans h k⟩
  eq_of_not_lt := by
    rintro ⟨s, t⟩ ⟨s', t'⟩ below above
    simp only [lt_iff, not_or, not_and] at below above
    have sources : s = s' := StrictTotalOrder.eq_of_not_lt below.1 above.1
    subst sources
    have targets : t = t' := StrictTotalOrder.eq_of_not_lt (below.2 rfl) (above.2 rfl)
    rw [targets]

/-- The attacks that one argument states, given the ids it attacks and the ids
it is attacked by. -/
def stated (id : String) (attacks attackedBy : List String) : List Attack :=
  attacks.map (⟨id, ·⟩) ++ attackedBy.map (⟨·, id⟩)

@[simp] theorem mem_stated {id : String} {attacks attackedBy : List String} {attack : Attack} :
    attack ∈ stated id attacks attackedBy ↔
      (attack.source = id ∧ attack.target ∈ attacks) ∨
        (attack.target = id ∧ attack.source ∈ attackedBy) := by
  obtain ⟨source, target⟩ := attack
  simp only [stated, List.mem_append, List.mem_map, Attack.mk.injEq]
  grind

end Attack

end WeightedArgumentation
