import WeightedArgumentation.Proofs.Text.Trim

/-!
# Blanks around texts

Every text is its core with blanks in front of it and behind it, where the core neither starts
nor ends with a blank.  There is one such core, and trimming gives it (`trim_eq_iff`).  So two
texts have the same core exactly when they differ only in the blanks around them
(`sameText_iff`).
-/

namespace WeightedArgumentation.Text

/-- All characters of the text are blank. -/
def Blank (text : String) : Prop := ∀ c ∈ text.toList, isBlank c = true

instance (text : String) : Decidable (Blank text) :=
  decidable_of_iff (text.toList.all isBlank = true) List.all_eq_true

/-- The text is the inner one with blanks in front of it and behind it. -/
def Pads (text inner : String) : Prop :=
  ∃ front back, Blank front ∧ Blank back ∧ text = front ++ inner ++ back

/-- The core is what the text holds between the blanks at its two ends. -/
structure IsCore (core text : String) : Prop where
  trimmed : Trimmed core
  pads : Pads text core

/-- Texts that differ only in the blanks around them. -/
def SameText (text other : String) : Prop := ∃ inner, Pads text inner ∧ Pads other inner

theorem blank_empty : Blank "" := by
  simp [Blank]

/-! ## What trimming takes away -/

theorem trimFront_append_of_blank {front : List Char} (blank : ∀ c ∈ front, isBlank c = true)
    (text : List Char) : trimFront (front ++ text) = trimFront text :=
  List.dropWhile_append_of_pos blank

theorem trimBack_append_of_blank {back : List Char} (blank : ∀ c ∈ back, isBlank c = true)
    (text : List Char) : trimBack (text ++ back) = trimBack text := by
  have reversed : ∀ c ∈ back.reverse, isBlank c = true :=
    fun c member => blank c (List.mem_reverse.1 member)
  rw [trimBack, List.reverse_append, trimFront_append_of_blank reversed, trimBack]

theorem trimFront_eq_nil {text : List Char} (blank : ∀ c ∈ text, isBlank c = true) :
    trimFront text = [] :=
  List.dropWhile_eq_nil_iff.2 blank

/-- Blanks around a text do not matter to what trimming leaves of it. -/
theorem Pads.trim_eq {text inner : String} (pads : Pads text inner) : trim text = trim inner := by
  obtain ⟨front, back, blankFront, blankBack, rfl⟩ := pads
  rw [trim, trim, String.toList_append, String.toList_append, List.append_assoc,
    trimFront_append_of_blank blankFront]
  apply congrArg String.ofList
  rw [trimFront, List.dropWhile_append]
  split
  next empty =>
    -- the inner text is blank, so that the blanks behind it are reached from the front
    rw [trimFront, List.isEmpty_iff.1 empty]
    exact congrArg trimBack (trimFront_eq_nil blankBack)
  next => exact trimBack_append_of_blank blankBack (trimFront inner.toList)

theorem pads_trim (text : String) : Pads text (trim text) := by
  let front := text.toList.takeWhile isBlank
  let back := (trimFront text.toList).rtakeWhile isBlank
  have split : text.toList = front ++ trimBack (trimFront text.toList) ++ back := by
    have ends : trimBack (trimFront text.toList) ++ back = trimFront text.toList :=
      List.rdropWhile_append_rtakeWhile
    rw [List.append_assoc, ends]
    exact List.takeWhile_append_dropWhile.symm
  refine ⟨.ofList front, .ofList back, ?_, ?_, ?_⟩
  · intro c member
    rw [String.toList_ofList] at member
    exact List.mem_takeWhile_imp member
  · intro c member
    rw [String.toList_ofList] at member
    exact List.mem_rtakeWhile_imp member
  · rw [trim, ← String.ofList_append, ← String.ofList_append, ← split, String.ofList_toList]

/-- Trimming gives the core of a text, the only one that it has. -/
theorem trim_eq_iff {text core : String} : trim text = core ↔ IsCore core text := by
  constructor
  · intro same
    rw [← same]
    exact ⟨trimmed_trim text, pads_trim text⟩
  · intro isCore
    rw [isCore.pads.trim_eq, trim_eq_self_iff.2 isCore.trimmed]

theorem sameText_iff {text other : String} : SameText text other ↔ trim text = trim other := by
  constructor
  · intro same
    obtain ⟨inner, pads, otherPads⟩ := same
    rw [pads.trim_eq, otherPads.trim_eq]
  · intro same
    exact ⟨trim text, pads_trim text, same ▸ pads_trim other⟩

instance (text other : String) : Decidable (SameText text other) :=
  decidable_of_iff _ sameText_iff.symm

/-- Nothing is left of the blank texts alone. -/
theorem trim_eq_empty_iff {text : String} : trim text = "" ↔ Blank text := by
  constructor
  · intro nothing
    obtain ⟨front, back, blankFront, blankBack, rfl⟩ := nothing ▸ pads_trim text
    intro c member
    simp only [String.append_empty, String.toList_append, List.mem_append] at member
    exact member.elim (blankFront c) (blankBack c)
  · intro blank
    have pads : Pads text "" := ⟨text, "", blank, blank_empty, by simp⟩
    rw [pads.trim_eq]
    rfl

end WeightedArgumentation.Text
