import Mathlib.Data.List.DropRight
import WeightedArgumentation.Text.Blank

/-!
# Trimmed texts

A text is trimmed when it neither starts nor ends with a blank.  Trimming makes
a text trimmed and leaves trimmed texts as they are, so the trimmed texts are
those that trimming does not change.
-/

namespace WeightedArgumentation.Text

/-- The text neither starts nor ends with a blank. -/
structure Trimmed (text : String) : Prop where
  front : ∀ c, text.toList.head? = some c → isBlank c = false
  back : ∀ c, text.toList.getLast? = some c → isBlank c = false

theorem trimFront_eq_self_iff {text : List Char} :
    trimFront text = text ↔ ∀ c, text.head? = some c → isBlank c = false := by
  cases text with
  | nil => simp [trimFront]
  | cons first rest =>
      rw [trimFront, List.dropWhile_eq_self_iff]
      simp

theorem trimBack_eq_self_iff {text : List Char} :
    trimBack text = text ↔ ∀ c, text.getLast? = some c → isBlank c = false := by
  rw [trimBack, List.reverse_eq_iff, trimFront_eq_self_iff, List.head?_reverse]

theorem trimFront_trimFront (text : List Char) : trimFront (trimFront text) = trimFront text :=
  List.dropWhile_idempotent isBlank text

theorem trimBack_trimBack (text : List Char) : trimBack (trimBack text) = trimBack text := by
  simp [trimBack, trimFront_trimFront]

/-- What is left of a text after trimming its back starts as the text does. -/
theorem head?_trimBack {text : List Char} {c : Char} (starts : (trimBack text).head? = some c) :
    text.head? = some c := by
  obtain ⟨dropped, split⟩ : trimBack text <+: text := List.rdropWhile_prefix isBlank text
  rw [← split, List.head?_append, starts, Option.some_or]

theorem trimmed_trim (text : String) : Trimmed (trim text) := by
  constructor
  · intro c starts
    rw [trim, String.toList_ofList] at starts
    exact trimFront_eq_self_iff.1 (trimFront_trimFront text.toList) c (head?_trimBack starts)
  · intro c ends
    rw [trim, String.toList_ofList] at ends
    exact trimBack_eq_self_iff.1 (trimBack_trimBack _) c ends

/-- The trimmed texts are those that trimming leaves as they are. -/
theorem trim_eq_self_iff {text : String} : trim text = text ↔ Trimmed text := by
  constructor
  · intro same
    rw [← same]
    exact trimmed_trim text
  · intro trimmed
    rw [trim, trimFront_eq_self_iff.2 trimmed.front, trimBack_eq_self_iff.2 trimmed.back,
      String.ofList_toList]

end WeightedArgumentation.Text
