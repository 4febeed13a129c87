import WeightedArgumentation.Graph.Codec
import WeightedArgumentation.Proofs.Json.Number
import WeightedArgumentation.Proofs.Json.Typed
import WeightedArgumentation.Semantics.Codec

/-!
# Members read back

Texts and lists of texts are read as they are, and a finite number is read as what its digits
come to.  A number that is not finite is written as null, so as an optional one it is read as
absent.  An optional member is found in an object exactly when there is a value for it.
-/

namespace WeightedArgumentation

namespace Json

/-! ## Numbers -/

/-- The number that the digits of a finite number come to. -/
def reread (x : Float) : Float := ((quantity? (numberLayout.numeral x)).map Quantity.toFloat).getD x

/-- What an optional number is read as: it is absent when it is not finite. -/
def reread? (x : Float) : Option Float := if x.isFinite then some (reread x) else none

theorem spelled_ofFloat (x : Float) : (Value.ofFloat x).Spelled := by
  rw [Value.ofFloat]
  split
  next => exact .number (numberLayout.spelled_numeral x)
  next => exact .null

theorem real_ofFloat {x : Float} (finite : x.isFinite = true) :
    real (Value.ofFloat x).reading = .ok (reread x) := by
  obtain ⟨quantity, read, _⟩ := exists_quantity_numeral finite
  rw [Value.ofFloat, if_pos finite, Value.reading, real, reread, read]
  rfl

/-- A finite number stays finite. -/
theorem isFinite_reread {x : Float} (finite : x.isFinite = true) : (reread x).isFinite = true := by
  obtain ⟨quantity, read, stays⟩ := exists_quantity_numeral finite
  rw [reread, read]
  exact stays

theorem nullable_real_ofFloat (x : Float) :
    nullable real (Value.ofFloat x).reading = .ok (reread? x) := by
  by_cases finite : x.isFinite = true
  · have read := real_ofFloat finite
    rw [reread?, if_pos finite]
    rw [Value.ofFloat, if_pos finite] at read ⊢
    rw [Value.reading] at read ⊢
    rw [nullable, read]
    · rfl
    · intro shown
      cases shown
  · rw [Value.ofFloat, reread?, if_neg finite, if_neg finite]
    rfl

/-! ## Texts -/

theorem spelled_ofTexts (texts : List String) : (Value.ofTexts texts).Spelled := by
  refine .array fun item member => ?_
  obtain ⟨content, _, rfl⟩ := List.mem_map.1 member
  exact .string content

theorem spelled_ofScores (scores : Table Float) : (ofScores scores).Spelled := by
  refine .object fun member listed => ?_
  obtain ⟨row, _, rfl⟩ := List.mem_map.1 listed
  exact spelled_ofFloat row.2

theorem text_string (content : String) : text (Value.string content).reading = .ok content := rfl

theorem listOf_text_ofTexts (texts : List String) :
    listOf text (Value.ofTexts texts).reading = .ok texts := by
  have read : listOf text (Value.ofTexts texts).reading = .ok (texts.map id) :=
    listOf_reading .string id fun _ _ => rfl
  rwa [List.map_id] at read

theorem tableOf_real_ofScores {scores : Table Float}
    (finite : ∀ row ∈ scores.rows, row.2.isFinite = true) :
    tableOf real (ofScores scores).reading = .ok (scores.map reread) :=
  tableOf_reading .ofFloat reread fun row member => real_ofFloat (finite row member)

/-! ## Members -/

/-- An optional number is an optional member. -/
theorem optionalNumber_eq (name : String) (x : Option Float) :
    optionalNumber name x = optionalMember name (x.map .ofFloat) := by
  cases x <;> rfl

@[simp] theorem find_slotsOf_nil (name : String) : Table.find name (slotsOf []) = none := rfl

@[simp] theorem find_slotsOf_cons (name key : String) (value : Value)
    (rest : List (String × Value)) : Table.find name (slotsOf ((key, value) :: rest)) =
      if key = name then some value.reading else Table.find name (slotsOf rest) := rfl

@[simp] theorem find_slotsOf_append (name : String) (front back : List (String × Value)) :
    Table.find name (slotsOf (front ++ back)) =
      (Table.find name (slotsOf front)).or (Table.find name (slotsOf back)) := by
  induction front with
  | nil => rfl
  | cons member front ih =>
      obtain ⟨key, value⟩ := member
      rw [List.cons_append, find_slotsOf_cons, find_slotsOf_cons, ih]
      split <;> rfl

@[simp] theorem find_slotsOf_optionalMember (name key : String) (value : Option Value) :
    Table.find name (slotsOf (optionalMember key value)) =
      if key = name then value.map Value.reading else none := by
  cases value with
  | none => simp [optionalMember]
  | some value => rfl

theorem spelled_optionalMember {α : Type} {toJson : α → Value}
    (spelled : ∀ content, (toJson content).Spelled) (name : String) (value : Option α) :
    ∀ member ∈ optionalMember name (value.map toJson), member.2.Spelled := by
  cases value with
  | none => exact nofun
  | some content => exact List.forall_mem_singleton.2 (spelled content)

theorem sublist_optionalMember (name : String) (value : Option Value) :
    ((optionalMember name value).map Prod.fst).Sublist [name] := by
  cases value with
  | none => exact List.nil_sublist _
  | some value => exact .refl _

/-- An optional member is read as an optional value. -/
theorem elim_nullable {α β : Type} {reader : Reader α} (toJson : β → Value) (f : β → Option α)
    {value : Option β}
    (reads : ∀ content, value = some content →
      nullable reader (toJson content).reading = .ok (f content)) :
    ((value.map toJson).map Value.reading).elim (.ok none) (nullable reader) =
      .ok (value.bind f) := by
  cases value with
  | none => rfl
  | some content => exact reads content rfl

/-- An object is not null. -/
theorem nullable_object {α : Type} (reader : Reader α) (members : List (String × Value)) :
    nullable reader (Value.object members).reading =
      (reader (Value.object members).reading).map some := rfl

end Json

end WeightedArgumentation
