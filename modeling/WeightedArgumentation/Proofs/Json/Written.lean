import WeightedArgumentation.Proofs.Json.Token

/-!
# Values read back

What is written for a value, without blanks or over several lines, is read as that value.
Reading follows the calls of the reader: whatever the fuel allows for is read back, by
induction on the fuel, and twice the length of the text is always enough.
-/

namespace WeightedArgumentation.Json

open Decimal (digit?)

namespace Value

mutual

/-- What the text of a value shows. -/
def reading : Value → Reading
  | .null => .null
  | .bool value => .bool value
  | .number numeral => .number numeral
  | .string text => .string (some text)
  | .array items => .array (itemReadings items) none
  | .object members => .object (memberReadings members) none

/-- What the texts of items show. -/
def itemReadings : List Value → List Reading
  | [] => []
  | item :: rest => item.reading :: itemReadings rest

/-- What the texts of members show. -/
def memberReadings : List (String × Value) → List (Reading × Reading)
  | [] => []
  | (name, value) :: rest => (.string (some name), value.reading) :: memberReadings rest

end

/-- A value all of whose numbers are spelled as JSON spells them. -/
inductive Spelled : Value → Prop
  | null : Spelled .null
  | bool (value : Bool) : Spelled (.bool value)
  | number {numeral : Decimal.Numeral} (spelled : numeral.Spelled) : Spelled (.number numeral)
  | string (text : String) : Spelled (.string text)
  | array {items : List Value} (spelled : ∀ item ∈ items, Spelled item) : Spelled (.array items)
  | object {members : List (String × Value)} (spelled : ∀ member ∈ members, Spelled member.2) :
      Spelled (.object members)

end Value

/-! ## Blanks -/

theorem skipSpace_cons {c : Char} {rest : List Char} (solid : isSpace c = false) :
    skipSpace (c :: rest) = c :: rest :=
  List.dropWhile_cons_of_neg (by simp [solid])

theorem skipSpace_lineBreak (style : Style) (text : List Char) :
    skipSpace (style.lineBreak ++ text) = skipSpace text := by
  cases style with
  | compact => rfl
  | indented depth =>
      refine List.dropWhile_append_of_pos fun c member => ?_
      rcases List.mem_cons.1 member with rfl | space
      · rfl
      · rw [List.eq_of_mem_replicate space]
        rfl

theorem readValue_lineBreak (fuel : Nat) (style : Style) (text : List Char) :
    readValue fuel (style.lineBreak ++ text) = readValue fuel text := by
  cases fuel with
  | zero => rfl
  | succ fuel => rw [readValue, skipSpace_lineBreak, readValue]

/-! ## First characters -/

/-- A character that a value may start with. -/
structure Starts (c : Char) : Prop where
  solid : isSpace c = false
  notBracket : c ≠ ']'

theorem starts_char (digit : Decimal.Digit) : Starts digit.char := by
  constructor <;> revert digit <;> decide

/-- A value is written from a character that is neither a blank nor a closing bracket. -/
theorem Value.Spelled.exists_write {value : Value} (spelled : value.Spelled) (style : Style) :
    ∃ c rest, value.write style = c :: rest ∧ Starts c := by
  cases spelled with
  | null => exact ⟨'n', _, rfl, by decide, by decide⟩
  | bool value => cases value <;> exact ⟨_, _, rfl, by decide, by decide⟩
  | string text => exact ⟨'"', _, rfl, by decide, by decide⟩
  | @number numeral spelled =>
      obtain ⟨negative, whole, fraction, exponent⟩ := numeral
      cases whole with
      | nil => exact absurd rfl spelled.whole
      | cons digit whole =>
          cases negative with
          | true => exact ⟨'-', _, rfl, by decide, by decide⟩
          | false => exact ⟨digit.char, _, rfl, starts_char digit⟩
  | @array items _ =>
      cases items <;> exact ⟨'[', _, rfl, by decide, by decide⟩
  | @object members _ =>
      rcases members with _ | ⟨⟨name, first⟩, rest⟩ <;>
        exact ⟨'{', _, rfl, by decide, by decide⟩

/-! ## Behind a value -/

theorem endsNumber_cons {c : Char} {rest : List Char}
    (ends : digit? c = none ∧ c ≠ '.' ∧ c ≠ 'e' ∧ c ≠ 'E') : EndsNumber (c :: rest) := by
  rintro _ ⟨⟩
  exact ends

/-- What stands behind the last item of a value ends a number. -/
theorem endsNumber_lineBreak {style : Style} {rest : List Char} (ends : EndsNumber rest) :
    EndsNumber (style.lineBreak ++ rest) := by
  cases style with
  | compact => exact ends
  | indented depth => exact endsNumber_cons (by decide)

theorem endsNumber_writeItems {style : Style} {rest : List Value} {behind : List Char}
    (ends : EndsNumber behind) : EndsNumber (Value.writeItems style rest ++ behind) := by
  cases rest with
  | nil => exact ends
  | cons item rest => exact endsNumber_cons (by decide)

theorem endsNumber_writeMembers {style : Style} {rest : List (String × Value)}
    {behind : List Char} (ends : EndsNumber behind) :
    EndsNumber (Value.writeMembers style rest ++ behind) := by
  cases rest with
  | nil => exact ends
  | cons member rest => exact endsNumber_cons (by decide)

/-! ## Reading -/

theorem quote_append (text : String) (rest : List Char) :
    quote text ++ rest = '"' :: (text.toList.flatMap quoteChar ++ '"' :: rest) := by
  simp [quote]

theorem readValue_digit (fuel : Nat) (digit : Decimal.Digit) (rest : List Char) :
    readValue (fuel + 1) (digit.char :: rest) = readNumber (digit.char :: rest) := by
  match digit with
  | 0 | 1 | 2 | 3 | 4 | 5 | 6 | 7 | 8 | 9 => rfl

theorem readValue_number {numeral : Decimal.Numeral} {rest : List Char} {fuel : Nat}
    (spelled : numeral.Spelled) (ends : EndsNumber rest) :
    readValue (fuel + 1) (numeral.text ++ rest) = (.number numeral, rest) := by
  have number : readNumber (numeral.text ++ rest) = (.number numeral, rest) := by
    rw [readNumber, readNumeral_append spelled ends]
  rw [← number]
  obtain ⟨negative, whole, fraction, exponent⟩ := numeral
  cases negative with
  | true => rfl
  | false =>
      cases whole with
      | nil => exact absurd rfl spelled.whole
      | cons digit whole => exact readValue_digit fuel digit _

/-- A colon is found at once, and the blank that may follow it is skipped. -/
theorem exists_colon (style : Style) : ∃ gap, style.colon = ':' :: gap ∧
    ∀ fuel text, readValue fuel (gap ++ text) = readValue fuel text := by
  cases style with
  | compact => exact ⟨[], rfl, fun _ _ => rfl⟩
  | indented depth =>
      refine ⟨[' '], rfl, fun fuel text => ?_⟩
      cases fuel <;> rfl

/-- Behind a bracket that is not closed at once the items are read. -/
theorem readValue_array (fuel : Nat) {text : List Char}
    (filled : (skipSpace text).head? ≠ some ']') :
    readValue (fuel + 1) ('[' :: text) =
      (.array (readItems fuel text).1 (readItems fuel text).2.1, (readItems fuel text).2.2) := by
  rw [readValue, skipSpace_cons (by decide)]
  simp only []
  split
  next closed => exact absurd (congrArg List.head? closed) filled
  next => rfl

/-- Behind a brace that is not closed at once the members are read. -/
theorem readValue_object (fuel : Nat) {text : List Char}
    (filled : (skipSpace text).head? ≠ some '}') :
    readValue (fuel + 1) ('{' :: text) =
      (.object (readMembers fuel text).1 (readMembers fuel text).2.1,
        (readMembers fuel text).2.2) := by
  rw [readValue, skipSpace_cons (by decide)]
  simp only []
  split
  next closed => exact absurd (congrArg List.head? closed) filled
  next => rfl

/-- What is read back with some fuel: every value that is not too long for it, and the items
and members of such values. -/
structure ReadsBack (fuel : Nat) : Prop where
  value (style : Style) (rest : List Char) {value : Value} (spelled : value.Spelled)
    (ends : EndsNumber rest) (enough : 2 * (value.write style).length + 1 ≤ fuel) :
      readValue fuel (value.write style ++ rest) = (value.reading, rest)
  items (style outer : Style) (rest : List Char) {first : Value} {others : List Value}
    (spelled : ∀ item ∈ first :: others, item.Spelled)
    (enough : 2 * (first.write style ++ Value.writeItems style others).length + 2 ≤ fuel) :
      readItems fuel (style.lineBreak ++ (first.write style ++
        (Value.writeItems style others ++ (outer.lineBreak ++ ']' :: rest)))) =
          (Value.itemReadings (first :: others), none, rest)
  members (style outer : Style) (rest : List Char) {name : String} {first : Value}
    {others : List (String × Value)}
    (spelled : ∀ member ∈ (name, first) :: others, member.2.Spelled)
    (enough : 2 * (first.write style ++ Value.writeMembers style others).length + 2 ≤ fuel) :
      readMembers fuel (style.lineBreak ++ (quote name ++ (style.colon ++ (first.write style ++
        (Value.writeMembers style others ++ (outer.lineBreak ++ '}' :: rest)))))) =
          (Value.memberReadings ((name, first) :: others), none, rest)

namespace ReadsBack

variable {fuel : Nat}

theorem items_succ (readsBack : ReadsBack fuel) (style outer : Style) (rest : List Char)
    {first : Value} {others : List Value} (spelled : ∀ item ∈ first :: others, item.Spelled)
    (enough : 2 * (first.write style ++ Value.writeItems style others).length + 2 ≤ fuel + 1) :
    readItems (fuel + 1) (style.lineBreak ++ (first.write style ++
      (Value.writeItems style others ++ (outer.lineBreak ++ ']' :: rest)))) =
        (Value.itemReadings (first :: others), none, rest) := by
  rw [List.length_append] at enough
  have ends : EndsNumber (Value.writeItems style others ++ (outer.lineBreak ++ ']' :: rest)) :=
    endsNumber_writeItems (endsNumber_lineBreak (endsNumber_cons (by decide)))
  rw [readItems, readValue_lineBreak,
    readsBack.value style _ (spelled first List.mem_cons_self) ends (by omega)]
  cases others with
  | nil =>
      simp only [Value.writeItems, List.nil_append, skipSpace_lineBreak]
      rw [skipSpace_cons (by decide)]
      rfl
  | cons second others =>
      simp only [Value.writeItems, List.length_cons, List.length_append] at enough
      have more := readsBack.items style outer rest
        (fun item member => spelled item (List.mem_cons_of_mem first member))
        (by rw [List.length_append]; omega)
      simp only [Value.writeItems, List.cons_append, List.append_assoc]
      rw [skipSpace_cons (by decide)]
      simp only [more]
      rfl

theorem members_succ (readsBack : ReadsBack fuel) (style outer : Style) (rest : List Char)
    {name : String} {first : Value} {others : List (String × Value)}
    (spelled : ∀ member ∈ (name, first) :: others, member.2.Spelled)
    (enough : 2 * (first.write style ++ Value.writeMembers style others).length + 2 ≤ fuel + 1) :
    readMembers (fuel + 1) (style.lineBreak ++ (quote name ++ (style.colon ++ (first.write style ++
      (Value.writeMembers style others ++ (outer.lineBreak ++ '}' :: rest)))))) =
        (Value.memberReadings ((name, first) :: others), none, rest) := by
  rw [List.length_append] at enough
  have ends : EndsNumber (Value.writeMembers style others ++ (outer.lineBreak ++ '}' :: rest)) :=
    endsNumber_writeMembers (endsNumber_lineBreak (endsNumber_cons (by decide)))
  have firstSpelled : first.Spelled := spelled (name, first) List.mem_cons_self
  have value := readsBack.value style _ firstSpelled ends (by omega)
  obtain ⟨gap, colon, gapSkipped⟩ := exists_colon style
  rw [readMembers, skipSpace_lineBreak, quote_append, skipSpace_cons (by decide), colon]
  simp only [List.cons_append, readString_append]
  rw [skipSpace_cons (by decide)]
  simp only [gapSkipped, value]
  cases others with
  | nil =>
      simp only [Value.writeMembers, List.nil_append, skipSpace_lineBreak]
      rw [skipSpace_cons (by decide)]
      rfl
  | cons second others =>
      obtain ⟨secondName, second⟩ := second
      simp only [Value.writeMembers, List.length_cons, List.length_append] at enough
      have more := readsBack.members style outer rest
        (fun member listed => spelled member (List.mem_cons_of_mem (name, first) listed))
        (by rw [List.length_append]; omega)
      simp only [Value.writeMembers, List.cons_append, List.append_assoc]
      rw [skipSpace_cons (by decide)]
      simp only [more]
      rfl

theorem value_succ (readsBack : ReadsBack fuel) (style : Style) (rest : List Char) {value : Value}
    (spelled : value.Spelled) (ends : EndsNumber rest)
    (enough : 2 * (value.write style).length + 1 ≤ fuel + 1) :
    readValue (fuel + 1) (value.write style ++ rest) = (value.reading, rest) := by
  cases spelled with
  | null => rfl
  | bool value => cases value <;> rfl
  | number spelled => exact readValue_number spelled ends
  | string text =>
      rw [Value.write, quote_append, readValue, skipSpace_cons (by decide)]
      exact readString_append text rest
  | @array items spelled =>
      cases items with
      | nil => rfl
      | cons first others =>
          have items := readsBack.items style.deeper style rest spelled (by
            simp only [Value.write, List.length_cons, List.length_append] at enough ⊢
            omega)
          obtain ⟨c, behind, start, starts⟩ :=
            (spelled first List.mem_cons_self).exists_write style.deeper
          simp only [Value.write, List.cons_append, List.append_assoc, List.nil_append]
          rw [readValue_array, items]
          · rfl
          · rw [skipSpace_lineBreak, start, List.cons_append, skipSpace_cons starts.solid]
            simpa using starts.notBracket
  | @object members spelled =>
      rcases members with _ | ⟨⟨name, first⟩, others⟩
      · rfl
      · have members := readsBack.members style.deeper style rest spelled (by
          simp only [Value.write, List.length_cons, List.length_append] at enough ⊢
          omega)
        simp only [Value.write, List.cons_append, List.append_assoc, List.nil_append]
        rw [readValue_object, members]
        · rfl
        · rw [skipSpace_lineBreak, quote_append, skipSpace_cons (by decide)]
          simp

end ReadsBack

theorem readsBack (fuel : Nat) : ReadsBack fuel := by
  induction fuel with
  | zero =>
      constructor
      · intro style rest value spelled ends enough
        omega
      · intro style outer rest first others spelled enough
        omega
      · intro style outer rest name first others spelled enough
        omega
  | succ fuel ih => exact ⟨ih.value_succ, ih.items_succ, ih.members_succ⟩

/-- A written value is read back from the front of a text, up to what does not continue it. -/
theorem readFront_write {value : Value} (spelled : value.Spelled) (style : Style)
    {rest : List Char} (ends : EndsNumber rest) :
    readFront (value.write style ++ rest) = (value.reading, rest) := by
  refine (readsBack _).value style rest spelled ends ?_
  rw [List.length_append]
  omega

/-! ## Blanks behind a value -/

theorem skipSpace_eq_nil {blanks : List Char} (blank : ∀ c ∈ blanks, isSpace c = true) :
    skipSpace blanks = [] :=
  List.dropWhile_eq_nil_iff.2 blank

theorem endsNumber_of_isSpace {blanks : List Char} (blank : ∀ c ∈ blanks, isSpace c = true) :
    EndsNumber blanks := by
  intro c first
  have space := blank c (List.mem_of_head? first)
  simp only [isSpace, Bool.or_eq_true, decide_eq_true_eq] at space
  rcases space with ((rfl | rfl) | rfl) | rfl <;> decide

end WeightedArgumentation.Json
