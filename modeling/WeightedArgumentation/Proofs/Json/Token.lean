import WeightedArgumentation.Json.Reading
import WeightedArgumentation.Json.Value
import WeightedArgumentation.Proofs.Decimal.Layout

/-!
# Numbers and strings read back

What is written for a number or a string is read as that number or string, and reading goes
on right behind it.  For a number this needs that nothing follows that could continue it; a
string may hold any characters at all.
-/

namespace WeightedArgumentation

namespace Decimal

/-- Digits are taken up to the first character that is none. -/
theorem takeDigits_append {digits : List Digit} {rest : List Char}
    (ends : ∀ c ∈ rest.head?, digit? c = none) :
    takeDigits (digits.map Digit.char ++ rest) = (digits, rest) := by
  induction digits with
  | nil =>
      cases rest with
      | nil => rfl
      | cons c rest => simp [takeDigits, ends c rfl]
  | cons digit digits ih => simp [takeDigits, ih]

end Decimal

namespace Json

open Decimal (Digit Numeral Exponent digit? takeDigits)

/-! ## Numbers -/

/-- A text that does not continue a number that stands before it. -/
def EndsNumber (rest : List Char) : Prop :=
  ∀ c ∈ rest.head?, digit? c = none ∧ c ≠ '.' ∧ c ≠ 'e' ∧ c ≠ 'E'

theorem readDigits_append {digits : List Digit} {rest : List Char} (nonempty : digits ≠ [])
    (ends : ∀ c ∈ rest.head?, digit? c = none) :
    readDigits (digits.map Digit.char ++ rest) = .ok (digits, rest) := by
  rw [readDigits, Decimal.takeDigits_append ends]
  cases digits with
  | nil => exact absurd rfl nonempty
  | cons digit digits => rfl

theorem readWhole_append {whole : List Digit} {rest : List Char} (nonempty : whole ≠ [])
    (noLeadingZero : ∀ first second rest, whole = first :: second :: rest → first ≠ 0)
    (ends : ∀ c ∈ rest.head?, digit? c = none) :
    readWhole (whole.map Digit.char ++ rest) = .ok (whole, rest) := by
  rw [readWhole, readDigits_append nonempty ends]
  match whole, nonempty with
  | [digit], _ => rfl
  | first :: second :: digits, _ =>
      have leads : first.val ≠ 0 := fun zero => noLeadingZero first second digits rfl (Fin.ext zero)
      exact if_neg leads

theorem readFraction_append (fraction : List Digit) {rest : List Char}
    (ends : ∀ c ∈ rest.head?, digit? c = none ∧ c ≠ '.') :
    readFraction (Numeral.fractionText fraction ++ rest) = .ok (fraction, rest) := by
  cases fraction with
  | nil =>
      show readFraction rest = _
      unfold readFraction
      split
      next => exact absurd rfl (ends '.' rfl).2
      next => rfl
  | cons digit fraction =>
      exact readDigits_append (List.cons_ne_nil digit fraction) fun c first => (ends c first).1

theorem readExponent_append {exponent : Option Exponent} {rest : List Char}
    (digits : ∀ e, exponent = some e → e.digits ≠ []) (ends : EndsNumber rest) :
    readExponent (Numeral.exponentText exponent ++ rest) = .ok (exponent, rest) := by
  cases exponent with
  | none =>
      show readExponent rest = _
      cases rest with
      | nil => rfl
      | cons c rest =>
          obtain ⟨_, _, lower, upper⟩ := ends c rfl
          simp [readExponent, lower, upper]
  | some exponent =>
      obtain ⟨negative, powers⟩ := exponent
      have read := readDigits_append (digits _ rfl) fun c first => (ends c first).1
      cases negative <;> simp [Numeral.exponentText, readExponent, read]

theorem char_ne_sign (digit : Digit) : digit.char ≠ '-' := by
  revert digit
  decide

/-- Nothing behind the fraction continues it. -/
theorem ends_exponentText (exponent : Option Exponent) {rest : List Char} (ends : EndsNumber rest) :
    ∀ c ∈ (Numeral.exponentText exponent ++ rest).head?, digit? c = none ∧ c ≠ '.' := by
  cases exponent with
  | none => exact fun c first => ⟨(ends c first).1, (ends c first).2.1⟩
  | some exponent =>
      rintro c ⟨⟩
      decide

/-- Nothing behind the whole digits continues them. -/
theorem ends_fractionText (fraction : List Digit) {rest : List Char}
    (ends : ∀ c ∈ rest.head?, digit? c = none) :
    ∀ c ∈ (Numeral.fractionText fraction ++ rest).head?, digit? c = none := by
  cases fraction with
  | nil => exact ends
  | cons digit fraction =>
      rintro c ⟨⟩
      decide

theorem readNumeral_append {numeral : Numeral} {rest : List Char} (spelled : numeral.Spelled)
    (ends : EndsNumber rest) : readNumeral (numeral.text ++ rest) = .ok (numeral, rest) := by
  obtain ⟨negative, whole, fraction, exponent⟩ := numeral
  have afterFraction := ends_exponentText exponent ends
  have afterWhole := ends_fractionText fraction fun c first => (afterFraction c first).1
  have readsWhole := readWhole_append spelled.whole spelled.noLeadingZero afterWhole
  have readsFraction := readFraction_append fraction afterFraction
  have readsExponent := readExponent_append spelled.exponent ends
  cases negative with
  | true =>
      simp only [Numeral.text, Numeral.signText, if_true, List.append_assoc, List.singleton_append]
      simp [readNumeral, readsWhole, readsFraction, readsExponent, bind, Except.bind, pure,
        Except.pure]
  | false =>
      cases whole with
      | nil => exact absurd rfl spelled.whole
      | cons digit whole =>
          simp only [List.map_cons, List.cons_append] at readsWhole
          simp [Numeral.text, Numeral.signText, readNumeral, char_ne_sign, readsWhole,
            readsFraction, readsExponent, bind, Except.bind, pure, Except.pure]

/-! ## Strings -/

/-- How a character is read back inside quotes: a control character without a letter of its
own comes back as a unit. -/
def pieceOf (c : Char) : Piece :=
  if shortEscape? c = none ∧ c.toNat < 0x20 then .unit c.toNat else .char c

theorem unescape?_of_shortEscape? {c letter : Char} (escaped : shortEscape? c = some letter) :
    unescape? letter = some c ∧ letter ≠ 'u' := by
  unfold shortEscape? at escaped
  split at escaped <;> cases escaped <;> decide

theorem unit?_hexDigit :
    ∀ n < 0x20, unit? '0' '0' (hexDigit (n / 16)) (hexDigit (n % 16)) = some n := by
  decide

/-- An escaped character in front. -/
theorem pieces_escape {c letter : Char} {more : List Char} (meaning : unescape? letter = some c)
    (notUnit : letter ≠ 'u') :
    pieces ('\\' :: letter :: more) = withPiece (.char c) (pieces more) := by
  rw [pieces]
  · simp [meaning]
  all_goals grind

/-- A character that stands for itself in front. -/
theorem pieces_plain {c : Char} {more : List Char} (notQuote : c ≠ '"') (notEscape : c ≠ '\\')
    (printed : ¬ c.toNat < 0x20) : pieces (c :: more) = withPiece (.char c) (pieces more) := by
  rw [pieces]
  · simp [printed]
  all_goals grind

theorem ne_of_shortEscape?_eq_none {c : Char} (plain : shortEscape? c = none) :
    c ≠ '"' ∧ c ≠ '\\' := by
  constructor <;> (rintro rfl; cases plain)

theorem pieces_quoteChar (c : Char) (more : List Char) :
    pieces (quoteChar c ++ more) = withPiece (pieceOf c) (pieces more) := by
  rw [quoteChar]
  split
  next letter escaped =>
    obtain ⟨meaning, notUnit⟩ := unescape?_of_shortEscape? escaped
    have piece : pieceOf c = .char c := by simp [pieceOf, escaped]
    rw [piece]
    exact pieces_escape meaning notUnit
  next plain =>
    split
    next control =>
      have piece : pieceOf c = .unit c.toNat := by simp [pieceOf, plain, control]
      simp [pieces, unit?_hexDigit c.toNat control, piece]
    next printed =>
      have piece : pieceOf c = .char c := by simp [pieceOf, printed]
      obtain ⟨notQuote, notEscape⟩ := ne_of_shortEscape?_eq_none plain
      rw [piece]
      exact pieces_plain notQuote notEscape printed

/-- The characters of a text come back as its pieces, up to the closing quote. -/
theorem pieces_flatMap (characters rest : List Char) :
    pieces (characters.flatMap quoteChar ++ '"' :: rest) = (characters.map pieceOf, .ok rest) := by
  induction characters with
  | nil => rfl
  | cons c characters ih =>
      rw [List.flatMap_cons, List.append_assoc, pieces_quoteChar, ih]
      rfl

/-- A piece spells the character that it came from. -/
theorem spell_pieceOf (c : Char) (more : List Piece) :
    spell none none (pieceOf c :: more) = (spell none none more).map (c :: ·) := by
  rw [pieceOf]
  split
  next control =>
    have leading : isLeading c.toNat = false := by
      simp [isLeading]; omega
    have trailing : isTrailing c.toNat = false := by
      simp [isTrailing]; omega
    simp [spell, leading, trailing, Char.ofNat_toNat]
  next => rfl

theorem spell_map_pieceOf (characters : List Char) :
    spell none none (characters.map pieceOf) = .ok characters := by
  induction characters with
  | nil => rfl
  | cons c characters ih =>
      rw [List.map_cons, spell_pieceOf, ih]
      rfl

/-- A text in quotes is read back behind its opening quote. -/
theorem readString_append (text : String) (rest : List Char) :
    readString (text.toList.flatMap quoteChar ++ '"' :: rest) = (.string (some text), rest) := by
  simp [readString, pieces_flatMap, spell_map_pieceOf]

end Json

end WeightedArgumentation
