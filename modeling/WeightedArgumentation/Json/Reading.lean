import WeightedArgumentation.Decimal.Setting

/-!
# Reading JSON as far as it goes

A text is read into a tree up to the first place where it stops being JSON.  The
tree marks that place and says whether the text is malformed there or
unfinished, so a consumer that walks the tree from the front meets the problems
in the order of the text.

A few texts differ for a consumer that wants the value and one that skips it: a
number that ends after its sign, point or exponent mark, and a string whose
escapes leave a surrogate unpaired.  Such places carry both verdicts.
-/

namespace WeightedArgumentation.Json

open Decimal (Digit Numeral Exponent digit? takeDigits)

/-- Why a text cannot be read on. -/
inductive Stop
  | malformed
  | unfinished
  deriving DecidableEq, Repr

/-- What a text shows.  An array or object ends properly or with a `Stop`.  A
`string` without text holds an unpaired surrogate.  A `broken` place starts a
word or a number that goes wrong; at a `stuck` place nothing starts, or a string
goes wrong.  The verdicts are for a consumer that wants the value and for one
that skips it. -/
inductive Reading where
  | null
  | bool (value : Bool)
  | number (numeral : Numeral)
  | string (text : Option String)
  | array (items : List Reading) (ending : Option Stop)
  | object (members : List (Reading × Reading)) (ending : Option Stop)
  | broken (asValue asSkipped : Stop)
  | stuck (asValue asSkipped : Stop)

/-- A place where nothing can be read by either kind of consumer. -/
def Reading.stopped (stop : Stop) : Reading := .stuck stop stop

/-- A word or a number that goes wrong for both kinds of consumer. -/
def Reading.misspelt (stop : Stop) : Reading := .broken stop stop

/-- The four characters that may stand between tokens. -/
def isSpace (c : Char) : Bool := c = ' ' || c = '\n' || c = '\t' || c = '\r'

/-- The text without spaces in front. -/
def skipSpace (text : List Char) : List Char := text.dropWhile isSpace

/-! ## Words -/

/-- Reads the rest of a fixed word. -/
def readWord (value : Reading) : List Char → List Char → Reading × List Char
  | [], text => (value, text)
  | _ :: _, [] => (.misspelt .unfinished, [])
  | expected :: word, c :: text =>
      if c = expected then readWord value word text else (.misspelt .malformed, [])

/-! ## Numbers -/

/-- A number that ends too early is unfinished as a value and malformed for a
consumer that skips it. -/
def cutNumber : Reading := .broken .unfinished .malformed

/-- Digits, of which there is at least one. -/
def readDigits (text : List Char) : Except Reading (List Digit × List Char) :=
  match takeDigits text with
  | ([], []) => .error cutNumber
  | ([], _ :: _) => .error (.misspelt .malformed)
  | (digits, rest) => .ok (digits, rest)

/-- The digits before the point: a zero stands alone. -/
def readWhole (text : List Char) : Except Reading (List Digit × List Char) :=
  match readDigits text with
  | .ok (first :: second :: digits, rest) =>
      if first.val = 0 then .error (.misspelt .malformed) else .ok (first :: second :: digits, rest)
  | other => other

/-- The point and the digits after it, if there are any. -/
def readFraction : List Char → Except Reading (List Digit × List Char)
  | '.' :: rest => readDigits rest
  | rest => .ok ([], rest)

/-- The exponent, if there is one. -/
def readExponent (text : List Char) : Except Reading (Option Exponent × List Char) :=
  match text with
  | [] => .ok (none, [])
  | mark :: rest =>
      if mark = 'e' || mark = 'E' then
        let (negative, unsigned) := match rest with
          | '-' :: rest => (true, rest)
          | '+' :: rest => (false, rest)
          | _ => (false, rest)
        match readDigits unsigned with
        | .error broken => .error broken
        | .ok (digits, rest) => .ok (some ⟨negative, digits⟩, rest)
      else .ok (none, text)

/-- A number from its sign on. -/
def readNumeral (text : List Char) : Except Reading (Numeral × List Char) := do
  let (negative, unsigned) := match text with
    | '-' :: rest => (true, rest)
    | _ => (false, text)
  let (whole, afterWhole) ← readWhole unsigned
  let (fraction, afterFraction) ← readFraction afterWhole
  let (exponent, rest) ← readExponent afterFraction
  return (⟨negative, whole, fraction, exponent⟩, rest)

/-- A number as a reading. -/
def readNumber (text : List Char) : Reading × List Char :=
  match readNumeral text with
  | .ok (numeral, rest) => (.number numeral, rest)
  | .error broken => (broken, [])

/-! ## Strings -/

/-- A piece of a string: a character, or a 16-bit unit given by its number. -/
inductive Piece
  | char (c : Char)
  | unit (n : Nat)
  deriving DecidableEq, Repr

/-- The value of a hexadecimal digit. -/
def hexValue? (c : Char) : Option Nat :=
  if '0' ≤ c && c ≤ '9' then some (c.toNat - '0'.toNat)
  else if 'a' ≤ c && c ≤ 'f' then some (c.toNat - 'a'.toNat + 10)
  else if 'A' ≤ c && c ≤ 'F' then some (c.toNat - 'A'.toNat + 10)
  else none

/-- The 16-bit unit of four hexadecimal digits. -/
def unit? (a b c d : Char) : Option Nat := do
  let a ← hexValue? a
  let b ← hexValue? b
  let c ← hexValue? c
  let d ← hexValue? d
  return ((a * 16 + b) * 16 + c) * 16 + d

/-- The character that a letter behind a backslash stands for. -/
def unescape? : Char → Option Char
  | '"' => some '"'
  | '\\' => some '\\'
  | '/' => some '/'
  | 'b' => some '\x08'
  | 'f' => some '\x0c'
  | 'n' => some '\n'
  | 'r' => some '\r'
  | 't' => some '\t'
  | _ => none

/-- A piece in front of the pieces read so far. -/
def withPiece (piece : Piece) (more : List Piece × Except Stop (List Char)) :
    List Piece × Except Stop (List Char) :=
  (piece :: more.1, more.2)

/-- The pieces of a string behind its opening quote, and the text behind its
closing quote or the reason why none is reached.  An escaped unit is unfinished
when fewer than four bytes are left for it. -/
def pieces : List Char → List Piece × Except Stop (List Char)
  | [] => ([], .error .unfinished)
  | '"' :: rest => ([], .ok rest)
  | ['\\'] => ([], .error .unfinished)
  | '\\' :: 'u' :: a :: b :: c :: d :: rest =>
      match unit? a b c d with
      | some n => withPiece (.unit n) (pieces rest)
      | none => ([], .error .malformed)
  | '\\' :: 'u' :: short =>
      if (String.ofList short).utf8ByteSize < 4 then ([], .error .unfinished)
      else ([], .error .malformed)
  | '\\' :: letter :: rest =>
      match unescape? letter with
      | some c => withPiece (.char c) (pieces rest)
      | none => ([], .error .malformed)
  | c :: rest =>
      if c.toNat < 0x20 then ([], .error .malformed) else withPiece (.char c) (pieces rest)

/-- Whether a unit is the first of a surrogate pair. -/
def isLeading (n : Nat) : Bool := 0xD800 ≤ n && n < 0xDC00

/-- Whether a unit is the second of a surrogate pair. -/
def isTrailing (n : Nat) : Bool := 0xDC00 ≤ n && n < 0xE000

/-- The character of a surrogate pair. -/
def pairChar (leading trailing : Nat) : Char :=
  Char.ofNat (0x10000 + (leading - 0xD800) * 0x400 + (trailing - 0xDC00))

/-- The characters that pieces spell, after a leading surrogate if one is held.
Where the pieces end, the end of the string decides. -/
def spell (ending : Option Stop) : Option Nat → List Piece → Except Stop (List Char)
  | none, [] =>
      match ending with
      | none => .ok []
      | some stop => .error stop
  | some _, [] => .error (ending.getD .malformed)
  | none, .char c :: rest => (spell ending none rest).map (c :: ·)
  | some _, .char _ :: _ => .error .malformed
  | none, .unit n :: rest =>
      if isLeading n then spell ending (some n) rest
      else if isTrailing n then .error .malformed
      else (spell ending none rest).map (Char.ofNat n :: ·)
  | some leading, .unit n :: rest =>
      if isTrailing n then (spell ending none rest).map (pairChar leading n :: ·)
      else .error .malformed

/-- A string behind its opening quote. -/
def readString (text : List Char) : Reading × List Char :=
  match pieces text with
  | (pieces, .ok rest) =>
      match spell none none pieces with
      | .ok characters => (.string (some (String.ofList characters)), rest)
      | .error _ => (.string none, rest)
  | (pieces, .error stop) =>
      match spell (some stop) none pieces with
      | .ok _ => (.stuck stop stop, [])
      | .error asValue => (.stuck asValue stop, [])

/-! ## Values -/

mutual

/-- Reads a value.  The fuel bounds the nesting of calls. -/
def readValue : (fuel : Nat) → List Char → Reading × List Char
  | 0, _ => (.stopped .malformed, [])
  | fuel + 1, text =>
      match skipSpace text with
      | [] => (.stopped .unfinished, [])
      | '"' :: rest => readString rest
      | 'n' :: rest => readWord .null "ull".toList rest
      | 't' :: rest => readWord (.bool true) "rue".toList rest
      | 'f' :: rest => readWord (.bool false) "alse".toList rest
      | '[' :: rest =>
          match skipSpace rest with
          | ']' :: rest => (.array [] none, rest)
          | _ =>
              let (items, ending, rest) := readItems fuel rest
              (.array items ending, rest)
      | '{' :: rest =>
          match skipSpace rest with
          | '}' :: rest => (.object [] none, rest)
          | _ =>
              let (members, ending, rest) := readMembers fuel rest
              (.object members ending, rest)
      | c :: rest =>
          if c = '-' || (digit? c).isSome then readNumber (c :: rest)
          else (.stopped .malformed, [])

/-- Reads the items of an array, at least one, and its end. -/
def readItems : (fuel : Nat) → List Char → List Reading × Option Stop × List Char
  | 0, _ => ([], some .malformed, [])
  | fuel + 1, text =>
      let (item, rest) := readValue fuel text
      match skipSpace rest with
      | ',' :: rest =>
          let (items, ending, rest) := readItems fuel rest
          (item :: items, ending, rest)
      | ']' :: rest => ([item], none, rest)
      | [] => ([item], some .unfinished, [])
      | _ => ([item], some .malformed, [])

/-- Reads the members of an object, at least one, and its end. -/
def readMembers : (fuel : Nat) → List Char → List (Reading × Reading) × Option Stop × List Char
  | 0, _ => ([], some .malformed, [])
  | fuel + 1, text =>
      let (name, rest) := match skipSpace text with
        | [] => (.stopped .unfinished, [])
        | '"' :: rest => readString rest
        | _ => (.stopped .malformed, [])
      match skipSpace rest with
      | ':' :: rest =>
          let (value, rest) := readValue fuel rest
          match skipSpace rest with
          | ',' :: rest =>
              let (members, ending, rest) := readMembers fuel rest
              ((name, value) :: members, ending, rest)
          | '}' :: rest => ([(name, value)], none, rest)
          | [] => ([(name, value)], some .unfinished, [])
          | _ => ([(name, value)], some .malformed, [])
      | [] => ([(name, .stopped .unfinished)], some .unfinished, [])
      | _ => ([(name, .stopped .malformed)], some .malformed, [])

end

/-- Reads the value at the front of a text.  Between two characters that are
consumed at most two calls are nested, so the fuel suffices. -/
def readFront (text : List Char) : Reading × List Char :=
  readValue (2 * text.length + 2) text

/-! ## Skipping -/

namespace Reading

mutual

/-- The first reason, if any, why a value cannot be skipped. -/
def flaw? : Reading → Option Stop
  | .null => none
  | .bool _ => none
  | .number _ => none
  | .string _ => none
  | .array items ending => (flawInItems? items).or ending
  | .object members ending => (flawInMembers? members).or ending
  | .broken _ asSkipped => some asSkipped
  | .stuck _ asSkipped => some asSkipped

/-- The first flaw in a list of items. -/
def flawInItems? : List Reading → Option Stop
  | [] => none
  | item :: rest => item.flaw?.or (flawInItems? rest)

/-- The first flaw in a list of members. -/
def flawInMembers? : List (Reading × Reading) → Option Stop
  | [] => none
  | (name, value) :: rest => (name.flaw?.or value.flaw?).or (flawInMembers? rest)

end

end Reading

end WeightedArgumentation.Json
