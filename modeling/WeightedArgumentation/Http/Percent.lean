/-!
# Percent-encoded texts

A text is encoded byte by byte: letters, digits and `-`, `.`, `_`, `~` stand for
themselves and every other byte is a percent sign with two hexadecimal digits.
Decoding takes a percent sign that is not followed by two hexadecimal digits for
itself, and fails when the bytes are not UTF-8.
-/

namespace WeightedArgumentation.Http

/-- The byte of the percent sign. -/
def percentSign : UInt8 := 0x25

/-- The value of a hexadecimal digit. -/
def hexValue? (byte : UInt8) : Option UInt8 :=
  if 0x30 ≤ byte && byte ≤ 0x39 then some (byte - 0x30)
  else if 0x41 ≤ byte && byte ≤ 0x46 then some (byte - 0x41 + 10)
  else if 0x61 ≤ byte && byte ≤ 0x66 then some (byte - 0x61 + 10)
  else none

/-- The byte that two hexadecimal digits stand for. -/
def hexPair? (high low : UInt8) : Option UInt8 :=
  match hexValue? high, hexValue? low with
  | some high, some low => some (16 * high + low)
  | _, _ => none

/-- Replaces every escaped byte by the byte itself. -/
def unescapeBytes : List UInt8 → List UInt8
  | first :: high :: low :: rest =>
      if first = percentSign then
        match hexPair? high low with
        | some byte => byte :: unescapeBytes rest
        | none => first :: unescapeBytes (high :: low :: rest)
      else first :: unescapeBytes (high :: low :: rest)
  | short => short

/-- The text that a percent-encoded one stands for. -/
def percentDecode? (text : String) : Option String :=
  String.fromUTF8? (unescapeBytes text.toUTF8.data.toList).toByteArray

/-- Whether a byte stands for itself in an encoded text. -/
def isUnreserved (byte : UInt8) : Bool :=
  (0x30 ≤ byte && byte ≤ 0x39) || (0x41 ≤ byte && byte ≤ 0x5A) ||
    (0x61 ≤ byte && byte ≤ 0x7A) || byte = 0x2D || byte = 0x2E || byte = 0x5F || byte = 0x7E

/-- A hexadecimal digit in upper case. -/
def upperHexDigit (n : Nat) : Char :=
  if n < 10 then Char.ofNat ('0'.toNat + n) else Char.ofNat ('A'.toNat + (n - 10))

/-- A byte as it is written in an encoded text. -/
def escapeByte (byte : UInt8) : List Char :=
  if isUnreserved byte then [Char.ofNat byte.toNat]
  else ['%', upperHexDigit (byte.toNat / 16), upperHexDigit (byte.toNat % 16)]

/-- A text with every byte that is not unreserved escaped. -/
def percentEncode (text : String) : String :=
  String.ofList (text.toUTF8.data.toList.flatMap escapeByte)

end WeightedArgumentation.Http
