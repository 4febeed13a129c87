import WeightedArgumentation.Http.Percent
import WeightedArgumentation.Http.Route

/-!
# Percent-encoded texts read back

Every byte of a text is encoded as characters that are single bytes again: itself when it is
unreserved, and otherwise a percent sign with two digits that give it back.  So decoding
undoes encoding for every text, and different texts have different encodings.  An encoded
text has no character that ends a path or separates its segments.
-/

namespace WeightedArgumentation.Http

/-! ## Bytes -/

theorem toNat_val_ofNat {n : Nat} (ascii : n < 128) : (Char.ofNat n).val.toNat = n := by
  have valid : n.isValidChar := .inl (by omega)
  have character : Char.ofNat n = Char.ofNatAux n valid := dif_pos valid
  rw [character]
  rfl

theorem utf8EncodeChar_ofNat {n : Nat} (ascii : n < 128) :
    String.utf8EncodeChar (Char.ofNat n) = [UInt8.ofNat n] := by
  rw [String.utf8EncodeChar]
  simp only [toNat_val_ofNat ascii]
  exact if_pos (by omega)

/-- The byte of an upper-case hexadecimal digit. -/
def hexByte (digit : Nat) : UInt8 := .ofNat (upperHexDigit digit).toNat

theorem utf8EncodeChar_upperHexDigit :
    ∀ digit < 16, String.utf8EncodeChar (upperHexDigit digit) = [hexByte digit] := by
  decide

theorem hexValue?_hexByte : ∀ digit < 16, hexValue? (hexByte digit) = some (.ofNat digit) := by
  decide

/-- The two digits of a byte stand for it. -/
theorem hexPair?_hexByte (byte : UInt8) :
    hexPair? (hexByte (byte.toNat / 16)) (hexByte (byte.toNat % 16)) = some byte := by
  have bound : byte.toNat < 256 := byte.toNat_lt
  have high : byte.toNat / 16 < 16 := by omega
  have low : byte.toNat % 16 < 16 := by omega
  have joined : 16 * UInt8.ofNat (byte.toNat / 16) + UInt8.ofNat (byte.toNat % 16) = byte := by
    apply UInt8.toNat_inj.1
    simp only [UInt8.toNat_add, UInt8.toNat_mul, UInt8.toNat_ofNat']
    change (16 * (byte.toNat / 16 % 256) % 256 + byte.toNat % 16 % 256) % 256 = byte.toNat
    omega
  rw [hexPair?, hexValue?_hexByte _ high, hexValue?_hexByte _ low]
  exact congrArg some joined

theorem lt_of_isUnreserved {byte : UInt8} (unreserved : isUnreserved byte = true) :
    byte.toNat < 128 := by
  simp [isUnreserved, UInt8.le_iff_toNat_le, ← UInt8.toNat_inj] at unreserved
  omega

/-- A byte that is no percent sign stands for itself. -/
theorem unescapeBytes_cons {byte : UInt8} (plain : byte ≠ percentSign) (rest : List UInt8) :
    unescapeBytes (byte :: rest) = byte :: unescapeBytes rest := by
  match rest with
  | [] => rfl
  | [last] => rfl
  | high :: low :: rest => rw [unescapeBytes, if_neg plain]

/-- What a byte is written as stands for the byte. -/
theorem unescapeBytes_escapeByte (byte : UInt8) (rest : List UInt8) :
    unescapeBytes ((escapeByte byte).flatMap String.utf8EncodeChar ++ rest) =
      byte :: unescapeBytes rest := by
  rw [escapeByte]
  cases unreserved : isUnreserved byte with
  | true =>
      have bound : byte.toNat < 128 := lt_of_isUnreserved unreserved
      have plain : byte ≠ percentSign := by
        rintro rfl
        cases unreserved
      rw [if_pos rfl, List.flatMap_singleton, utf8EncodeChar_ofNat bound, UInt8.ofNat_toNat]
      exact unescapeBytes_cons plain rest
  | false =>
      have bound : byte.toNat < 256 := byte.toNat_lt
      have sign : String.utf8EncodeChar '%' = [percentSign] := rfl
      rw [if_neg Bool.false_ne_true]
      simp only [List.flatMap_cons, List.flatMap_nil, sign,
        utf8EncodeChar_upperHexDigit _ (show byte.toNat / 16 < 16 by omega),
        utf8EncodeChar_upperHexDigit _ (show byte.toNat % 16 < 16 by omega), List.append_nil,
        List.cons_append, List.nil_append]
      rw [unescapeBytes, if_pos rfl, hexPair?_hexByte]

/-! ## Texts -/

/-- The bytes of an encoded text stand for the bytes of the text. -/
theorem unescapeBytes_flatMap (bytes : List UInt8) :
    unescapeBytes ((bytes.flatMap escapeByte).flatMap String.utf8EncodeChar) = bytes := by
  induction bytes with
  | nil => rfl
  | cons byte rest ih =>
      rw [List.flatMap_cons, List.flatMap_append, unescapeBytes_escapeByte, ih]

/-- Decoding undoes encoding. -/
theorem percentDecode?_percentEncode (text : String) :
    percentDecode? (percentEncode text) = some text := by
  have bytes : (percentEncode text).toUTF8.data.toList =
      (text.toUTF8.data.toList.flatMap escapeByte).flatMap String.utf8EncodeChar := by
    simp [percentEncode, List.utf8Encode, List.data_toByteArray]
  have restored : text.toUTF8.data.toList.toByteArray = text.toUTF8 := by
    apply ByteArray.ext
    simp [List.data_toByteArray]
  rw [percentDecode?, bytes, unescapeBytes_flatMap, restored]
  exact dif_pos text.isValidUTF8

theorem percentEncode_injective {text other : String}
    (same : percentEncode text = percentEncode other) : text = other := by
  have decoded := percentDecode?_percentEncode text
  rw [same, percentDecode?_percentEncode] at decoded
  exact (Option.some.inj decoded).symm

/-- A character that neither ends a path nor separates two of its segments. -/
def staysInSegment (c : Char) : Bool := c ≠ '/' && !endsPath c

theorem staysInSegment_upperHexDigit :
    ∀ digit < 16, staysInSegment (upperHexDigit digit) = true := by
  decide

/-- The three characters that a segment cannot hold are reserved. -/
theorem staysInSegment_of_isUnreserved {byte : UInt8} (unreserved : isUnreserved byte = true) :
    staysInSegment (Char.ofNat byte.toNat) = true := by
  have differs (c : Char) (reserved : isUnreserved (.ofNat c.val.toNat) = false) :
      Char.ofNat byte.toNat ≠ c := by
    rintro rfl
    rw [toNat_val_ofNat (lt_of_isUnreserved unreserved), UInt8.ofNat_toNat, unreserved] at reserved
    cases reserved
  simp [staysInSegment, endsPath, differs '/' (by decide), differs '?' (by decide),
    differs '#' (by decide)]

theorem staysInSegment_of_mem_escapeByte {byte : UInt8} {c : Char} (member : c ∈ escapeByte byte) :
    staysInSegment c = true := by
  rw [escapeByte] at member
  cases unreserved : isUnreserved byte with
  | true =>
      rw [if_pos unreserved, List.mem_singleton] at member
      exact member ▸ staysInSegment_of_isUnreserved unreserved
  | false =>
      have bound : byte.toNat < 256 := byte.toNat_lt
      rw [unreserved, if_neg Bool.false_ne_true] at member
      simp only [List.mem_cons, List.not_mem_nil, or_false] at member
      rcases member with rfl | rfl | rfl
      · decide
      · exact staysInSegment_upperHexDigit _ (by omega)
      · exact staysInSegment_upperHexDigit _ (by omega)

theorem staysInSegment_of_mem_percentEncode {text : String} {c : Char}
    (member : c ∈ (percentEncode text).toList) : staysInSegment c = true := by
  rw [percentEncode, String.toList_ofList] at member
  obtain ⟨byte, _, written⟩ := List.mem_flatMap.1 member
  exact staysInSegment_of_mem_escapeByte written

end WeightedArgumentation.Http
