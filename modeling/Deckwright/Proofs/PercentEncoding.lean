import Mathlib.Data.String.Basic
import Deckwright.Url.Encoding

/-!
# Percent encoding

Where the percent sign itself is encoded, an encoded text can be read back: what it stands for are
the bytes of the text in UTF-8 (`percentDecode_percentEncode`). So two texts that are encoded alike
are one text (`percentEncode_injective`), and a text is known from the bytes that its encoding
stands for, however they are found (`eq_of_percentDecode`).
-/

namespace Deckwright.Url

variable {reserved cs : List Char}

/-! ## Bytes -/

theorem utf8_lt {c : Char} {byte : Nat} (h : byte ∈ utf8 c) : byte < 256 := by
  obtain ⟨b, -, rfl⟩ := List.mem_map.1 h
  exact b.toNat_lt

/-- The bytes of a text in UTF-8 determine the text. -/
theorem flatMap_utf8_injective : Function.Injective (List.flatMap utf8) := by
  intro cs ds h
  have hBytes (cs : List Char) :
      cs.flatMap utf8 = (cs.flatMap String.utf8EncodeChar).map UInt8.toNat := by
    rw [List.map_flatMap]
    rfl
  have hToNat : Function.Injective UInt8.toNat := fun _ _ => UInt8.toNat_inj.1
  have hSame : cs.flatMap String.utf8EncodeChar = ds.flatMap String.utf8EncodeChar := by
    rw [hBytes, hBytes] at h
    exact hToNat.list_map h
  have hString : (String.ofList cs).toByteArray = (String.ofList ds).toByteArray := by
    rw [String.toByteArray_ofList, String.toByteArray_ofList, List.utf8Encode, List.utf8Encode,
      hSame]
  exact String.ofList_inj.1 (String.toByteArray_inj.1 hString)

theorem digitValue?_hexDigit {n : Nat} (h : n < 16) :
    Text.digitValue? (hexDigit n) = some n := by
  have hAll : ∀ n : Fin 16, Text.digitValue? (hexDigit n) = some n.val := by decide
  exact hAll ⟨n, h⟩

/-! ## Reading back -/

theorem percentDecode_cons_of_ne {c : Char} (h : c ≠ '%') (rest : List Char) :
    percentDecode (c :: rest) = utf8 c ++ percentDecode rest := by
  rw [percentDecode]
  rintro a b after rfl
  exact absurd rfl h

theorem percentDecode_percentByte {byte : Nat} (h : byte < 256) (rest : List Char) :
    percentDecode (percentByte byte ++ rest) = byte :: percentDecode rest := by
  have hHigh : byte / 16 < 16 := by omega
  have hLow : byte % 16 < 16 := by omega
  show percentDecode ('%' :: hexDigit (byte / 16) :: hexDigit (byte % 16) :: rest) = _
  simp only [percentDecode, digitValue?_hexDigit hHigh, digitValue?_hexDigit hLow]
  rw [show byte / 16 * 16 + byte % 16 = byte by omega]

theorem percentDecode_flatMap_percentByte {bytes : List Nat} (h : ∀ byte ∈ bytes, byte < 256)
    (rest : List Char) :
    percentDecode (bytes.flatMap percentByte ++ rest) = bytes ++ percentDecode rest := by
  induction bytes with
  | nil => rfl
  | cons byte more ih =>
      obtain ⟨hByte, hMore⟩ := List.forall_mem_cons.1 h
      rw [List.flatMap_cons, List.append_assoc, percentDecode_percentByte hByte, ih hMore]
      rfl

/-- An encoded text stands for its bytes, if the percent sign is encoded. -/
theorem percentDecode_percentEncode (h : '%' ∈ reserved) (cs : List Char) :
    percentDecode (percentEncode reserved cs) = cs.flatMap utf8 := by
  induction cs with
  | nil => rfl
  | cons c rest ih =>
      rw [percentEncode, List.flatMap_cons, ← percentEncode, List.flatMap_cons]
      split
      · rw [percentDecode_flatMap_percentByte fun _ => utf8_lt, ih]
      · rename_i hPlain
        have hMark : c ≠ '%' := by
          rintro rfl
          simp [h] at hPlain
        rw [List.singleton_append, percentDecode_cons_of_ne hMark, ih]

/-- A text whose encoding stands for the bytes of another one is that text. -/
theorem eq_of_percentDecode {ds : List Char} (h : '%' ∈ reserved)
    (hBytes : percentDecode (percentEncode reserved cs) = ds.flatMap utf8) : cs = ds := by
  rw [percentDecode_percentEncode h] at hBytes
  exact flatMap_utf8_injective hBytes

theorem percentEncode_injective (h : '%' ∈ reserved) :
    Function.Injective (percentEncode reserved) := fun cs ds hSame =>
  eq_of_percentDecode h (by rw [hSame, percentDecode_percentEncode h])

end Deckwright.Url
