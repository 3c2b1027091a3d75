import GeoTag.Lines

/-!
# Bytes of a text

A text is the text of its own bytes (`Text.fromUTF8?_toUTF8`), and a byte below 128 among them is an
ASCII character of the text (`Text.exists_mem_of_mem_utf8`): every other character is encoded in bytes from 128
on.  So the bytes of a text hold a newline only where the text does.
-/

namespace GeoTag

namespace Text

/-! ## Arrays and lists of bytes -/

theorem toList_loop (bytes : ByteArray) (i : Nat) (seen : List UInt8) :
    ByteArray.toList.loop bytes i seen = seen.reverse ++ bytes.data.toList.drop i := by
  fun_induction ByteArray.toList.loop bytes i seen with
  | case1 i seen hlt ih =>
    have hi : i < bytes.data.toList.length := hlt
    have hget : bytes.get! i = bytes.data.toList[i] := getElem!_pos bytes.data i hlt
    rw [ih, List.drop_eq_getElem_cons hi, hget, List.reverse_cons, List.append_assoc,
      List.singleton_append]
  | case2 i seen hge =>
    have hi : bytes.data.toList.length ≤ i := Nat.le_of_not_lt hge
    rw [List.drop_eq_nil_of_le hi, List.append_nil]

theorem toList_eq_data (bytes : ByteArray) : bytes.toList = bytes.data.toList :=
  toList_loop bytes 0 []

theorem toList_toByteArray (bytes : List UInt8) : bytes.toByteArray.toList = bytes := by
  rw [toList_eq_data, List.data_toByteArray]

theorem toByteArray_toList (bytes : ByteArray) : bytes.toList.toByteArray = bytes := by
  apply ByteArray.ext
  rw [toList_eq_data, List.data_toByteArray]

/-! ## Encoding -/

theorem toList_utf8_ofList (cs : List Char) :
    (String.ofList cs).toUTF8.toList = cs.flatMap String.utf8EncodeChar := by
  rw [String.toUTF8_eq_toByteArray, String.toByteArray_ofList]
  exact toList_toByteArray _

theorem fromUTF8?_toUTF8 (s : String) : String.fromUTF8? s.toUTF8 = some s :=
  dif_pos s.isValidUTF8

theorem toNat_ofNat_byte {n : Nat} (h : n < 256) : (UInt8.ofNat n).toNat = n := by
  rw [UInt8.toNat_ofNat']
  exact Nat.mod_eq_of_lt h

/-- A byte below 128 encodes the character with its number. -/
theorem toNat_eq_of_mem_utf8EncodeChar {c : Char} {byte : UInt8}
    (h : byte ∈ String.utf8EncodeChar c) (hascii : byte.toNat < 128) : c.toNat = byte.toNat := by
  unfold String.utf8EncodeChar at h
  dsimp only at h
  split at h
  · rename_i hsmall
    obtain rfl := List.mem_singleton.1 h
    exact (toNat_ofNat_byte (Nat.lt_of_le_of_lt hsmall (by decide))).symm
  · -- All bytes of the longer encodings have their highest bit set.
    exfalso
    have high : ∀ n, 128 ≤ n → n < 256 → byte ≠ UInt8.ofNat n := by
      rintro n hlow hhigh rfl
      rw [toNat_ofNat_byte hhigh] at hascii
      omega
    split at h
    · simp only [List.mem_cons, List.not_mem_nil, or_false] at h
      rcases h with h | h <;> exact high _ (by omega) (by omega) h
    split at h
    · simp only [List.mem_cons, List.not_mem_nil, or_false] at h
      rcases h with h | h | h <;> exact high _ (by omega) (by omega) h
    · simp only [List.mem_cons, List.not_mem_nil, or_false] at h
      rcases h with h | h | h | h <;> exact high _ (by omega) (by omega) h

theorem exists_mem_of_mem_utf8 {s : String} {byte : UInt8} (h : byte ∈ s.toUTF8.toList)
    (hascii : byte.toNat < 128) : ∃ c ∈ s.toList, c.toNat = byte.toNat := by
  rw [← String.ofList_toList (s := s), toList_utf8_ofList] at h
  obtain ⟨c, hc, hbyte⟩ := List.mem_flatMap.1 h
  exact ⟨c, hc, toNat_eq_of_mem_utf8EncodeChar hbyte hascii⟩

end Text

/-- A line of the bytes of a text has that text. -/
theorem Line.text?_of_utf8 {line : Line} {s : String} (h : line.content = s.toUTF8.toList) :
    line.text? = some s := by
  rw [text?, h, Text.toByteArray_toList, Text.fromUTF8?_toUTF8]

theorem Line.content_of_text? {line : Line} {text : String} (h : line.text? = some text) :
    line.content = text.toUTF8.toList := by
  rw [text?, String.fromUTF8?] at h
  split at h
  · cases h
    exact (Text.toList_toByteArray _).symm
  · cases h

end GeoTag
