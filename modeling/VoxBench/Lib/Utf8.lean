import Mathlib.Data.List.Basic

/-!
# The UTF-8 bytes of a text

`text.encode("utf-8")` as a list of bytes, and `bytes.decode("utf-8")`.

## Main definitions

* `decodeUtf8` — the text of some bytes.

## Main results

* `toUTF8_toList_injective` — different texts have different bytes.
* `toList_toUTF8_singleton`, `mem_utf8EncodeChar` — the bytes of one character.
* `decodeUtf8_toUTF8` — decoding inverts encoding.
-/

namespace VoxBench.Lib

theorem toList_loop (b : ByteArray) (i : ℕ) (r : List UInt8) :
    ByteArray.toList.loop b i r = r.reverse ++ b.data.toList.drop i := by
  fun_induction ByteArray.toList.loop b i r with
  | case1 i r h ih =>
      have hi : i < b.data.toList.length := by simpa using h
      have hget : b.get! i = b.data.toList[i] := by
        have hi' : i < b.data.size := by simpa using hi
        change b.data[i]! = _
        rw [getElem!_pos b.data i hi', Array.getElem_toList]
      rw [ih, List.drop_eq_getElem_cons hi, hget, List.reverse_cons, List.append_assoc,
        List.singleton_append]
  | case2 i r h =>
      have hi : b.data.toList.length ≤ i := by simpa using h
      rw [List.drop_eq_nil_of_le hi, List.append_nil]

theorem toList_eq_data (b : ByteArray) : b.toList = b.data.toList := by
  rw [ByteArray.toList, toList_loop]
  rfl

theorem toList_toUTF8_singleton (c : Char) :
    (String.singleton c).toUTF8.toList = String.utf8EncodeChar c := by
  rw [String.toUTF8, String.toByteArray_singleton, List.utf8Encode_singleton, toList_eq_data,
    List.toList_data_toByteArray]

theorem toUTF8_toList_injective : Function.Injective fun text : String => text.toUTF8.toList := by
  intro s t h
  have hdata : s.toByteArray.data.toList = t.toByteArray.data.toList := by
    simpa only [toList_eq_data, String.toUTF8_eq_toByteArray] using h
  exact String.toByteArray_inj.mp (ByteArray.ext (Array.toList_inj.mp hdata))

/-! ## Bytes and characters -/

theorem toList_toUTF8 (text : String) :
    text.toUTF8.toList = text.toList.flatMap String.utf8EncodeChar := by
  rw [toList_eq_data, String.toUTF8_eq_toByteArray, ← String.utf8Encode_toList, List.utf8Encode,
    List.toList_data_toByteArray]

/-- The bytes of a character are its own ASCII code, or no ASCII codes. -/
theorem mem_utf8EncodeChar {c : Char} {b : UInt8} (h : b ∈ String.utf8EncodeChar c) :
    b.toNat = c.toNat ∨ 128 ≤ b.toNat := by
  have hlarge : ∀ n : ℕ, 128 ≤ n → n < 256 → 128 ≤ (UInt8.ofNat n).toNat := by
    intro n hlow hhigh
    rw [UInt8.toNat_ofNat']
    omega
  simp only [String.utf8EncodeChar] at h
  split_ifs at h with h₁ h₂ h₃
  · rw [List.mem_singleton] at h
    subst h
    left
    rw [UInt8.toNat_ofNat']
    exact Nat.mod_eq_of_lt (by omega)
  all_goals
    right
    simp only [List.mem_cons, List.not_mem_nil, or_false] at h
  · rcases h with rfl | rfl
    all_goals exact hlarge _ (by omega) (by omega)
  · rcases h with rfl | rfl | rfl
    all_goals exact hlarge _ (by omega) (by omega)
  · rcases h with rfl | rfl | rfl | rfl
    all_goals exact hlarge _ (by omega) (by omega)

theorem notMem_utf8EncodeChar {c : Char} {b : UInt8} (hb : b.toNat < 128)
    (h : c.toNat ≠ b.toNat) : b ∉ String.utf8EncodeChar c := by
  intro hmem
  rcases mem_utf8EncodeChar hmem with hsame | hlarge
  · exact h hsame.symm
  · omega

theorem notMem_toUTF8 {text : String} {b : UInt8} (hb : b.toNat < 128)
    (h : ∀ c ∈ text.toList, c.toNat ≠ b.toNat) : b ∉ text.toUTF8.toList := by
  intro hmem
  rw [toList_toUTF8, List.mem_flatMap] at hmem
  obtain ⟨c, hc, hbyte⟩ := hmem
  exact notMem_utf8EncodeChar hb (h c hc) hbyte

/-- The last byte is one of the last character. -/
theorem getLast_toUTF8_mem {text : String} {cs : List Char} {c : Char} (h : text.toList = cs ++ [c])
    (hne : text.toUTF8.toList ≠ []) : text.toUTF8.toList.getLast hne ∈ String.utf8EncodeChar c := by
  have hbytes : text.toUTF8.toList =
      cs.flatMap String.utf8EncodeChar ++ String.utf8EncodeChar c := by
    rw [toList_toUTF8, h, List.flatMap_append, List.flatMap_singleton]
  have hchar : String.utf8EncodeChar c ≠ [] := by
    intro hnil
    have hlength := congrArg List.length hnil
    rw [String.length_utf8EncodeChar, List.length_nil] at hlength
    exact absurd hlength (Nat.pos_iff_ne_zero.mp c.utf8Size_pos)
  have hlast : text.toUTF8.toList.getLast hne = (String.utf8EncodeChar c).getLast hchar := by
    simp only [hbytes, List.getLast_append_of_ne_nil _ hchar]
  rw [hlast]
  exact List.getLast_mem hchar

/-! ## Decoding -/

/-- `bytes.decode("utf-8")`. -/
def decodeUtf8 (bytes : List UInt8) : Option String := String.fromUTF8? bytes.toByteArray

theorem decodeUtf8_toUTF8 (text : String) : decodeUtf8 text.toUTF8.toList = some text := by
  have hbytes : text.toUTF8.toList.toByteArray = text.toByteArray := by
    rw [toList_toUTF8, ← List.utf8Encode, String.utf8Encode_toList]
  rw [decodeUtf8, hbytes, String.fromUTF8?, dif_pos text.isValidUTF8]
  rfl

end VoxBench.Lib
