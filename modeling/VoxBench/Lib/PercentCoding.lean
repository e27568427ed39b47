import VoxBench.Lib.Utf8
import Mathlib.Data.List.SplitBy

/-!
# Percent coding

A text is written in ASCII by taking the UTF-8 bytes of some characters as two hexadecimal digits
after a percent sign. `unquote` reads such a text back: the ASCII parts of a text are turned into
bytes, which are decoded.

## Main definitions

* `percentEncode`, `percentDecode` — bytes as percent codes, and an ASCII text as bytes.
* `Utf8Decoder` — the decoding of bytes, for malformed ones too.
* `unquote` — the text that is meant.

## Main results

* `unquote_coded` — characters that are kept or coded are read back.
-/

namespace VoxBench.Lib

/-- An upper-case hexadecimal digit. -/
def hexDigit (n : ℕ) : Char := if n < 10 then Char.ofNat (48 + n) else Char.ofNat (55 + n)

/-- The value of a hexadecimal digit, in upper or lower case. -/
def hexDigitValue (c : Char) : Option ℕ :=
  if 48 ≤ c.toNat ∧ c.toNat ≤ 57 then some (c.toNat - 48)
  else if 65 ≤ c.toNat ∧ c.toNat ≤ 70 then some (c.toNat - 55)
  else if 97 ≤ c.toNat ∧ c.toNat ≤ 102 then some (c.toNat - 87)
  else none

theorem hexDigitValue_hexDigit {n : ℕ} (h : n < 16) : hexDigitValue (hexDigit n) = some n := by
  revert n
  decide

/-- The percent code of some bytes. -/
def percentEncode (bytes : List UInt8) : List Char :=
  bytes.flatMap fun b => ['%', hexDigit (b.toNat / 16), hexDigit (b.toNat % 16)]

/-- The byte of an ASCII character. -/
def asciiByte (c : Char) : UInt8 := UInt8.ofNat c.toNat

/-- The bytes of an ASCII text with percent codes. A percent sign without two digits stands for
itself. -/
def percentDecode : List Char → List UInt8
  | [] => []
  | '%' :: high :: low :: rest =>
      match hexDigitValue high, hexDigitValue low with
      | some h, some l => UInt8.ofNat (16 * h + l) :: percentDecode rest
      | _, _ => asciiByte '%' :: percentDecode (high :: low :: rest)
  | c :: rest => asciiByte c :: percentDecode rest

theorem percentDecode_cons {c : Char} (hc : c ≠ '%') (rest : List Char) :
    percentDecode (c :: rest) = asciiByte c :: percentDecode rest := by
  rw [percentDecode]
  exact fun _ _ _ heq => absurd heq hc

theorem percentDecode_encode (bytes : List UInt8) (rest : List Char) :
    percentDecode (percentEncode bytes ++ rest) = bytes ++ percentDecode rest := by
  induction bytes with
  | nil => rfl
  | cons b bytes ih =>
      have hhigh : b.toNat / 16 < 16 := by
        have := b.toNat_lt
        omega
      have hlow : b.toNat % 16 < 16 := Nat.mod_lt _ (by decide)
      have hbyte : UInt8.ofNat (16 * (b.toNat / 16) + b.toNat % 16) = b := by
        rw [Nat.div_add_mod]
        exact UInt8.ofNat_toNat
      have hcons : percentEncode (b :: bytes) ++ rest =
          '%' :: hexDigit (b.toNat / 16) :: hexDigit (b.toNat % 16) ::
            (percentEncode bytes ++ rest) := rfl
      rw [hcons, percentDecode]
      simp only [hexDigitValue_hexDigit hhigh, hexDigitValue_hexDigit hlow, hbyte, ih,
        List.cons_append]

/-- `bytes.decode("utf-8", errors="replace")`. What stands for malformed bytes is left open. -/
structure Utf8Decoder where
  decode : List UInt8 → List Char
  decode_wellFormed : ∀ bytes text, decodeUtf8 bytes = some text → decode bytes = text.toList

/-- The parts of a text that are ASCII, and those that are not. -/
def asciiRuns (text : List Char) : List (List Char) :=
  text.splitBy fun a b => decide (a.toNat < 128) = decide (b.toNat < 128)

/-- `urllib.parse.unquote`. -/
def unquote (decoder : Utf8Decoder) (text : List Char) : List Char :=
  (asciiRuns text).flatMap fun run =>
    if run.head?.all fun c => c.toNat < 128 then decoder.decode (percentDecode run) else run

/-- Each character of a text is kept or coded. -/
def coded (keep : Char → Bool) (text : List Char) : List Char :=
  text.flatMap fun c => if keep c then [c] else percentEncode (String.utf8EncodeChar c)

/-- A coded text has no characters but kept ones, digits and percent signs. -/
theorem mem_coded {keep : Char → Bool} {text : List Char} {c : Char} (h : c ∈ coded keep text) :
    keep c = true ∨ c = '%' ∨ ∃ n < 16, c = hexDigit n := by
  simp only [coded, List.mem_flatMap] at h
  obtain ⟨d, -, hd⟩ := h
  split_ifs at hd with hkept
  · obtain rfl := List.mem_singleton.mp hd
    exact Or.inl hkept
  · simp only [percentEncode, List.mem_flatMap, List.mem_cons, List.not_mem_nil, or_false] at hd
    obtain ⟨b, -, rfl | rfl | rfl⟩ := hd
    · exact Or.inr (Or.inl rfl)
    · have := b.toNat_lt
      exact Or.inr (Or.inr ⟨_, by omega, rfl⟩)
    · exact Or.inr (Or.inr ⟨_, Nat.mod_lt _ (by decide), rfl⟩)

theorem hexDigit_spec {n : ℕ} (h : n < 16) :
    (hexDigit n).toNat < 128 ∧ (hexDigit n).isAlphanum = true := by
  revert n
  decide

section Coded

variable {keep : Char → Bool} (hkeep : ∀ c, keep c = true → c.toNat < 128 ∧ c ≠ '%')
include hkeep

theorem percentDecode_coded (text : List Char) :
    percentDecode (coded keep text) = text.flatMap String.utf8EncodeChar := by
  induction text with
  | nil => rw [coded, List.flatMap_nil, List.flatMap_nil, percentDecode]
  | cons c text ih =>
      have hcons : coded keep (c :: text) =
          (if keep c then [c] else percentEncode (String.utf8EncodeChar c)) ++ coded keep text := rfl
      rw [hcons, List.flatMap_cons]
      split_ifs with hc
      · obtain ⟨hascii, hpercent⟩ := hkeep c hc
        have hbyte : String.utf8EncodeChar c = [asciiByte c] := by
          have hsmall : c.val.toNat ≤ 127 := Nat.lt_succ_iff.mp hascii
          simp only [String.utf8EncodeChar, if_pos hsmall]
          rfl
        rw [List.singleton_append, percentDecode_cons hpercent, ih, hbyte, List.singleton_append]
      · rw [percentDecode_encode, ih]

theorem ascii_coded {text : List Char} : ∀ c ∈ coded keep text, c.toNat < 128 := by
  intro c hc
  rcases mem_coded hc with hkept | rfl | ⟨n, hn, rfl⟩
  · exact (hkeep c hkept).1
  · decide
  · exact (hexDigit_spec hn).1

/-- What is coded is read back. -/
theorem unquote_coded (decoder : Utf8Decoder) (text : String) :
    unquote decoder (coded keep text.toList) = text.toList := by
  have hbytes : decodeUtf8 (percentDecode (coded keep text.toList)) = some text := by
    rw [percentDecode_coded hkeep, ← toList_toUTF8, decodeUtf8_toUTF8]
  have hdecode := decoder.decode_wellFormed _ _ hbytes
  have hascii := @ascii_coded keep hkeep text.toList
  generalize coded keep text.toList = code at hdecode hascii
  cases code with
  | nil =>
      have hnone : decoder.decode [] = [] := decoder.decode_wellFormed [] "" rfl
      rw [percentDecode, hnone] at hdecode
      rw [← hdecode]
      rfl
  | cons c code =>
      have hchain : (c :: code).IsChain
          (fun a b => (decide (decide (a.toNat < 128) = decide (b.toNat < 128))) = true) := by
        apply List.Pairwise.isChain
        apply List.pairwise_of_forall_mem_list
        intro a ha b hb
        simp [hascii a ha, hascii b hb]
      have hrun : asciiRuns (c :: code) = [c :: code] := by
        rw [asciiRuns]
        exact List.splitBy_of_isChain (List.cons_ne_nil c code) hchain
      have hfirst : ((c :: code).head?.all fun c => decide (c.toNat < 128)) = true := by
        simpa using hascii c List.mem_cons_self
      rw [unquote, hrun, List.flatMap_singleton, if_pos hfirst, hdecode]

end Coded

end VoxBench.Lib
