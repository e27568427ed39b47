import Mathlib.Data.List.Basic
import Mathlib.Order.Fin.Basic
import Mathlib.Tactic.IntervalCases

/-!
# UUIDs and their text form

A UUID is a 128-bit number. `Uuid.str` is the canonical 8-4-4-4-12 lower-case
rendering of Python's `str(uuid)`; `Uuid.parse` is the documented reading of
`UUID(text)`, which drops a URN prefix, enclosing braces and all hyphens and then
asks for exactly 32 hexadecimal digits. `parse_str` is the round trip.
-/

namespace VoxBench.Lib

/-- A 128-bit identifier, ordered as a number. -/
def Uuid : Type := Fin (2 ^ 128)
  deriving DecidableEq, Repr

namespace Uuid

instance : LinearOrder Uuid := inferInstanceAs (LinearOrder (Fin (2 ^ 128)))

/-- The identifier whose number is `n`, reduced to 128 bits. -/
def ofNat (n : ℕ) : Uuid := Fin.ofNat (2 ^ 128) n

def toNat (u : Uuid) : ℕ := Fin.val u

theorem toNat_lt (u : Uuid) : u.toNat < 16 ^ 32 := lt_of_lt_of_le (Fin.isLt u) (by norm_num)

/-! ## Hexadecimal digits -/

/-- The lower-case hexadecimal digit of a number below sixteen. -/
def hexChar (d : ℕ) : Char :=
  if d < 10 then Char.ofNat ('0'.toNat + d) else Char.ofNat ('a'.toNat + (d - 10))

/-- The value of a hexadecimal digit of either case. -/
def hexValue (c : Char) : Option ℕ :=
  if '0' ≤ c ∧ c ≤ '9' then some (c.toNat - '0'.toNat)
  else if 'a' ≤ c ∧ c ≤ 'f' then some (c.toNat - 'a'.toNat + 10)
  else if 'A' ≤ c ∧ c ≤ 'F' then some (c.toNat - 'A'.toNat + 10)
  else none

theorem hexValue_hexChar {d : ℕ} (hd : d < 16) : hexValue (hexChar d) = some d := by
  interval_cases d <;> decide

/-- A digit is none of the characters that `parse` gives a meaning of its own. -/
theorem hexChar_notMem {d : ℕ} (hd : d < 16) : hexChar d ∉ ['u', '{', '}', '-'] := by
  interval_cases d <;> decide

/-- The `k` lowest hexadecimal digits of `n`, most significant first. -/
def digits : ℕ → ℕ → List ℕ
  | 0, _ => []
  | k + 1, n => digits k (n / 16) ++ [n % 16]

/-- The number a list of hexadecimal digits denotes. -/
def value (ds : List ℕ) : ℕ := ds.foldl (fun a d => 16 * a + d) 0

@[simp] theorem length_digits (k n : ℕ) : (digits k n).length = k := by
  induction k generalizing n with
  | zero => rfl
  | succ k ih => simp [digits, ih]

theorem digits_lt {k n d : ℕ} (h : d ∈ digits k n) : d < 16 := by
  induction k generalizing n with
  | zero => simp [digits] at h
  | succ k ih =>
      rcases List.mem_append.mp h with h | h
      · exact ih h
      · rw [List.mem_singleton.mp h]; exact Nat.mod_lt _ (by norm_num)

theorem value_digits {k n : ℕ} (h : n < 16 ^ k) : value (digits k n) = n := by
  induction k generalizing n with
  | zero => simp at h; simp [digits, value, h]
  | succ k ih =>
      have hdiv : n / 16 < 16 ^ k := by rw [pow_succ] at h; omega
      have hvalue := ih hdiv
      simp only [value, digits, List.foldl_append, List.foldl_cons, List.foldl_nil] at hvalue ⊢
      rw [hvalue]; omega

/-! ## Text -/

/-- The characters of the canonical form, hyphens included. -/
def chars (u : Uuid) : List Char :=
  let hex := (digits 32 u.toNat).map hexChar
  hex.take 8 ++ '-' :: (hex.drop 8).take 4 ++ '-' :: (hex.drop 12).take 4 ++
    '-' :: (hex.drop 16).take 4 ++ '-' :: hex.drop 20

/-- Python's `str(uuid)`. -/
def str (u : Uuid) : String := String.ofList u.chars

/-- `text.replace(pat, "")`: drop the occurrences of `pat`, left to right. The
counter is the number of characters of an occurrence still to be dropped. -/
def dropOccurrences (pat : List Char) : ℕ → List Char → List Char
  | _, [] => []
  | k + 1, _ :: cs => dropOccurrences pat k cs
  | 0, c :: cs =>
      if pat.isPrefixOf (c :: cs) then dropOccurrences pat (pat.length - 1) cs
      else c :: dropOccurrences pat 0 cs

/-- `text.strip("{}")`. -/
def stripBraces (cs : List Char) : List Char :=
  let isBrace : Char → Bool := fun c => c = '{' || c = '}'
  ((cs.dropWhile isBrace).reverse.dropWhile isBrace).reverse

/-- The documented reading of `UUID(text)`; `none` stands for `ValueError`. -/
def parse (text : String) : Option Uuid :=
  let bare := dropOccurrences "uuid:".toList 0 (dropOccurrences "urn:".toList 0 text.toList)
  let hex := (stripBraces bare).filter (· ≠ '-')
  if hex.length = 32 then (hex.mapM hexValue).map fun ds => ofNat (value ds) else none

theorem dropOccurrences_of_notMem {p : Char} {pat cs : List Char} (h : p ∉ cs) :
    dropOccurrences (p :: pat) 0 cs = cs := by
  induction cs with
  | nil => rfl
  | cons c cs ih =>
      have hpc : p ≠ c := fun e => h (by simp [e])
      have hcs : p ∉ cs := fun hm => h (List.mem_cons_of_mem _ hm)
      simp [dropOccurrences, List.isPrefixOf, hpc, ih hcs]

theorem stripBraces_of_notMem {cs : List Char} (hl : '{' ∉ cs) (hr : '}' ∉ cs) :
    stripBraces cs = cs := by
  have key : ∀ ds : List Char, '{' ∉ ds → '}' ∉ ds →
      ds.dropWhile (fun c => c = '{' || c = '}') = ds := by
    intro ds h₁ h₂
    cases ds with
    | nil => rfl
    | cons d ds =>
        have hd : d ≠ '{' ∧ d ≠ '}' :=
          ⟨fun e => h₁ (by simp [e]), fun e => h₂ (by simp [e])⟩
        simp [hd.1, hd.2]
  simp only [stripBraces, key cs hl hr]
  rw [key cs.reverse (by simpa using hl) (by simpa using hr), List.reverse_reverse]

/-- A character of the canonical form is a hyphen or a digit. -/
theorem mem_chars {u : Uuid} {c : Char} (h : c ∈ u.chars) :
    c = '-' ∨ ∃ d < 16, c = hexChar d := by
  have key : ∀ c ∈ (digits 32 u.toNat).map hexChar, ∃ d < 16, c = hexChar d := by
    intro c hc
    obtain ⟨d, hd, rfl⟩ := List.mem_map.mp hc
    exact ⟨d, digits_lt hd, rfl⟩
  simp only [chars, List.append_assoc, List.cons_append, List.mem_append, List.mem_cons] at h
  have htake : ∀ {n m : ℕ}, c ∈ (((digits 32 u.toNat).map hexChar).drop n).take m →
      ∃ d < 16, c = hexChar d := fun hc => key c (List.mem_of_mem_drop (List.mem_of_mem_take hc))
  rcases h with h | h | h | h | h | h | h | h | h
  · exact .inr (key c (List.mem_of_mem_take h))
  · exact .inl h
  · exact .inr (htake h)
  · exact .inl h
  · exact .inr (htake h)
  · exact .inl h
  · exact .inr (htake h)
  · exact .inl h
  · exact .inr (key c (List.mem_of_mem_drop h))

theorem notMem_chars (u : Uuid) {c : Char} (hc : c ∈ ['u', '{', '}']) : c ∉ u.chars := by
  intro h
  rcases mem_chars h with rfl | ⟨d, hd, rfl⟩
  · simp at hc
  · have hmem : hexChar d ∈ ['u', '{', '}'] ++ ['-'] := List.mem_append_left _ hc
    exact hexChar_notMem hd hmem

/-- Dropping the hyphens of the canonical form leaves the 32 digits. -/
theorem filter_chars (u : Uuid) :
    u.chars.filter (· ≠ '-') = (digits 32 u.toNat).map hexChar := by
  have hne : ∀ c ∈ (digits 32 u.toNat).map hexChar, c ≠ '-' := by
    intro c hc
    obtain ⟨d, hd, rfl⟩ := List.mem_map.mp hc
    intro hdash
    exact hexChar_notMem (digits_lt hd) (by rw [hdash]; simp)
  unfold chars
  generalize (digits 32 u.toNat).map hexChar = hex at hne ⊢
  have hkeep : ∀ cs : List Char, (∀ c ∈ cs, c ∈ hex) → cs.filter (· ≠ '-') = cs :=
    fun cs hcs => List.filter_eq_self.mpr fun c hc => by simpa using hne c (hcs c hc)
  have htake : ∀ n m, ((hex.drop n).take m).filter (· ≠ '-') = (hex.drop n).take m :=
    fun n m => hkeep _ fun c hc => List.mem_of_mem_drop (List.mem_of_mem_take hc)
  have hfirst := hkeep (hex.take 8) fun c hc => List.mem_of_mem_take hc
  have hlast := hkeep (hex.drop 20) fun c hc => List.mem_of_mem_drop hc
  have hdash : ∀ cs : List Char, ('-' :: cs).filter (· ≠ '-') = cs.filter (· ≠ '-') := by simp
  have hstep : ∀ n, (hex.drop n).take 4 ++ hex.drop (n + 4) = hex.drop n := by
    intro n
    rw [← List.drop_drop, List.take_append_drop]
  simp only [List.append_assoc, List.cons_append, List.filter_append, hdash, htake, hfirst, hlast]
  rw [hstep 16, hstep 12, hstep 8, List.take_append_drop]

theorem mapM_hexValue {ds : List ℕ} (h : ∀ d ∈ ds, d < 16) :
    (ds.map hexChar).mapM hexValue = some ds := by
  induction ds with
  | nil => rfl
  | cons d ds ih =>
      have hd := hexValue_hexChar (h d (by simp))
      have htail := ih fun e he => h e (List.mem_cons_of_mem _ he)
      simp [List.mapM_cons, hd, htail]

/-- Reading back the canonical form gives the identifier. -/
@[simp] theorem parse_str (u : Uuid) : parse u.str = some u := by
  have hu : 'u' ∉ u.chars := notMem_chars u (by simp)
  have hl : '{' ∉ u.chars := notMem_chars u (by simp)
  have hr : '}' ∉ u.chars := notMem_chars u (by simp)
  have hurn : "urn:".toList = 'u' :: ['r', 'n', ':'] := by decide
  have huuid : "uuid:".toList = 'u' :: ['u', 'i', 'd', ':'] := by decide
  simp only [parse, str, String.toList_ofList, hurn, huuid, dropOccurrences_of_notMem hu,
    stripBraces_of_notMem hl hr, filter_chars, List.length_map, length_digits, if_true,
    mapM_hexValue fun d hd => digits_lt hd, Option.map_some, value_digits u.toNat_lt]
  congr 1
  apply Fin.ext
  exact Nat.mod_eq_of_lt u.isLt

theorem str_injective : Function.Injective str := by
  intro u v h
  have : parse u.str = parse v.str := by rw [h]
  simpa using this

end Uuid
end VoxBench.Lib
