import Mathlib.Data.List.Infix
import Mathlib.Data.List.TakeWhile
import Mathlib.Tactic.IntervalCases

/-!
# Text

The parts of Python's `str` that checks of names use: `strip`, `lower`, `in` and the
decimal form of a number. Characters are Unicode code points. `lower` is exact for the
ASCII characters of its result; other characters stay as they are, because none of them
is compared with anything but itself.
-/

namespace VoxBench.Lib.Text

/-- `str.isspace` on one character. -/
def isSpace (c : Char) : Bool :=
  let n := c.toNat
  (9 ≤ n && n ≤ 13) || (28 ≤ n && n ≤ 32) || n = 0x85 || n = 0xA0 || n = 0x1680 ||
    (0x2000 ≤ n && n ≤ 0x200A) || n = 0x2028 || n = 0x2029 || n = 0x202F || n = 0x205F || n = 0x3000

def stripChars (cs : List Char) : List Char :=
  ((cs.dropWhile isSpace).reverse.dropWhile isSpace).reverse

/-- `str.strip`. -/
def strip (s : String) : String := String.ofList (stripChars s.toList)

/-- The lower case of one character. Besides the Latin capitals, only the Kelvin sign and
the dotted capital I have ASCII characters in theirs. -/
def lowerChar (c : Char) : List Char :=
  if 'A' ≤ c ∧ c ≤ 'Z' then [Char.ofNat (c.toNat + 32)]
  else if c.toNat = 0x212A then ['k']
  else if c.toNat = 0x130 then ['i', Char.ofNat 0x307]
  else [c]

/-- `str.lower`, as a list of characters. -/
def lower (cs : List Char) : List Char := cs.flatMap lowerChar

/-- `marker in text`. -/
def Contains (text : List Char) (marker : String) : Prop := marker.toList <:+: text

instance (text : List Char) (marker : String) : Decidable (Contains text marker) :=
  inferInstanceAs (Decidable (marker.toList <:+: text))

/-- A condition on the characters of a text is checked character by character, and not on
all characters that there are. -/
instance decidableForallMem (p : Char → Prop) [DecidablePred p] (cs : List Char) : Decidable (∀ c ∈ cs, p c) :=
  List.decidableBAll p cs

/-! ## Occurrences in a concatenation -/

section Infix

variable {α : Type} {m x y : List α}

/-- An occurrence lies in one of the parts or across their border. -/
theorem infix_append_cases (h : m <:+: x ++ y) :
    m <:+: x ∨ m <:+: y ∨
      ∃ m₁ m₂, m = m₁ ++ m₂ ∧ m₁ ≠ [] ∧ m₂ ≠ [] ∧ m₁ <:+ x ∧ m₂ <+: y := by
  obtain ⟨s, t, hst⟩ := h
  rw [List.append_assoc] at hst
  rcases List.append_eq_append_iff.mp hst with ⟨a, hx, hrest⟩ | ⟨c, hs, hy⟩
  · -- the occurrence starts in `x`
    rcases List.append_eq_append_iff.mp hrest with ⟨b, ha, -⟩ | ⟨b, hm, hy⟩
    · exact .inl ⟨s, b, by rw [hx, ha, List.append_assoc]⟩
    · by_cases hnil : a = []
      · refine .inr (.inl ⟨[], t, ?_⟩)
        rw [hnil, List.nil_append] at hm
        rw [hm, hy, List.nil_append]
      · by_cases hb : b = []
        · rw [hb, List.append_nil] at hm
          exact .inl ⟨s, [], by rw [hx, hm, List.append_nil]⟩
        · exact .inr (.inr ⟨a, b, hm, hnil, hb, ⟨s, hx.symm⟩, ⟨t, hy.symm⟩⟩)
  · exact .inr (.inl ⟨c, t, by rw [hy, List.append_assoc]⟩)

/-- Characters that a marker does not have do not help it to occur. -/
theorem infix_of_infix_append_left (hm : m ≠ []) (hx : ∀ c ∈ x, c ∉ m) (h : m <:+: x ++ y) :
    m <:+: y := by
  rcases infix_append_cases h with hin | hin | ⟨m₁, m₂, rfl, hne, -, hsuffix, -⟩
  · obtain ⟨c, rest, rfl⟩ := List.exists_cons_of_ne_nil hm
    exact absurd List.mem_cons_self (hx c (hin.subset List.mem_cons_self))
  · exact hin
  · obtain ⟨c, rest, rfl⟩ := List.exists_cons_of_ne_nil hne
    exact absurd (by simp) (hx c (hsuffix.subset List.mem_cons_self))

theorem infix_of_infix_append_right (hm : m ≠ []) (hy : ∀ c ∈ y, c ∉ m) (h : m <:+: x ++ y) :
    m <:+: x := by
  rcases infix_append_cases h with hin | hin | ⟨m₁, m₂, rfl, -, hne, -, hpre⟩
  · exact hin
  · obtain ⟨c, rest, rfl⟩ := List.exists_cons_of_ne_nil hm
    exact absurd List.mem_cons_self (hy c (hin.subset List.mem_cons_self))
  · obtain ⟨c, rest, rfl⟩ := List.exists_cons_of_ne_nil hne
    exact absurd (by simp) (hy c (hpre.subset List.mem_cons_self))

end Infix

/-! ## Stripping -/

/-- The text between two runs of spaces. -/
theorem exists_stripChars (cs : List Char) : ∃ before after,
    cs = before ++ stripChars cs ++ after ∧ (∀ c ∈ before, isSpace c = true) ∧
      ∀ c ∈ after, isSpace c = true := by
  refine ⟨cs.takeWhile isSpace, ((cs.dropWhile isSpace).reverse.takeWhile isSpace).reverse, ?_,
    fun c hc => List.mem_takeWhile_imp hc, fun c hc => ?_⟩
  · rw [stripChars, List.append_assoc, ← List.reverse_append, List.takeWhile_append_dropWhile,
      List.reverse_reverse, List.takeWhile_append_dropWhile]
  · exact List.mem_takeWhile_imp (List.mem_reverse.mp hc)

/-- Text that neither starts nor ends with a space is not changed. -/
theorem strip_eq_self {s : String} (hhead : ∀ c ∈ s.toList.head?, isSpace c = false)
    (hlast : ∀ c ∈ s.toList.getLast?, isSpace c = false) : strip s = s := by
  have hdrop : ∀ cs : List Char, (∀ c ∈ cs.head?, isSpace c = false) → cs.dropWhile isSpace = cs := by
    intro cs hcs
    cases cs with
    | nil => rfl
    | cons c cs => exact List.dropWhile_cons_of_neg (by simp [hcs c rfl])
  rw [strip, stripChars, hdrop _ hhead, hdrop _ (by rwa [List.head?_reverse]), List.reverse_reverse,
    String.ofList_toList]

theorem head?_dropWhile (cs : List Char) :
    ∀ c ∈ (cs.dropWhile isSpace).head?, isSpace c = false := by
  intro c hc
  have h := List.head?_dropWhile_not isSpace cs
  rw [Option.mem_def.mp hc] at h
  simpa using h

/-- A stripped text ends with no space. -/
theorem getLast?_stripChars (cs : List Char) :
    ∀ c ∈ (stripChars cs).getLast?, isSpace c = false := by
  rw [stripChars, List.getLast?_reverse]
  exact head?_dropWhile _

/-- A space in front is stripped. -/
theorem stripChars_cons {c : Char} (h : isSpace c = true) (cs : List Char) :
    stripChars (c :: cs) = stripChars cs := by
  rw [stripChars, stripChars, List.dropWhile_cons_of_pos h]

/-- Stripping twice is stripping once. -/
theorem strip_strip (s : String) : strip (strip s) = strip s := by
  apply strip_eq_self
  · rw [strip, String.toList_ofList, stripChars, List.head?_reverse]
    intro c hc
    -- the last character kept by the second pass is the first one that the first pass kept
    have hsuffix : (s.toList.dropWhile isSpace).reverse.dropWhile isSpace <:+
        (s.toList.dropWhile isSpace).reverse := List.dropWhile_suffix _
    obtain ⟨rest, hrest⟩ := hsuffix
    apply head?_dropWhile s.toList
    rw [Option.mem_def] at hc ⊢
    rw [← List.getLast?_reverse, ← hrest, List.getLast?_append, hc]
    rfl
  · rw [strip, String.toList_ofList]
    exact getLast?_stripChars _

/-! ## Decimal numbers -/

/-- A decimal digit is none of the characters with a meaning of their own. -/
theorem digit_spec {c : Char} (h : c.isDigit = true) :
    isSpace c = false ∧ lowerChar c = [c] ∧ c ∉ ['/', '@', '<', ':', 'h', 's'] := by
  have hrange : 48 ≤ c.toNat ∧ c.toNat ≤ 57 := by
    simp only [Char.isDigit, Bool.and_eq_true, decide_eq_true_eq] at h
    exact h
  obtain ⟨hlo, hhi⟩ := hrange
  have hc : c = Char.ofNat c.toNat := (Char.ofNat_toNat c).symm
  generalize c.toNat = n at hlo hhi hc
  subst hc
  interval_cases n <;> decide

theorem isDigit_of_mem_toDigits {n : ℕ} {c : Char} (h : c ∈ Nat.toDigits 10 n) :
    c.isDigit = true :=
  Nat.isDigit_of_mem_toDigits (by decide) (by decide) h

theorem isDigit_of_mem_repr {n : ℕ} {c : Char} (h : c ∈ n.repr.toList) : c.isDigit = true := by
  rw [Nat.toList_repr] at h
  exact isDigit_of_mem_toDigits h

theorem repr_toList_ne_nil (n : ℕ) : n.repr.toList ≠ [] := by
  rw [Nat.toList_repr]
  exact Nat.toDigits_ne_nil

theorem repr_inj {m n : ℕ} (h : m.repr.toList = n.repr.toList) : m = n := by
  rw [Nat.toList_repr, Nat.toList_repr] at h
  have hvalue := congrArg (fun ds => Nat.ofDigitChars 10 ds 0) h
  simp only [Nat.ofDigitChars_toDigits (b := 10) (by decide) (by decide)] at hvalue
  exact hvalue

/-! ## Signed numbers -/

theorem toList_int (n : ℤ) :
    (toString n).toList =
      if 0 ≤ n then Nat.toDigits 10 n.toNat else '-' :: Nat.toDigits 10 (-n).toNat := by
  rw [Int.toString_eq_repr, Int.repr_eq_if]
  split_ifs
  · exact Nat.toList_repr
  · rw [String.toList_append, Nat.toList_repr]
    rfl

/-- The characters of an integer are its digits and its sign. -/
theorem mem_toList_int {n : ℤ} {c : Char} (h : c ∈ (toString n).toList) :
    c = '-' ∨ c.isDigit = true := by
  rw [toList_int] at h
  split_ifs at h
  · exact Or.inr (isDigit_of_mem_toDigits h)
  · rcases List.mem_cons.mp h with rfl | h
    · exact Or.inl rfl
    · exact Or.inr (isDigit_of_mem_toDigits h)

theorem notMem_toList_int {n : ℤ} {c : Char} (hsign : c ≠ '-') (hdigit : c.isDigit = false) :
    c ∉ (toString n).toList := by
  intro h
  rcases mem_toList_int h with hc | hc
  · exact hsign hc
  · rw [hdigit] at hc
    cases hc

theorem toString_int_injective : Function.Injective fun n : ℤ => toString n := by
  have hread : ∀ m k : ℕ, Nat.toDigits 10 m = Nat.toDigits 10 k → m = k := by
    intro m k hmk
    exact repr_inj (by rw [Nat.toList_repr, Nat.toList_repr, hmk])
  have hsign : ∀ m k : ℕ, Nat.toDigits 10 m ≠ '-' :: Nat.toDigits 10 k := by
    intro m k hmk
    have hmem : '-' ∈ Nat.toDigits 10 m := hmk ▸ List.mem_cons_self
    exact absurd (isDigit_of_mem_toDigits hmem) (by decide)
  intro n m h
  have hchars : (toString n).toList = (toString m).toList := congrArg String.toList h
  rw [toList_int, toList_int] at hchars
  split_ifs at hchars with hn hm hm
  · have hsame := hread _ _ hchars
    omega
  · exact absurd hchars (hsign _ _)
  · exact absurd hchars.symm (hsign _ _)
  · have hsame := hread _ _ (List.cons.inj hchars).2
    omega

end VoxBench.Lib.Text
