import Mathlib.Algebra.Order.Field.Power
import VoxBench.Lib.Rounding

/-!
# Double precision

Rounding of exact numbers to floats of 53 bits, half to even, and the functions of Python's
`math` and `statistics` that are exact up to such roundings. Infinities and NaNs are left
out: a result that is too large for a float is `none`.

## Main definitions

* `roundDouble` — the float nearest to a number.
* `fsum`, `fmean`, `pstdev` — the sum, the mean and the population standard deviation.
* `compensatedSum` — the built-in `sum`.

## Main results

* `isSome_roundDouble` — numbers up to `2 ^ 1023` have a nearest float.
* `nearest_mono`, `abs_nearest_sub_le_of_le` — rounding keeps the order and most of the number.
-/

namespace VoxBench.Lib

/-! ## The nearest float -/

/-- `⌊log₂ |q|⌋` for `q ≠ 0`. -/
def binaryExponent (q : ℚ) : ℤ :=
  let e : ℤ := (q.num.natAbs.log2 : ℤ) - q.den.log2
  if (2 : ℚ) ^ e ≤ |q| then e else e - 1

/-- The weight of the last bit of a float near `q`, as a power of two. -/
def ulpExponent (q : ℚ) : ℤ := max (binaryExponent q - 52) (-1074)

/-- The float nearest to `q`, and `none` where that is too large. -/
def roundDouble (q : ℚ) : Option ℚ :=
  let r : ℚ := roundHalfEven (q / 2 ^ ulpExponent q) * 2 ^ ulpExponent q
  if |r| < 2 ^ 1024 then some r else none

variable {q r : ℚ}

theorem zpow_binaryExponent_le (hq : q ≠ 0) : (2 : ℚ) ^ binaryExponent q ≤ |q| := by
  unfold binaryExponent
  dsimp only
  split_ifs with hle
  · exact hle
  · have hnum : (2 : ℚ) ^ q.num.natAbs.log2 ≤ q.num.natAbs := by
      have hne : q.num.natAbs ≠ 0 := by simpa using hq
      exact_mod_cast Nat.log2_self_le hne
    have hden : (q.den : ℚ) ≤ 2 ^ (q.den.log2 + 1) := by
      exact_mod_cast Nat.lt_log2_self.le
    have hpos : (0 : ℚ) < q.den := by exact_mod_cast q.den_pos
    have habs : |q| = q.num.natAbs / q.den := by
      rw [Nat.cast_natAbs, Int.cast_abs]
      conv_lhs => rw [← Rat.num_div_den q]
      rw [abs_div, Nat.abs_cast]
    have hsplit : ((q.num.natAbs.log2 : ℤ) - q.den.log2 - 1) =
        (q.num.natAbs.log2 : ℤ) - ((q.den.log2 + 1 : ℕ) : ℤ) := by
      push_cast
      ring
    rw [hsplit, zpow_sub₀ two_ne_zero, zpow_natCast, zpow_natCast, habs]
    gcongr

/-- Rounding does not cross a bound that is a whole number of last bits. -/
theorem abs_roundHalfEven_mul_le {e : ℤ} {k : ℕ} (h : |q| ≤ 2 ^ k * 2 ^ e) :
    |(roundHalfEven (q / 2 ^ e) : ℚ) * 2 ^ e| ≤ 2 ^ k * 2 ^ e := by
  have hpos : (0 : ℚ) < 2 ^ e := by positivity
  rw [abs_le, ← neg_mul] at h
  have hhi : roundHalfEven (q / 2 ^ e) ≤ 2 ^ k := by
    refine roundHalfEven_le ?_
    rw [div_le_iff₀ hpos]
    exact_mod_cast h.2
  have hlo : -2 ^ k ≤ roundHalfEven (q / 2 ^ e) := by
    refine le_roundHalfEven ?_
    rw [le_div_iff₀ hpos]
    exact_mod_cast h.1
  have habs : |(roundHalfEven (q / 2 ^ e) : ℚ)| ≤ 2 ^ k :=
    abs_le.mpr ⟨by exact_mod_cast hlo, by exact_mod_cast hhi⟩
  rw [abs_mul, abs_of_pos hpos]
  exact mul_le_mul_of_nonneg_right habs hpos.le

theorem ulpExponent_le (h : |q| ≤ 2 ^ 1023) : ulpExponent q ≤ 1023 := by
  by_cases hq : q = 0
  · subst hq
    decide
  · have hle : (2 : ℚ) ^ binaryExponent q ≤ 2 ^ (1023 : ℤ) :=
      (zpow_binaryExponent_le hq).trans h
    have hbound := (zpow_le_zpow_iff_right₀ (by norm_num)).mp hle
    unfold ulpExponent
    omega

/-- A number up to `2 ^ 1023` has a nearest float. -/
theorem isSome_roundDouble (h : |q| ≤ 2 ^ 1023) : (roundDouble q).isSome := by
  obtain ⟨k, hk⟩ : ∃ k : ℕ, (1023 : ℤ) = k + ulpExponent q :=
    ⟨(1023 - ulpExponent q).toNat, by have := ulpExponent_le h; omega⟩
  have hscale : (2 : ℚ) ^ 1023 = 2 ^ k * 2 ^ ulpExponent q := by
    rw [← zpow_natCast, ← zpow_natCast, ← zpow_add₀ two_ne_zero, ← hk]
    rfl
  rw [hscale] at h
  have hround := abs_roundHalfEven_mul_le h
  rw [← hscale] at hround
  have hlt : (2 : ℚ) ^ 1023 < 2 ^ 1024 := pow_lt_pow_right₀ (by norm_num) (by norm_num)
  unfold roundDouble
  rw [if_pos (hround.trans_lt hlt)]
  rfl

theorem abs_lt_of_roundDouble (h : roundDouble q = some r) : |r| < 2 ^ 1024 := by
  unfold roundDouble at h
  dsimp only at h
  split_ifs at h with hlt
  cases h
  exact hlt

theorem binaryExponent_neg (q : ℚ) : binaryExponent (-q) = binaryExponent q := by
  unfold binaryExponent
  rw [abs_neg, Rat.num_neg_eq_neg_num, Rat.den_neg_eq_den, Int.natAbs_neg]

/-- The nearest float of the opposite number is the opposite float. -/
theorem roundDouble_neg (q : ℚ) : roundDouble (-q) = (roundDouble q).map Neg.neg := by
  unfold roundDouble ulpExponent
  rw [binaryExponent_neg, neg_div, roundHalfEven_neg]
  push_cast
  rw [neg_mul, abs_neg]
  split_ifs <;> rfl

theorem roundDouble_zero : roundDouble 0 = some 0 := by
  decide +kernel

/-! ## Order -/

theorem lt_zpow_binaryExponent (q : ℚ) : |q| < 2 ^ (binaryExponent q + 1) := by
  unfold binaryExponent
  dsimp only
  split_ifs with hle
  · have hnum : (q.num.natAbs : ℚ) < 2 ^ (q.num.natAbs.log2 + 1) := by
      exact_mod_cast Nat.lt_log2_self
    have hden : (2 : ℚ) ^ q.den.log2 ≤ q.den := by
      exact_mod_cast Nat.log2_self_le q.den_ne_zero
    have hpos : (0 : ℚ) < 2 ^ q.den.log2 := by positivity
    have habs : |q| = q.num.natAbs / q.den := by
      rw [Nat.cast_natAbs, Int.cast_abs]
      conv_lhs => rw [← Rat.num_div_den q]
      rw [abs_div, Nat.abs_cast]
    have hsplit : (q.num.natAbs.log2 : ℤ) - q.den.log2 + 1 =
        ((q.num.natAbs.log2 + 1 : ℕ) : ℤ) - q.den.log2 := by
      push_cast
      ring
    rw [hsplit, zpow_sub₀ two_ne_zero, zpow_natCast, zpow_natCast, habs]
    exact div_lt_div₀ hnum hden (by positivity) hpos
  · rw [sub_add_cancel]
    exact not_le.mp hle

/-- The multiple of the last bit nearest to `q`, however large. -/
def nearest (q : ℚ) : ℚ := roundHalfEven (q / 2 ^ ulpExponent q) * 2 ^ ulpExponent q

theorem roundDouble_eq (q : ℚ) :
    roundDouble q = if |nearest q| < 2 ^ 1024 then some (nearest q) else none := rfl

@[simp] theorem nearest_zero : nearest 0 = 0 := by
  simp only [nearest, zero_div]
  rw [← Int.cast_zero, roundHalfEven_intCast, Int.cast_zero, zero_mul]

theorem nearest_neg (q : ℚ) : nearest (-q) = -nearest q := by
  unfold nearest ulpExponent
  rw [binaryExponent_neg, neg_div, roundHalfEven_neg]
  push_cast
  rw [neg_mul]

theorem nearest_nonneg (h : 0 ≤ q) : 0 ≤ nearest q := by
  have hround : 0 ≤ roundHalfEven (q / 2 ^ ulpExponent q) :=
    le_roundHalfEven (by rw [Int.cast_zero]; positivity)
  have hcast : (0 : ℚ) ≤ roundHalfEven (q / 2 ^ ulpExponent q) := by exact_mod_cast hround
  exact mul_nonneg hcast (by positivity)

/-- Between two numbers of different last bits lies a power of two that neither crosses. -/
theorem nearest_le_of_nonneg {p : ℚ} (hp : 0 ≤ p) (h : p ≤ q) : nearest p ≤ nearest q := by
  rcases eq_or_lt_of_le hp with rfl | hpos
  · rw [nearest_zero]
    exact nearest_nonneg h
  · have hqpos : 0 < q := hpos.trans_le h
    have hple := zpow_binaryExponent_le hpos.ne'
    have hplt := lt_zpow_binaryExponent p
    have hqle := zpow_binaryExponent_le hqpos.ne'
    have hqlt := lt_zpow_binaryExponent q
    rw [abs_of_pos hpos] at hple hplt
    rw [abs_of_pos hqpos] at hqle hqlt
    have hexponent : binaryExponent p ≤ binaryExponent q := by
      have hlt : (2 : ℚ) ^ binaryExponent p < 2 ^ (binaryExponent q + 1) :=
        hple.trans_lt (h.trans_lt hqlt)
      have := (zpow_lt_zpow_iff_right₀ (by norm_num)).mp hlt
      omega
    by_cases hsame : ulpExponent p = ulpExponent q
    · have hround : roundHalfEven (p / 2 ^ ulpExponent p) ≤ roundHalfEven (q / 2 ^ ulpExponent q) := by
        rw [hsame]
        apply roundHalfEven_mono
        gcongr
      have hcast : (roundHalfEven (p / 2 ^ ulpExponent p) : ℚ) ≤
          roundHalfEven (q / 2 ^ ulpExponent q) := by
        exact_mod_cast hround
      unfold nearest
      rw [hsame] at hcast ⊢
      exact mul_le_mul_of_nonneg_right hcast (by positivity)
    · -- the power of two at which the binade of `q` starts
      obtain ⟨k, hk⟩ : ∃ k : ℕ, binaryExponent q = k + ulpExponent p := by
        refine ⟨(binaryExponent q - ulpExponent p).toNat, ?_⟩
        unfold ulpExponent at hsame ⊢
        omega
      have hstart : ulpExponent q + 52 = binaryExponent q := by
        unfold ulpExponent at hsame ⊢
        omega
      have hbinade : binaryExponent p + 1 ≤ binaryExponent q := by
        unfold ulpExponent at hsame
        omega
      have hscale : (2 : ℚ) ^ binaryExponent q = 2 ^ k * 2 ^ ulpExponent p := by
        rw [← zpow_natCast, ← zpow_add₀ two_ne_zero, hk]
      have hbelow : p ≤ 2 ^ binaryExponent q :=
        hplt.le.trans (zpow_le_zpow_right₀ (by norm_num) hbinade)
      calc nearest p ≤ |nearest p| := le_abs_self _
        _ ≤ 2 ^ k * 2 ^ ulpExponent p := by
            apply abs_roundHalfEven_mul_le
            rw [abs_of_pos hpos, ← hscale]
            exact hbelow
        _ = 2 ^ binaryExponent q := hscale.symm
        _ = ((2 ^ 52 : ℤ) : ℚ) * 2 ^ ulpExponent q := by
            rw [← hstart, zpow_add₀ two_ne_zero, mul_comm]
            norm_num
        _ ≤ nearest q := by
            have hround : (2 ^ 52 : ℤ) ≤ roundHalfEven (q / 2 ^ ulpExponent q) := by
              apply le_roundHalfEven
              rw [le_div_iff₀ (by positivity)]
              calc ((2 ^ 52 : ℤ) : ℚ) * 2 ^ ulpExponent q = 2 ^ binaryExponent q := by
                    rw [← hstart, zpow_add₀ two_ne_zero, mul_comm]
                    norm_num
                _ ≤ q := hqle
            have hcast : ((2 ^ 52 : ℤ) : ℚ) ≤ roundHalfEven (q / 2 ^ ulpExponent q) := by
              exact_mod_cast hround
            exact mul_le_mul_of_nonneg_right hcast (by positivity)

/-- Rounding keeps the order. -/
theorem nearest_mono {p : ℚ} (h : p ≤ q) : nearest p ≤ nearest q := by
  rcases le_total 0 p with hp | hp
  · exact nearest_le_of_nonneg hp h
  · rcases le_total 0 q with hq | hq
    · have hneg := nearest_nonneg (neg_nonneg.mpr hp)
      rw [nearest_neg] at hneg
      linarith [nearest_nonneg hq]
    · have hneg := nearest_le_of_nonneg (neg_nonneg.mpr hq) (neg_le_neg h)
      rw [nearest_neg, nearest_neg] at hneg
      linarith

theorem pos_of_nearest_pos (h : 0 < nearest q) : 0 < q := by
  by_contra hle
  exact absurd (nearest_mono (not_lt.mp hle)) (not_le.mpr (by rwa [nearest_zero]))

/-! ## Floats -/

/-- A whole number of at most 53 bits, times a power of two, is a float. -/
theorem nearest_intCast_mul {k e : ℤ} (hk : |k| ≤ 2 ^ 53) (he : -1074 ≤ e) :
    nearest (k * 2 ^ e) = k * 2 ^ e := by
  rcases eq_or_ne k 0 with rfl | hne
  · simp
  set q : ℚ := k * 2 ^ e with hq
  have hpos : (0 : ℚ) < 2 ^ e := by positivity
  have hqne : q ≠ 0 := mul_ne_zero (by exact_mod_cast hne) hpos.ne'
  have habs : |q| = |(k : ℚ)| * 2 ^ e := by rw [hq, abs_mul, abs_of_pos hpos]
  have hkq : |(k : ℚ)| ≤ 2 ^ 53 := by exact_mod_cast hk
  have hwhole : ∃ m : ℤ, q / 2 ^ ulpExponent q = m := by
    rcases le_or_gt (ulpExponent q) e with hle | hlt
    · refine ⟨k * 2 ^ (e - ulpExponent q).toNat, ?_⟩
      have hsplit : e = (e - ulpExponent q).toNat + ulpExponent q := by omega
      rw [div_eq_iff (by positivity), hq]
      push_cast
      conv_lhs => rw [hsplit, zpow_add₀ two_ne_zero, zpow_natCast]
      ring
    · -- only a number of 54 bits has a larger last bit, and it is a power of two
      have hexponent : ulpExponent q = binaryExponent q - 52 := by
        unfold ulpExponent at hlt ⊢
        omega
      have hbelow : (2 : ℚ) ^ binaryExponent q ≤ 2 ^ (e + 53) := by
        calc (2 : ℚ) ^ binaryExponent q ≤ |q| := zpow_binaryExponent_le hqne
          _ ≤ 2 ^ 53 * 2 ^ e := by rw [habs]; gcongr
          _ = 2 ^ (e + 53) := by rw [zpow_add₀ two_ne_zero, mul_comm]; norm_num
      have hle := (zpow_le_zpow_iff_right₀ (by norm_num)).mp hbelow
      have hbinary : binaryExponent q = e + 53 := by omega
      have hfull : |k| = 2 ^ 53 := by
        refine le_antisymm hk ?_
        have hlow := zpow_binaryExponent_le hqne
        rw [hbinary, habs, zpow_add₀ two_ne_zero, mul_comm, mul_le_mul_iff_left₀ hpos] at hlow
        exact_mod_cast hlow
      obtain ⟨m, hm⟩ : (2 : ℤ) ∣ k := by
        rw [← dvd_abs, hfull]
        exact dvd_pow_self 2 (by norm_num)
      refine ⟨m, ?_⟩
      rw [hexponent, hbinary, div_eq_iff (by positivity), hq, hm,
        show e + 53 - 52 = e + 1 by ring, zpow_add_one₀ two_ne_zero]
      push_cast
      ring
  obtain ⟨m, hm⟩ := hwhole
  unfold nearest
  rw [hm, roundHalfEven_intCast, ← hm, div_mul_cancel₀]
  positivity

/-- A float is its own nearest float. -/
@[simp] theorem nearest_nearest (q : ℚ) : nearest (nearest q) = nearest q := by
  have he : -1074 ≤ ulpExponent q := le_max_right _ _
  refine nearest_intCast_mul ?_ he
  have hbound : |q| ≤ 2 ^ 53 * 2 ^ ulpExponent q := by
    calc |q| ≤ 2 ^ (binaryExponent q + 1) := (lt_zpow_binaryExponent q).le
      _ ≤ 2 ^ (ulpExponent q + 53) :=
          zpow_le_zpow_right₀ (by norm_num) (by unfold ulpExponent; omega)
      _ = 2 ^ 53 * 2 ^ ulpExponent q := by rw [zpow_add₀ two_ne_zero, mul_comm]; norm_num
  have hround := abs_roundHalfEven_mul_le hbound
  rw [abs_mul, abs_of_pos (show (0 : ℚ) < 2 ^ ulpExponent q by positivity)] at hround
  have hcast := le_of_mul_le_mul_right hround (by positivity)
  exact_mod_cast hcast

/-! ## Error -/

/-- The nearest float is half a last bit away at most. -/
theorem abs_nearest_sub_le (q : ℚ) : |nearest q - q| ≤ 2 ^ ulpExponent q / 2 := by
  have hpos : (0 : ℚ) < 2 ^ ulpExponent q := by positivity
  have hsplit : nearest q - q =
      -((q / 2 ^ ulpExponent q - roundHalfEven (q / 2 ^ ulpExponent q)) * 2 ^ ulpExponent q) := by
    unfold nearest
    field_simp
    ring
  rw [hsplit, abs_neg, abs_mul, abs_of_pos hpos]
  have hround := abs_sub_roundHalfEven_le (q / 2 ^ ulpExponent q)
  calc _ ≤ 1 / 2 * (2 : ℚ) ^ ulpExponent q := mul_le_mul_of_nonneg_right hround hpos.le
    _ = 2 ^ ulpExponent q / 2 := by ring

/-- Rounding to a normal float loses one part in `2 ^ 53` at most. -/
theorem abs_nearest_sub_le_of_le (h : 2 ^ (-1022 : ℤ) ≤ |q|) :
    |nearest q - q| ≤ |q| / 2 ^ 53 := by
  have hq : q ≠ 0 := by
    rintro rfl
    have hpos : (0 : ℚ) < 2 ^ (-1022 : ℤ) := by positivity
    rw [abs_zero] at h
    exact absurd h (not_le.mpr hpos)
  have hexponent : ulpExponent q = binaryExponent q - 52 := by
    have hlt := (zpow_lt_zpow_iff_right₀ (by norm_num)).mp (h.trans_lt (lt_zpow_binaryExponent q))
    unfold ulpExponent
    omega
  have hulp : (2 : ℚ) ^ ulpExponent q / 2 = 2 ^ binaryExponent q / 2 ^ 53 := by
    rw [hexponent, zpow_sub₀ two_ne_zero]
    norm_num
    ring
  calc |nearest q - q| ≤ 2 ^ ulpExponent q / 2 := abs_nearest_sub_le q
    _ = 2 ^ binaryExponent q / 2 ^ 53 := hulp
    _ ≤ |q| / 2 ^ 53 := by
        gcongr
        exact zpow_binaryExponent_le hq

/-! ## Sums -/

/-- One more number in the partial sums of `math.fsum`, the smallest first: each sum is
rounded, and what the rounding leaves out stays as a sum of its own. `none` is the
`OverflowError` of a sum that is too large. -/
def addPartials : ℚ → List ℚ → Option (List ℚ)
  | x, [] => some (if x = 0 then [] else [x])
  | x, y :: sums => do
      let hi ← roundDouble (x + y)
      let rest ← addPartials hi sums
      let lo := x + y - hi
      return if lo = 0 then rest else lo :: rest

/-- `math.fsum`. The partial sums add up to the exact sum, which is rounded once. -/
def fsum (data : List ℚ) : Option ℚ := do
  let sums ← data.foldlM (fun sums x => addPartials x sums) []
  roundDouble sums.sum

/-- `statistics.fmean`. -/
def fmean (data : List ℚ) : Option ℚ := do
  let total ← fsum data
  roundDouble (total / data.length)

/-- No partial sum is lost. -/
theorem sum_of_addPartials {x : ℚ} {sums out : List ℚ} (h : addPartials x sums = some out) :
    out.sum = x + sums.sum := by
  induction sums generalizing x out with
  | nil =>
      cases h
      by_cases hx : x = 0 <;> simp [hx]
  | cons y sums ih =>
      rw [addPartials] at h
      obtain ⟨hi, -, h⟩ := Option.bind_eq_some_iff.mp h
      obtain ⟨rest, hrest, h⟩ := Option.bind_eq_some_iff.mp h
      cases h
      have hsum := ih hrest
      by_cases hlo : x + y - hi = 0
      · rw [if_pos hlo, hsum, List.sum_cons]
        linarith
      · rw [if_neg hlo, List.sum_cons, hsum, List.sum_cons]
        ring

/-- The sum of floats is the exact sum, rounded once. -/
theorem roundDouble_sum_of_fsum {data : List ℚ} (h : fsum data = some r) :
    roundDouble data.sum = some r := by
  have hfold : ∀ (data sums out : List ℚ),
      data.foldlM (fun sums x => addPartials x sums) sums = some out →
        out.sum = sums.sum + data.sum := by
    intro data
    induction data with
    | nil =>
        intro sums out hout
        cases hout
        simp
    | cons x data ih =>
        intro sums out hout
        rw [List.foldlM_cons] at hout
        obtain ⟨next, hnext, hout⟩ := Option.bind_eq_some_iff.mp hout
        rw [ih next out hout, sum_of_addPartials hnext, List.sum_cons]
        ring
  obtain ⟨sums, hsums, hround⟩ := Option.bind_eq_some_iff.mp h
  rw [hfold data [] sums hsums, List.sum_nil, zero_add] at hround
  exact hround

/-- Two orders in which the mean exists have one mean. -/
theorem fmean_eq_of_perm {data data' : List ℚ} {mean mean' : ℚ} (hperm : data.Perm data')
    (h : fmean data = some mean) (h' : fmean data' = some mean') : mean = mean' := by
  obtain ⟨total, htotal, hmean⟩ := Option.bind_eq_some_iff.mp h
  obtain ⟨total', htotal', hmean'⟩ := Option.bind_eq_some_iff.mp h'
  have hsum := roundDouble_sum_of_fsum htotal
  rw [hperm.sum_eq, roundDouble_sum_of_fsum htotal'] at hsum
  cases hsum
  rw [hperm.length_eq, hmean'] at hmean
  cases hmean
  rfl

/-- A sum that exists in one order is too large in another. -/
example : fsum [2 ^ 1023, -(2 ^ 1023), 2 ^ 1023] = some (2 ^ 1023) ∧
    fsum [2 ^ 1023, 2 ^ 1023, -(2 ^ 1023)] = none := by decide +kernel

theorem abs_lt_of_fsum {data : List ℚ} (h : fsum data = some r) : |r| < 2 ^ 1024 := by
  obtain ⟨sums, -, hround⟩ := Option.bind_eq_some_iff.mp h
  exact abs_lt_of_roundDouble hround

/-- The mean of two numbers or more exists when their sum does. -/
theorem isSome_fmean_iff {data : List ℚ} (h : 2 ≤ data.length) :
    (fmean data).isSome ↔ (fsum data).isSome := by
  unfold fmean
  cases hsum : fsum data with
  | none => simp
  | some total =>
      have hlength : (2 : ℚ) ≤ data.length := by exact_mod_cast h
      have hpos : (0 : ℚ) < data.length := by linarith
      have hmean : |total / data.length| ≤ 2 ^ 1023 := by
        rw [abs_div, abs_of_pos hpos, div_le_iff₀ hpos]
        calc |total| ≤ 2 ^ 1023 * 2 := (abs_lt_of_fsum hsum).le.trans_eq (pow_succ 2 1023)
          _ ≤ 2 ^ 1023 * (data.length : ℚ) := by gcongr
      simpa using isSome_roundDouble hmean

/-- One more number in a sum, and what the roundings have lost so far. -/
def addCompensated (sum : ℚ × ℚ) (x : ℚ) : ℚ × ℚ :=
  let total := nearest (sum.1 + x)
  let lost :=
    if |x| ≤ |sum.1| then nearest (nearest (sum.1 - total) + x)
    else nearest (nearest (x - total) + sum.1)
  (total, nearest (sum.2 + lost))

/-- `sum` of floats, which adds what the roundings have lost in the end. -/
def compensatedSum : List ℚ → ℚ
  | [] => 0
  | x :: xs =>
      let sum := xs.foldl addCompensated (x, 0)
      nearest (sum.1 + sum.2)

example : compensatedSum (List.replicate 10 (nearest (1 / 10))) = 1 := by decide +kernel

/-! ## The standard deviation -/

/-- `int.bit_length`. -/
def bitLength (n : ℕ) : ℕ := if n = 0 then 0 else n.log2 + 1

/-- `_integer_sqrt_of_frac_rto`: the square root of `n / m`, rounded to odd. -/
def integerSqrtOfFracRto (n m : ℕ) : ℕ :=
  let a := (n / m).sqrt
  a ||| if a * a * m = n then 0 else 1

/-- `_float_sqrt_of_frac`: the float nearest to the square root of `n / m`. -/
def floatSqrtOfFrac (n m : ℕ) : Option ℚ :=
  let q : ℤ := ((bitLength n : ℤ) - bitLength m - 109) / 2
  if 0 ≤ q then
    roundDouble (integerSqrtOfFracRto n (m <<< (2 * q.toNat)) <<< q.toNat : ℕ)
  else
    roundDouble (integerSqrtOfFracRto (n <<< (2 * (-q).toNat)) m / (1 <<< (-q).toNat : ℕ))

/-- `statistics.pstdev`. The variance is exact. -/
def pstdev (data : List ℚ) : Option ℚ :=
  let n : ℚ := data.length
  let sx := data.sum
  let sxx := (data.map fun x => x * x).sum
  let mss := (n * sxx - sx * sx) / n / n
  floatSqrtOfFrac mss.num.natAbs mss.den

theorem floatSqrtOfFrac_nonneg {n m : ℕ} (h : floatSqrtOfFrac n m = some r) : 0 ≤ r := by
  have hround : ∀ {x : ℚ}, 0 ≤ x → roundDouble x = some r → 0 ≤ r := by
    intro x hx hr
    rw [roundDouble_eq] at hr
    split_ifs at hr
    cases hr
    exact nearest_nonneg hx
  unfold floatSqrtOfFrac at h
  dsimp only at h
  split_ifs at h
  · exact hround (Nat.cast_nonneg _) h
  · exact hround (by positivity) h

theorem pstdev_nonneg {data : List ℚ} (h : pstdev data = some r) : 0 ≤ r :=
  floatSqrtOfFrac_nonneg h

example : pstdev [3, 4, 5] = some (3677173697615391 / 2 ^ 52) := by decide +kernel

end VoxBench.Lib
