import VoxBench.Lib.Double

/-!
# Elapsed time in doubles

A difference of two times is a whole number of microseconds. Python's
`timedelta.total_seconds() * 1000` turns it into milliseconds with two roundings, which keep the
order of differences but not always the differences themselves: far from zero two of them can
become one float, and nearer to zero the float is still not the exact number of milliseconds.

## Main definitions

* `totalSeconds`, `totalMs` — the seconds and milliseconds of a number of microseconds.

## Main results

* `totalMs_mono` — the order is kept.
* `roundHalfEven_totalMs` — below `2 ^ 50` microseconds the difference can be read back.
-/

namespace VoxBench.Lib

/-- `timedelta.total_seconds()`, of a number of microseconds. -/
def totalSeconds (us : ℤ) : ℚ := nearest (us / 1000000)

/-- `timedelta.total_seconds() * 1000`. -/
def totalMs (us : ℤ) : ℚ := nearest (totalSeconds us * 1000)

variable {us us' : ℤ}

theorem totalSeconds_mono (h : us ≤ us') : totalSeconds us ≤ totalSeconds us' := by
  have hcast : (us : ℚ) ≤ us' := by exact_mod_cast h
  apply nearest_mono
  gcongr

theorem totalSeconds_nonneg (h : 0 ≤ us) : 0 ≤ totalSeconds us := by
  have hcast : (0 : ℚ) ≤ us := by exact_mod_cast h
  exact nearest_nonneg (by positivity)

/-- Rounding keeps the order of differences. -/
theorem totalMs_mono (h : us ≤ us') : totalMs us ≤ totalMs us' := by
  have hseconds := totalSeconds_mono h
  apply nearest_mono
  gcongr

theorem totalMs_nonneg (h : 0 ≤ us) : 0 ≤ totalMs us :=
  nearest_nonneg (mul_nonneg (totalSeconds_nonneg h) (by norm_num))

@[simp] theorem totalSeconds_zero : totalSeconds 0 = 0 := by decide +kernel

@[simp] theorem totalMs_zero : totalMs 0 = 0 := by decide +kernel

theorem totalSeconds_nonpos (h : us ≤ 0) : totalSeconds us ≤ 0 := by
  rw [← totalSeconds_zero]
  exact totalSeconds_mono h

theorem totalMs_nonpos (h : us ≤ 0) : totalMs us ≤ 0 := by
  rw [← totalMs_zero]
  exact totalMs_mono h

/-- Two roundings lose one part in `2 ^ 51` at most. -/
theorem abs_totalMs_sub_le (us : ℤ) : |totalMs us - us / 1000| ≤ |(us : ℚ)| / 1000 / 2 ^ 51 := by
  rcases eq_or_ne us 0 with rfl | hne
  · simp
  have hone : (1 : ℚ) ≤ |(us : ℚ)| := by exact_mod_cast Int.one_le_abs hne
  have hnormal : (2 : ℚ) ^ (-1022 : ℤ) ≤ 1 / 1000000 :=
    calc (2 : ℚ) ^ (-1022 : ℤ) ≤ 2 ^ (-20 : ℤ) := zpow_le_zpow_right₀ (by norm_num) (by norm_num)
      _ ≤ 1 / 1000000 := by norm_num
  have hdiv : |(us : ℚ) / 1000000| = |(us : ℚ)| / 1000000 := by
    rw [abs_div, abs_of_pos (show (0 : ℚ) < 1000000 by norm_num)]
  have hseconds : |totalSeconds us - us / 1000000| ≤ |(us : ℚ)| / 1000000 / 2 ^ 53 := by
    rw [← hdiv]
    exact abs_nearest_sub_le_of_le (by rw [hdiv]; linarith)
  -- the seconds as milliseconds, before the second rounding
  have hscaled : |totalSeconds us * 1000 - us / 1000| ≤ |(us : ℚ)| / 1000 / 2 ^ 53 := by
    have hsplit : totalSeconds us * 1000 - us / 1000 =
        (totalSeconds us - us / 1000000) * 1000 := by ring
    rw [hsplit, abs_mul, abs_of_pos (show (0 : ℚ) < 1000 by norm_num)]
    linarith
  have hexact : |(us : ℚ) / 1000| = |(us : ℚ)| / 1000 := by
    rw [abs_div, abs_of_pos (show (0 : ℚ) < 1000 by norm_num)]
  have hnear := abs_le.mp ((abs_abs_sub_abs_le (totalSeconds us * 1000) (us / 1000)).trans hscaled)
  rw [hexact] at hnear
  have hms : |totalMs us - totalSeconds us * 1000| ≤ |totalSeconds us * 1000| / 2 ^ 53 :=
    abs_nearest_sub_le_of_le (by linarith [hnear.1])
  calc |totalMs us - us / 1000|
      ≤ |totalMs us - totalSeconds us * 1000| + |totalSeconds us * 1000 - us / 1000| :=
        abs_sub_le _ _ _
    _ ≤ |totalSeconds us * 1000| / 2 ^ 53 + |(us : ℚ)| / 1000 / 2 ^ 53 := add_le_add hms hscaled
    _ ≤ |(us : ℚ)| / 1000 / 2 ^ 51 := by linarith [hnear.2]

/-- Below `2 ^ 50` microseconds, some 35 years, the milliseconds tell the microseconds. -/
theorem roundHalfEven_totalMs (h : |us| < 2 ^ 50) : roundHalfEven (totalMs us * 1000) = us := by
  have hcast : |(us : ℚ)| < 2 ^ 50 := by exact_mod_cast h
  apply roundHalfEven_eq_of_abs_sub_lt
  have hsplit : totalMs us * 1000 - us = (totalMs us - us / 1000) * 1000 := by ring
  rw [hsplit, abs_mul, abs_of_pos (show (0 : ℚ) < 1000 by norm_num)]
  linarith [abs_totalMs_sub_le us]

theorem totalMs_injOn (h : |us| < 2 ^ 50) (h' : |us'| < 2 ^ 50) (heq : totalMs us = totalMs us') :
    us = us' := by
  rw [← roundHalfEven_totalMs h, ← roundHalfEven_totalMs h', heq]

/-- Some three centuries from zero, neighbouring microseconds have one float. -/
example : totalMs 11802240000000001 = totalMs 11802240000000002 := by decide +kernel

/-- The float is not always the number of milliseconds. -/
example : totalMs 1001000 ≠ 1001 := by decide +kernel

end VoxBench.Lib
