import Mathlib.Algebra.Order.Floor.Ring
import Mathlib.Data.Rat.Floor
import Mathlib.Algebra.Ring.Int.Parity
import Mathlib.Tactic.Linarith

/-!
# Rounding half to even

Python's `round` on an exact rational: to the nearest integer, and to the even one of two
that are equally near.
-/

namespace VoxBench.Lib

/-- `round(q)`. -/
def roundHalfEven (q : ℚ) : ℤ :=
  if q - ⌊q⌋ < 1 / 2 then ⌊q⌋
  else if 1 / 2 < q - ⌊q⌋ then ⌊q⌋ + 1
  else if Even ⌊q⌋ then ⌊q⌋
  else ⌊q⌋ + 1

variable {q : ℚ} {n : ℤ}

theorem roundHalfEven_mem (q : ℚ) : roundHalfEven q = ⌊q⌋ ∨ roundHalfEven q = ⌊q⌋ + 1 := by
  unfold roundHalfEven
  split_ifs <;> simp

@[simp] theorem roundHalfEven_intCast (n : ℤ) : roundHalfEven n = n := by
  simp [roundHalfEven]

/-- Rounding does not leave an interval with integer ends. -/
theorem le_roundHalfEven (h : (n : ℚ) ≤ q) : n ≤ roundHalfEven q := by
  have hfloor : n ≤ ⌊q⌋ := Int.le_floor.mpr h
  rcases roundHalfEven_mem q with heq | heq <;> omega

theorem roundHalfEven_le (h : q ≤ n) : roundHalfEven q ≤ n := by
  rcases eq_or_lt_of_le h with rfl | hlt
  · rw [roundHalfEven_intCast]
  · have hfloor : ⌊q⌋ < n := Int.floor_lt.mpr hlt
    rcases roundHalfEven_mem q with heq | heq <;> omega

theorem roundHalfEven_mono {p : ℚ} (h : p ≤ q) : roundHalfEven p ≤ roundHalfEven q := by
  rcases (Int.floor_le_floor h).eq_or_lt with hfloor | hfloor
  · unfold roundHalfEven
    rw [hfloor]
    split_ifs <;> first | omega | (exfalso; linarith)
  · rcases roundHalfEven_mem p with hp | hp <;> rcases roundHalfEven_mem q with hq | hq <;> omega

/-- The result is one of the nearest integers. -/
theorem abs_sub_roundHalfEven_le (q : ℚ) : |q - roundHalfEven q| ≤ 1 / 2 := by
  have hlo := Int.floor_le q
  have hhi := Int.lt_floor_add_one q
  rw [abs_le]
  unfold roundHalfEven
  split_ifs <;> push_cast <;> constructor <;> linarith

/-- An integer closer than a half is the result. -/
theorem roundHalfEven_eq_of_abs_sub_lt (h : |q - n| < 1 / 2) : roundHalfEven q = n := by
  have hround := abs_le.mp (abs_sub_roundHalfEven_le q)
  have hn := abs_lt.mp h
  have hlt : ((roundHalfEven q - n : ℤ) : ℚ) < 1 := by push_cast; linarith
  have hgt : (-1 : ℚ) < ((roundHalfEven q - n : ℤ) : ℚ) := by push_cast; linarith
  have hlt' : roundHalfEven q - n < 1 := by exact_mod_cast hlt
  have hgt' : -1 < roundHalfEven q - n := by exact_mod_cast hgt
  omega

/-- An odd result is strictly closer than a half. -/
theorem sub_half_lt_of_roundHalfEven_eq (hodd : Odd n) (h : roundHalfEven q = n) :
    (n : ℚ) - 1 / 2 < q := by
  have hnot : ¬ Even n := Int.not_even_iff_odd.mpr hodd
  have hlo := Int.floor_le q
  unfold roundHalfEven at h
  split_ifs at h with hlow hhigh heven
  · rw [← h]
    linarith
  · rw [← h]
    push_cast
    linarith
  · rw [h] at heven
    exact absurd heven hnot
  · exact absurd (h ▸ (Int.not_even_iff_odd.mp heven).add_one) hnot

/-- Rounding is symmetric about zero. -/
theorem roundHalfEven_neg (q : ℚ) : roundHalfEven (-q) = -roundHalfEven q := by
  by_cases hint : ((⌊q⌋ : ℤ) : ℚ) = q
  · rw [← hint, ← Int.cast_neg, roundHalfEven_intCast, roundHalfEven_intCast]
  · have hfloor : ⌊-q⌋ = -⌊q⌋ - 1 := by
      have hlt : ((⌊q⌋ : ℤ) : ℚ) < q := lt_of_le_of_ne (Int.floor_le q) hint
      have hgt := Int.lt_floor_add_one q
      rw [Int.floor_eq_iff]
      push_cast
      constructor <;> linarith
    have heven : Even (-⌊q⌋ - 1) ↔ ¬ Even ⌊q⌋ := by
      rw [Int.even_sub_one, even_neg]
    unfold roundHalfEven
    simp only [hfloor, heven]
    push_cast
    split_ifs <;> first | omega | (exfalso; linarith)

end VoxBench.Lib
