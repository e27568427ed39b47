import Mathlib.Data.Nat.Size
import Mathlib.Tactic

/-!
# Companding

A number of at least `2 ^ (w + s)` lies in one of the segments `[2 ^ (w + s + e), 2 ^ (w + s + e + 1))`.
Each segment is cut into `2 ^ w` equal steps, so that a number is coded by its segment and its step,
with an error that grows with the number. A code stands for the middle of its step.

## Main definitions

* `segmentOf`, `stepOf` — the code of a number.
* `levelOf` — the number a code stands for.

## Main results

* `segment_level`, `step_level` — the code of a level.
* `level_near` — the error, relative to the number.
* `level_mono` — larger numbers have larger levels.
-/

namespace VoxBench.Lib.Companding

variable {w s e m n n' : ℕ}

def segmentOf (w s n : ℕ) : ℕ := n.size - (w + s + 1)

def stepOf (w s n : ℕ) : ℕ := n / 2 ^ (segmentOf w s n + s) - 2 ^ w

def levelOf (w s e m : ℕ) : ℕ := ((2 ^ w + m) * 2 ^ s + 2 ^ (s - 1)) * 2 ^ e

theorem segment_eq_iff (hn : 2 ^ (w + s) ≤ n) :
    segmentOf w s n = e ↔ 2 ^ (w + s + e) ≤ n ∧ n < 2 ^ (w + s + e + 1) := by
  have hsize := Nat.lt_size.mpr hn
  rw [← Nat.lt_size, ← Nat.size_le, segmentOf]
  omega

theorem segment_bounds (hn : 2 ^ (w + s) ≤ n) :
    2 ^ (w + s + segmentOf w s n) ≤ n ∧ n < 2 ^ (w + s + segmentOf w s n + 1) :=
  (segment_eq_iff hn).mp rfl

/-- A number lies in its step. -/
theorem step_bounds (hn : 2 ^ (w + s) ≤ n) :
    stepOf w s n < 2 ^ w ∧ (2 ^ w + stepOf w s n) * 2 ^ (segmentOf w s n + s) ≤ n ∧
      n < (2 ^ w + stepOf w s n + 1) * 2 ^ (segmentOf w s n + s) := by
  obtain ⟨hlow, hhigh⟩ := segment_bounds hn
  have hstep : stepOf w s n = n / 2 ^ (segmentOf w s n + s) - 2 ^ w := rfl
  rw [hstep]
  generalize segmentOf w s n = e at hlow hhigh ⊢
  have hpos : 0 < 2 ^ (e + s) := by positivity
  have hfirst : 2 ^ w ≤ n / 2 ^ (e + s) := by
    rw [Nat.le_div_iff_mul_le hpos, ← pow_add]
    rwa [show w + (e + s) = w + s + e by ring]
  have hlast : n / 2 ^ (e + s) < 2 * 2 ^ w := by
    rw [Nat.div_lt_iff_lt_mul hpos, mul_assoc, ← pow_add, ← pow_succ']
    rwa [show w + (e + s) + 1 = w + s + e + 1 by ring]
  rw [Nat.add_sub_cancel' hfirst]
  exact ⟨by omega, Nat.div_mul_le_self n _, Nat.lt_mul_of_div_lt (Nat.lt_succ_self _) hpos⟩

/-- A level lies in the middle of its step. -/
theorem level_eq (hs : 1 ≤ s) :
    levelOf w s e m = (2 ^ w + m) * 2 ^ (e + s) + 2 ^ (e + s - 1) := by
  unfold levelOf
  rw [add_mul, mul_assoc, ← pow_add, ← pow_add, Nat.add_comm s e, Nat.add_comm (s - 1) e,
    Nat.add_sub_assoc hs]

section Codes

variable (hs : 1 ≤ s) (hm : m < 2 ^ w)
include hs hm

theorem level_bounds : 2 ^ (w + s + e) ≤ levelOf w s e m ∧ levelOf w s e m < 2 ^ (w + s + e + 1) := by
  have hhalf : 2 ^ (e + s - 1) < 2 ^ (e + s) := Nat.pow_lt_pow_right (by omega) (by omega)
  rw [level_eq hs, show w + s + e = w + (e + s) by ring, pow_succ', pow_add]
  constructor
  · have hle : 2 ^ w * 2 ^ (e + s) ≤ (2 ^ w + m) * 2 ^ (e + s) := Nat.mul_le_mul_right _ (by omega)
    exact hle.trans (Nat.le_add_right _ _)
  · have hle : (2 ^ w + m + 1) * 2 ^ (e + s) ≤ (2 * 2 ^ w) * 2 ^ (e + s) :=
      Nat.mul_le_mul_right _ (by omega)
    nlinarith

theorem segment_level : segmentOf w s (levelOf w s e m) = e := by
  have hbounds := level_bounds (e := e) hs hm
  refine (segment_eq_iff ?_).mpr hbounds
  exact (Nat.pow_le_pow_right (by omega) (by omega)).trans hbounds.1

theorem step_level : stepOf w s (levelOf w s e m) = m := by
  have hhalf : 2 ^ (e + s - 1) < 2 ^ (e + s) := Nat.pow_lt_pow_right (by omega) (by omega)
  unfold stepOf
  rw [segment_level hs hm, level_eq hs, Nat.add_comm, Nat.add_mul_div_right _ _ (by positivity),
    Nat.div_eq_of_lt hhalf]
  omega

end Codes

/-- The level of a number is off by at most half a step, and a step is a fixed share of the
number. -/
theorem level_near (hs : 1 ≤ s) (hn : 2 ^ (w + s) ≤ n) :
    2 ^ (w + 1) * ((levelOf w s (segmentOf w s n) (stepOf w s n) : ℤ) - n).natAbs ≤ n := by
  obtain ⟨-, hlow, hhigh⟩ := step_bounds hn
  have hsegment := (segment_bounds hn).1
  rw [level_eq hs]
  set e := segmentOf w s n
  have hdouble : 2 ^ (e + s) = 2 * 2 ^ (e + s - 1) := by
    rw [← pow_succ']
    congr 1
    omega
  have hnear : (((2 ^ w + stepOf w s n) * 2 ^ (e + s) + 2 ^ (e + s - 1) : ℕ) - n : ℤ).natAbs ≤
      2 ^ (e + s - 1) := by
    rw [hdouble] at hlow hhigh ⊢
    have hnext : (2 ^ w + stepOf w s n + 1) * (2 * 2 ^ (e + s - 1)) =
        (2 ^ w + stepOf w s n) * (2 * 2 ^ (e + s - 1)) + 2 * 2 ^ (e + s - 1) := by
      ring
    omega
  calc 2 ^ (w + 1) * _ ≤ 2 ^ (w + 1) * 2 ^ (e + s - 1) := Nat.mul_le_mul_left _ hnear
    _ = 2 ^ (w + s + e) := by
        rw [← pow_add]
        congr 1
        omega
    _ ≤ n := hsegment

theorem segment_mono (h : n ≤ n') : segmentOf w s n ≤ segmentOf w s n' :=
  Nat.sub_le_sub_right (Nat.size_le_size h) _

theorem level_mono (hs : 1 ≤ s) (hn : 2 ^ (w + s) ≤ n) (h : n ≤ n') :
    levelOf w s (segmentOf w s n) (stepOf w s n) ≤ levelOf w s (segmentOf w s n') (stepOf w s n') := by
  have hn' := hn.trans h
  rcases (segment_mono (w := w) (s := s) h).eq_or_lt with hsame | hless
  · have hstep : stepOf w s n ≤ stepOf w s n' := by
      unfold stepOf
      rw [hsame]
      exact Nat.sub_le_sub_right (Nat.div_le_div_right h) _
    rw [hsame, level_eq hs, level_eq hs]
    gcongr
  · have hbelow := (level_bounds (e := segmentOf w s n) hs (step_bounds hn).1).2
    have habove := (level_bounds (e := segmentOf w s n') hs (step_bounds hn').1).1
    have hgap : 2 ^ (w + s + segmentOf w s n + 1) ≤ 2 ^ (w + s + segmentOf w s n') :=
      Nat.pow_le_pow_right (by omega) (by omega)
    omega

end VoxBench.Lib.Companding
