import VoxBench.Media.Resampling
import Mathlib.Algebra.Order.Floor.Semifield
import Mathlib.Data.Rat.Floor

/-!
# What resampling means

Samples at a rate are the values of a signal at the multiples of a period, and the signal
between them is linear. Past the last sample it keeps its value. To resample is to read this
signal at the multiples of another period and to round. `resamplePcm16Mono` does so in two
phases: `process` for the positions with a sample on either side, `flush` for the others.

## Main definitions

* `held x` — the samples, the last one held.
* `linear s q` — the signal through a sequence of samples, at position `q`.
* `reference rates x` — the signal of `x`, read at the output positions and rounded.

## Main results

* `resample_eq_reference` — both phases together give the reference, and every value of it
  fits its two bytes.
-/

namespace VoxBench.Media

open VoxBench.Lib

/-! ## The signal -/

/-- The samples, followed by the last one for ever. -/
def held (x : List ℤ) (i : ℕ) : ℤ := x.getD (min i (x.length - 1)) 0

/-- The line from each sample to the next, at a position in samples. -/
def linear (s : ℕ → ℤ) (q : ℚ) : ℚ := s ⌊q⌋₊ + (s (⌊q⌋₊ + 1) - s ⌊q⌋₊) * (q - ⌊q⌋₊)

/-- As many values as there are output periods in the input, each from its own position. -/
def reference (rates : Rates) (x : List ℤ) : List ℤ :=
  (List.range ⌈(x.length * rates.outputRate / rates.inputRate : ℚ)⌉₊).map fun k : ℕ =>
    roundHalfEven (linear (held x) (k * rates.inputRate / rates.outputRate))

namespace Pcm16MonoStreamResampler

variable {rates : Rates}

/-- The output positions before the end of the input, counted exactly. -/
theorem outputsBefore_eq_ceil (n : ℕ) :
    outputsBefore rates n = ⌈(n * rates.outputRate / rates.inputRate : ℚ)⌉₊ := by
  have hpos : (0 : ℚ) < rates.inputRate := by exact_mod_cast rates.input_pos
  apply Nat.le_antisymm
  · by_contra hlt
    rw [Nat.not_le, lt_outputsBefore_iff] at hlt
    have hceil := Nat.le_ceil (n * rates.outputRate / rates.inputRate : ℚ)
    rw [div_le_iff₀ hpos] at hceil
    exact absurd (by exact_mod_cast hceil) (Nat.not_le.mpr hlt)
  · rw [Nat.ceil_le, div_le_iff₀ hpos]
    exact_mod_cast le_outputsBefore_mul n

/-- The sample to the left of an output position. -/
theorem floor_position (position : ℕ) :
    ⌊(position / rates.outputRate : ℚ)⌋₊ = position / rates.outputRate :=
  Nat.floor_div_eq_div position rates.outputRate

/-- How far the position is past it, in steps of the output rate. -/
theorem position_sub_floor (position : ℕ) :
    (position / rates.outputRate : ℚ) - (position / rates.outputRate : ℕ) =
      (position % rates.outputRate : ℕ) / rates.outputRate := by
  have hpos : (rates.outputRate : ℚ) ≠ 0 := by
    have := rates.output_pos
    positivity
  have hdiv : (rates.outputRate : ℚ) * (position / rates.outputRate : ℕ) +
      (position % rates.outputRate : ℕ) = position := by
    exact_mod_cast Nat.div_add_mod position rates.outputRate
  rw [sub_eq_iff_eq_add, div_add' _ _ _ hpos, div_left_inj' hpos]
  linarith

/-- To the right of the last sample stands the last sample. -/
theorem held_succ {x : List ℤ} {i : ℕ} (h : i < x.length) :
    held x (i + 1) = x.getD (if i + 1 < x.length then i + 1 else i) 0 := by
  unfold held
  by_cases hinside : i + 1 < x.length
  · rw [if_pos hinside, Nat.min_eq_left (by omega)]
  · have hlast : min (i + 1) (x.length - 1) = i := by omega
    rw [if_neg hinside, hlast]

/-- The value that the loop computes is the rounded value of the signal. -/
theorem valueAt_eq_linear {x : List ℤ} {position : ℕ}
    (h : position / rates.outputRate < x.length) :
    valueAt rates x position =
      roundHalfEven (linear (held x) (position / rates.outputRate)) := by
  have hpos : (rates.outputRate : ℚ) ≠ 0 := by
    have := rates.output_pos
    positivity
  have hleft : held x (position / rates.outputRate) =
      x.getD (position / rates.outputRate) 0 := by
    unfold held
    rw [Nat.min_eq_left (by omega)]
  have hright := held_succ h
  unfold valueAt interpolate linear
  rw [floor_position, position_sub_floor, hleft, hright]
  generalize position % rates.outputRate = fraction
  apply congrArg roundHalfEven
  push_cast
  field_simp
  ring

/-- The values that stream and flush produce are those of the signal. -/
theorem resampled_eq_reference (x : List ℤ) : resampled rates x = reference rates x := by
  unfold resampled reference valuesBetween
  rw [outputsBefore_eq_ceil, Nat.sub_zero, ← List.range_eq_range']
  apply List.map_congr_left
  intro k hk
  rw [List.mem_range, ← outputsBefore_eq_ceil, lt_outputsBefore_iff,
    ← Nat.div_lt_iff_lt_mul rates.output_pos] at hk
  rw [valueAt_eq_linear hk]
  push_cast
  rfl

end Pcm16MonoStreamResampler

open Pcm16MonoStreamResampler

theorem isSample_reference {x : List ℤ} (rates : Rates) (h : ∀ v ∈ x, IsSample v) :
    ∀ v ∈ reference rates x, IsSample v := by
  rw [← resampled_eq_reference]
  intro v hv
  obtain ⟨k, -, rfl⟩ := List.mem_map.mp hv
  exact isSample_valueAt h _

theorem length_reference (rates : Rates) (x : List ℤ) :
    (reference rates x).length = ⌈(x.length * rates.outputRate / rates.inputRate : ℚ)⌉₊ := by
  simp [reference]

/-- Between equal rates the input comes back. Between different ones the values of `process`
and then those of `flush` are the reference, all of them 16-bit values, and the output is
their bytes. -/
theorem resample_eq_reference (rates : Rates) {pcm : List UInt8} (heven : pcm.length % 2 = 0) :
    (rates.inputRate = rates.outputRate → resamplePcm16Mono rates pcm = .ok pcm) ∧
    (rates.inputRate ≠ rates.outputRate →
      let x := unpackSamples pcm
      let processed := (({} : Pcm16MonoStreamResampler rates).extend x).produce true
      let flushed := processed.2.produce false
      processed.1 ++ flushed.1 = reference rates x ∧
      (∀ v ∈ processed.1 ++ flushed.1, IsSample v) ∧
      ∃ output, resamplePcm16Mono rates pcm = .ok output ∧
        unpackSamples output = reference rates x ∧
        output.length = 2 * ⌈(x.length * rates.outputRate / rates.inputRate : ℚ)⌉₊) := by
  refine ⟨fun hrates => resample_of_eq hrates heven, fun hrates => ?_⟩
  intro x processed flushed
  have hx : ∀ v ∈ x, IsSample v := isSample_of_mem_unpackSamples
  have hphases : processed.1 ++ flushed.1 = reference rates x := by
    rw [← resampled_eq_reference, ← runSamples_whole hx]
    rfl
  have hfits := isSample_reference rates hx
  refine ⟨hphases, hphases ▸ hfits, packSamples (reference rates x), ?_, ?_, ?_⟩
  · rw [resample_eq_packSamples hrates heven, resampled_eq_reference]
  · exact unpackSamples_packSamples hfits
  · rw [length_packSamples, length_reference]

/-- Three samples from 8 to 12 kHz: five values, the last one held. -/
theorem resample_eq_reference_three :
    resamplePcm16Mono ⟨8000, 12000, by decide, by decide⟩ [0, 0, 9, 0, 4, 0] =
      .ok [0, 0, 6, 0, 7, 0, 4, 0, 4, 0] ∧
    ∃ output, resamplePcm16Mono ⟨8000, 12000, by decide, by decide⟩ [0, 0, 9, 0, 4, 0] =
      .ok output ∧ output.length = 2 * ⌈((3 : ℕ) * (12000 : ℕ) / (8000 : ℕ) : ℚ)⌉₊ := by
  refine ⟨by decide +kernel, ?_⟩
  obtain ⟨-, -, output, houtput, -, hlength⟩ :=
    (@resample_eq_reference ⟨8000, 12000, by decide, by decide⟩ [0, 0, 9, 0, 4, 0]
      (by decide)).2 (by decide)
  exact ⟨output, houtput, hlength⟩

end VoxBench.Media
