import VoxBench.Media.Pcm
import Mathlib.Algebra.Order.Floor.Div
import Mathlib.Data.List.SplitLengths
import Mathlib.Tactic.Ring

/-!
# Chunks and the resampler

The values of a sampled signal at the multiples of the input rate do not depend on chunks.
The stream produces them as long as the samples that it drops after a chunk are there. When
the position has run past the buffer by more than one sample, it drops fewer samples than
it takes off the position, and every later value comes from the wrong place.

## Main definitions

* `emitted rates n` — how many values need only the first `n` samples.
* `ChunkingSafe rates lengths` — what the lengths of chunks must meet.

## Main results

* `stream_eq_resample_iff` — a sequence of chunk lengths gives the values of the whole
  string, whatever the samples are, exactly when it is safe.
-/

namespace VoxBench.Media

open VoxBench.Lib

namespace Pcm16MonoStreamResampler

variable {rates : Rates}

/-! ## The grid of output positions -/

/-- The number of outputs before a sample index. -/
def outputsBefore (rates : Rates) (n : ℕ) : ℕ := n * rates.outputRate ⌈/⌉ rates.inputRate

/-- The outputs that have both neighbours among the first `n` samples. -/
def emitted (rates : Rates) (n : ℕ) : ℕ := outputsBefore rates (n - 1)

/-- The sample index of the first output that has not. -/
def nextLeftIndex (rates : Rates) (n : ℕ) : ℕ :=
  emitted rates n * rates.inputRate / rates.outputRate

theorem lt_outputsBefore_iff {k n : ℕ} :
    k < outputsBefore rates n ↔ k * rates.inputRate < n * rates.outputRate := by
  have h := ceilDiv_le_iff_le_mul (b := n * rates.outputRate) (c := k) rates.input_pos
  rw [Nat.mul_comm k]
  unfold outputsBefore
  omega

theorem outputsBefore_mono {m n : ℕ} (h : m ≤ n) : outputsBefore rates m ≤ outputsBefore rates n := by
  by_contra hlt
  have hm := lt_outputsBefore_iff.mp (Nat.lt_of_not_le hlt)
  have hn : ¬ outputsBefore rates n < outputsBefore rates n := Nat.lt_irrefl _
  rw [lt_outputsBefore_iff] at hn
  have hmul := Nat.mul_le_mul_right rates.outputRate h
  omega

theorem le_outputsBefore_mul (n : ℕ) :
    n * rates.outputRate ≤ outputsBefore rates n * rates.inputRate := by
  have hn : ¬ outputsBefore rates n < outputsBefore rates n := Nat.lt_irrefl _
  rw [lt_outputsBefore_iff] at hn
  omega

/-- The last output before an index is less than a step before it. -/
theorem outputsBefore_mul_lt {n : ℕ} (h : 0 < outputsBefore rates n) :
    outputsBefore rates n * rates.inputRate < n * rates.outputRate + rates.inputRate := by
  obtain ⟨k, hk⟩ := Nat.exists_eq_add_of_lt h
  have hlast : k < outputsBefore rates n := by omega
  rw [lt_outputsBefore_iff] at hlast
  have hsucc : outputsBefore rates n = k + 1 := by omega
  rw [hsucc, Nat.add_mul]
  omega

/-! ## The value at a position -/

theorem valueAt_drop {x : List ℤ} {base position : ℕ} (hbase : base ≤ x.length) :
    valueAt rates (x.drop base) position =
      valueAt rates x (position + base * rates.outputRate) := by
  have hdiv : (position + base * rates.outputRate) / rates.outputRate =
      position / rates.outputRate + base := Nat.add_mul_div_right _ _ rates.output_pos
  have hget : ∀ i, (x.drop base).getD i 0 = x.getD (i + base) 0 := by
    intro i
    rw [List.getD_eq_getElem?_getD, List.getD_eq_getElem?_getD, List.getElem?_drop, Nat.add_comm]
  unfold valueAt
  simp only [hdiv, hget, List.length_drop, Nat.add_mul_mod_self_right]
  by_cases hright : position / rates.outputRate + 1 < x.length - base
  · rw [if_pos hright, if_pos (by omega), Nat.add_right_comm]
  · rw [if_neg hright, if_neg (by omega)]

/-- A value with both of its neighbours does not depend on later samples. -/
theorem valueAt_append {x c : List ℤ} {position : ℕ}
    (h : position < (x.length - 1) * rates.outputRate) :
    valueAt rates (x ++ c) position = valueAt rates x position := by
  have hdiv : position / rates.outputRate < x.length - 1 :=
    (Nat.div_lt_iff_lt_mul rates.output_pos).mpr h
  have hget : ∀ i, i < x.length → (x ++ c).getD i 0 = x.getD i 0 := by
    intro i hi
    rw [List.getD_eq_getElem?_getD, List.getD_eq_getElem?_getD, List.getElem?_append_left hi]
  unfold valueAt
  simp only [List.length_append]
  generalize position / rates.outputRate = left at hdiv
  rw [if_pos (by omega), if_pos (by omega), hget _ (by omega), hget _ (by omega)]

theorem interpolate_self (a : ℤ) (f : ℕ) : interpolate rates a a f = a := by
  have hpos : (rates.outputRate : ℚ) ≠ 0 := by
    have := rates.output_pos
    positivity
  have hq : ((a * (rates.outputRate - f) + a * f : ℤ) : ℚ) / rates.outputRate = (a : ℚ) := by
    push_cast
    field_simp
    ring
  rw [interpolate, hq, roundHalfEven_intCast]

/-- Between 16-bit samples lie 16-bit values. -/
theorem isSample_interpolate {a b : ℤ} {f : ℕ} (ha : IsSample a) (hb : IsSample b)
    (hf : f ≤ rates.outputRate) : IsSample (interpolate rates a b f) := by
  have hpos : (0 : ℚ) < rates.outputRate := by exact_mod_cast rates.output_pos
  have hf' : (0 : ℚ) ≤ (rates.outputRate : ℚ) - f := by
    have : (f : ℚ) ≤ rates.outputRate := by exact_mod_cast hf
    linarith
  have hf0 : (0 : ℚ) ≤ f := by positivity
  have ha' : (-32768 : ℚ) ≤ a ∧ (a : ℚ) ≤ 32767 := by exact_mod_cast ha
  have hb' : (-32768 : ℚ) ≤ b ∧ (b : ℚ) ≤ 32767 := by exact_mod_cast hb
  constructor
  · apply le_roundHalfEven
    rw [le_div_iff₀ hpos]
    push_cast
    nlinarith [mul_le_mul_of_nonneg_right ha'.1 hf', mul_le_mul_of_nonneg_right hb'.1 hf0]
  · apply roundHalfEven_le
    rw [div_le_iff₀ hpos]
    push_cast
    nlinarith [mul_le_mul_of_nonneg_right ha'.2 hf', mul_le_mul_of_nonneg_right hb'.2 hf0]

/-! ## The stream on samples -/

/-- The values of a signal from output `k` up to output `l`. -/
def valuesBetween (rates : Rates) (x : List ℤ) (k l : ℕ) : List ℤ :=
  (List.range' k (l - k)).map fun j => valueAt rates x (j * rates.inputRate)

theorem valuesBetween_append (x : List ℤ) {j k l : ℕ} (hjk : j ≤ k) (hkl : k ≤ l) :
    valuesBetween rates x j k ++ valuesBetween rates x k l = valuesBetween rates x j l := by
  unfold valuesBetween
  rw [← List.map_append]
  have hsum : l - j = (k - j) + (l - k) := by omega
  have hk : k = j + 1 * (k - j) := by omega
  rw [hsum, ← List.range'_append, ← hk]

theorem valuesBetween_of_le (x : List ℤ) {k l : ℕ} (h : l ≤ k) :
    valuesBetween rates x k l = [] := by
  simp [valuesBetween, Nat.sub_eq_zero_of_le h]

theorem valuesBetween_of_lt (x : List ℤ) {k l : ℕ} (h : k < l) :
    valuesBetween rates x k l =
      valueAt rates x (k * rates.inputRate) :: valuesBetween rates x (k + 1) l := by
  have hlen : l - k = (l - (k + 1)) + 1 := by omega
  simp only [valuesBetween]
  rw [hlen, List.range'_succ, List.map_cons]

/-- Samples that follow do not change what was emitted. -/
theorem valuesBetween_extend (x c : List ℤ) (k : ℕ) :
    valuesBetween rates (x ++ c) k (emitted rates x.length) =
      valuesBetween rates x k (emitted rates x.length) := by
  apply List.map_congr_left
  intro j hj
  have hlt : j < emitted rates x.length := by
    have := List.mem_range'_1.mp hj
    omega
  exact valueAt_append (lt_outputsBefore_iff.mp hlt)

/-- How far the loop goes. -/
def loopBound (requireRightSample : Bool) (n : ℕ) : ℕ := if requireRightSample then n - 1 else n

/-- The loop on the samples from `base` on produces the values of the whole signal up to
its bound. -/
theorem produceLoop_drop {requireRightSample : Bool} {x : List ℤ} {base k : ℕ}
    (hbase : base ≤ x.length) (position : ℕ)
    (hposition : position + base * rates.outputRate = k * rates.inputRate) :
    let l := max k (outputsBefore rates (loopBound requireRightSample x.length))
    ∃ position', produceLoop rates requireRightSample (x.drop base) position =
        (valuesBetween rates x k l, position') ∧
      position' + base * rates.outputRate = l * rates.inputRate := by
  intro l
  -- the loop goes on exactly while the absolute position is below the bound
  have hgo : k < outputsBefore rates (loopBound requireRightSample x.length) ↔
      position / rates.outputRate < (x.drop base).length ∧
        ¬ (requireRightSample = true ∧
          (x.drop base).length ≤ position / rates.outputRate + 1) := by
    rw [lt_outputsBefore_iff, ← hposition, ← Nat.div_lt_iff_lt_mul rates.output_pos,
      Nat.add_mul_div_right _ _ rates.output_pos, List.length_drop]
    generalize position / rates.outputRate = left
    cases requireRightSample with
    | false => simp [loopBound]; omega
    | true => simp [loopBound]; omega
  by_cases hk : k < outputsBefore rates (loopBound requireRightSample x.length)
  · obtain ⟨hleft, hright⟩ := hgo.mp hk
    have hnext : position + rates.inputRate + base * rates.outputRate =
        (k + 1) * rates.inputRate := by
      rw [Nat.add_mul]
      omega
    obtain ⟨position', hloop, hposition'⟩ :=
      produceLoop_drop hbase
        (position + rates.inputRate) hnext
    have hmax : max (k + 1) (outputsBefore rates (loopBound requireRightSample x.length)) = l := by
      omega
    rw [hmax] at hloop hposition'
    have hkl : k < l := by omega
    refine ⟨position', ?_, hposition'⟩
    rw [produceLoop, if_pos hleft, if_neg hright, hloop, valuesBetween_of_lt x hkl,
      valueAt_drop hbase, hposition]
  · have hl : l = k := by omega
    refine ⟨position, ?_, by rw [hl, hposition]⟩
    rw [hl, valuesBetween_of_le x (Nat.le_refl k), produceLoop]
    by_cases hleft : position / rates.outputRate < (x.drop base).length
    · have hright : requireRightSample = true ∧
          (x.drop base).length ≤ position / rates.outputRate + 1 := by
        by_contra hright
        exact hk (hgo.mpr ⟨hleft, hright⟩)
      rw [if_pos hleft, if_pos hright]
    · rw [if_neg hleft]
termination_by (outputsBefore rates (loopBound requireRightSample x.length) - k)

/-- The values of a stream of chunks and the final `flush`. -/
def runSamples (r : Pcm16MonoStreamResampler rates) : List (List ℤ) → List ℤ
  | [] => (r.produce false).1
  | chunk :: chunks =>
      let produced := (r.extend chunk).produce true
      produced.1 ++ produced.2.runSamples chunks

/-- The resampler has emitted what the signal `x` allows and still holds what comes after. -/
def Tracks (x : List ℤ) (r : Pcm16MonoStreamResampler rates) : Prop :=
  ∃ base ≤ x.length, r.samples = x.drop base ∧
    r.positionNumerator + base * rates.outputRate = emitted rates x.length * rates.inputRate

theorem tracks_new : Tracks [] ({} : Pcm16MonoStreamResampler rates) :=
  ⟨0, Nat.le_refl 0, rfl, by simp [emitted, outputsBefore]⟩

theorem emitted_mono {m n : ℕ} (h : m ≤ n) : emitted rates m ≤ emitted rates n :=
  outputsBefore_mono (by omega)

theorem emitted_le_outputsBefore (n : ℕ) : emitted rates n ≤ outputsBefore rates n :=
  outputsBefore_mono (by omega)

/-- What a chunk does: it emits its values, and the resampler keeps track unless the next
position is past the buffer by more than one sample. -/
theorem produce_extend {x c : List ℤ} {r : Pcm16MonoStreamResampler rates} (h : Tracks x r) :
    let n := (x ++ c).length
    ((r.extend c).produce true).1 =
        valuesBetween rates (x ++ c) (emitted rates x.length) (emitted rates n) ∧
      (nextLeftIndex rates n ≤ n + 1 → Tracks (x ++ c) ((r.extend c).produce true).2) ∧
      (n + 1 < nextLeftIndex rates n → ((r.extend c).produce true).2 =
        ⟨[], rates.outputRate + emitted rates n * rates.inputRate % rates.outputRate⟩) := by
  intro n
  obtain ⟨base, hbase, hsamples, hposition⟩ := h
  have hbase' : base ≤ (x ++ c).length := by
    rw [List.length_append]
    omega
  have hextend : (r.extend c).samples = (x ++ c).drop base := by
    rw [extend, hsamples, List.drop_append_of_le_length hbase]
  obtain ⟨position, hloop, hposition'⟩ :=
    produceLoop_drop hbase' r.positionNumerator hposition
  have hmax : max (emitted rates x.length) (outputsBefore rates (loopBound true (x ++ c).length)) =
      emitted rates n := by
    have hmono : emitted rates x.length ≤ emitted rates n := emitted_mono (by simp [n])
    exact Nat.max_eq_right hmono
  rw [hmax] at hloop hposition'
  -- the position, relative to the buffer and in the whole signal
  have hdiv : nextLeftIndex rates n = position / rates.outputRate + base := by
    rw [nextLeftIndex, ← hposition', Nat.add_mul_div_right _ _ rates.output_pos]
  have hmod : emitted rates n * rates.inputRate % rates.outputRate =
      position % rates.outputRate := by
    rw [← hposition', Nat.add_mul_mod_self_right]
  have hsplit := Nat.div_add_mod position rates.outputRate
  have hproduce : (r.extend c).produce true =
      (valuesBetween rates (x ++ c) (emitted rates x.length) (emitted rates n),
        ⟨((x ++ c).drop base).drop (position / rates.outputRate - 1),
          position - (position / rates.outputRate - 1) * rates.outputRate⟩) := by
    unfold produce
    rw [hextend]
    simp only [extend, hloop]
  rw [hproduce]
  generalize hleft : position / rates.outputRate = left at hdiv hsplit
  refine ⟨rfl, fun hsafe => ?_, fun hover => ?_⟩
  · refine ⟨base + (left - 1), by omega, ?_, ?_⟩
    · simp only [List.drop_drop]
    · have hle : (left - 1) * rates.outputRate ≤ position := by
        calc (left - 1) * rates.outputRate ≤ left * rates.outputRate :=
              Nat.mul_le_mul_right _ (by omega)
          _ ≤ position := by rw [Nat.mul_comm]; omega
      show position - (left - 1) * rates.outputRate + (base + (left - 1)) * rates.outputRate =
        emitted rates n * rates.inputRate
      rw [Nat.add_mul]
      omega
  · have hnil : ((x ++ c).drop base).drop (left - 1) = [] := by
      apply List.drop_eq_nil_of_le
      rw [List.length_drop]
      omega
    have hsucc : left = (left - 1) + 1 := by omega
    have hrest : position - (left - 1) * rates.outputRate =
        rates.outputRate + position % rates.outputRate := by
      rw [hsucc, Nat.mul_add, Nat.mul_comm rates.outputRate (left - 1)] at hsplit
      omega
    rw [hnil, hrest, hmod]

/-- What `flush` produces of a signal that is tracked. -/
theorem produce_flush {x : List ℤ} {r : Pcm16MonoStreamResampler rates} (h : Tracks x r) :
    (r.produce false).1 =
      valuesBetween rates x (emitted rates x.length) (outputsBefore rates x.length) := by
  obtain ⟨base, hbase, hsamples, hposition⟩ := h
  obtain ⟨position, hloop, -⟩ :=
    produceLoop_drop hbase r.positionNumerator hposition
  have hmax : max (emitted rates x.length) (outputsBefore rates (loopBound false x.length)) =
      outputsBefore rates x.length := Nat.max_eq_right (emitted_le_outputsBefore _)
  rw [hmax] at hloop
  simp only [produce, hsamples, hloop]

/-! ## After an overrun -/

section Overrun

variable {z : List ℤ} {f : ℕ}

/-- With at most two samples the stream waits for more. -/
theorem produce_wait (hf : f < rates.outputRate) (hz : z.length ≤ 2) :
    produce ⟨z, rates.outputRate + f⟩ true = ([], (⟨z, rates.outputRate + f⟩ :
      Pcm16MonoStreamResampler rates)) := by
  have hdiv : (rates.outputRate + f) / rates.outputRate = 1 := by
    rw [Nat.add_div_left _ rates.output_pos, Nat.div_eq_of_lt hf]
  have hloop : produceLoop rates true z (rates.outputRate + f) = ([], rates.outputRate + f) := by
    rw [produceLoop, hdiv]
    by_cases hlen : 1 < z.length
    · rw [if_pos hlen, if_pos ⟨rfl, hz⟩]
    · rw [if_neg hlen]
  simp [produce, hloop, hdiv]

/-- The first value comes from the second sample. -/
theorem produce_first {requireRightSample : Bool} (hf : f < rates.outputRate)
    (hz : loopBound requireRightSample z.length ≥ 2) :
    ∃ rest, (produce ⟨z, rates.outputRate + f⟩ requireRightSample :
        List ℤ × Pcm16MonoStreamResampler rates).1 =
      valueAt rates z (rates.outputRate + f) :: rest := by
  have hdiv : (rates.outputRate + f) / rates.outputRate = 1 := by
    rw [Nat.add_div_left _ rates.output_pos, Nat.div_eq_of_lt hf]
  have hloop : ∃ rest position, produceLoop rates requireRightSample z (rates.outputRate + f) =
      (valueAt rates z (rates.outputRate + f) :: rest, position) := by
    rw [produceLoop, hdiv]
    cases requireRightSample with
    | false =>
        have hlen : 2 ≤ z.length := by simpa [loopBound] using hz
        rw [if_pos (by omega), if_neg (by simp)]
        exact ⟨_, _, rfl⟩
    | true =>
        have hlen : 2 < z.length := by
          simp only [loopBound, if_true] at hz
          omega
        rw [if_pos (by omega), if_neg (by omega)]
        exact ⟨_, _, rfl⟩
  obtain ⟨rest, position, hloop⟩ := hloop
  exact ⟨rest, by simp only [produce, hloop]⟩

/-- After an overrun the stream takes its next value between the second and the third
sample that follow, in whatever chunks they come. -/
theorem runSamples_overrun (hf : f < rates.outputRate) {chunks : List (List ℤ)}
    (hz : z.length ≤ 2) (hlen : 2 ≤ (z ++ chunks.flatten).length) :
    ∃ rest, runSamples (⟨z, rates.outputRate + f⟩ : Pcm16MonoStreamResampler rates) chunks =
      valueAt rates (z ++ chunks.flatten) (rates.outputRate + f) :: rest := by
  induction chunks generalizing z with
  | nil =>
      simp only [List.flatten_nil, List.append_nil] at hlen ⊢
      exact produce_first hf (by simpa [loopBound] using hlen)
  | cons c chunks ih =>
      rw [List.flatten_cons, ← List.append_assoc] at hlen ⊢
      by_cases hwait : (z ++ c).length ≤ 2
      · obtain ⟨rest, hrest⟩ := ih hwait hlen
        refine ⟨rest, ?_⟩
        simp only [runSamples, extend, produce_wait hf hwait, List.nil_append]
        exact hrest
      · obtain ⟨rest, hrest⟩ := @produce_first _ (z ++ c) _ true hf
          (by simp only [loopBound, if_true]; omega)
        have hposition : rates.outputRate + f < ((z ++ c).length - 1) * rates.outputRate := by
          calc rates.outputRate + f < 2 * rates.outputRate := by omega
            _ ≤ ((z ++ c).length - 1) * rates.outputRate := Nat.mul_le_mul_right _ (by omega)
        rw [valueAt_append hposition]
        simp only [runSamples, extend, hrest, List.cons_append]
        exact ⟨_, rfl⟩

/-- Nothing comes out of at most one sample. -/
theorem runSamples_overrun_nil (hf : f < rates.outputRate) {chunks : List (List ℤ)}
    (hlen : (z ++ chunks.flatten).length ≤ 1) :
    runSamples (⟨z, rates.outputRate + f⟩ : Pcm16MonoStreamResampler rates) chunks = [] := by
  induction chunks generalizing z with
  | nil =>
      simp only [List.flatten_nil, List.append_nil] at hlen
      have hdiv : (rates.outputRate + f) / rates.outputRate = 1 := by
        rw [Nat.add_div_left _ rates.output_pos, Nat.div_eq_of_lt hf]
      simp only [runSamples, produce]
      rw [produceLoop, hdiv, if_neg (by omega)]
  | cons c chunks ih =>
      rw [List.flatten_cons, ← List.append_assoc] at hlen
      have hwait : (z ++ c).length ≤ 2 := by
        rw [List.length_append] at hlen
        omega
      simp only [runSamples, extend, produce_wait hf hwait, List.nil_append]
      exact ih hlen

/-- Without samples nothing is produced. -/
theorem runSamples_nil {chunks : List (List ℤ)} (hnil : chunks.flatten = [])
    (r : Pcm16MonoStreamResampler rates) (hr : r.samples = []) : r.runSamples chunks = [] := by
  have hloop : ∀ b position, produceLoop rates b [] position = ([], position) := by
    intro b position
    rw [produceLoop, if_neg (by simp)]
  induction chunks generalizing r with
  | nil => simp [runSamples, produce, hr, hloop]
  | cons c chunks ih =>
      obtain ⟨hc, hchunks⟩ := List.append_eq_nil_iff.mp hnil
      have hproduced : ((r.extend c).produce true).1 = [] := by
        simp [produce, extend, hr, hc, hloop]
      have hsamples : ((r.extend c).produce true).2.samples = [] := by
        simp [produce, extend, hr, hc]
      simp only [runSamples, hproduced, List.nil_append]
      exact ih hchunks _ hsamples

/-- With three samples to come and a step of more than three, exactly one value comes. -/
theorem runSamples_overrun_three (hf : f < rates.outputRate)
    (hstep : 3 * rates.outputRate < rates.inputRate) {chunks : List (List ℤ)}
    (hz : z.length ≤ 2) (hlen : (z ++ chunks.flatten).length = 3) :
    runSamples (⟨z, rates.outputRate + f⟩ : Pcm16MonoStreamResampler rates) chunks =
      [valueAt rates (z ++ chunks.flatten) (rates.outputRate + f)] := by
  induction chunks generalizing z with
  | nil =>
      simp only [List.flatten_nil, List.append_nil] at hlen
      omega
  | cons c chunks ih =>
      rw [List.flatten_cons, ← List.append_assoc] at hlen ⊢
      by_cases hwait : (z ++ c).length ≤ 2
      · simp only [runSamples, extend, produce_wait hf hwait, List.nil_append]
        exact ih hwait hlen
      · have hrest : chunks.flatten = [] := by
          rw [List.length_append] at hlen
          exact List.eq_nil_of_length_eq_zero (by omega)
        rw [hrest, List.append_nil] at hlen ⊢
        have hdiv : (rates.outputRate + f) / rates.outputRate = 1 := by
          rw [Nat.add_div_left _ rates.output_pos, Nat.div_eq_of_lt hf]
        have hend : 4 ≤ (rates.outputRate + f + rates.inputRate) / rates.outputRate := by
          rw [Nat.le_div_iff_mul_le rates.output_pos]
          omega
        have hlast : produceLoop rates true (z ++ c) (rates.outputRate + f + rates.inputRate) =
            ([], rates.outputRate + f + rates.inputRate) := by
          rw [produceLoop, if_neg (by omega)]
        have hloop : produceLoop rates true (z ++ c) (rates.outputRate + f) =
            ([valueAt rates (z ++ c) (rates.outputRate + f)],
              rates.outputRate + f + rates.inputRate) := by
          rw [produceLoop, hdiv, if_pos (by omega), if_neg (by omega), hlast]
        have hsamples : (produce ⟨z ++ c, rates.outputRate + f⟩ true :
            List ℤ × Pcm16MonoStreamResampler rates).2.samples = [] := by
          simp only [produce, hloop]
          apply List.drop_eq_nil_of_le
          omega
        have hvalues : (produce ⟨z ++ c, rates.outputRate + f⟩ true :
            List ℤ × Pcm16MonoStreamResampler rates).1 =
            [valueAt rates (z ++ c) (rates.outputRate + f)] := by
          simp only [produce, hloop]
        simp only [runSamples, extend, hvalues, runSamples_nil hrest _ hsamples, List.append_nil]

end Overrun

/-! ## Safe chunks -/

/-- After `n` samples, with `m` to come, the next position is past the buffer by at most one
sample; or else nothing is left to go wrong: at most one sample is to come, or there are
three, the position is next to the last of them, and it is too close to the last to tell the
interpolation apart from the sample. -/
def SafeAfter (rates : Rates) (n m : ℕ) : Prop :=
  nextLeftIndex rates n ≤ n + 1 ∨ m ≤ 1 ∨
    (m = 3 ∧ nextLeftIndex rates n = n + 2 ∧
      131070 * (rates.outputRate - emitted rates n * rates.inputRate % rates.outputRate) <
        rates.outputRate)

/-- The chunk lengths are safe after every chunk. -/
def ChunkingSafe (rates : Rates) (lengths : List ℕ) : Prop :=
  ∀ done left, done ++ left = lengths → SafeAfter rates done.sum left.sum

/-- An overrun needs a step of more than three samples. -/
theorem three_mul_lt_of_overrun {n : ℕ} (h : n + 1 < nextLeftIndex rates n) :
    0 < n ∧ 3 * rates.outputRate < rates.inputRate := by
  have hle : (n + 2) * rates.outputRate ≤ emitted rates n * rates.inputRate := by
    rw [← Nat.le_div_iff_mul_le rates.output_pos]
    exact h
  have hpos := rates.output_pos
  have hemitted : 0 < emitted rates n := by
    by_contra hzero
    have hz : emitted rates n = 0 := by omega
    rw [hz, Nat.zero_mul, Nat.add_mul] at hle
    omega
  have hlt := outputsBefore_mul_lt (n := n - 1) hemitted
  have hn : 0 < n := by
    by_contra hzero
    have hz : n - 1 = 0 := by omega
    have hpos' := lt_outputsBefore_iff.mp hemitted
    rw [hz] at hpos'
    omega
  refine ⟨hn, ?_⟩
  obtain ⟨k, rfl⟩ : ∃ k, n = k + 1 := ⟨n - 1, by omega⟩
  simp only [emitted, Nat.add_sub_cancel, Nat.add_mul] at hle hlt
  omega

/-- Rates with a step of at most three samples are safe for all chunks. -/
theorem chunkingSafe_of_le (h : rates.inputRate ≤ 3 * rates.outputRate) (lengths : List ℕ) :
    ChunkingSafe rates lengths := by
  intro done left _
  by_contra hnotSafe
  have hover : done.sum + 1 < nextLeftIndex rates done.sum := by
    by_contra hle
    exact hnotSafe (.inl (by omega))
  have := (three_mul_lt_of_overrun hover).2
  omega

/-- Past an overrun, the next position stays the same until its samples come. -/
theorem emitted_of_overrun {n k : ℕ} (hk : k ≤ nextLeftIndex rates n) (hnk : n ≤ k + 1) :
    emitted rates (k + 1) = emitted rates n := by
  apply Nat.le_antisymm
  · by_contra hlt
    have hbelow := lt_outputsBefore_iff.mp (Nat.lt_of_not_le hlt)
    have hle : k * rates.outputRate ≤ emitted rates n * rates.inputRate := by
      rw [← Nat.le_div_iff_mul_le rates.output_pos]
      exact hk
    simp only [Nat.add_sub_cancel] at hbelow
    omega
  · exact emitted_mono hnk

section Values

variable {f : ℕ}

theorem valueAt_mul_add (x : List ℤ) (l : ℕ) (hf : f < rates.outputRate) :
    valueAt rates x (l * rates.outputRate + f) = interpolate rates (x.getD l 0)
      (x.getD (if l + 1 < x.length then l + 1 else l) 0) f := by
  have hdiv : (l * rates.outputRate + f) / rates.outputRate = l := by
    rw [Nat.add_comm, Nat.add_mul_div_right _ _ rates.output_pos, Nat.div_eq_of_lt hf, Nat.zero_add]
  have hmod : (l * rates.outputRate + f) % rates.outputRate = f := by
    rw [Nat.add_comm, Nat.add_mul_mod_self_right, Nat.mod_eq_of_lt hf]
  simp only [valueAt, hdiv, hmod]

/-- The interpolation as a distance from the right sample. -/
theorem interpolate_eq (a b : ℤ) (hf : f ≤ rates.outputRate) :
    interpolate rates a b f = roundHalfEven
      (b + (a - b) * (((rates.outputRate - f : ℕ) : ℚ) / rates.outputRate)) := by
  have hpos : (rates.outputRate : ℚ) ≠ 0 := by
    have := rates.output_pos
    positivity
  rw [interpolate]
  congr 1
  push_cast [hf]
  field_simp
  ring

/-- Close enough to its right neighbour, the interpolation is that neighbour. -/
theorem interpolate_of_near {a b : ℤ} (ha : IsSample a) (hb : IsSample b)
    (hf : f ≤ rates.outputRate) (hnear : 131070 * (rates.outputRate - f) < rates.outputRate) :
    interpolate rates a b f = b := by
  rw [interpolate_eq a b hf]
  apply roundHalfEven_eq_of_abs_sub_lt
  have hpos : (0 : ℚ) < rates.outputRate := by exact_mod_cast rates.output_pos
  have ht : ((rates.outputRate - f : ℕ) : ℚ) / rates.outputRate < 1 / 131070 := by
    rw [div_lt_div_iff₀ hpos (by norm_num)]
    have : (131070 : ℚ) * ((rates.outputRate - f : ℕ) : ℚ) < rates.outputRate := by
      exact_mod_cast hnear
    linarith
  have ht0 : (0 : ℚ) ≤ ((rates.outputRate - f : ℕ) : ℚ) / rates.outputRate := by positivity
  have hab : |(a : ℚ) - b| ≤ 65535 := by
    have ha' : (-32768 : ℚ) ≤ a ∧ (a : ℚ) ≤ 32767 := by exact_mod_cast ha
    have hb' : (-32768 : ℚ) ≤ b ∧ (b : ℚ) ≤ 32767 := by exact_mod_cast hb
    rw [abs_le]
    constructor <;> linarith
  rw [add_sub_cancel_left, abs_mul, abs_of_nonneg ht0]
  calc |(a : ℚ) - b| * (((rates.outputRate - f : ℕ) : ℚ) / rates.outputRate)
      ≤ 65535 * (((rates.outputRate - f : ℕ) : ℚ) / rates.outputRate) :=
        mul_le_mul_of_nonneg_right hab ht0
    _ < 65535 * (1 / 131070) := by linarith
    _ = 1 / 2 := by norm_num

/-- Only so close does the largest sample swallow the smallest. -/
theorem near_of_interpolate (hf : f ≤ rates.outputRate)
    (h : interpolate rates (-32768) 32767 f = 32767) :
    131070 * (rates.outputRate - f) < rates.outputRate := by
  rw [interpolate_eq _ _ hf] at h
  have hpos : (0 : ℚ) < rates.outputRate := by exact_mod_cast rates.output_pos
  have hlt := sub_half_lt_of_roundHalfEven_eq (n := 32767) (by decide) h
  push_cast at hlt
  have ht : ((rates.outputRate - f : ℕ) : ℚ) / rates.outputRate < 1 / 131070 := by linarith
  rw [div_lt_div_iff₀ hpos (by norm_num)] at ht
  have hcast : (131070 : ℚ) * ((rates.outputRate - f : ℕ) : ℚ) < rates.outputRate := by linarith
  exact_mod_cast hcast

end Values

/-! ## What should follow an overrun -/

section Expected

variable {x y : List ℤ}

theorem emitted_mul_eq (n : ℕ) : emitted rates n * rates.inputRate =
    nextLeftIndex rates n * rates.outputRate +
      emitted rates n * rates.inputRate % rates.outputRate := by
  rw [nextLeftIndex, Nat.mul_comm _ rates.outputRate, Nat.div_add_mod]

/-- Nothing, when the position is past the end. -/
theorem valuesBetween_past (h : (x ++ y).length ≤ nextLeftIndex rates x.length) :
    valuesBetween rates (x ++ y) (emitted rates x.length)
      (outputsBefore rates (x ++ y).length) = [] := by
  apply valuesBetween_of_le
  by_contra hlt
  have hbelow := lt_outputsBefore_iff.mp (Nat.lt_of_not_le hlt)
  rw [← Nat.div_lt_iff_lt_mul rates.output_pos] at hbelow
  have : nextLeftIndex rates x.length < (x ++ y).length := hbelow
  omega

/-- Otherwise the value at that position. -/
theorem valuesBetween_before (hx : x.length ≤ nextLeftIndex rates x.length)
    (h : nextLeftIndex rates x.length < (x ++ y).length) :
    valuesBetween rates (x ++ y) (emitted rates x.length) (outputsBefore rates (x ++ y).length) =
      valueAt rates y ((nextLeftIndex rates x.length - x.length) * rates.outputRate +
          emitted rates x.length * rates.inputRate % rates.outputRate) ::
        valuesBetween rates (x ++ y) (emitted rates x.length + 1)
          (outputsBefore rates (x ++ y).length) := by
  have hlt : emitted rates x.length < outputsBefore rates (x ++ y).length := by
    rw [lt_outputsBefore_iff, ← Nat.div_lt_iff_lt_mul rates.output_pos]
    exact h
  have hdrop : (x ++ y).drop x.length = y := by simp
  rw [valuesBetween_of_lt _ hlt]
  congr 1
  rw [← hdrop, valueAt_drop (by simp), Nat.add_right_comm, ← Nat.add_mul, Nat.sub_add_cancel hx,
    hdrop]
  exact congrArg _ (emitted_mul_eq _)

end Expected

/-! ## Safe chunks give the values of the signal -/

section Safe

variable {x : List ℤ} {chunks : List (List ℤ)}

/-- What follows an overrun that is safe. -/
theorem runSamples_overrun_of_safe (hover : x.length + 1 < nextLeftIndex rates x.length)
    (hsafe : SafeAfter rates x.length chunks.flatten.length)
    (hsamples : ∀ v ∈ chunks.flatten, IsSample v) :
    runSamples (⟨[], rates.outputRate +
        emitted rates x.length * rates.inputRate % rates.outputRate⟩ :
          Pcm16MonoStreamResampler rates) chunks =
      valuesBetween rates (x ++ chunks.flatten) (emitted rates x.length)
        (outputsBefore rates (x ++ chunks.flatten).length) := by
  have hf := Nat.mod_lt (emitted rates x.length * rates.inputRate) rates.output_pos
  have hlength : (x ++ chunks.flatten).length = x.length + chunks.flatten.length :=
    List.length_append
  rcases hsafe with hle | hone | ⟨hthree, hnext, hnear⟩
  · omega
  · rw [runSamples_overrun_nil hf (by simpa using hone), valuesBetween_past (by omega)]
  · have hstep := (three_mul_lt_of_overrun hover).2
    rw [runSamples_overrun_three hf hstep (by simp) (by simpa using hthree),
      valuesBetween_before (by omega) (by omega), List.nil_append]
    generalize hflat : chunks.flatten = y at *
    -- the value after the one next to the end is past the end
    have hlast : valuesBetween rates (x ++ y) (emitted rates x.length + 1)
        (outputsBefore rates (x ++ y).length) = [] := by
      apply valuesBetween_of_le
      by_contra hlt
      have hbelow := lt_outputsBefore_iff.mp (Nat.lt_of_not_le hlt)
      rw [hlength, hthree, Nat.add_mul, emitted_mul_eq, hnext, Nat.add_mul, Nat.add_mul] at hbelow
      omega
    obtain ⟨a, b, c, rfl⟩ := List.length_eq_three.mp hthree
    have hb : IsSample b := hsamples b (by simp)
    have hc : IsSample c := hsamples c (by simp)
    have hright : valueAt rates [a, b, c] (rates.outputRate +
        emitted rates x.length * rates.inputRate % rates.outputRate) = c := by
      have hvalue := valueAt_mul_add [a, b, c] 1 hf
      rw [Nat.one_mul] at hvalue
      rw [hvalue]
      exact interpolate_of_near hb hc (Nat.le_of_lt hf) hnear
    have hend : valueAt rates [a, b, c] ((nextLeftIndex rates x.length - x.length) *
        rates.outputRate + emitted rates x.length * rates.inputRate % rates.outputRate) = c := by
      have htwo : nextLeftIndex rates x.length - x.length = 2 := by omega
      rw [htwo, valueAt_mul_add _ 2 hf]
      exact interpolate_self c _
    rw [hlast, hright, hend]

/-- The values of a signal, after a chunk and after what follows it. -/
theorem valuesBetween_cons {c : List ℤ} {r : Pcm16MonoStreamResampler rates} (h : Tracks x r) :
    valuesBetween rates (x ++ (c :: chunks).flatten) (emitted rates x.length)
        (outputsBefore rates (x ++ (c :: chunks).flatten).length) =
      ((r.extend c).produce true).1 ++
        valuesBetween rates (x ++ c ++ chunks.flatten) (emitted rates (x ++ c).length)
          (outputsBefore rates (x ++ c ++ chunks.flatten).length) := by
  have hle : emitted rates x.length ≤ emitted rates (x ++ c).length := emitted_mono (by simp)
  have hle' : emitted rates (x ++ c).length ≤
      outputsBefore rates (x ++ c ++ chunks.flatten).length :=
    Nat.le_trans (emitted_le_outputsBefore _) (outputsBefore_mono (by simp))
  rw [List.flatten_cons, ← List.append_assoc, ← valuesBetween_append _ hle hle',
    valuesBetween_extend, (produce_extend h).1]

theorem runSamples_of_safe {r : Pcm16MonoStreamResampler rates} (h : Tracks x r)
    (hsafe : ∀ done left, done ++ left = chunks.map List.length →
      SafeAfter rates (x.length + done.sum) left.sum)
    (hsamples : ∀ v ∈ chunks.flatten, IsSample v) :
    r.runSamples chunks = valuesBetween rates (x ++ chunks.flatten) (emitted rates x.length)
      (outputsBefore rates (x ++ chunks.flatten).length) := by
  induction chunks generalizing x r with
  | nil =>
      simp only [List.flatten_nil, List.append_nil]
      exact produce_flush h
  | cons c chunks ih =>
      obtain ⟨-, htrack, hover⟩ := produce_extend (c := c) h
      have hchunks : ∀ v ∈ chunks.flatten, IsSample v := by
        intro v hv
        exact hsamples v (by simp only [List.flatten_cons, List.mem_append]; exact .inr hv)
      have hrest : ((r.extend c).produce true).2.runSamples chunks =
          valuesBetween rates (x ++ c ++ chunks.flatten) (emitted rates (x ++ c).length)
            (outputsBefore rates (x ++ c ++ chunks.flatten).length) := by
        by_cases hle : nextLeftIndex rates (x ++ c).length ≤ (x ++ c).length + 1
        · refine ih (htrack hle) (fun done left hsplit => ?_) hchunks
          have hnext := hsafe (c.length :: done) left (by simp [hsplit])
          simpa [Nat.add_assoc] using hnext
        · rw [hover (by omega)]
          have hnext := hsafe [c.length] (chunks.map List.length) rfl
          refine runSamples_overrun_of_safe (by omega) ?_ hchunks
          simpa [List.length_flatten] using hnext
      rw [valuesBetween_cons h, ← hrest]
      rfl

end Safe

/-! ## Unsafe chunks do not -/

section Unsafe

/-- A signal that jumps from silence to the largest sample. -/
def stepSignal (j m : ℕ) : List ℤ := List.replicate j 0 ++ List.replicate (m - j) 32767

variable {i j m : ℕ}

theorem getD_stepSignal_low (hi : i < j) : (stepSignal j m).getD i 0 = 0 := by
  rw [stepSignal, List.getD_eq_getElem?_getD, List.getElem?_append_left (by simpa using hi)]
  simp [hi]

theorem getD_stepSignal_high (hj : j ≤ i) (hi : i < m) : (stepSignal j m).getD i 0 = 32767 := by
  have hlt : i - j < m - j := by omega
  rw [stepSignal, List.getD_eq_getElem?_getD, List.getElem?_append_right (by simpa using hj)]
  simp [hlt]

theorem length_stepSignal (hj : j ≤ m) : (stepSignal j m).length = m := by
  simp [stepSignal]
  omega

theorem isSample_stepSignal {v : ℤ} (hv : v ∈ stepSignal j m) : IsSample v := by
  rcases List.mem_append.mp hv with hv | hv
  · rw [(List.mem_replicate.mp hv).2]
    decide
  · rw [(List.mem_replicate.mp hv).2]
    decide

/-- Two positions whose values differ for some signal. -/
theorem exists_valueAt_ne {f l : ℕ} (hf : f < rates.outputRate) (hl : 2 ≤ l) (hm : l < m)
    (hnear : ¬ (m = 3 ∧ l = 2 ∧ 131070 * (rates.outputRate - f) < rates.outputRate)) :
    ∃ y : List ℤ, y.length = m ∧ (∀ v ∈ y, IsSample v) ∧
      valueAt rates y (rates.outputRate + f) ≠ valueAt rates y (l * rates.outputRate + f) := by
  -- the value between the second and the third sample
  have hone : ∀ y : List ℤ, y.length = m → valueAt rates y (rates.outputRate + f) =
      interpolate rates (y.getD 1 0) (y.getD 2 0) f := by
    intro y hy
    have hvalue := valueAt_mul_add y 1 hf
    rw [Nat.one_mul, if_pos (by omega)] at hvalue
    exact hvalue
  by_cases hm3 : m = 3
  · have hl2 : l = 2 := by omega
    refine ⟨[0, -32768, 32767], by simp [hm3], by decide, fun hsame => ?_⟩
    rw [hone _ (by simp [hm3]), hl2, valueAt_mul_add _ 2 hf] at hsame
    have hright : interpolate rates (-32768) 32767 f = 32767 :=
      hsame.trans (interpolate_self 32767 f)
    exact hnear ⟨hm3, hl2, near_of_interpolate (Nat.le_of_lt hf) hright⟩
  · -- the two signals cannot both agree: one would need the value 0, the other 32767
    have hlow := hone (stepSignal 3 m) (length_stepSignal (by omega))
    rw [getD_stepSignal_low (by omega), getD_stepSignal_low (by omega), interpolate_self] at hlow
    have hgood : ∀ j, ∀ v ∈ stepSignal j m, IsSample v := fun j v hv => isSample_stepSignal hv
    by_cases hl2 : l = 2
    · by_cases hsame : valueAt rates (stepSignal 3 m) (rates.outputRate + f) =
          valueAt rates (stepSignal 3 m) (l * rates.outputRate + f)
      · refine ⟨stepSignal 2 m, length_stepSignal (by omega), hgood 2, fun hsame' => ?_⟩
        rw [hlow, valueAt_mul_add _ l hf, length_stepSignal (by omega), if_pos (by omega),
          getD_stepSignal_low (by omega), getD_stepSignal_high (by omega) (by omega)] at hsame
        rw [hone _ (length_stepSignal (by omega)), valueAt_mul_add _ l hf,
          length_stepSignal (by omega), if_pos (by omega), getD_stepSignal_low (by omega),
          getD_stepSignal_high (by omega) (by omega), getD_stepSignal_high (by omega) (by omega),
          getD_stepSignal_high (by omega) (by omega), interpolate_self, ← hsame] at hsame'
        cases hsame'
      · exact ⟨stepSignal 3 m, length_stepSignal (by omega), hgood 3, hsame⟩
    · refine ⟨stepSignal 3 m, length_stepSignal (by omega), hgood 3, fun hsame => ?_⟩
      rw [hlow, valueAt_mul_add _ l hf, getD_stepSignal_high (by omega) (by omega),
        getD_stepSignal_high (by split <;> omega) (by rw [length_stepSignal (by omega)]; split <;> omega),
        interpolate_self] at hsame
      cases hsame

/-- After an overrun that is not safe, some samples come out wrong. -/
theorem exists_runSamples_overrun_ne {x : List ℤ} {lengths : List ℕ}
    (hover : x.length + 1 < nextLeftIndex rates x.length)
    (hnotSafe : ¬ SafeAfter rates x.length lengths.sum) :
    ∃ chunks : List (List ℤ), chunks.map List.length = lengths ∧
      (∀ v ∈ chunks.flatten, IsSample v) ∧
      runSamples (⟨[], rates.outputRate +
          emitted rates x.length * rates.inputRate % rates.outputRate⟩ :
            Pcm16MonoStreamResampler rates) chunks ≠
        valuesBetween rates (x ++ chunks.flatten) (emitted rates x.length)
          (outputsBefore rates (x ++ chunks.flatten).length) := by
  have hf := Nat.mod_lt (emitted rates x.length * rates.inputRate) rates.output_pos
  simp only [SafeAfter, not_or] at hnotSafe
  obtain ⟨-, htwo, hcorner⟩ := hnotSafe
  -- it is enough to find the samples as a whole
  have hsplit : ∀ y : List ℤ, y.length = lengths.sum →
      (lengths.splitLengths y).flatten = y ∧ (lengths.splitLengths y).map List.length = lengths :=
    fun y hy => ⟨List.flatten_splitLengths _ _ (by omega), List.map_splitLengths_length _ _ (by omega)⟩
  have hrun : ∀ y : List ℤ, y.length = lengths.sum →
      ∃ rest, runSamples (⟨[], rates.outputRate +
          emitted rates x.length * rates.inputRate % rates.outputRate⟩ :
            Pcm16MonoStreamResampler rates) (lengths.splitLengths y) =
        valueAt rates y (rates.outputRate +
          emitted rates x.length * rates.inputRate % rates.outputRate) :: rest := by
    intro y hy
    have hfirst := runSamples_overrun (z := []) hf
      (by simp) (by rw [(hsplit y hy).1]; simp; omega)
    rwa [(hsplit y hy).1, List.nil_append] at hfirst
  by_cases hpast : x.length + lengths.sum ≤ nextLeftIndex rates x.length
  · have hy : (List.replicate lengths.sum (0 : ℤ)).length = lengths.sum := by simp
    obtain ⟨hflat, hmap⟩ := hsplit _ hy
    obtain ⟨rest, hrest⟩ := hrun _ hy
    refine ⟨lengths.splitLengths (List.replicate lengths.sum 0), hmap, ?_, ?_⟩
    · rw [hflat]
      intro v hv
      rw [(List.mem_replicate.mp hv).2]
      decide
    · rw [hflat, hrest, valuesBetween_past (by simpa using hpast)]
      exact List.cons_ne_nil _ _
  · obtain ⟨y, hy, hgood, hne⟩ := exists_valueAt_ne (m := lengths.sum)
      (l := nextLeftIndex rates x.length - x.length) hf (by omega) (by omega)
      (fun h => hcorner ⟨h.1, by omega, h.2.2⟩)
    obtain ⟨hflat, hmap⟩ := hsplit y hy
    obtain ⟨rest, hrest⟩ := hrun y hy
    refine ⟨lengths.splitLengths y, hmap, by rwa [hflat], ?_⟩
    rw [hflat, hrest, valuesBetween_before (by omega) (by rw [List.length_append, hy]; omega)]
    exact fun hsame => hne (List.cons.inj hsame).1

/-- An unsafe overrun is not preceded by a safe one. -/
theorem not_safeAfter_of_overrun {n d m : ℕ} (hover : n + 1 < nextLeftIndex rates n)
    (hnotSafe : ¬ SafeAfter rates (n + d) m) : ¬ SafeAfter rates n (d + m) := by
  intro hsafe
  have htwo : 2 ≤ m := by
    by_contra hlt
    exact hnotSafe (.inr (.inl (by omega)))
  rcases hsafe with hle | hone | ⟨hthree, hnext, hnear⟩
  · omega
  · omega
  · by_cases hd : d = 0
    · subst hd
      exact hnotSafe (.inr (.inr ⟨by omega, hnext, hnear⟩))
    · have hd1 : d = 1 := by omega
      subst hd1
      have hsame : nextLeftIndex rates (n + 1) = nextLeftIndex rates n := by
        simp only [nextLeftIndex]
        rw [emitted_of_overrun (n := n) (by omega) (by omega)]
      exact hnotSafe (.inl (by omega))

theorem exists_runSamples_ne {lengths : List ℕ} {x : List ℤ} {r : Pcm16MonoStreamResampler rates}
    (h : Tracks x r) {done left : List ℕ} (hsplit : done ++ left = lengths) (hdone : done ≠ [])
    (hnotSafe : ¬ SafeAfter rates (x.length + done.sum) left.sum) :
    ∃ chunks : List (List ℤ), chunks.map List.length = lengths ∧
      (∀ v ∈ chunks.flatten, IsSample v) ∧
      r.runSamples chunks ≠ valuesBetween rates (x ++ chunks.flatten) (emitted rates x.length)
        (outputsBefore rates (x ++ chunks.flatten).length) := by
  induction lengths generalizing x r done with
  | nil => exact absurd (List.append_eq_nil_iff.mp hsplit).1 hdone
  | cons n lengths ih =>
      obtain ⟨d, done, rfl⟩ := List.exists_cons_of_ne_nil hdone
      obtain ⟨rfl, htail⟩ : d = n ∧ done ++ left = lengths := by simpa using hsplit
      have hc : (x ++ List.replicate d (0 : ℤ)).length = x.length + d := by simp
      obtain ⟨-, htrack, hover⟩ := produce_extend (c := List.replicate d 0) h
      have hnotSafe' : ¬ SafeAfter rates ((x ++ List.replicate d (0 : ℤ)).length + done.sum)
          left.sum := by
        rw [hc]
        simpa [Nat.add_assoc] using hnotSafe
      -- silence first, and then what the rest of the chunks needs
      have hrest : ∃ chunks : List (List ℤ), chunks.map List.length = lengths ∧
          (∀ v ∈ chunks.flatten, IsSample v) ∧
          ((r.extend (List.replicate d 0)).produce true).2.runSamples chunks ≠
            valuesBetween rates (x ++ List.replicate d 0 ++ chunks.flatten)
              (emitted rates (x ++ List.replicate d (0 : ℤ)).length)
              (outputsBefore rates (x ++ List.replicate d 0 ++ chunks.flatten).length) := by
        by_cases hle : nextLeftIndex rates (x ++ List.replicate d (0 : ℤ)).length ≤
            (x ++ List.replicate d (0 : ℤ)).length + 1
        · have hne : done ≠ [] := by
            rintro rfl
            exact hnotSafe' (.inl hle)
          exact ih (htrack hle) htail hne hnotSafe'
        · rw [hover (by omega)]
          have hfirst := not_safeAfter_of_overrun (by omega) hnotSafe'
          rw [← List.sum_append, htail] at hfirst
          exact exists_runSamples_overrun_ne (by omega) hfirst
      obtain ⟨chunks, hmap, hgood, hne⟩ := hrest
      refine ⟨List.replicate d 0 :: chunks, by simp [hmap], ?_, ?_⟩
      · intro v hv
        rcases List.mem_append.mp hv with hv | hv
        · rw [(List.mem_replicate.mp hv).2]
          decide
        · exact hgood v hv
      · rw [valuesBetween_cons h]
        exact fun hsame => hne (List.append_cancel_left hsame)

end Unsafe

/-! ## Values of a whole signal -/

/-- The values of a signal at all multiples of the input rate. -/
def resampled (rates : Rates) (x : List ℤ) : List ℤ :=
  valuesBetween rates x 0 (outputsBefore rates x.length)

/-- Chunks of given lengths give the values of the whole signal, whatever the samples are,
exactly when the lengths are safe. -/
theorem runSamples_eq_iff (lengths : List ℕ) :
    (∀ chunks : List (List ℤ), chunks.map List.length = lengths →
      (∀ v ∈ chunks.flatten, IsSample v) →
      runSamples ({} : Pcm16MonoStreamResampler rates) chunks = resampled rates chunks.flatten) ↔
    ChunkingSafe rates lengths := by
  have hzero : emitted rates ([] : List ℤ).length = 0 := by simp [emitted, outputsBefore]
  constructor
  · intro h done left hsplit
    by_contra hnotSafe
    have hdone : done ≠ [] := by
      rintro rfl
      exact hnotSafe (.inl (by simp [nextLeftIndex, emitted, outputsBefore]))
    obtain ⟨chunks, hmap, hgood, hne⟩ :=
      exists_runSamples_ne tracks_new hsplit hdone (by simpa using hnotSafe)
    rw [hzero] at hne
    exact hne (h chunks hmap hgood)
  · rintro hsafe chunks rfl hgood
    have hrun := runSamples_of_safe tracks_new
      (fun done left hsplit => by simpa using hsafe done left hsplit) hgood
    rw [hzero] at hrun
    exact hrun

theorem runSamples_whole {x : List ℤ} (hx : ∀ v ∈ x, IsSample v) :
    runSamples ({} : Pcm16MonoStreamResampler rates) [x] = resampled rates x := by
  have hsafe : ChunkingSafe rates [x.length] := by
    intro done left hsplit
    rcases done with _ | ⟨d, done⟩
    · exact .inl (by simp [nextLeftIndex, emitted, outputsBefore])
    · have hleft : left = [] := by
        obtain ⟨-, hnil⟩ : d = x.length ∧ done ++ left = [] := by simpa using hsplit
        exact (List.append_eq_nil_iff.mp hnil).2
      exact .inr (.inl (by simp [hleft]))
  have hrun := (runSamples_eq_iff [x.length]).mpr hsafe [x] rfl (by simpa using hx)
  simpa using hrun

/-! ## Bytes -/

theorem isSample_valueAt {samples : List ℤ} (h : ∀ v ∈ samples, IsSample v) (position : ℕ) :
    IsSample (valueAt rates samples position) := by
  have hget : ∀ i, IsSample (samples.getD i 0) := by
    intro i
    rw [List.getD_eq_getElem?_getD]
    cases hi : samples[i]? with
    | none => decide
    | some v => exact h v (List.mem_of_getElem? hi)
  exact isSample_interpolate (hget _) (hget _) (Nat.le_of_lt (Nat.mod_lt _ rates.output_pos))

theorem isSample_produceLoop {b : Bool} {samples : List ℤ} (h : ∀ v ∈ samples, IsSample v)
    (position : ℕ) : ∀ v ∈ (produceLoop rates b samples position).1, IsSample v := by
  fun_induction produceLoop rates b samples position with
  | case1 => simp
  | case2 position hleft hright produced ih =>
      intro v hv
      rcases List.mem_cons.mp hv with rfl | hv
      · exact isSample_valueAt h position
      · exact ih v hv
  | case3 => simp

/-- Out of 16-bit samples come 16-bit values. -/
theorem isSample_runSamples {chunks : List (List ℤ)} {r : Pcm16MonoStreamResampler rates}
    (hr : ∀ v ∈ r.samples, IsSample v) (hchunks : ∀ v ∈ chunks.flatten, IsSample v) :
    ∀ v ∈ r.runSamples chunks, IsSample v := by
  induction chunks generalizing r with
  | nil => exact isSample_produceLoop hr _
  | cons c chunks ih =>
      have hextend : ∀ v ∈ (r.extend c).samples, IsSample v := by
        intro v hv
        rcases List.mem_append.mp hv with hv | hv
        · exact hr v hv
        · exact hchunks v (List.mem_append_left _ hv)
      intro v hv
      rcases List.mem_append.mp hv with hv | hv
      · exact isSample_produceLoop hextend _ v hv
      · exact ih (fun v hv => hextend v (List.mem_of_mem_drop hv))
          (fun v hv => hchunks v (List.mem_append_right _ hv)) v hv

end Pcm16MonoStreamResampler

open Pcm16MonoStreamResampler

theorem isSample_unpackSample (low high : UInt8) : IsSample (unpackSample low high) := by
  have hlow := low.toNat_lt
  have hhigh := high.toNat_lt
  unfold unpackSample IsSample
  simp only
  split <;> omega

theorem isSample_of_mem_unpackSamples {pcm : List UInt8} : ∀ v ∈ unpackSamples pcm, IsSample v := by
  fun_induction unpackSamples pcm with
  | case1 low high rest ih =>
      intro v hv
      rcases List.mem_cons.mp hv with rfl | hv
      · exact isSample_unpackSample low high
      · exact ih v hv
  | case2 => simp

theorem unpackSamples_append {pcm rest : List UInt8} (h : pcm.length % 2 = 0) :
    unpackSamples (pcm ++ rest) = unpackSamples pcm ++ unpackSamples rest := by
  fun_induction unpackSamples pcm with
  | case1 low high pcm ih =>
      have heven : pcm.length % 2 = 0 := by
        simp only [List.length_cons] at h
        omega
      simp only [List.cons_append, unpackSamples, ih heven]
  | case2 pcm hshort =>
      match pcm, hshort, h with
      | [], _, _ => rfl
      | [_], _, h => simp at h
      | low :: high :: pcm, hshort, _ => exact absurd rfl (hshort low high pcm)

theorem unpackSamples_flatten {chunks : List (List UInt8)} (h : ∀ c ∈ chunks, c.length % 2 = 0) :
    unpackSamples chunks.flatten = (chunks.map unpackSamples).flatten := by
  induction chunks with
  | nil => rfl
  | cons c chunks ih =>
      have htail := ih fun c hc => h c (List.mem_cons_of_mem _ hc)
      rw [List.flatten_cons, unpackSamples_append (h c List.mem_cons_self), htail, List.map_cons,
        List.flatten_cons]

/-- Packing a 16-bit value loses nothing. -/
theorem unpackSamples_packSample {v : ℤ} (hv : IsSample v) (rest : List UInt8) :
    unpackSamples (packSample v ++ rest) = v :: unpackSamples rest := by
  obtain ⟨hlo, hhi⟩ := hv
  simp only [packSample, List.cons_append, List.nil_append, unpackSamples, unpackSample,
    UInt8.toNat_ofNat', List.cons.injEq, and_true]
  split <;> omega

theorem unpackSamples_packSamples {values : List ℤ} (h : ∀ v ∈ values, IsSample v) :
    unpackSamples (packSamples values) = values := by
  induction values with
  | nil => rfl
  | cons v values ih =>
      have htail := ih fun w hw => h w (List.mem_cons_of_mem _ hw)
      rw [packSamples, List.flatMap_cons, unpackSamples_packSample (h v List.mem_cons_self)]
      exact congrArg _ htail

section Bytes

variable {rates : Rates} {chunks : List (List UInt8)}

/-- The stream on bytes is the stream on samples. -/
theorem stream_eq_packSamples (hrates : rates.inputRate ≠ rates.outputRate)
    (h : ∀ c ∈ chunks, c.length % 2 = 0) (r : Pcm16MonoStreamResampler rates) :
    r.stream chunks = .ok (packSamples (r.runSamples (chunks.map unpackSamples))) := by
  induction chunks generalizing r with
  | nil => rfl
  | cons c chunks ih =>
      have heven := h c List.mem_cons_self
      have htail := ih fun c hc => h c (List.mem_cons_of_mem _ hc)
      simp only [stream, process, heven, ne_eq, not_true_eq_false, if_false, hrates, htail,
        List.map_cons, runSamples, Except.map, packSamples, List.flatMap_append]

theorem resample_eq_packSamples (hrates : rates.inputRate ≠ rates.outputRate) {pcm : List UInt8}
    (h : pcm.length % 2 = 0) :
    resamplePcm16Mono rates pcm = .ok (packSamples (resampled rates (unpackSamples pcm))) := by
  have hstream := @stream_eq_packSamples _ [pcm] hrates (by simpa using h) {}
  simp only [List.map_cons, List.map_nil, runSamples_whole isSample_of_mem_unpackSamples] at hstream
  rw [← hstream]
  simp [resamplePcm16Mono, stream, process, h, hrates, Except.map]

/-- Between equal rates every chunk is passed on. -/
theorem stream_of_eq (hrates : rates.inputRate = rates.outputRate)
    (h : ∀ c ∈ chunks, c.length % 2 = 0) :
    streamPcm16Mono rates chunks = .ok chunks.flatten := by
  unfold streamPcm16Mono
  induction chunks with
  | nil =>
      have hloop : produceLoop rates false [] 0 = ([], 0) := by rw [produceLoop, if_neg (by simp)]
      simp [stream, flush, produce, hloop, packSamples]
  | cons c chunks ih =>
      have heven := h c List.mem_cons_self
      have htail := ih fun c hc => h c (List.mem_cons_of_mem _ hc)
      simp only [stream, process, heven, ne_eq, not_true_eq_false, if_false, hrates, if_true, htail,
        Except.map, List.flatten_cons]

theorem resample_of_eq (hrates : rates.inputRate = rates.outputRate) {pcm : List UInt8}
    (h : pcm.length % 2 = 0) : resamplePcm16Mono rates pcm = .ok pcm := by
  have hstream := @stream_of_eq _ [pcm] hrates (by simpa using h)
  simp only [List.flatten_cons, List.flatten_nil, List.append_nil] at hstream
  rw [← hstream]
  simp [resamplePcm16Mono, streamPcm16Mono, stream, process, h, hrates, Except.map]

/-- For all rates and all lengths of chunks, in samples: the chunks one by one and a final
`flush` give the bytes of the whole string, whatever the bytes are, exactly when the lengths
are safe. -/
theorem stream_eq_resample_iff (rates : Rates) (lengths : List ℕ) :
    (∀ chunks : List (List UInt8), chunks.map List.length = lengths.map (2 * ·) →
      ∃ output, streamPcm16Mono rates chunks = .ok output ∧
        resamplePcm16Mono rates chunks.flatten = .ok output) ↔
    ChunkingSafe rates lengths := by
  have heven : ∀ chunks : List (List UInt8), chunks.map List.length = lengths.map (2 * ·) →
      ∀ c ∈ chunks, c.length % 2 = 0 := by
    intro chunks hmap c hc
    have hmem : c.length ∈ lengths.map (2 * ·) := hmap ▸ List.mem_map_of_mem hc
    obtain ⟨n, -, hn⟩ := List.mem_map.mp hmem
    omega
  have hflat : ∀ chunks : List (List UInt8), (∀ c ∈ chunks, c.length % 2 = 0) →
      chunks.flatten.length % 2 = 0 := by
    intro chunks h
    rw [List.length_flatten]
    induction chunks with
    | nil => rfl
    | cons c chunks ih =>
        have hc := h c List.mem_cons_self
        have htail := ih fun c hc => h c (List.mem_cons_of_mem _ hc)
        rw [List.map_cons, List.sum_cons]
        omega
  by_cases hrates : rates.inputRate = rates.outputRate
  · have hle : rates.inputRate ≤ 3 * rates.outputRate := by omega
    refine ⟨fun _ => chunkingSafe_of_le hle lengths, fun _ chunks hmap => ?_⟩
    have h := heven chunks hmap
    exact ⟨chunks.flatten, stream_of_eq hrates h, resample_of_eq hrates (hflat chunks h)⟩
  rw [← runSamples_eq_iff]
  constructor
  · intro h chunks hmap hgood
    -- the bytes of the samples
    have hbytes : (chunks.map packSamples).map List.length = lengths.map (2 * ·) := by
      rw [← hmap]
      simp [length_packSamples]
    have hpacked := heven _ hbytes
    have hunpack : (chunks.map packSamples).map unpackSamples = chunks := by
      rw [List.map_map]
      refine (List.map_congr_left fun c hc => ?_).trans (List.map_id chunks)
      exact unpackSamples_packSamples fun v hv => hgood v (List.mem_flatten.mpr ⟨c, hc, hv⟩)
    obtain ⟨output, hstream, hwhole⟩ := h _ hbytes
    rw [streamPcm16Mono, stream_eq_packSamples hrates hpacked, hunpack] at hstream
    rw [resample_eq_packSamples hrates (hflat _ hpacked), unpackSamples_flatten hpacked, hunpack,
      ← hstream] at hwhole
    have hsame := congrArg unpackSamples (Except.ok.inj hwhole)
    rw [← runSamples_whole hgood, unpackSamples_packSamples, unpackSamples_packSamples] at hsame
    · rw [← runSamples_whole hgood]
      exact hsame.symm
    · exact isSample_runSamples (by simp) hgood
    · exact isSample_runSamples (by simp) (by simpa using hgood)
  · intro h chunks hmap
    have hc := heven chunks hmap
    have hlengths : (chunks.map unpackSamples).map List.length = lengths := by
      have hhalf := congrArg (List.map (· / 2)) hmap
      simp only [List.map_map] at hhalf ⊢
      refine Eq.trans ?_ (hhalf.trans ?_)
      · exact List.map_congr_left fun c _ => length_unpackSamples c
      · refine (List.map_congr_left fun n _ => ?_).trans (List.map_id lengths)
        simp
    have hrun := h _ hlengths (by
      rw [← unpackSamples_flatten hc]
      exact isSample_of_mem_unpackSamples)
    refine ⟨packSamples (resampled rates (chunks.map unpackSamples).flatten), ?_, ?_⟩
    · rw [streamPcm16Mono, stream_eq_packSamples hrates hc, hrun]
    · rw [resample_eq_packSamples hrates (hflat _ hc), unpackSamples_flatten hc]

end Bytes

/-- Two chunks of two samples each, from 96 to 24 kHz: the stream takes its second value
from the fourth sample, which is past the last output position. -/
theorem stream_ne_resample :
    streamPcm16Mono ⟨96000, 24000, by decide, by decide⟩ [[1, 0, 2, 0], [3, 0, 4, 0]] =
        .ok [1, 0, 4, 0] ∧
      resamplePcm16Mono ⟨96000, 24000, by decide, by decide⟩ [1, 0, 2, 0, 3, 0, 4, 0] =
        .ok [1, 0] := by
  decide +kernel

end VoxBench.Media
