import VoxBench.Lib.Rounding
import Mathlib.Data.List.Basic

/-!
# PCM16 resampling

`Pcm16MonoStreamResampler` turns a stream of 16-bit mono samples from one rate to another
by linear interpolation. It keeps the samples it may still need and the position of its
next output among them, as a numerator over the output rate. After a chunk it drops the
samples before that position. The division and `round` are exact.

## Main definitions

* `Pcm16MonoStreamResampler.process`, `flush` — the stream.
* `resamplePcm16Mono` — all at once.
-/

namespace VoxBench.Media

open VoxBench.Lib

/-! ## Samples -/

/-- One sample of `struct.iter_unpack("<h", …)`. -/
def unpackSample (low high : UInt8) : ℤ :=
  let word := low.toNat + 256 * high.toNat
  if word < 32768 then word else word - 65536

/-- `struct.iter_unpack("<h", …)`, on an even number of bytes. -/
def unpackSamples : List UInt8 → List ℤ
  | low :: high :: rest => unpackSample low high :: unpackSamples rest
  | _ => []

/-- `struct.pack("<h", value)`, on a 16-bit value. -/
def packSample (value : ℤ) : List UInt8 :=
  let word := (value % 65536).toNat
  [UInt8.ofNat (word % 256), UInt8.ofNat (word / 256)]

def packSamples (values : List ℤ) : List UInt8 := values.flatMap packSample

/-- A 16-bit sample. -/
def IsSample (value : ℤ) : Prop := -32768 ≤ value ∧ value ≤ 32767

instance (value : ℤ) : Decidable (IsSample value) :=
  inferInstanceAs (Decidable (-32768 ≤ value ∧ value ≤ 32767))

theorem length_unpackSamples (pcm : List UInt8) : (unpackSamples pcm).length = pcm.length / 2 := by
  fun_induction unpackSamples pcm with
  | case1 low high rest ih =>
      simp only [List.length_cons, ih]
      omega
  | case2 pcm hshort =>
      match pcm, hshort with
      | [], _ => rfl
      | [_], _ => simp
      | low :: high :: pcm, hshort => exact absurd rfl (hshort low high pcm)

theorem length_packSamples (values : List ℤ) : (packSamples values).length = 2 * values.length := by
  induction values with
  | nil => rfl
  | cons v values ih =>
      simp only [packSamples, List.flatMap_cons, List.length_append, List.length_cons] at ih ⊢
      rw [ih]
      simp only [packSample, List.length_cons, List.length_nil]
      omega

/-! ## The resampler -/

inductive PcmError where
  | valueError (reason : String)
  deriving DecidableEq, Repr

/-- Two positive sample rates. -/
structure Rates where
  inputRate : ℕ
  outputRate : ℕ
  input_pos : 0 < inputRate
  output_pos : 0 < outputRate

/-- `__post_init__`. -/
def Rates.make (inputRate outputRate : ℤ) : Except PcmError Rates :=
  if h : 0 < inputRate ∧ 0 < outputRate then
    .ok ⟨inputRate.toNat, outputRate.toNat, by omega, by omega⟩
  else .error (.valueError "sample rates must be positive")

structure Pcm16MonoStreamResampler (rates : Rates) where
  samples : List ℤ := []
  positionNumerator : ℕ := 0
  deriving DecidableEq, Repr

namespace Pcm16MonoStreamResampler

variable {rates : Rates}

/-- The value between two samples. -/
def interpolate (rates : Rates) (left right : ℤ) (fractionNumerator : ℕ) : ℤ :=
  roundHalfEven
    (((left * (rates.outputRate - fractionNumerator) + right * fractionNumerator : ℤ) : ℚ) /
      rates.outputRate)

/-- The value at a position. After the last sample there is nothing to interpolate with. -/
def valueAt (rates : Rates) (samples : List ℤ) (position : ℕ) : ℤ :=
  let leftIndex := position / rates.outputRate
  let rightIndex := if leftIndex + 1 < samples.length then leftIndex + 1 else leftIndex
  interpolate rates (samples.getD leftIndex 0) (samples.getD rightIndex 0)
    (position % rates.outputRate)

/-- The loop of `_produce`: the values and the position after them. -/
def produceLoop (rates : Rates) (requireRightSample : Bool) (samples : List ℤ) (position : ℕ) :
    List ℤ × ℕ :=
  if position / rates.outputRate < samples.length then
    if requireRightSample ∧ samples.length ≤ position / rates.outputRate + 1 then ([], position)
    else
      let produced := produceLoop rates requireRightSample samples (position + rates.inputRate)
      (valueAt rates samples position :: produced.1, produced.2)
  else ([], position)
termination_by samples.length * rates.outputRate - position
decreasing_by
  have hlt := (Nat.div_lt_iff_lt_mul rates.output_pos).mp (by assumption)
  have hpos := rates.input_pos
  omega

/-- `_produce`, before its values are packed. -/
def produce (r : Pcm16MonoStreamResampler rates) (requireRightSample : Bool) :
    List ℤ × Pcm16MonoStreamResampler rates :=
  let produced := produceLoop rates requireRightSample r.samples r.positionNumerator
  let consumed := produced.2 / rates.outputRate - 1
  (produced.1,
    { samples := r.samples.drop consumed
      positionNumerator := produced.2 - consumed * rates.outputRate })

/-- The samples of a chunk join the buffer. -/
def extend (r : Pcm16MonoStreamResampler rates) (chunk : List ℤ) :
    Pcm16MonoStreamResampler rates :=
  { r with samples := r.samples ++ chunk }

def process (r : Pcm16MonoStreamResampler rates) (pcm : List UInt8) :
    Except PcmError (List UInt8 × Pcm16MonoStreamResampler rates) :=
  if pcm.length % 2 ≠ 0 then
    .error (.valueError "PCM16LE data length must be divisible by two")
  else if rates.inputRate = rates.outputRate then .ok (pcm, r)
  else
    let produced := (r.extend (unpackSamples pcm)).produce true
    .ok (packSamples produced.1, produced.2)

def flush (r : Pcm16MonoStreamResampler rates) :
    List UInt8 × Pcm16MonoStreamResampler rates :=
  (packSamples (r.produce false).1, {})

/-- The chunks one by one and then `flush`, with everything they return. -/
def stream (r : Pcm16MonoStreamResampler rates) : List (List UInt8) → Except PcmError (List UInt8)
  | [] => .ok r.flush.1
  | chunk :: chunks =>
      match r.process chunk with
      | .error e => .error e
      | .ok (output, r') => (r'.stream chunks).map (output ++ ·)

end Pcm16MonoStreamResampler

/-- `resample_pcm16_mono`. -/
def resamplePcm16Mono (rates : Rates) (pcm : List UInt8) : Except PcmError (List UInt8) :=
  match ({} : Pcm16MonoStreamResampler rates).process pcm with
  | .error e => .error e
  | .ok (output, r) => .ok (output ++ r.flush.1)

/-- The stream of chunks from a new resampler. -/
def streamPcm16Mono (rates : Rates) (chunks : List (List UInt8)) : Except PcmError (List UInt8) :=
  ({} : Pcm16MonoStreamResampler rates).stream chunks

end VoxBench.Media
