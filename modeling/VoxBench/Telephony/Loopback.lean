import VoxBench.Observability.Observer

/-!
# Audio of a loopback call

`LoopbackCallSession.process_audio` sends the audio of a frame through gain control and a
limiter and shows every stage to the observer. The frame type tells the sample rate.

## Main definitions

* `applyAgc`, `applyLimiter` — the two stages that change audio.
* `processAudio` — the calls of the observer for one frame.
-/

namespace VoxBench.Telephony

open VoxBench.Lib VoxBench.ControlPlane VoxBench.Media VoxBench.Observability

/-- `AUDIO_TYPE_SAMPLE_RATES`. -/
def audioTypeSampleRates : ℕ → Option ℕ
  | 0x10 => some 8000
  | 0x11 => some 12000
  | 0x12 => some 16000
  | 0x13 => some 24000
  | 0x14 => some 32000
  | 0x15 => some 44100
  | 0x16 => some 48000
  | 0x17 => some 96000
  | 0x18 => some 192000
  | _ => none

/-- The audio settings of a `LoopbackCallSession`. -/
structure LoopbackSettings where
  targetRms : ℚ := 3000
  maxGain : ℚ := 8
  noiseFloor : ℚ := 200
  limiterCeiling : ℚ := 7 / 10

/-- `apply_agc`: the audio and the gain. -/
def applyAgc (math : FloatMath) (settings : LoopbackSettings) (pcm : List UInt8) :
    Except ObserverError (List UInt8 × ℚ) :=
  (pcmS16leRms math pcm).map fun inputRms =>
    if inputRms ≤ settings.noiseFloor ∨ inputRms ≤ 0 then (pcm, 1)
    else
      let gain := min settings.maxGain (settings.targetRms / inputRms)
      (packSamples ((unpackSamples pcm).map fun sample : ℤ =>
        min 32767 (max (-32768) (roundHalfEven ((sample : ℚ) * gain)))), gain)

/-- `apply_limiter`, on an even number of bytes. -/
def applyLimiter (settings : LoopbackSettings) (pcm : List UInt8) :
    Except ObserverError (List UInt8) :=
  if ¬ (0 < settings.limiterCeiling ∧ settings.limiterCeiling ≤ 1) then
    .error (.valueError "limiter ceiling must be in (0, 1]")
  else
    let limit := roundHalfEven (32767 * settings.limiterCeiling)
    .ok (packSamples ((unpackSamples pcm).map fun sample => min limit (max (-limit) sample)))

/-- The calls of `observe_stage_audio` for a frame of a known type, if neither stage raises.
The `i`-th call reads the clock at `ts i`. -/
def processAudio (math : FloatMath) (settings : LoopbackSettings) (sampleRateHz : ℕ)
    (pcm : List UInt8) (ts : ℕ → Datetime) : Except ObserverError (List StageAudio) := do
  let (agcOutput, gain) ← applyAgc math settings pcm
  let limited ← applyLimiter settings agcOutput
  return [⟨"resampler", pcm, pcm, sampleRateHz, 1, none, true, ts 0⟩,
    ⟨"agc", pcm, agcOutput, sampleRateHz, 1, some (.finite gain), true, ts 1⟩,
    ⟨"limiter", agcOutput, limited, sampleRateHz, 1, none, true, ts 2⟩,
    ⟨"serializer", limited, limited, sampleRateHz, 1, none, true, ts 3⟩]

/-! ## Lengths -/

section Lengths

variable {math : FloatMath} {settings : LoopbackSettings} {pcm : List UInt8}

theorem even_of_applyAgc {out : List UInt8 × ℚ} (h : applyAgc math settings pcm = .ok out) :
    pcm.length % 2 = 0 := by
  unfold applyAgc pcmS16leRms at h
  split at h
  · cases h
  · omega

theorem length_applyAgc {out : List UInt8 × ℚ} (h : applyAgc math settings pcm = .ok out) :
    out.1.length = pcm.length := by
  have heven := even_of_applyAgc h
  unfold applyAgc pcmS16leRms at h
  split at h
  · cases h
  · obtain ⟨rms, hout⟩ : ∃ rms : ℚ, out = if rms ≤ settings.noiseFloor ∨ rms ≤ 0 then (pcm, 1)
        else (packSamples ((unpackSamples pcm).map fun sample : ℤ => min 32767 (max (-32768)
          (roundHalfEven ((sample : ℚ) * min settings.maxGain (settings.targetRms / rms))))),
          min settings.maxGain (settings.targetRms / rms)) := by
      dsimp only at h
      split at h <;> exact ⟨_, (Except.ok.inj h).symm⟩
    rw [hout]
    split
    · rfl
    · simp only [length_packSamples, List.length_map, length_unpackSamples]
      omega

theorem length_applyLimiter {out : List UInt8} (heven : pcm.length % 2 = 0)
    (h : applyLimiter settings pcm = .ok out) : out.length = pcm.length := by
  unfold applyLimiter at h
  split at h
  · cases h
  · cases h
    simp only [length_packSamples, List.length_map, length_unpackSamples]
    omega

end Lengths

end VoxBench.Telephony
