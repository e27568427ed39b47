import VoxBench.Observability.Observer
import VoxBench.Registry.Merge

/-!
# Verification of the signal invariants

After a run `verify_recordings` walks along the stages of the pipeline with the recording of
the last stage that has one, and compares each recorded stage with it under the invariants
that the stage declares. Durations and ratios are floats: each quotient and product is rounded.

## Main definitions

* `readWavStats`, `tryReadWavStats` — the length and the level of a recording.
* `verifyDuration`, `verifyLevel`, `verifyIsochronous` — one invariant at one stage.
* `verifyRecordings` — the walk.
-/

namespace VoxBench.Verification

open VoxBench.Lib VoxBench.ControlPlane VoxBench.Media VoxBench.Observability

/-! ## Reading a recording -/

/-- What `wave.open` reads from a file. -/
structure WavFile where
  nchannels : ℕ
  sampwidth : ℕ
  nframes : ℕ
  framerate : ℕ
  frames : List UInt8

inductive ReadError where
  /-- `OSError`, `ValueError` or `wave.Error`. -/
  | unreadable
  /-- Any other exception, such as the `EOFError` of an empty file or an `OverflowError`. -/
  | raised
  deriving DecidableEq, Repr

/-- `wave.open` on the path of a `file://` URI. -/
abbrev WavFiles := String → Except ReadError WavFile

/-- The duration of a recording as its header tells it, without rounding. -/
def WavFile.exactMs (wav : WavFile) : ℚ :=
  if wav.framerate > 0 then wav.nframes / wav.framerate * 1000 else 0

structure WavStats where
  durationMs : ℚ
  /-- The square of `rms`, which is rational. -/
  meanSquare : Option ℚ
  sampleCount : ℕ
  deriving DecidableEq, Repr

/-- `_read_wav_stats`. An odd number of bytes raises `struct.error`. -/
def readWavStats (files : WavFiles) (recording : RecordingArtifact) : Except ReadError WavStats := do
  let wav ← files recording.uri
  let durationMs : ℚ :=
    if wav.framerate > 0 then nearest (nearest (wav.nframes / wav.framerate) * 1000) else 0
  let sampleCount := wav.frames.length / wav.sampwidth
  if wav.nframes = 0 then
    return ⟨durationMs, none, 0⟩
  else if wav.sampwidth ≠ 2 then
    return ⟨durationMs, none, wav.nframes * wav.nchannels⟩
  else if sampleCount = 0 then
    return ⟨durationMs, none, 0⟩
  else if wav.frames.length % 2 ≠ 0 then
    throw .raised
  else
    let squareSum := ((unpackSamples wav.frames).map fun sample => sample * sample).sum
    return ⟨durationMs, some (squareSum / sampleCount), sampleCount⟩

/-- `_try_read_wav_stats`. -/
def tryReadWavStats (files : WavFiles) (recording : RecordingArtifact) :
    Except ReadError (Option WavStats) :=
  match readWavStats files recording with
  | .ok stats => .ok (some stats)
  | .error .unreadable => .ok none
  | .error .raised => .error .raised

/-! ## The checks -/

structure Tolerances where
  durationToleranceRatio : ℚ := 2 / 100
  levelToleranceDb : ℚ := 3
  frameRatioTolerance : ℚ := 2 / 100
  cadenceJitterToleranceRatio : ℚ := 1 / 4

def supportedInvariants : List String := ["duration_preserving", "level_preserving", "isochronous"]

/-- `LOSSY_EXPECTED_INVARIANT_EXCEPTIONS`. -/
def lossyExpectedInvariantExceptions (reason : String) : List String :=
  if reason = "bandwidth_limit" then ["level_preserving"] else []

/-- `_lossy_expected_reasons`. -/
def lossyExpectedReasons (stage : Json) (invariant : String) : List String :=
  (stage.field ["lossy_expected"]).texts.filter fun reason =>
    invariant ∈ lossyExpectedInvariantExceptions reason

/-- `_verify_lossy_expected_exception`. -/
def verifyLossyExpectedException (stage invariant : String) (lossyReasons : List String) :
    VerificationResult where
  stage := stage
  invariant := invariant
  passed := true
  observed := .obj [("lossy_expected", .arr (lossyReasons.map .str))]
  expected := .obj [("comparison", .str "suppressed_for_expected_loss")]
  detail := invariant ++ " comparison suppressed because lossy_expected declares " ++
    ", ".intercalate lossyReasons

/-- `_verify_duration`. -/
def verifyDuration (stage : String) (previous current : WavStats) (toleranceRatio : ℚ) :
    Option VerificationResult :=
  if previous.durationMs ≤ 0 ∨ current.durationMs ≤ 0 then none
  else
    let ratio := nearest (current.durationMs / previous.durationMs)
    let lower := nearest (1 - toleranceRatio)
    let upper := nearest (1 + toleranceRatio)
    let passed : Bool := lower ≤ ratio ∧ ratio ≤ upper
    some {
      stage := stage
      invariant := "duration_preserving"
      passed := passed
      observed := .obj [("input_duration_ms", .float previous.durationMs),
        ("output_duration_ms", .float current.durationMs), ("duration_ratio", .float ratio)]
      expected := .obj [("duration_ratio_min", .float lower), ("duration_ratio_max", .float upper)]
      detail := if passed then "duration ratio within tolerance"
        else "duration ratio outside tolerance" }

/-- `abs(20 * log10(r)) <= tolerance` on the square of `r`, without the logarithm: both sides
are raised to the power `10 ^ (10 * tolerance.den)`. -/
def withinDb (square tolerance : ℚ) : Bool :=
  square ^ (10 * tolerance.den) ≤ (10 : ℚ) ^ tolerance.num ∧
    (10 : ℚ) ^ (-tolerance.num) ≤ square ^ (10 * tolerance.den)

/-- `_verify_level`. The root and the logarithm only fill the observed values. -/
def verifyLevel (math : FloatMath) (stage : String) (previous current : WavStats)
    (toleranceDb : ℚ) : Option VerificationResult :=
  match previous.meanSquare, current.meanSquare with
  | some before, some after =>
      if before ≤ 0 ∨ after ≤ 0 then none
      else
        let passed := withinDb (after / before) toleranceDb
        some {
          stage := stage
          invariant := "level_preserving"
          passed := passed
          observed := .obj [("input_rms", .float (math.sqrt before)),
            ("output_rms", .float (math.sqrt after)),
            ("delta_db", .float (20 * math.log10 (math.sqrt after / math.sqrt before)))]
          expected := .obj [("delta_db_min", .float (-toleranceDb)),
            ("delta_db_max", .float toleranceDb)]
          detail := if passed then "RMS delta within tolerance" else "RMS delta outside tolerance" }
  | _, _ => none

/-- The interval of the metrics, or else `float(config_ptime_ms)`, which raises an `OverflowError`
where the number is too large. -/
def expectedIntervalMs (metrics : String → Option ℚ) (configPtimeMs : Option ℚ) :
    Except ReadError (Option ℚ) :=
  match metrics "expected_frame_interval_ms", configPtimeMs with
  | some intervalMs, _ => .ok (some intervalMs)
  | none, none => .ok none
  | none, some ptimeMs =>
      match roundDouble ptimeMs with
      | some intervalMs => .ok (some intervalMs)
      | none => .error .raised

/-- The comparisons of `_verify_isochronous`. -/
def compareCadence (stage : String) (metrics : String → Option ℚ) (expectedIntervalMs : Option ℚ)
    (tolerances : Tolerances) : Option VerificationResult :=
  match metrics "frames_in", metrics "frames_out", metrics "frame_cadence_jitter_ms",
      expectedIntervalMs with
  | some framesIn, some framesOut, some jitterMs, some expectedIntervalMs =>
      if framesIn ≤ 0 ∨ expectedIntervalMs ≤ 0 then none
      else
        let frameRatio := nearest (framesOut / framesIn)
        let ratioLower := nearest (1 - tolerances.frameRatioTolerance)
        let ratioUpper := nearest (1 + tolerances.frameRatioTolerance)
        let jitterLimitMs := nearest (expectedIntervalMs * tolerances.cadenceJitterToleranceRatio)
        let passed : Bool :=
          (ratioLower ≤ frameRatio ∧ frameRatio ≤ ratioUpper) ∧ jitterMs ≤ jitterLimitMs
        some {
          stage := stage
          invariant := "isochronous"
          passed := passed
          observed := .obj [("frames_in", .float framesIn), ("frames_out", .float framesOut),
            ("frames_out_in_ratio", .float frameRatio),
            ("frame_cadence_jitter_ms", .float jitterMs)]
          expected := .obj [("frames_out_in_ratio_min", .float ratioLower),
            ("frames_out_in_ratio_max", .float ratioUpper),
            ("frame_cadence_jitter_max_ms", .float jitterLimitMs)]
          detail := if passed then "frame cadence within tolerance"
            else "frame cadence outside tolerance" }
  | _, _, _, _ => none

/-- `_verify_isochronous`. -/
def verifyIsochronous (stage : String) (metrics : String → Option ℚ) (configPtimeMs : Option ℚ)
    (tolerances : Tolerances) : Except ReadError (Option VerificationResult) :=
  (expectedIntervalMs metrics configPtimeMs).map fun intervalMs =>
    compareCadence stage metrics intervalMs tolerances

/-! ## The walk along the pipeline -/

/-- What one call of `verify_recordings` looks at, besides the pipeline. -/
structure Evidence where
  files : WavFiles
  math : FloatMath
  recordings : List RecordingArtifact
  metrics : List MetricArtifact
  configPtimeMs : Option ℚ
  tolerances : Tolerances

def stageType (stage : Json) : String := (stage.field ["type"]).text

/-- The invariants that the stage declares and the verifier supports. -/
def invariants (stage : Json) : List String :=
  (stage.field ["invariants_applicable"]).texts.filter (· ∈ supportedInvariants)

def signalInvariants (stage : Json) : List String :=
  (invariants stage).filter (· ∈ ["duration_preserving", "level_preserving"])

namespace Evidence

variable (e : Evidence)

/-- `by_stage.get(stage["type"])`: the last recording of the stage. -/
def recording (stage : Json) : Option RecordingArtifact :=
  e.recordings.reverse.find? fun recording => recording.stage = stageType stage

/-- `_metrics_by_stage(metrics).get(stage["type"], {}).get(name)`. -/
def metric (stage : Json) (name : String) : Option ℚ :=
  (e.metrics.reverse.find? fun metric =>
    metric.stage = some (stageType stage) ∧ metric.name = name).map MetricArtifact.value

def isochronousResults (stage : Json) : Except ReadError (List VerificationResult) :=
  if "isochronous" ∈ invariants stage then
    (verifyIsochronous (stageType stage) (e.metric stage) e.configPtimeMs e.tolerances).map
      Option.toList
  else .ok []

/-- One invariant between two readable recordings. -/
def signalResult (stage : Json) (name : String) (previous current : WavStats)
    (invariant : String) : Option VerificationResult :=
  let lossyReasons := lossyExpectedReasons stage invariant
  if lossyReasons ≠ [] then some (verifyLossyExpectedException name invariant lossyReasons)
  else if invariant = "duration_preserving" then
    verifyDuration name previous current e.tolerances.durationToleranceRatio
  else
    verifyLevel e.math name previous current e.tolerances.levelToleranceDb

/-- The signal invariants of a stage whose recording and the one before it are there. -/
def signalResults (stage : Json) (previous current : RecordingArtifact) :
    Except ReadError (List VerificationResult) :=
  if signalInvariants stage = [] then .ok []
  else do
    let previousStats ← tryReadWavStats e.files previous
    let currentStats ← tryReadWavStats e.files current
    match previousStats, currentStats with
    | some previousStats, some currentStats =>
        return (signalInvariants stage).filterMap
          (e.signalResult stage current.stage previousStats currentStats)
    | _, _ => return []

/-- One turn of the loop. -/
def stageResults (previous : Option RecordingArtifact) (stage : Json) :
    Except ReadError (List VerificationResult) := do
  let cadence ← e.isochronousResults stage
  match e.recording stage, previous with
  | some current, some previous => return cadence ++ (← e.signalResults stage previous current)
  | _, _ => return cadence

/-- The loop. Whether or not the files could be read, a recorded stage is the next `previous`. -/
def verifyStages (previous : Option RecordingArtifact) :
    List Json → Except ReadError (List VerificationResult)
  | [] => .ok []
  | stage :: stages => do
      let results ← e.stageResults previous stage
      let rest ← verifyStages ((e.recording stage).or previous) stages
      return results ++ rest

end Evidence

def pipeline (resolvedConfig : Json) : List Json :=
  (resolvedConfig.field ["spec", "media", "pipeline"]).elems

/-- `isinstance(config_ptime_ms, int | float)`, which `bool` values are too. -/
def configPtimeMs (resolvedConfig : Json) : Option ℚ :=
  match resolvedConfig.field ["spec", "transport", "ptime_ms"] with
  | .int n => some n
  | .float q => some q
  | .negZero => some 0
  | .bool b => some (if b then 1 else 0)
  | _ => none

/-- What `verify_recordings` looks at. -/
def evidence (files : WavFiles) (math : FloatMath) (tolerances : Tolerances)
    (resolvedConfig : Json) (recordings : List RecordingArtifact)
    (metrics : List MetricArtifact) : Evidence :=
  ⟨files, math, recordings, metrics, configPtimeMs resolvedConfig, tolerances⟩

/-- `verify_recordings`, on the config that `resolve_config` returned. -/
def verifyRecordings (files : WavFiles) (math : FloatMath) (tolerances : Tolerances)
    (resolvedConfig : Json) (recordings : List RecordingArtifact)
    (metrics : List MetricArtifact) : Except ReadError (List VerificationResult) :=
  (evidence files math tolerances resolvedConfig recordings metrics).verifyStages none
    (pipeline resolvedConfig)

/-! ## What a result can be -/

section Results

variable {e : Evidence} {P : VerificationResult → Prop}

/-- The results of the cadence are those of its comparisons, where the interval is a float. -/
theorem Evidence.isochronousResults_eq_ok_iff {stage : Json} {results : List VerificationResult} :
    e.isochronousResults stage = .ok results ↔
      ("isochronous" ∉ invariants stage ∧ results = []) ∨
      ("isochronous" ∈ invariants stage ∧ ∃ intervalMs,
        expectedIntervalMs (e.metric stage) e.configPtimeMs = .ok intervalMs ∧ results =
          (compareCadence (stageType stage) (e.metric stage) intervalMs e.tolerances).toList) := by
  unfold Evidence.isochronousResults verifyIsochronous
  by_cases hdeclared : "isochronous" ∈ invariants stage
  · rw [if_pos hdeclared]
    cases expectedIntervalMs (e.metric stage) e.configPtimeMs <;>
      simp [hdeclared, Except.map, eq_comm]
  · rw [if_neg hdeclared]
    simp [hdeclared, eq_comm]

/-- What holds of the results of each check holds of the results of the walk. -/
theorem forall_mem_verifyStages
    (hiso : ∀ stage results, e.isochronousResults stage = .ok results → ∀ result ∈ results, P result)
    (hsignal : ∀ stage name previous current invariant result,
      e.signalResult stage name previous current invariant = some result → P result)
    {earlier : Option RecordingArtifact} {stages : List Json} {results : List VerificationResult}
    (h : e.verifyStages earlier stages = .ok results) : ∀ result ∈ results, P result := by
  have hsignals : ∀ stage previous current results,
      e.signalResults stage previous current = .ok results → ∀ result ∈ results, P result := by
    intro stage previous current results h result hresult
    unfold Evidence.signalResults at h
    split at h
    · cases h
      simp at hresult
    · obtain ⟨before, -, h⟩ := bind_eq_ok.mp h
      obtain ⟨after, -, h⟩ := bind_eq_ok.mp h
      split at h
      · cases h
        obtain ⟨invariant, -, hfound⟩ := List.mem_filterMap.mp hresult
        exact hsignal _ _ _ _ _ _ hfound
      · cases h
        simp at hresult
  have hstage : ∀ previous stage results, e.stageResults previous stage = .ok results →
      ∀ result ∈ results, P result := by
    intro previous stage results h result hresult
    obtain ⟨cadence, hcadence, h⟩ := bind_eq_ok.mp h
    split at h
    · obtain ⟨found, hfound, h⟩ := bind_eq_ok.mp h
      cases h
      exact (List.mem_append.mp hresult).elim (hiso stage _ hcadence result)
        (hsignals _ _ _ _ hfound result)
    · cases h
      exact hiso stage _ hcadence result hresult
  induction stages generalizing earlier results with
  | nil =>
      cases h
      simp
  | cons stage stages ih =>
      obtain ⟨first, hfirst, h⟩ := bind_eq_ok.mp h
      obtain ⟨rest, hrest, h⟩ := bind_eq_ok.mp h
      cases h
      intro result hresult
      exact (List.mem_append.mp hresult).elim (hstage _ _ _ hfirst result) (ih hrest result)

end Results

end VoxBench.Verification
