import VoxBench.EngineHarness.Harness
import VoxBench.Lib.Writes
import VoxBench.Media.G711
import VoxBench.Verification.Core
import VoxBench.Verification.FullReference

/-!
# Synthetic artifacts

For a resolved config and a tone, `generate_synthetic_artifacts` writes three kinds of files: the
tone itself, a reference for each stage of the plan, in the format of the stage, and a recording
for each stage, which a degradation may scale. Where the format is μ-law at 8 kHz, references and
recordings have gone through the codec; a reference in any other coded format cannot be compared.

## Main definitions

* `writeSineWav` — the file of a tone.
* `stageReference`, `recordStage` — the reference and the recording of a stage.
* `generateSyntheticArtifacts` — all of them.

## Main results

* `stageReference_eq_ok`, `recordStage_eq_ok` — the artifacts of a stage.
-/

namespace VoxBench.SyntheticCaller

open VoxBench.Lib VoxBench.ControlPlane VoxBench.EngineHarness VoxBench.Media VoxBench.Verification
open PosixPath

/-! ## Tones -/

structure SyntheticAudioSpec where
  sampleRateHz : ℤ
  channels : ℤ
  durationSeconds : ℚ
  amplitude : ℤ
  frequencyHz : ℚ
  deriving DecidableEq

structure SyntheticStageDegradation where
  durationScale : ℚ := 1
  levelScale : ℚ := 1
  framesIn : Option ℚ := none
  framesOut : Option ℚ := none
  frameCadenceJitterMs : Option ℚ := none

structure StageReferenceArtifact where
  stage : String
  uri : String
  stageFormat : Json
  comparisonFormat : Json
  durationMs : ℚ
  transformations : List String
  comparisonReady : Bool
  blockedReason : Option String

structure SyntheticArtifacts where
  referenceUri : String
  stageReferences : List StageReferenceArtifact
  recordings : List RecordingArtifact
  metrics : List MetricArtifact

inductive SyntheticError where
  | valueError (reason : String)
  | plan (error : HarnessError)
  /-- What Python raises on a value that has another shape. -/
  | malformed
  /-- What `float` raises on an integer that is too large. -/
  | overflowError
  | os
  /-- A `struct.error`: a number that the header of a WAV file does not hold. -/
  | header
  deriving DecidableEq

/-- `round(amplitude * math.sin(2.0 * math.pi * frequency_hz * index / sample_rate_hz))`, of an
amplitude, a frequency, a rate and an index. -/
structure Sine where
  sample : ℤ → ℚ → ℤ → ℕ → ℤ
  bounded : ∀ amplitude frequencyHz rate index, 0 ≤ amplitude →
    |sample amplitude frequencyHz rate index| ≤ amplitude

/-- What the calls take from their surroundings: the sine, the texts of floats, the clock, and at
which paths directories are made and files opened. -/
structure Surroundings where
  sine : Sine
  floatRepr : ℚ → String
  now : ℕ → Datetime
  makes : PurePath → Bool
  opens : PurePath → Bool

/-- `_validate_audio_spec`. -/
def validateAudioSpec (spec : SyntheticAudioSpec) : Except SyntheticError Unit :=
  if spec.sampleRateHz ≤ 0 then .error (.valueError "sample_rate_hz must be positive")
  else if spec.channels ≤ 0 then .error (.valueError "channels must be positive")
  else if spec.durationSeconds ≤ 0 then .error (.valueError "duration_seconds must be positive")
  else if ¬ (0 ≤ spec.amplitude ∧ spec.amplitude ≤ 32767) then
    .error (.valueError "amplitude must fit signed 16-bit PCM")
  else if spec.frequencyHz ≤ 0 then .error (.valueError "frequency_hz must be positive")
  else if spec.frequencyHz ≥ spec.sampleRateHz / 2 then
    .error (.valueError "frequency_hz must be below the Nyquist frequency")
  else .ok ()

/-- `round(audio_spec.sample_rate_hz * audio_spec.duration_seconds)`. -/
def sineFrameCount (spec : SyntheticAudioSpec) : ℕ :=
  (roundHalfEven (nearest (spec.sampleRateHz * spec.durationSeconds))).toNat

/-- The samples of a tone, as many times as there are channels. -/
def sineSamples (sine : Sine) (spec : SyntheticAudioSpec) : List ℤ :=
  (List.range (sineFrameCount spec)).flatMap fun index =>
    List.replicate spec.channels.toNat
      (sine.sample spec.amplitude spec.frequencyHz spec.sampleRateHz index)

/-- What becomes of the frames of a tone. -/
def codecRoundTripped (codecRoundTrip : Option String) (frames : List UInt8) :
    Except SyntheticError (List UInt8) :=
  match codecRoundTrip with
  | none => .ok frames
  | some codec =>
      if codec = "mulaw" then
        match pcm16leToMulaw frames >>= mulawToPcm16le with
        | .ok frames => .ok frames
        | .error (.valueError reason) => .error (.valueError reason)
      else .error (.valueError ("unsupported reference codec round-trip: " ++ codec))

/-- The file of a tone. -/
def sineWav (sine : Sine) (spec : SyntheticAudioSpec) (codecRoundTrip : Option String) :
    Except SyntheticError Verification.WavFile := do
  let frames ← codecRoundTripped codecRoundTrip (packSamples (sineSamples sine spec))
  return {
    nchannels := spec.channels.toNat
    sampwidth := 2
    nframes := frames.length / (2 * spec.channels.toNat)
    framerate := spec.sampleRateHz.toNat
    frames }

/-- A path and what is written there. -/
abbrev WavWrite := PurePath × Verification.WavFile

/-- `_write_sine_wav`. -/
def writeSineWav (world : Surroundings) (path : PurePath) (spec : SyntheticAudioSpec)
    (codecRoundTrip : Option String) : Except SyntheticError WavWrite := do
  let file ← sineWav world.sine spec codecRoundTrip
  if ∃ part ∈ path.parts, nul ∈ part then .error (.valueError "embedded null byte")
  else if ¬ world.opens path then .error .os
  else if HeaderFits spec.channels spec.sampleRateHz 2 file.frames.length then return (path, file)
  else .error .header

/-- `path.mkdir(parents=True, exist_ok=True)`. -/
def makeDirectory (world : Surroundings) (path : PurePath) : Except SyntheticError Unit :=
  if world.makes path then .ok () else .error .os

/-- `path.as_uri()`. -/
def fileUri (path : PurePath) : Except SyntheticError String :=
  if path.root = [] then .error (.valueError "relative path can't be expressed as a file URI")
  else .ok (asUri path)

/-! ## Formats -/

/-- `format.get("rate") or format.get("output_rate")`. -/
def rateOf (format : Json) : Json :=
  match (format.get? "rate").filter truthy with
  | some rate => rate
  | none => (format.get? "output_rate").getD .null

/-- `format.get(key)`. -/
def valueOf (format : Json) (key : String) : Json := (format.get? key).getD .null

/-- The integers of `isinstance(value, int)` that are positive. -/
def positiveInt? (value : Json) : Option ℤ := (asInt? value).filter (0 < ·)

/-- `"mulaw" if encoding == "mulaw" and rate == 8_000 else None`. -/
def codecRoundTripOf (encoding : Json) (rate : ℤ) : Option String :=
  if encoding.str? = some "mulaw" ∧ rate = 8000 then some "mulaw" else none

/-- The text of a value in a formatted string. Lists and dicts, which are in no set, raise. -/
def hashableText (world : Surroundings) : Json → Except SyntheticError String
  | .null => .ok "None"
  | .bool b => .ok (if b then "True" else "False")
  | .int n => .ok (toString n)
  | .float q => .ok (world.floatRepr q)
  | .negZero => .ok "-0.0"
  | .str s => .ok s
  | .arr _ | .obj _ => .error .malformed

/-- `encoding in {"pcm16", "linear16"}`. -/
def isLinear (encoding : Json) : Bool := encoding.str? ∈ [some "pcm16", some "linear16"]

/-- `encoding in {None, "pcm16", "linear16"}`. -/
def isUncoded (encoding : Json) : Bool := encoding.isNull || isLinear encoding

/-- The format of the files. -/
def comparisonFormat (rate channels : Json) : Json :=
  .obj [("encoding", .str "pcm16"), ("rate", rate), ("channels", channels)]

/-! ## Stages -/

/-- `_reference_transformations`. -/
def stageTransformations (world : Surroundings) (source : SyntheticAudioSpec) (rate channels : Json)
    (target : SyntheticAudioSpec) (encoding : Json) : Except SyntheticError (List String) := do
  let rateText ← hashableText world rate
  let channelsText ← hashableText world channels
  let encodingText ← hashableText world encoding
  return (if source.sampleRateHz ≠ target.sampleRateHz then
      ["resample:" ++ toString source.sampleRateHz ++ "->" ++ rateText] else []) ++
    (if source.channels ≠ target.channels then
      ["channel-map:" ++ toString source.channels ++ "->" ++ channelsText] else []) ++
    (if isUncoded encoding then [] else ["codec-round-trip:" ++ encodingText])

/-- One stage of `_stage_references`. -/
def stageReference (world : Surroundings) (referencesRoot : PurePath) (spec : SyntheticAudioSpec)
    (plan : StagePlan) : Except SyntheticError (StageReferenceArtifact × WavWrite) := do
  let rate := rateOf plan.format
  let channels := valueOf plan.format "channels"
  let encoding := valueOf plan.format "encoding"
  match positiveInt? rate, positiveInt? channels with
  | none, _ =>
      .error (.valueError ("stage '" ++ plan.stage ++ "' reference format requires a rate"))
  | some _, none =>
      .error (.valueError ("stage '" ++ plan.stage ++ "' reference format requires channels"))
  | some sampleRateHz, some channelCount =>
      let referenceSpec := { spec with sampleRateHz, channels := channelCount }
      validateAudioSpec referenceSpec
      let codecRoundTrip := codecRoundTripOf encoding sampleRateHz
      let path := referencesRoot.join (plan.stage.toList ++ ".wav".toList)
      let write ← writeSineWav world path referenceSpec codecRoundTrip
      let encodingText ← hashableText world encoding
      let comparisonReady := isLinear encoding || codecRoundTrip.isSome
      let transformations ← stageTransformations world spec rate channels referenceSpec encoding
      let uri ← fileUri path
      return ({
        stage := plan.stage
        uri
        stageFormat := plan.format
        comparisonFormat := comparisonFormat rate channels
        durationMs := spec.durationSeconds * 1000
        transformations
        comparisonReady
        blockedReason :=
          if comparisonReady then none else some ("codec-round-trip-required:" ++ encodingText) },
        write)

/-- `_stage_references`. -/
def stageReferences (world : Surroundings) (resolvedConfig : Json) (outputRoot : PurePath)
    (spec : SyntheticAudioSpec) :
    Except SyntheticError (List (StageReferenceArtifact × WavWrite)) := do
  let referencesRoot := outputRoot.join "references".toList
  makeDirectory world referencesRoot
  match buildStagePlan resolvedConfig with
  | .error error => .error (.plan error)
  | .ok plans => plans.mapM (stageReference world referencesRoot spec)

/-- `_cadence_metrics`. -/
def cadenceMetrics (resolvedConfig stage : Json) (stageName : String) (durationSeconds : ℚ)
    (degradation : SyntheticStageDegradation) (ts : Datetime) :
    Except SyntheticError (List MetricArtifact) :=
  if "isochronous" ∉ (stage.field ["invariants_applicable"]).texts then .ok []
  else
    match (positivePtime resolvedConfig).map roundDouble with
    | none => .ok []
    | some none => .error .overflowError
    | some (some ptimeMs) =>
        let nominalFrames := durationSeconds * 1000 / ptimeMs
        .ok [⟨some stageName, "frames_in", degradation.framesIn.getD nominalFrames, ts⟩,
          ⟨some stageName, "frames_out", degradation.framesOut.getD nominalFrames, ts⟩,
          ⟨some stageName, "frame_cadence_jitter_ms", degradation.frameCadenceJitterMs.getD 0, ts⟩,
          ⟨some stageName, "expected_frame_interval_ms", ptimeMs, ts⟩]

/-- What the loop of `generate_synthetic_artifacts` makes of a stage. -/
structure RecordedStage where
  recording : RecordingArtifact
  write : WavWrite
  metrics : List MetricArtifact

/-- The tone of a recording. -/
def degradedSpec (spec : SyntheticAudioSpec) (degradation : SyntheticStageDegradation)
    (sampleRateHz channels : ℤ) : SyntheticAudioSpec where
  sampleRateHz
  channels
  durationSeconds := spec.durationSeconds * degradation.durationScale
  amplitude := roundHalfEven (spec.amplitude * degradation.levelScale)
  frequencyHz := spec.frequencyHz

/-- The stages by their types; the last one of a type stays. -/
def plansByStage (plans : List StagePlan) : List (String × StagePlan) :=
  plans.foldl (fun d plan => Dict.set d plan.stage plan) []

/-- One turn of the loop of `generate_synthetic_artifacts`. -/
def recordStage (world : Surroundings) (resolvedConfig : Json) (outputRoot : PurePath)
    (spec : SyntheticAudioSpec) (degradations : List (String × SyntheticStageDegradation))
    (stagePlans : List (String × StagePlan)) (stage : Json × ℕ) : Except SyntheticError RecordedStage := do
  match subscript stage.1 "type" >>= nameOf with
  | .error error => .error (.plan error)
  | .ok stageName =>
      match Dict.get? stagePlans stageName with
      | none => .error (.plan (.keyError stageName))
      | some plan =>
          let rate := rateOf plan.format
          let channels := valueOf plan.format "channels"
          match asInt? rate, asInt? channels with
          | some sampleRateHz, some channelCount =>
              let degradation := (Dict.get? degradations stageName).getD {}
              let stageSpec := degradedSpec spec degradation sampleRateHz channelCount
              validateAudioSpec stageSpec
              let path := outputRoot.join (stageName.toList ++ ".wav".toList)
              let write ← writeSineWav world path stageSpec
                (codecRoundTripOf (valueOf plan.format "encoding") sampleRateHz)
              let uri ← fileUri path
              let metrics ← cadenceMetrics resolvedConfig stage.1 stageName spec.durationSeconds
                degradation (world.now stage.2)
              return {
                recording := {
                  stage := stageName
                  uri
                  format := comparisonFormat rate channels
                  durationMs := stageSpec.durationSeconds * 1000 }
                write
                metrics }
          | _, _ => .error (.valueError
              ("stage '" ++ stageName ++ "' output recording requires rate and channels"))

/-- `resolved_config["spec"]["media"]["pipeline"]`. -/
def pipelineStages (resolvedConfig : Json) : Except SyntheticError (List Json) :=
  match (do subscript (← subscript (← subscript resolvedConfig "spec") "media") "pipeline") with
  | .error error => .error (.plan error)
  | .ok (.arr stages) => .ok stages
  | .ok _ => .error .malformed

/-- `generate_synthetic_artifacts`: the artifacts, and the files that are written. -/
def generateSyntheticArtifacts (world : Surroundings) (resolvedConfig : Json) (outputRoot : PurePath)
    (spec : SyntheticAudioSpec) (degradations : List (String × SyntheticStageDegradation)) :
    Except SyntheticError (SyntheticArtifacts × List WavWrite) := do
  validateAudioSpec spec
  makeDirectory world outputRoot
  let referencePath := outputRoot.join "reference.wav".toList
  let reference ← writeSineWav world referencePath spec none
  let references ← stageReferences world resolvedConfig outputRoot spec
  match buildStagePlan resolvedConfig with
  | .error error => .error (.plan error)
  | .ok plans =>
      let stages ← pipelineStages resolvedConfig
      let recorded ← stages.zipIdx.mapM
        (recordStage world resolvedConfig outputRoot spec degradations (plansByStage plans))
      let referenceUri ← fileUri referencePath
      return ({
        referenceUri
        stageReferences := references.map Prod.fst
        recordings := recorded.map RecordedStage.recording
        metrics := recorded.flatMap RecordedStage.metrics },
        reference :: references.map Prod.snd ++ recorded.map RecordedStage.write)

/-! ## What is returned -/

/-- What a tone has passed. -/
structure SyntheticAudioSpec.Valid (spec : SyntheticAudioSpec) : Prop where
  rate : 0 < spec.sampleRateHz
  channels : 0 < spec.channels
  duration : 0 < spec.durationSeconds
  amplitude : 0 ≤ spec.amplitude ∧ spec.amplitude ≤ 32767
  frequency : 0 < spec.frequencyHz ∧ spec.frequencyHz < spec.sampleRateHz / 2

theorem validateAudioSpec_eq_ok_iff {spec : SyntheticAudioSpec} :
    validateAudioSpec spec = .ok () ↔ spec.Valid := by
  unfold validateAudioSpec
  constructor
  · intro h
    split_ifs at h with hrate hchannels hduration hamplitude hpositive hnyquist
    exact ⟨not_le.mp hrate, not_le.mp hchannels, not_le.mp hduration, hamplitude,
      not_le.mp hpositive, not_le.mp hnyquist⟩
  · intro h
    rw [if_neg (not_le.mpr h.rate), if_neg (not_le.mpr h.channels), if_neg (not_le.mpr h.duration),
      if_neg (not_not.mpr h.amplitude), if_neg (not_le.mpr h.frequency.1),
      if_neg (not_le.mpr h.frequency.2)]

section Inversion

variable {world : Surroundings} {spec : SyntheticAudioSpec} {path : PurePath}

theorem writeSineWav_eq_ok {codecRoundTrip : Option String} {write : WavWrite}
    (h : writeSineWav world path spec codecRoundTrip = .ok write) :
    write.1 = path ∧ sineWav world.sine spec codecRoundTrip = .ok write.2 ∧
      spec.sampleRateHz < 2 ^ 32 := by
  obtain ⟨file, hfile, h⟩ := bind_eq_ok.mp h
  split_ifs at h with hnul hopens hfits
  cases h
  exact ⟨rfl, hfile, hfits.2.1.1⟩

theorem fileUri_eq_ok {uri : String} (h : fileUri path = .ok uri) :
    path.root ≠ [] ∧ uri = asUri path := by
  unfold fileUri at h
  split_ifs at h with habsolute
  exact ⟨habsolute, (Except.ok.inj h).symm⟩

theorem positiveInt?_eq_some {value : Json} {n : ℤ} (h : positiveInt? value = some n) :
    asInt? value = some n ∧ 0 < n := by
  obtain ⟨hint, hpos⟩ := Option.filter_eq_some_iff.mp h
  exact ⟨hint, of_decide_eq_true hpos⟩

/-- A format of which there can be a file: its rate, its channels and the codec. -/
structure HasFormat (format : Json) (sampleRateHz channels : ℤ) : Prop where
  rate : asInt? (rateOf format) = some sampleRateHz
  channels : asInt? (valueOf format "channels") = some channels

theorem HasFormat.unique {format : Json} {rate rate' channels channels' : ℤ}
    (h : HasFormat format rate channels) (h' : HasFormat format rate' channels') :
    rate = rate' ∧ channels = channels' :=
  ⟨Option.some.inj (h.rate.symm.trans h'.rate), Option.some.inj (h.channels.symm.trans h'.channels)⟩

/-- Formats whose references can be compared. -/
def Comparable (format : Json) : Bool :=
  isLinear (valueOf format "encoding") ||
    (codecRoundTripOf (valueOf format "encoding") ((asInt? (rateOf format)).getD 0)).isSome

/-- The reference of a stage. -/
structure ReferenceOf (world : Surroundings) (referencesRoot : PurePath) (spec : SyntheticAudioSpec)
    (plan : StagePlan) (reference : StageReferenceArtifact) (write : WavWrite) : Prop where
  stage : reference.stage = plan.stage
  path : write.1 = referencesRoot.join (plan.stage.toList ++ ".wav".toList)
  absolute : write.1.root ≠ []
  uri : reference.uri = asUri write.1
  format : reference.comparisonFormat =
    comparisonFormat (rateOf plan.format) (valueOf plan.format "channels")
  ready : reference.comparisonReady = Comparable plan.format
  reason : ∃ text, hashableText world (valueOf plan.format "encoding") = .ok text ∧
    reference.blockedReason = if Comparable plan.format then none
      else some ("codec-round-trip-required:" ++ text)
  file : ∃ rate channels, HasFormat plan.format rate channels ∧
    ({ spec with sampleRateHz := rate, channels := channels } : SyntheticAudioSpec).Valid ∧
    sineWav world.sine { spec with sampleRateHz := rate, channels := channels }
      (codecRoundTripOf (valueOf plan.format "encoding") rate) = .ok write.2

theorem stageReference_eq_ok {referencesRoot : PurePath} {plan : StagePlan}
    {result : StageReferenceArtifact × WavWrite}
    (h : stageReference world referencesRoot spec plan = .ok result) :
    ReferenceOf world referencesRoot spec plan result.1 result.2 := by
  unfold stageReference at h
  dsimp only at h
  split at h
  · cases h
  · cases h
  · rename_i rate channels hrate hchannels
    obtain ⟨_, hvalid, h⟩ := bind_eq_ok.mp h
    obtain ⟨write, hwrite, h⟩ := bind_eq_ok.mp h
    obtain ⟨text, htext, h⟩ := bind_eq_ok.mp h
    obtain ⟨transformations, -, h⟩ := bind_eq_ok.mp h
    obtain ⟨uri, huri, h⟩ := bind_eq_ok.mp h
    cases h
    obtain ⟨hpath, hfile, -⟩ := writeSineWav_eq_ok hwrite
    rw [← hpath] at huri
    obtain ⟨habsolute, rfl⟩ := fileUri_eq_ok huri
    have hformat : HasFormat plan.format rate channels :=
      ⟨(positiveInt?_eq_some hrate).1, (positiveInt?_eq_some hchannels).1⟩
    have hready : (isLinear (valueOf plan.format "encoding") ||
        (codecRoundTripOf (valueOf plan.format "encoding") rate).isSome) = Comparable plan.format := by
      rw [Comparable, hformat.rate]
      rfl
    exact ⟨rfl, hpath, habsolute, rfl, rfl, hready, ⟨text, htext, by rw [hready]⟩,
      rate, channels, hformat, validateAudioSpec_eq_ok_iff.mp hvalid, hfile⟩

/-- The recording of a stage. -/
structure RecordingOf (world : Surroundings) (resolvedConfig : Json) (outputRoot : PurePath)
    (spec : SyntheticAudioSpec) (degradation : SyntheticStageDegradation) (source : Json)
    (stageName : String) (planned : Json) (recorded : RecordedStage) : Prop where
  stage : recorded.recording.stage = stageName
  path : recorded.write.1 = outputRoot.join (stageName.toList ++ ".wav".toList)
  absolute : recorded.write.1.root ≠ []
  uri : recorded.recording.uri = asUri recorded.write.1
  format : recorded.recording.format = comparisonFormat (rateOf planned) (valueOf planned "channels")
  metrics : ∃ ts, cadenceMetrics resolvedConfig source stageName spec.durationSeconds degradation ts =
    .ok recorded.metrics
  file : ∃ rate channels, HasFormat planned rate channels ∧ rate < 2 ^ 32 ∧
    (degradedSpec spec degradation rate channels).Valid ∧
    sineWav world.sine (degradedSpec spec degradation rate channels)
      (codecRoundTripOf (valueOf planned "encoding") rate) = .ok recorded.write.2

theorem recordStage_eq_ok {resolvedConfig : Json} {outputRoot : PurePath}
    {degradations : List (String × SyntheticStageDegradation)} {stagePlans : List (String × StagePlan)}
    {stage : Json × ℕ} {recorded : RecordedStage}
    (h : recordStage world resolvedConfig outputRoot spec degradations stagePlans stage =
      .ok recorded) :
    ∃ stageName plan, subscript stage.1 "type" >>= nameOf = .ok stageName ∧
      Dict.get? stagePlans stageName = some plan ∧
      RecordingOf world resolvedConfig outputRoot spec ((Dict.get? degradations stageName).getD {})
        stage.1 stageName plan.format recorded := by
  unfold recordStage at h
  split at h
  · cases h
  · rename_i stageName hname
    split at h
    · cases h
    · rename_i plan hplan
      dsimp only at h
      split at h
      · rename_i rate channels hrate hchannels
        obtain ⟨_, hvalid, h⟩ := bind_eq_ok.mp h
        obtain ⟨write, hwrite, h⟩ := bind_eq_ok.mp h
        obtain ⟨uri, huri, h⟩ := bind_eq_ok.mp h
        obtain ⟨metrics, hmetrics, h⟩ := bind_eq_ok.mp h
        cases h
        obtain ⟨hpath, hfile, hlt⟩ := writeSineWav_eq_ok hwrite
        rw [← hpath] at huri
        obtain ⟨habsolute, rfl⟩ := fileUri_eq_ok huri
        exact ⟨stageName, plan, hname, hplan, rfl, hpath, habsolute, rfl, rfl, ⟨_, hmetrics⟩,
          rate, channels, ⟨hrate, hchannels⟩, hlt, validateAudioSpec_eq_ok_iff.mp hvalid, hfile⟩
      · cases h

/-- What is generated, and the files that are written. -/
theorem generate_eq_ok {resolvedConfig : Json} {outputRoot : PurePath}
    {degradations : List (String × SyntheticStageDegradation)} {artifacts : SyntheticArtifacts}
    {writes : List WavWrite}
    (h : generateSyntheticArtifacts world resolvedConfig outputRoot spec degradations =
      .ok (artifacts, writes)) :
    spec.Valid ∧ ∃ plans stages first references recorded,
      buildStagePlan resolvedConfig = .ok plans ∧ pipelineStages resolvedConfig = .ok stages ∧
      List.Forall₂ (fun plan reference =>
        ReferenceOf world (outputRoot.join "references".toList) spec plan reference.1 reference.2)
          plans references ∧
      List.Forall₂ (fun stage recorded => recordStage world resolvedConfig outputRoot spec
        degradations (plansByStage plans) stage = .ok recorded) stages.zipIdx recorded ∧
      artifacts.stageReferences = references.map Prod.fst ∧
      artifacts.recordings = recorded.map RecordedStage.recording ∧
      artifacts.metrics = recorded.flatMap RecordedStage.metrics ∧
      first.1 = outputRoot.join "reference.wav".toList ∧
      writes = first :: (references.map Prod.snd ++ recorded.map RecordedStage.write) := by
  unfold generateSyntheticArtifacts at h
  obtain ⟨_, hvalid, h⟩ := bind_eq_ok.mp h
  obtain ⟨_, -, h⟩ := bind_eq_ok.mp h
  obtain ⟨first, hfirst, h⟩ := bind_eq_ok.mp h
  obtain ⟨references, hreferences, h⟩ := bind_eq_ok.mp h
  unfold stageReferences at hreferences
  obtain ⟨_, -, hreferences⟩ := bind_eq_ok.mp hreferences
  cases hplans : buildStagePlan resolvedConfig with
  | error e => simp [hplans] at h
  | ok plans =>
      simp only [hplans] at h hreferences
      obtain ⟨stages, hstages, h⟩ := bind_eq_ok.mp h
      obtain ⟨recorded, hrecorded, h⟩ := bind_eq_ok.mp h
      obtain ⟨uri, -, h⟩ := bind_eq_ok.mp h
      cases h
      exact ⟨validateAudioSpec_eq_ok_iff.mp hvalid, plans, stages, first, references, recorded, rfl,
        hstages, (mapM_eq_ok_iff.mp hreferences).imp fun _ _ => stageReference_eq_ok,
        mapM_eq_ok_iff.mp hrecorded, rfl, rfl, rfl, (writeSineWav_eq_ok hfirst).1, rfl⟩

end Inversion

end VoxBench.SyntheticCaller
