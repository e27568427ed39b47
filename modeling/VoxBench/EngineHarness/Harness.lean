import VoxBench.ControlPlane.Execution
import VoxBench.ControlPlane.RecordingAudio
import VoxBench.Lib.Double
import VoxBench.Registry.Merge

/-!
# The engine harness

`EngineHarness.run_once` reads the stages of a resolved config and, for each of them, lets its
sink write a silent file of the nominal duration, records a span, and reports what a stage
without any jitter would report. The host is sampled before the stages, after each, and at the
end.

## Main definitions

* `buildStagePlan`, `stageFormat` — the plan of a config.
* `RecordingSink` — a sink with a state; `localSink` keeps the files and directories of a disk.
* `runOnce` — the harness.
* `Clear` — plans whose files get in the way of nothing.

## Main results

* `clear_cons` — what the first file leaves to the others.
* `runStages_local` — which runs reach their end, after which every recording names a file of the
  nominal duration.
-/

namespace VoxBench.EngineHarness

open VoxBench.Lib VoxBench.ControlPlane PosixPath

/-! ## The plan -/

structure StagePlan where
  stage : String
  plugin : String
  format : Json

inductive HarnessError where
  | keyError (key : String)
  /-- What Python raises on a value that has another shape. -/
  | malformed
  /-- What `float` raises on an integer that is too large. -/
  | overflowError
  | storage (error : StorageError)
  deriving DecidableEq, Repr

/-- `document[key]`. -/
def subscript (document : Json) (key : String) : Except HarnessError Json :=
  match document with
  | .obj fields =>
      match Dict.get? fields key with
      | some value => .ok value
      | none => .error (.keyError key)
  | _ => .error .malformed

/-- The keys of `params` that make a format. -/
def formatKeys : List String := ["encoding", "rate", "channels", "output_rate"]

/-- `dict(value)`. -/
def asDict : Json → Except HarnessError Json
  | .obj fields => .ok (.obj fields)
  | _ => .error .malformed

/-- `_stage_format`. -/
def stageFormat (stage : Json) : Except HarnessError Json :=
  match stage.get? "io" with
  | none | some .null =>
      match (stage.get? "params").getD (.obj []) with
      | .obj params =>
          .ok (.obj (formatKeys.filterMap fun key => (Dict.get? params key).map fun value => (key, value)))
      | _ => .error .malformed
  | some (.obj io) =>
      match (Dict.get? io "produces").filter truthy, (Dict.get? io "accepts").filter truthy with
      | some produces, _ => asDict produces
      | none, some accepts => asDict accepts
      | none, none => .ok (.obj [])
  | some _ => .error .malformed

/-- A name of a stage, which the registry reads as a text. -/
def nameOf (value : Json) : Except HarnessError String :=
  match value.str? with
  | some name => .ok name
  | none => .error .malformed

/-- One stage of `build_stage_plan`. -/
def stagePlan (stage : Json) : Except HarnessError StagePlan := do
  let name ← subscript stage "type"
  let plugin ← subscript stage "plugin"
  let format ← stageFormat stage
  return ⟨← nameOf name, ← nameOf plugin, format⟩

/-- `build_stage_plan`. -/
def buildStagePlan (resolvedConfig : Json) : Except HarnessError (List StagePlan) := do
  let spec ← subscript resolvedConfig "spec"
  let media ← subscript spec "media"
  let pipeline ← subscript media "pipeline"
  match pipeline with
  | .arr stages => stages.mapM stagePlan
  | _ => .error .malformed

/-! ## Nominal values -/

/-- A number, as `isinstance(value, int | float)` takes it. -/
def number? : Json → Option ℚ
  | .int n => some n
  | .float q => some q
  | .negZero => some 0
  | .bool b => some (if b then 1 else 0)
  | _ => none

/-- A positive `spec.transport.ptime_ms`. -/
def positivePtime (resolvedConfig : Json) : Option ℚ :=
  (number? (resolvedConfig.field ["spec", "transport", "ptime_ms"])).filter (0 < ·)

/-- `_nominal_recording_duration_ms`. -/
def nominalRecordingDurationMs (resolvedConfig : Json) : Except HarnessError ℚ :=
  match positivePtime resolvedConfig with
  | none => .ok 0
  | some ptimeMs =>
      match roundDouble ptimeMs with
      | some durationMs => .ok durationMs
      | none => .error .overflowError

/-- `_stage_config`: the first stage of the type. -/
def stageConfig (resolvedConfig : Json) (stageName : String) : Option Json :=
  (resolvedConfig.field ["spec", "media", "pipeline"]).elems.find? fun stage =>
    (stage.get? "type").bind Json.str? = some stageName

/-- `_nominal_cadence_metrics`, of a run whose `ptime_ms` has become a float before. -/
def nominalCadenceMetrics (resolvedConfig : Json) (stageName : String) (ts : Datetime) :
    List MetricArtifact :=
  match stageConfig resolvedConfig stageName, positivePtime resolvedConfig with
  | some stage, some ptimeMs =>
      if "isochronous" ∈ (stage.field ["invariants_applicable"]).texts then
        [⟨some stageName, "frames_in", 1, ts⟩, ⟨some stageName, "frames_out", 1, ts⟩,
          ⟨some stageName, "frame_cadence_jitter_ms", 0, ts⟩,
          ⟨some stageName, "expected_frame_interval_ms", nearest ptimeMs, ts⟩]
      else []
  | _, _ => []

/-- A sample of the host. -/
structure HostSample where
  wallElapsed : ℚ
  processElapsed : ℚ
  activeTasks : ℕ
  lagMs : ℚ
  ts : Datetime

/-- `_host_metrics`. -/
def hostMetrics (resolvedConfig : Json) (sample : HostSample) : List MetricArtifact :=
  let requested := (resolvedConfig.field ["spec", "observability", "host_metrics"]).elems.filterMap
    Json.str?
  (if "cpu" ∈ requested then
    [⟨none, "cpu", max sample.processElapsed 0 / max sample.wallElapsed (1 / 1000000000) * 100,
      sample.ts⟩]
  else []) ++
  (if "active_tasks" ∈ requested then [⟨none, "active_tasks", sample.activeTasks, sample.ts⟩]
  else []) ++
  (if "loop_lag" ∈ requested then [⟨none, "loop_lag", max 0 sample.lagMs, sample.ts⟩] else [])

/-! ## A run -/

/-- The `RecordingSink` protocol: a call writes, and returns an artifact. -/
structure RecordingSink (σ : Type) where
  writeStageWav : σ → String → String → Json → ℚ → Except StorageError (RecordingArtifact × σ)

/-- What a tracer gives a span. -/
structure SpanReading where
  spanId : String
  startNs : ℤ
  endNs : ℤ

/-- What a run takes from its surroundings: an identifier, the readings of the tracer for the run
and its stages, and the samples of the host, of which the first is taken before the stages. -/
structure HarnessWorld where
  conversationId : String
  traceId : String
  runSpan : SpanReading
  stageSpan : ℕ → SpanReading
  now : ℕ → Datetime
  host : ℕ → HostSample

/-- `span_attrs`. -/
def spanAttrs (runId configHash conversationId : String) (extra : List (String × Json)) : Json :=
  .obj ([("voxbench.run_id", .str runId), ("voxbench.config_hash", .str configHash),
    ("conversation_id", .str conversationId)] ++ extra)

section Run

variable {σ : Type} (sink : RecordingSink σ) (world : HarnessWorld) (runId : String)
  (resolvedConfig : Json) (configHash : String)

/-- The span of a stage. -/
def stageSpan (n : ℕ) (plan : StagePlan) : SpanArtifact :=
  ⟨world.traceId, (world.stageSpan n).spanId, some world.runSpan.spanId,
    "stage.tap." ++ plan.stage, (world.stageSpan n).startNs, (world.stageSpan n).endNs,
    spanAttrs runId configHash world.conversationId
      [("voxbench.stage", .str plan.stage), ("voxbench.plugin", .str plan.plugin)]⟩

/-- The span of the run. -/
def runSpan : SpanArtifact :=
  ⟨world.traceId, world.runSpan.spanId, none, "voxbench.run", world.runSpan.startNs,
    world.runSpan.endNs, spanAttrs runId configHash world.conversationId []⟩

/-- What the loop of `run_once` collects. -/
structure Collected where
  recordings : List RecordingArtifact
  spans : List SpanArtifact
  metrics : List MetricArtifact

/-- The loop of `run_once`, from its `n`-th stage on. -/
def runStages (durationMs : ℚ) (n : ℕ) : List StagePlan → σ → Except StorageError (Collected × σ)
  | [], state => .ok (⟨[], [], []⟩, state)
  | plan :: plans, state => do
      let (recording, state') ← sink.writeStageWav state runId plan.stage plan.format durationMs
      let (rest, state'') ← runStages durationMs (n + 1) plans state'
      return (⟨recording :: rest.recordings,
        stageSpan world runId configHash n plan :: rest.spans,
        nominalCadenceMetrics resolvedConfig plan.stage (world.now n) ++
          hostMetrics resolvedConfig (world.host (n + 1)) ++ rest.metrics⟩, state'')

/-- `run_once`, of a new harness. The spans are in the order in which they end. -/
def runOnce (state : σ) : Except HarnessError (HarnessResult × σ) := do
  let durationMs ← nominalRecordingDurationMs resolvedConfig
  let plans ← buildStagePlan resolvedConfig
  match runStages sink world runId resolvedConfig configHash durationMs 0 plans state with
  | .error e => .error (.storage e)
  | .ok (collected, state') =>
      .ok (⟨world.conversationId, collected.recordings,
        collected.spans ++ [runSpan world runId configHash],
        hostMetrics resolvedConfig (world.host 0) ++ collected.metrics ++
          hostMetrics resolvedConfig (world.host (plans.length + 1))⟩, state')

end Run

/-! ## Files on a disk -/

/-- A disk: recordings, by their places, and directories. -/
structure Disk where
  files : List Name → Option SilentWav
  directories : List (List Name)

/-- The place of a file. -/
def place (path : PurePath) : List Name := walk [] path.parts

/-- The places that a path passes, up to its parent. -/
def passed (path : PurePath) : List (List Name) := path.parts.dropLast.inits.map (walk [])

/-- `path.parent.mkdir(parents=True, exist_ok=True)`, and the file. What the system `refuses`
for other reasons, such as a long name, raises too. -/
def Disk.write (refuses : PurePath → Bool) (disk : Disk) (path : PurePath) (file : SilentWav) :
    Except StorageError Disk :=
  let directories := passed path ++ disk.directories
  if refuses path ∨ (∃ above ∈ passed path, (disk.files above).isSome) ∨ place path ∈ directories then
    .error .os
  else .ok ⟨Function.update disk.files (place path) (some file), directories⟩

/-- `LocalRecordingSink` on a disk. -/
def localSink (refuses : PurePath → Bool) (sink : LocalRecordingSink) : RecordingSink Disk where
  writeStageWav disk runId stage audioFormat durationMs := do
    let (path, file, artifact) ← sink.writeStageWav runId stage audioFormat durationMs
    return (artifact, ← disk.write refuses path file)

/-! ## Nominal files -/

/-- The rate that a file of this format has. -/
def nominalRate (audioFormat : Json) : Option ℤ :=
  (match audioFormat.get? "rate" with
  | some rate => if truthy rate then some rate else audioFormat.get? "output_rate"
  | none => audioFormat.get? "output_rate").bind asInt?

/-- A format that gives a rate and a number of channels which the header of a file holds. -/
def Recordable (durationMs : ℚ) (audioFormat : Json) : Prop :=
  ∃ rate ∈ nominalRate audioFormat, ∃ channels ∈ (audioFormat.get? "channels").bind asInt?,
    0 < rate ∧ 1 ≤ channels ∧
      HeaderFits channels rate (sampleWidth (audioFormat.get? "encoding"))
        (frameCount rate durationMs *
          (sampleWidth (audioFormat.get? "encoding") * channels.toNat))

/-- A silent file of a duration. -/
structure NominalFile (durationMs : ℚ) (file : SilentWav) : Prop where
  channels_pos : 1 ≤ file.channels
  rate_pos : 0 < file.frameRate
  rate_lt : file.frameRate < 2 ^ 32
  width : file.sampleWidth = 1 ∨ file.sampleWidth = 2
  frames : file.frames = (List.replicate (frameCount file.frameRate durationMs)
    (silenceFrame file.sampleWidth file.channels)).flatten

theorem length_silenceFrame {sampleWidth : ℕ} (channels : ℤ)
    (h : sampleWidth = 1 ∨ sampleWidth = 2) :
    (silenceFrame sampleWidth channels).length = sampleWidth * channels.toNat := by
  rcases h with rfl | rfl <;> simp [silenceFrame]

theorem sampleWidth_cases (encoding : Option Json) :
    sampleWidth encoding = 1 ∨ sampleWidth encoding = 2 := by
  rw [sampleWidth]
  split_ifs <;> simp

theorem length_silence (rate channels : ℤ) (durationMs : ℚ) (encoding : Option Json) :
    (List.replicate (frameCount rate durationMs)
        (silenceFrame (sampleWidth encoding) channels)).flatten.length =
      frameCount rate durationMs * (sampleWidth encoding * channels.toNat) := by
  rw [List.length_flatten, List.map_replicate, List.sum_replicate_nat,
    length_silenceFrame channels (sampleWidth_cases encoding)]

theorem writeSilentWav_eq (audioFormat : Json) (durationMs : ℚ) :
    writeSilentWav audioFormat durationMs =
      match nominalRate audioFormat, (audioFormat.get? "channels").bind asInt? with
      | some rate, some channels =>
          if durationMs < 0 then .error .duration
          else if channels < 1 ∨ rate ≤ 0 then .error .wave
          else if HeaderFits channels rate (sampleWidth (audioFormat.get? "encoding"))
              (frameCount rate durationMs *
                (sampleWidth (audioFormat.get? "encoding") * channels.toNat)) then
            .ok
              { channels
                sampleWidth := sampleWidth (audioFormat.get? "encoding")
                frameRate := rate
                frames := (List.replicate (frameCount rate durationMs)
                  (silenceFrame (sampleWidth (audioFormat.get? "encoding")) channels)).flatten }
          else .error .header
      | _, _ => .error .audioFormat := by
  simp only [← length_silence]
  rfl

/-- What is written for a format. -/
theorem writeSilentWav_spec {audioFormat : Json} {durationMs : ℚ} (h : 0 ≤ durationMs) :
    (Recordable durationMs audioFormat → ∃ file, writeSilentWav audioFormat durationMs = .ok file ∧
      NominalFile durationMs file ∧ nominalRate audioFormat = some file.frameRate) ∧
    (¬ Recordable durationMs audioFormat → ∃ e, writeSilentWav audioFormat durationMs = .error e) := by
  rw [writeSilentWav_eq]
  constructor
  · rintro ⟨rate, hrate, channels, hchannels, hpos, hone, hfits⟩
    rw [Option.mem_def.mp hrate, Option.mem_def.mp hchannels]
    simp only [if_neg (not_lt.mpr h), if_neg (not_or.mpr ⟨not_lt.mpr hone, not_le.mpr hpos⟩),
      if_pos hfits]
    exact ⟨_, rfl, ⟨hone, hpos, hfits.2.1.1, sampleWidth_cases _, rfl⟩, rfl⟩
  · intro hnot
    split
    · rename_i rate channels hrate hchannels
      split_ifs with hduration hbad hfits
      · exact ⟨_, rfl⟩
      · exact ⟨_, rfl⟩
      · rw [not_or, not_lt, not_le] at hbad
        exact absurd ⟨rate, hrate, channels, hchannels, hbad.2, hbad.1, hfits⟩ hnot
      · exact ⟨_, rfl⟩
    · exact ⟨_, rfl⟩

/-! ## What a run leaves -/

/-- The duration of a run is that of the config as a float. -/
theorem nominalRecordingDurationMs_eq_ok {resolvedConfig : Json} {durationMs : ℚ}
    (h : nominalRecordingDurationMs resolvedConfig = .ok durationMs) :
    0 ≤ durationMs ∧ ((positivePtime resolvedConfig = none ∧ durationMs = 0) ∨
      ∃ ptimeMs, positivePtime resolvedConfig = some ptimeMs ∧ durationMs = nearest ptimeMs) := by
  unfold nominalRecordingDurationMs at h
  cases hptime : positivePtime resolvedConfig with
  | none =>
      rw [hptime] at h
      cases h
      exact ⟨le_rfl, Or.inl ⟨rfl, rfl⟩⟩
  | some ptimeMs =>
      rw [hptime] at h
      have hpos := of_decide_eq_true (Option.filter_eq_some_iff.mp hptime).2
      have hsame : durationMs = nearest ptimeMs := by
        dsimp only at h
        rw [roundDouble_eq] at h
        split_ifs at h
        cases h
        rfl
      exact ⟨hsame ▸ nearest_nonneg hpos.le, Or.inr ⟨ptimeMs, rfl, hsame⟩⟩

section LocalRuns

variable {refuses : PurePath → Bool} {sink : LocalRecordingSink} {world : HarnessWorld} {k : Uuid}
  {resolvedConfig : Json} {configHash : String} {durationMs : ℚ}

/-- The file of a recording on a disk. -/
def Names (disk : Disk) (recording : RecordingArtifact) (file : SilentWav) : Prop :=
  ∃ path : PurePath, path.WellFormed ∧ path.root ≠ [] ∧ recording.uri = asUri path ∧
    disk.files (place path) = some file

/-- A path to which a disk lets a file be written. -/
structure Disk.Free (disk : Disk) (path : PurePath) : Prop where
  passes : ∀ above ∈ passed path, disk.files above = none
  stands : place path ∉ passed path ++ disk.directories

theorem Disk.write_of_free {disk : Disk} {path : PurePath} (hrefuses : refuses path = false)
    (h : disk.Free path) (file : SilentWav) :
    disk.write refuses path file =
      .ok ⟨Function.update disk.files (place path) (some file), passed path ++ disk.directories⟩ := by
  refine if_neg ?_
  simp only [hrefuses, Bool.false_eq_true, false_or, not_or, not_exists, not_and, Bool.not_eq_true,
    Option.isSome_eq_false_iff, Option.isNone_iff_eq_none]
  exact ⟨h.passes, h.stands⟩

theorem Disk.write_of_not_free {disk : Disk} {path : PurePath}
    (h : ¬ (refuses path = false ∧ disk.Free path)) (file : SilentWav) :
    disk.write refuses path file = .error .os := by
  refine if_pos ?_
  by_contra hno
  simp only [not_or, not_exists, not_and, Bool.not_eq_true, Option.isSome_eq_false_iff,
    Option.isNone_iff_eq_none] at hno
  exact h ⟨hno.1, hno.2.1, hno.2.2⟩

/-- The files of some plans get in the way of nothing on a disk: no file stands where a directory
is needed, and no directory where a file is written, before the run or by another plan. -/
structure Clear (sink : LocalRecordingSink) (runId : String) (disk : Disk) (plans : List StagePlan) :
    Prop where
  passes : ∀ plan ∈ plans, ∀ above ∈ passed (sink.stagePath runId plan.stage),
    disk.files above = none
  stands : ∀ plan ∈ plans, place (sink.stagePath runId plan.stage) ∉ disk.directories
  apart : ∀ plan ∈ plans, ∀ plan' ∈ plans,
    place (sink.stagePath runId plan'.stage) ∉ passed (sink.stagePath runId plan.stage)

/-- What the first file leaves to the others. -/
theorem clear_cons {runId : String} {disk : Disk} {plan : StagePlan} {plans : List StagePlan}
    (file : SilentWav) :
    Clear sink runId disk (plan :: plans) ↔
      disk.Free (sink.stagePath runId plan.stage) ∧ Clear sink runId
        ⟨Function.update disk.files (place (sink.stagePath runId plan.stage)) (some file),
          passed (sink.stagePath runId plan.stage) ++ disk.directories⟩ plans := by
  constructor
  · rintro ⟨hpasses, hstands, hapart⟩
    obtain ⟨hfirst, hpasses⟩ := List.forall_mem_cons.mp hpasses
    obtain ⟨hstand, hstands⟩ := List.forall_mem_cons.mp hstands
    refine ⟨⟨hfirst, ?_⟩, ?_, ?_, ?_⟩
    · simp only [List.mem_append, not_or]
      exact ⟨hapart plan List.mem_cons_self plan List.mem_cons_self, hstand⟩
    · intro later hlater above habove
      have hne : above ≠ place (sink.stagePath runId plan.stage) := fun heq =>
        hapart later (List.mem_cons_of_mem _ hlater) plan List.mem_cons_self (heq ▸ habove)
      simp only [Function.update_of_ne hne]
      exact hpasses later hlater above habove
    · intro later hlater
      simp only [List.mem_append, not_or]
      exact ⟨hapart plan List.mem_cons_self later (List.mem_cons_of_mem _ hlater),
        hstands later hlater⟩
    · exact fun p hp p' hp' =>
        hapart p (List.mem_cons_of_mem _ hp) p' (List.mem_cons_of_mem _ hp')
  · rintro ⟨⟨hfirst, hstand⟩, hpasses, hstands, hapart⟩
    simp only [List.mem_append, not_or] at hstand hstands
    have hold : ∀ later ∈ plans, ∀ above ∈ passed (sink.stagePath runId later.stage),
        above ≠ place (sink.stagePath runId plan.stage) ∧ disk.files above = none := by
      intro later hlater above habove
      have hnone := hpasses later hlater above habove
      have hne : above ≠ place (sink.stagePath runId plan.stage) := by
        rintro rfl
        simp at hnone
      simp only [Function.update_of_ne hne] at hnone
      exact ⟨hne, hnone⟩
    refine ⟨List.forall_mem_cons.mpr ⟨hfirst, fun p hp above habove => (hold p hp above habove).2⟩,
      List.forall_mem_cons.mpr ⟨hstand.2, fun p hp => (hstands p hp).2⟩, ?_⟩
    intro p hp p' hp'
    rcases List.mem_cons.mp hp with rfl | hlater
    · rcases List.mem_cons.mp hp' with rfl | hlater'
      · exact hstand.1
      · exact (hstands p' hlater').1
    · rcases List.mem_cons.mp hp' with rfl | hlater'
      · exact fun hmem => (hold p hlater _ hmem).1 rfl
      · exact hapart p hlater p' hlater'

/-- A stage whose file can be written, as far as the stage alone decides. -/
def Writable (refuses : PurePath → Bool) (sink : LocalRecordingSink) (runId : String) (durationMs : ℚ)
    (plan : StagePlan) : Prop :=
  Recordable durationMs plan.format ∧ nul ∉ plan.stage.toList ∧
    refuses (sink.stagePath runId plan.stage) = false

/-- One call of the local sink. -/
theorem writeStageWav_local (hroot : sink.root.WellFormed) (hduration : 0 ≤ durationMs) (disk : Disk)
    (plan : StagePlan) :
    (Writable refuses sink k.str durationMs plan ∧ disk.Free (sink.stagePath k.str plan.stage) →
      ∃ recording file disk', (localSink refuses sink).writeStageWav disk k.str plan.stage plan.format
          durationMs = .ok (recording, disk') ∧
        recording.stage = plan.stage ∧ NominalFile durationMs file ∧
        nominalRate plan.format = some file.frameRate ∧ Names disk' recording file ∧
        disk' = ⟨Function.update disk.files (place (sink.stagePath k.str plan.stage)) (some file),
          passed (sink.stagePath k.str plan.stage) ++ disk.directories⟩) ∧
    (¬ (Writable refuses sink k.str durationMs plan ∧
        disk.Free (sink.stagePath k.str plan.stage)) →
      ∃ e, (localSink refuses sink).writeStageWav disk k.str plan.stage plan.format durationMs =
        .error e) := by
  obtain ⟨hwrites, hfails⟩ := @writeSilentWav_spec plan.format _ hduration
  have hnul := nul_mem_stagePath sink k plan.stage
  have habsolute : sink.root.root ≠ [] := by
    rw [sink.root_absolute]
    decide
  set path := sink.stagePath k.str plan.stage with hpath
  simp only [localSink, LocalRecordingSink.writeStageWav, ← hpath]
  constructor
  · rintro ⟨⟨hrecordable, hopen, hrefuses⟩, hfree⟩
    obtain ⟨file, hfile, hnominal, hrate⟩ := hwrites hrecordable
    have hwrite := @Disk.write_of_free refuses disk path hrefuses hfree file
    rw [if_neg (fun h => hopen (hnul.mp h)), hfile]
    simp only [bind, Except.bind, pure, Except.pure, hwrite]
    refine ⟨_, file, _, rfl, rfl, hnominal, hrate, ?_, rfl⟩
    exact ⟨path, (hroot.join _).join _,
      PurePath.root_join (PurePath.root_join habsolute _) _, rfl, Function.update_self ..⟩
  · intro hnot
    by_cases hopen : nul ∈ plan.stage.toList
    · rw [if_pos (hnul.mpr hopen)]
      exact ⟨_, rfl⟩
    rw [if_neg (fun h => hopen (hnul.mp h))]
    by_cases hrecordable : Recordable durationMs plan.format
    · obtain ⟨file, hfile, -⟩ := hwrites hrecordable
      have hwrite := @Disk.write_of_not_free refuses disk path
        (fun h => hnot ⟨⟨hrecordable, hopen, h.1⟩, h.2⟩) file
      rw [hfile]
      simp only [bind, Except.bind, pure, Except.pure, hwrite]
      exact ⟨_, rfl⟩
    · obtain ⟨e, he⟩ := hfails hrecordable
      rw [he]
      exact ⟨e, rfl⟩

/-- What a run leaves on a disk for some recordings, all of the rates of some plans. -/
def Left (durationMs : ℚ) (plans : List StagePlan) (disk : Disk)
    (recordings : List RecordingArtifact) : Prop :=
  ∀ recording ∈ recordings, ∃ file, Names disk recording file ∧ NominalFile durationMs file ∧
    ∃ plan ∈ plans, nominalRate plan.format = some file.frameRate

/-- A file that is written later replaces a nominal file by a nominal file. -/
theorem Left.update {plans : List StagePlan} {disk : Disk} {recordings : List RecordingArtifact}
    (h : Left durationMs plans disk recordings) {file : SilentWav} {plan : StagePlan}
    (hplan : plan ∈ plans) (hnominal : NominalFile durationMs file)
    (hrate : nominalRate plan.format = some file.frameRate) (spot : List Name)
    (directories : List (List Name)) :
    Left durationMs plans ⟨Function.update disk.files spot (some file), directories⟩ recordings := by
  intro recording hrecording
  obtain ⟨old, ⟨path, hpath, habsolute, huri, hdisk⟩, hold, hplans⟩ := h recording hrecording
  by_cases hplace : place path = spot
  · refine ⟨file, ⟨path, hpath, habsolute, huri, ?_⟩, hnominal, plan, hplan, hrate⟩
    rw [hplace]
    exact Function.update_self ..
  · refine ⟨old, ⟨path, hpath, habsolute, huri, ?_⟩, hold, hplans⟩
    simp only [Function.update_of_ne hplace]
    exact hdisk

/-- One turn of the loop. -/
theorem runStages_cons {σ : Type} {sink : RecordingSink σ} {runId : String} {n : ℕ} {plan : StagePlan}
    {plans : List StagePlan} {state state' state'' : σ} {recording : RecordingArtifact}
    {rest : Collected}
    (hwrite : sink.writeStageWav state runId plan.stage plan.format durationMs =
      .ok (recording, state'))
    (hrest : runStages sink world runId resolvedConfig configHash durationMs (n + 1) plans state' =
      .ok (rest, state'')) :
    runStages sink world runId resolvedConfig configHash durationMs n (plan :: plans) state =
      .ok (⟨recording :: rest.recordings,
        stageSpan world runId configHash n plan :: rest.spans,
        nominalCadenceMetrics resolvedConfig plan.stage (world.now n) ++
          hostMetrics resolvedConfig (world.host (n + 1)) ++ rest.metrics⟩, state'') := by
  simp only [runStages, hwrite, bind, Except.bind, hrest]
  rfl

/-- The loop of a run, over a disk on which some recordings were left before. -/
theorem runStages_local (hroot : sink.root.WellFormed) (hduration : 0 ≤ durationMs)
    {all : List StagePlan} {earlier : List RecordingArtifact} (plans : List StagePlan) (n : ℕ)
    (disk : Disk) (hsub : plans ⊆ all) (hleft : Left durationMs all disk earlier) :
    ((∀ plan ∈ plans, Writable refuses sink k.str durationMs plan) ∧ Clear sink k.str disk plans →
      ∃ collected disk', runStages (localSink refuses sink) world k.str resolvedConfig configHash
          durationMs n plans disk = .ok (collected, disk') ∧
        collected.recordings.map RecordingArtifact.stage = plans.map StagePlan.stage ∧
        collected.spans.map SpanArtifact.name = plans.map (fun plan => "stage.tap." ++ plan.stage) ∧
        Left durationMs all disk' (earlier ++ collected.recordings)) ∧
    (¬ ((∀ plan ∈ plans, Writable refuses sink k.str durationMs plan) ∧
        Clear sink k.str disk plans) →
      ∃ e, runStages (localSink refuses sink) world k.str resolvedConfig configHash durationMs n plans
        disk = .error e) := by
  induction plans generalizing n disk earlier with
  | nil =>
      refine ⟨fun _ => ⟨_, disk, rfl, rfl, rfl, by simpa using hleft⟩, fun hnot => absurd ?_ hnot⟩
      exact ⟨by simp, by simp, by simp, by simp⟩
  | cons plan plans ih =>
      obtain ⟨hin, hrest⟩ := List.cons_subset.mp hsub
      obtain ⟨hwrites, hfails⟩ := @writeStageWav_local refuses sink k durationMs hroot hduration disk plan
      by_cases hplan : Writable refuses sink k.str durationMs plan ∧
          disk.Free (sink.stagePath k.str plan.stage)
      · obtain ⟨recording, file, disk', hwrite, hstage, hnominal, hrate, hnames, hdisk⟩ := hwrites hplan
        have hleft' : Left durationMs all disk' (earlier ++ [recording]) := by
          intro r hr
          rcases List.mem_append.mp hr with hr | hr
          · rw [hdisk]
            exact hleft.update hin hnominal hrate _ _ r hr
          · rw [List.mem_singleton.mp hr]
            exact ⟨file, hnames, hnominal, plan, hin, hrate⟩
        obtain ⟨hruns, hstops⟩ := ih (n + 1) disk' hrest hleft'
        have hclear := @clear_cons sink k.str disk plan plans file
        rw [← hdisk] at hclear
        constructor
        · rintro ⟨hall, hopen⟩
          obtain ⟨collected, disk'', hrun, hstages, hspans, hleft''⟩ :=
            hruns ⟨fun p hp => hall p (List.mem_cons_of_mem _ hp), (hclear.mp hopen).2⟩
          refine ⟨_, disk'', runStages_cons hwrite hrun, ?_, ?_, ?_⟩
          · simp [hstage, hstages]
          · simp [hspans, stageSpan]
          · simpa using hleft''
        · intro hnot
          obtain ⟨e, he⟩ := hstops fun hall => hnot
            ⟨List.forall_mem_cons.mpr ⟨hplan.1, hall.1⟩, hclear.mpr ⟨hplan.2, hall.2⟩⟩
          refine ⟨e, ?_⟩
          simp only [runStages, hwrite, bind, Except.bind, he]
      · have hnot : ¬ ((∀ p ∈ plan :: plans, Writable refuses sink k.str durationMs p) ∧
            Clear sink k.str disk (plan :: plans)) := by
          rintro ⟨hall, hopen⟩
          have hfile : SilentWav := ⟨0, 0, 0, []⟩
          exact hplan ⟨hall plan List.mem_cons_self, ((clear_cons hfile).mp hopen).1⟩
        refine ⟨fun hall => absurd hall hnot, fun _ => ?_⟩
        obtain ⟨e, he⟩ := hfails hplan
        refine ⟨e, ?_⟩
        rw [runStages, he]
        rfl

end LocalRuns

/-! ## Metrics -/

section Metrics

variable {σ : Type} {sink : RecordingSink σ} {world : HarnessWorld} {runId : String}
  {resolvedConfig : Json} {configHash : String} {durationMs : ℚ}

theorem stage_hostMetrics {sample : HostSample} {metric : MetricArtifact}
    (h : metric ∈ hostMetrics resolvedConfig sample) : metric.stage = none := by
  simp only [hostMetrics, List.mem_append] at h
  rcases h with (h | h) | h <;> split_ifs at h <;> simp_all

/-- A metric of a stage is one of the nominal ones of the stage, which are all reported. -/
theorem metrics_runStages {plans : List StagePlan} {n : ℕ} {state state' : σ} {collected : Collected}
    (h : runStages sink world runId resolvedConfig configHash durationMs n plans state =
      .ok (collected, state')) :
    (∀ metric ∈ collected.metrics, metric.stage = none ∨ ∃ plan ∈ plans, ∃ ts,
      metric ∈ nominalCadenceMetrics resolvedConfig plan.stage ts) ∧
    ∀ plan ∈ plans, ∃ ts, nominalCadenceMetrics resolvedConfig plan.stage ts ⊆ collected.metrics := by
  induction plans generalizing n state collected with
  | nil =>
      cases h
      simp
  | cons plan plans ih =>
      simp only [runStages] at h
      obtain ⟨⟨recording, middle⟩, -, h⟩ := bind_eq_ok.mp h
      obtain ⟨⟨rest, last⟩, hrest, h⟩ := bind_eq_ok.mp h
      cases h
      obtain ⟨hof, hall⟩ := ih hrest
      constructor
      · intro metric hmetric
        rcases List.mem_append.mp hmetric with hmetric | hmetric
        · rcases List.mem_append.mp hmetric with hmetric | hmetric
          · exact Or.inr ⟨plan, List.mem_cons_self, _, hmetric⟩
          · exact Or.inl (stage_hostMetrics hmetric)
        · rcases hof metric hmetric with hnone | ⟨p, hp, ts, hts⟩
          · exact Or.inl hnone
          · exact Or.inr ⟨p, List.mem_cons_of_mem _ hp, ts, hts⟩
      · intro p hp
        rcases List.mem_cons.mp hp with rfl | hp
        · exact ⟨_, fun metric hmetric =>
            List.mem_append_left _ (List.mem_append_left _ hmetric)⟩
        · obtain ⟨ts, hts⟩ := hall p hp
          exact ⟨ts, fun metric hmetric => List.mem_append_right _ (hts hmetric)⟩

end Metrics

end VoxBench.EngineHarness
