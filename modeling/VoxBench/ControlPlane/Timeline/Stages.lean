import VoxBench.ControlPlane.Timeline.Conversation

/-!
# Evidence of the pipeline stages

The metrics of one stage at one time form a bundle. Level changes, full-scale samples and
digital silence are read from the bundles of a stage, contracted media time from the failed
verifications. Silence at the last stage while a response is active is dead air.

## Main definitions

* `stageSignalEvidence`, `stageFullScaleEvidence` — at most one finding at each place of the
  pipeline.
* `stageSilenceWindows` — the windows of digital silence.
* `assistantOutputDeadAirEvidence` — silence that overlaps a response and its playback.
* `durationContractionEvidence` — verifications with a shorter output.

## Main results

* `stageSignals_spec`, `fullScales_times` — findings at stages of the pipeline.
* `silenceWindows_spec` — windows have times in order and names of their own.
* `deadAirs_spec` — dead air lies within its window, its response and its playback.
-/

namespace VoxBench.ControlPlane

open VoxBench.Lib

/-! ## Bundles -/

/-- The metrics of a stage at one time. -/
structure StageBundle where
  stage : String
  ts : Datetime
  values : List (String × ℚ)
  deriving DecidableEq, Repr

def StageBundle.value (bundle : StageBundle) (name : String) : Option ℚ := Dict.get? bundle.values name

/-- A time as a dictionary key: aware times are equal when they mean the same instant, and
never equal to a naive one. -/
def Datetime.key (d : Datetime) : Bool × Instant := (d.isAware, d.instant)

/-- `bundles.setdefault((metric.stage, metric.ts), {})[metric.name] = metric.value`. -/
def addToBundle (names : List String) (bundles : List ((String × Bool × Instant) × StageBundle))
    (metric : MetricArtifact) : List ((String × Bool × Instant) × StageBundle) :=
  match metric.stage with
  | none => bundles
  | some stage =>
      if metric.name ∈ names then
        let key := (stage, metric.ts.key)
        let bundle := (Dict.get? bundles key).getD ⟨stage, metric.ts, []⟩
        Dict.set bundles key { bundle with values := Dict.set bundle.values metric.name metric.value }
      else bundles

/-- The bundles of the given metrics, in the order of their first metrics. -/
def stageBundles (names : List String) (metrics : List MetricArtifact) : List StageBundle :=
  (metrics.foldl (addToBundle names) []).map Prod.snd

/-- `max(items, key=lambda item: (value(item), time(item)))`. The times of two items are
compared when their values are equal. -/
def maxByTs {α : Type} (value : α → ℚ) (time : α → Datetime) (first : α) (rest : List α) :
    Except TimelineError α :=
  rest.foldlM (fun best item =>
    if value item = value best then do
      let delta ← (time item).subtract (time best)
      return if 0 < delta then item else best
    else return if value best < value item then item else best) first

/-! ## Level changes -/

structure StageSignalEvidence where
  stage : String
  tRelMs : ℚ
  inputRms : Option ℚ
  outputRms : Option ℚ
  deltaDb : ℚ
  gainApplied : Option ℚ
  sampleCount : ℕ
  deriving DecidableEq, Repr

def StageSignalEvidence.eventId (e : StageSignalEvidence) : String := "stage-signal:" ++ e.stage

/-- `STAGE_LEVEL_EVENT_THRESHOLD_DB`. -/
def stageLevelEventThresholdDb : ℚ := 1

def StageBundle.deltaDb (bundle : StageBundle) : ℚ := (bundle.value "delta_db").getD 0

/-- The bundles of a stage with a level change. -/
def signalCandidates (run : StoredRun) (stage : String) : List StageBundle :=
  (stageBundles ["input_rms", "output_rms", "delta_db", "gain_applied"] run.metrics).filter
    fun bundle => (bundle.value "delta_db").isSome ∧ bundle.stage = stage

/-- The largest level change of a stage, if it is large enough. -/
def stageSignal (run : StoredRun) (stage : String) :
    Except TimelineError (Option StageSignalEvidence) :=
  match signalCandidates run stage with
  | [] => .ok none
  | first :: rest => do
      let bundle ← maxByTs (fun bundle => |bundle.deltaDb|) StageBundle.ts first rest
      if |bundle.deltaDb| < stageLevelEventThresholdDb then return none
      else do
        let tRelMs ← relativeMs run bundle.ts
        return some
          { stage, tRelMs, inputRms := bundle.value "input_rms",
            outputRms := bundle.value "output_rms", deltaDb := bundle.deltaDb,
            gainApplied := bundle.value "gain_applied", sampleCount := (first :: rest).length }

/-- `_stage_signal_evidence`. -/
def stageSignalEvidence (run : StoredRun) : Except TimelineError (List StageSignalEvidence) :=
  collect (stageSignal run) (pipelineStageNames run)

/-! ## Sample quality -/

/-- `_stage_quality_bundles`. -/
def stageQualityBundles (run : StoredRun) :
    Except TimelineError (List (String × List StageBundle)) :=
  (groupOn StageBundle.stage (stageBundles ["audio_chunk_duration_ms", "full_scale_sample_pct",
    "sample_peak_dbfs", "silence_sample_pct"] run.metrics)).mapM fun group => do
      let bundles ← sortedByTs StageBundle.ts (fun _ => ()) group.2
      return (group.1, bundles)

structure StageFullScaleEvidence where
  stage : String
  previousStage : Option String
  tRelMs : ℚ
  fullScaleSamplePct : ℚ
  samplePeakDbfs : Option ℚ
  sampleCount : ℕ
  deriving DecidableEq, Repr

def StageFullScaleEvidence.eventId (e : StageFullScaleEvidence) : String :=
  "stage-full-scale:" ++ e.stage

def StageBundle.fullScalePct (bundle : StageBundle) : ℚ :=
  (bundle.value "full_scale_sample_pct").getD 0

/-- The strongest full-scale finding of a stage, unless the stage before it had one. -/
def stageFullScale (run : StoredRun) (previousStage : Option String) (previousPeakPct : Option ℚ)
    (stage : String) (bundles : List StageBundle) :
    Except TimelineError (Option StageFullScaleEvidence) :=
  match bundles.filter (fun bundle => 0 < bundle.fullScalePct), previousPeakPct.all (· ≤ 0) with
  | first :: rest, true => do
      let bundle ← maxByTs StageBundle.fullScalePct StageBundle.ts first rest
      let tRelMs ← relativeMs run bundle.ts
      return some
        { stage, previousStage, tRelMs, fullScaleSamplePct := bundle.fullScalePct,
          samplePeakDbfs := bundle.value "sample_peak_dbfs", sampleCount := bundles.length }
  | _, _ => .ok none

/-- The largest share of full-scale samples in the bundles of a stage, if it has any. -/
def peakPct (bundles : List StageBundle) : Option ℚ := (bundles.map StageBundle.fullScalePct).max?

/-- The loop of `_stage_full_scale_evidence`. -/
def stageFullScales (run : StoredRun) (bundlesByStage : List (String × List StageBundle)) :
    Option String → Option ℚ → List String → Except TimelineError (List StageFullScaleEvidence)
  | _, _, [] => .ok []
  | previousStage, previousPeakPct, stage :: rest => do
      let bundles := (Dict.get? bundlesByStage stage).getD []
      let found ← stageFullScale run previousStage previousPeakPct stage bundles
      let later ← stageFullScales run bundlesByStage (some stage) (peakPct bundles) rest
      return found.toList ++ later

/-- `_stage_full_scale_evidence`. -/
def stageFullScaleEvidence (run : StoredRun) : Except TimelineError (List StageFullScaleEvidence) := do
  let bundlesByStage ← stageQualityBundles run
  stageFullScales run bundlesByStage none none (pipelineStageNames run)

/-! ## Digital silence -/

structure StageSilenceWindow where
  stage : String
  windowIndex : ℕ
  startMs : ℚ
  endMs : ℚ
  observationCount : ℕ
  peakSilenceSamplePct : ℚ
  deriving DecidableEq, Repr

def StageSilenceWindow.correlationAlias (w : StageSilenceWindow) : String :=
  "stage-silence:" ++ w.stage ++ ":" ++ w.windowIndex.repr

/-- `STAGE_SILENCE_THRESHOLD_DBFS`. -/
def stageSilenceThresholdDbfs : ℚ := -60

/-- `STAGE_SILENCE_SAMPLE_THRESHOLD_PCT`. -/
def stageSilenceSampleThresholdPct : ℚ := 98

/-- `STAGE_SILENCE_MIN_WINDOW_MS`. -/
def stageSilenceMinWindowMs : ℚ := 200

/-- `STAGE_SILENCE_MAX_OBSERVATION_GAP_MS`. -/
def stageSilenceMaxObservationGapMs : ℚ := 100

structure SilentObservation where
  startMs : ℚ
  durationMs : ℚ
  silencePct : ℚ
  deriving DecidableEq, Repr

structure SilenceScan where
  windows : List StageSilenceWindow := []
  current : List SilentObservation := []

/-- `finish_window`. -/
def SilenceScan.finishWindow (stage : String) (scan : SilenceScan) : SilenceScan :=
  let durationMs := compensatedSum (scan.current.map SilentObservation.durationMs)
  match scan.current with
  | [] => scan
  | first :: rest =>
      if stageSilenceMinWindowMs ≤ durationMs then
        { windows := scan.windows ++
            [{ stage
               windowIndex := scan.windows.countP fun window => window.stage = stage
               startMs := first.startMs
               endMs := nearest (first.startMs + durationMs)
               observationCount := (first :: rest).length
               peakSilenceSamplePct :=
                 ((first :: rest).map SilentObservation.silencePct).max?.getD 0 }]
          current := [] }
      else { scan with current := [] }

/-- The duration and the share of silent samples of a bundle that is silent. -/
def StageBundle.silent (bundle : StageBundle) : Option (ℚ × ℚ) :=
  match bundle.value "silence_sample_pct", bundle.value "audio_chunk_duration_ms" with
  | some silencePct, some durationMs =>
      if 0 < durationMs ∧ stageSilenceSampleThresholdPct ≤ silencePct then
        some (durationMs, silencePct)
      else none
  | _, _ => none

/-- A silent observation starts too long after the one before it. -/
def SilenceScan.breaks (scan : SilenceScan) (startMs : ℚ) : Bool :=
  scan.current.getLast?.any fun previous =>
    max stageSilenceMaxObservationGapMs (nearest (previous.durationMs * 2)) <
      nearest (startMs - previous.startMs)

/-- One bundle of the loop of `_stage_silence_windows`. -/
def SilenceScan.observe (run : StoredRun) (stage : String) (scan : SilenceScan)
    (bundle : StageBundle) : Except TimelineError SilenceScan :=
  match bundle.silent with
  | none => .ok (scan.finishWindow stage)
  | some (durationMs, silencePct) => do
      let startMs ← relativeMs run bundle.ts
      let scan := if scan.breaks startMs then scan.finishWindow stage else scan
      return { scan with current := scan.current ++ [⟨startMs, durationMs, silencePct⟩] }

/-- The windows of one place of the pipeline, after those of the places before it. -/
def silenceWindowsOfStage (run : StoredRun) (bundlesByStage : List (String × List StageBundle))
    (windows : List StageSilenceWindow) (stage : String) :
    Except TimelineError (List StageSilenceWindow) := do
  let scan ← ((Dict.get? bundlesByStage stage).getD []).foldlM (SilenceScan.observe run stage)
    { windows }
  return (scan.finishWindow stage).windows

/-- `_stage_silence_windows`. -/
def stageSilenceWindows (run : StoredRun) : Except TimelineError (List StageSilenceWindow) := do
  let bundlesByStage ← stageQualityBundles run
  (pipelineStageNames run).foldlM (silenceWindowsOfStage run bundlesByStage) []

/-! ## Dead air -/

structure AssistantOutputDeadAirEvidence where
  silence : StageSilenceWindow
  providerResponse : ProviderResponseEvidence
  assistantPlayback : Option CorrelatedActivityEvidence
  startMs : ℚ
  endMs : ℚ
  deriving DecidableEq, Repr

def AssistantOutputDeadAirEvidence.overlapMs (e : AssistantOutputDeadAirEvidence) : ℚ :=
  nearest (e.endMs - e.startMs)

/-- `ASSISTANT_OUTPUT_DEAD_AIR_MIN_OVERLAP_MS`. -/
def assistantOutputDeadAirMinOverlapMs : ℚ := 200

/-- The time that silence, a response and a playback burst have in common. -/
def deadAir (silence : StageSilenceWindow) (response : ProviderResponseEvidence)
    (playback : Option CorrelatedActivityEvidence) : AssistantOutputDeadAirEvidence where
  silence := silence
  providerResponse := response
  assistantPlayback := playback
  startMs := max (max silence.startMs response.startMs)
    ((playback.map CorrelatedActivityEvidence.startMs).getD 0)
  endMs := min (min silence.endMs response.endMs)
    ((playback.map CorrelatedActivityEvidence.endMs).getD response.endMs)

/-- The playback bursts, or the absence of any. -/
def playbackContexts (playbacks : List CorrelatedActivityEvidence) :
    List (Option CorrelatedActivityEvidence) :=
  if playbacks = [] then [none] else playbacks.map some

/-- `_assistant_output_dead_air_evidence`. -/
def assistantOutputDeadAirEvidence (run : StoredRun) :
    Except TimelineError (List AssistantOutputDeadAirEvidence) :=
  match (pipelineStageNames run).getLast? with
  | none => .ok []
  | some finalStage => do
      let windows ← stageSilenceWindows run
      let playbacks ← assistantPlaybackEvidence run
      -- the responses are computed once for each window
      let evidence ← (windows.filter fun window => window.stage = finalStage).mapM fun silence => do
        let responses ← providerResponseEvidence run
        return (responses.flatMap fun response =>
          (playbackContexts playbacks).map (deadAir silence response)).filter fun item =>
            assistantOutputDeadAirMinOverlapMs ≤ item.overlapMs
      return evidence.flatten

/-! ## Media time -/

structure DurationContractionEvidence where
  verificationIndex : ℕ
  previousStage : Option String
  stage : String
  inputDurationMs : ℚ
  outputDurationMs : ℚ
  durationRatio : ℚ
  deriving DecidableEq, Repr

namespace DurationContractionEvidence

def missingDurationMs (e : DurationContractionEvidence) : ℚ :=
  nearest (e.inputDurationMs - e.outputDurationMs)

def eventId (e : DurationContractionEvidence) : String :=
  "duration-contraction:" ++ e.verificationIndex.repr

def correlationAlias (e : DurationContractionEvidence) : String :=
  "media-time:" ++ e.stage ++ ":" ++ e.verificationIndex.repr

end DurationContractionEvidence

/-- `previous_by_stage`: the stage before the last place of each stage. -/
def previousByStage (stageNames : List String) : List (String × Option String) :=
  (stageNames.zip (none :: stageNames.map some)).foldl (fun d p => Dict.set d p.1 p.2) []

/-- What a verification says about contracted media time. -/
def durationContraction (run : StoredRun) (v : VerificationResult × ℕ) :
    Except TimelineError (Option DurationContractionEvidence) :=
  if v.1.passed ∨ v.1.invariant ≠ "duration_preserving" then .ok none
  else do
    let input ← plainNumber (v.1.observed.get? "input_duration_ms")
    let output ← plainNumber (v.1.observed.get? "output_duration_ms")
    let ratio ← plainNumber (v.1.observed.get? "duration_ratio")
    match input, output, ratio with
    | some inputDurationMs, some outputDurationMs, some durationRatio =>
        if inputDurationMs ≤ outputDurationMs then .ok none
        else .ok (some
          { verificationIndex := v.2
            previousStage := (Dict.get? (previousByStage (pipelineStageNames run)) v.1.stage).join
            stage := v.1.stage, inputDurationMs, outputDurationMs, durationRatio })
    | _, _, _ => .ok none

/-- `_duration_contraction_evidence`. -/
def durationContractionEvidence (run : StoredRun) :
    Except TimelineError (List DurationContractionEvidence) :=
  collect (durationContraction run) run.verifications.zipIdx

/-! ## Levels and full scale -/

section Findings

variable {run : StoredRun}

theorem maxByTs_spec {α : Type} {value : α → ℚ} {time : α → Datetime} {first best : α}
    {rest : List α} (h : maxByTs value time first rest = .ok best) :
    best ∈ first :: rest ∧ ∀ a ∈ first :: rest, value a ≤ value best := by
  induction rest generalizing first with
  | nil =>
      cases h
      simp
  | cons item rest ih =>
      rw [maxByTs, List.foldlM_cons] at h
      obtain ⟨next, hnext, h⟩ := bind_eq_ok.mp h
      obtain ⟨hmem, hmax⟩ := ih h
      -- the next candidate is one of the two, and no smaller than either
      have hcases : (next = first ∨ next = item) ∧ value first ≤ value next ∧
          value item ≤ value next := by
        split at hnext
        · rename_i heq
          obtain ⟨delta, -, hnext⟩ := bind_eq_ok.mp hnext
          cases hnext
          split <;> simp [heq]
        · cases hnext
          split
          · rename_i hlt
            exact ⟨Or.inr rfl, hlt.le, le_rfl⟩
          · rename_i hnot
            exact ⟨Or.inl rfl, le_rfl, not_lt.mp hnot⟩
      obtain ⟨hnext, hfirst, hitem⟩ := hcases
      have hbest := hmax next List.mem_cons_self
      refine ⟨?_, ?_⟩
      · rcases List.mem_cons.mp hmem with rfl | hmem
        · rcases hnext with rfl | rfl <;> simp
        · simp [hmem]
      · intro a ha
        rcases List.mem_cons.mp ha with rfl | ha
        · exact hfirst.trans hbest
        · rcases List.mem_cons.mp ha with rfl | ha
          · exact hitem.trans hbest
          · exact hmax a (List.mem_cons_of_mem _ ha)

/-- Some bundle of the stage changes the level by the threshold or more. -/
def HasLevelEvent (run : StoredRun) (stage : String) : Prop :=
  ∃ bundle ∈ signalCandidates run stage, stageLevelEventThresholdDb ≤ |bundle.deltaDb|

theorem stageSignal_spec {stage : String} {found : Option StageSignalEvidence}
    (h : stageSignal run stage = .ok found) :
    (found.isSome ↔ HasLevelEvent run stage) ∧
      ∀ e ∈ found, e.stage = stage ∧ 0 ≤ e.tRelMs := by
  unfold HasLevelEvent
  unfold stageSignal at h
  split at h
  · rename_i hnone
    cases h
    simp [hnone]
  · rename_i first rest hcandidates
    obtain ⟨bundle, hbundle, h⟩ := bind_eq_ok.mp h
    obtain ⟨hmem, hmax⟩ := maxByTs_spec hbundle
    rw [hcandidates]
    split at h
    · rename_i hlt
      cases h
      refine ⟨⟨nofun, ?_⟩, nofun⟩
      rintro ⟨other, hother, hle⟩
      exact absurd (hle.trans (hmax other hother)) (not_le.mpr hlt)
    · rename_i hge
      obtain ⟨tRelMs, ht, h⟩ := bind_eq_ok.mp h
      cases h
      refine ⟨⟨fun _ => ⟨bundle, hmem, not_lt.mp hge⟩, fun _ => rfl⟩, fun e he => ?_⟩
      cases he
      exact ⟨rfl, relativeMs_nonneg ht⟩

theorem stageSignals_spec {signals : List StageSignalEvidence}
    (h : stageSignalEvidence run = .ok signals) :
    ∀ e ∈ signals, e.stage ∈ pipelineStageNames run ∧ 0 ≤ e.tRelMs := by
  intro e he
  obtain ⟨stage, hstage, hfound⟩ := (mem_collect h).mp he
  obtain ⟨rfl, ht⟩ := (stageSignal_spec hfound).2 e rfl
  exact ⟨hstage, ht⟩

theorem stageFullScale_spec {previousStage : Option String} {previousPeakPct : Option ℚ}
    {stage : String} {bundles : List StageBundle} {found : Option StageFullScaleEvidence}
    (h : stageFullScale run previousStage previousPeakPct stage bundles = .ok found) :
    (found.isSome ↔ (∃ bundle ∈ bundles, 0 < bundle.fullScalePct) ∧ ∀ peak ∈ previousPeakPct, peak ≤ 0) ∧
      ∀ e ∈ found, e.stage = stage ∧ 0 ≤ e.tRelMs := by
  unfold stageFullScale at h
  have hcandidates : (∃ bundle ∈ bundles, 0 < bundle.fullScalePct) ↔
      bundles.filter (fun bundle => 0 < bundle.fullScalePct) ≠ [] := by
    simp [List.filter_eq_nil_iff]
  have hprevious : (∀ peak ∈ previousPeakPct, peak ≤ 0) ↔ previousPeakPct.all (· ≤ 0) = true := by
    simp [Option.all_eq_true]
  rw [hcandidates, hprevious]
  split at h
  · rename_i first rest hfirst hall
    obtain ⟨bundle, hbundle, h⟩ := bind_eq_ok.mp h
    obtain ⟨tRelMs, ht, h⟩ := bind_eq_ok.mp h
    cases h
    refine ⟨by simp [hfirst, hall], fun e he => ?_⟩
    cases he
    exact ⟨rfl, relativeMs_nonneg ht⟩
  · rename_i hnot
    cases h
    refine ⟨⟨nofun, ?_⟩, nofun⟩
    rintro ⟨hne, hall⟩
    obtain ⟨first, rest, hfirst⟩ := List.exists_cons_of_ne_nil hne
    exact absurd hall (by simpa using hnot first rest hfirst)

theorem stageFullScales_times {bundlesByStage : List (String × List StageBundle)}
    {previousStage : Option String} {previousPeakPct : Option ℚ} {stages : List String}
    {found : List StageFullScaleEvidence}
    (h : stageFullScales run bundlesByStage previousStage previousPeakPct stages = .ok found) :
    ∀ e ∈ found, 0 ≤ e.tRelMs := by
  induction stages generalizing previousStage previousPeakPct found with
  | nil =>
      cases h
      simp
  | cons stage stages ih =>
      obtain ⟨first, hfirst, h⟩ := bind_eq_ok.mp h
      obtain ⟨later, hlater, h⟩ := bind_eq_ok.mp h
      cases h
      intro e he
      rcases List.mem_append.mp he with he | he
      · exact ((stageFullScale_spec hfirst).2 e (Option.mem_toList.mp he)).2
      · exact ih hlater e he

theorem fullScales_times {found : List StageFullScaleEvidence}
    (h : stageFullScaleEvidence run = .ok found) : ∀ e ∈ found, 0 ≤ e.tRelMs := by
  obtain ⟨bundlesByStage, -, h⟩ := bind_eq_ok.mp h
  exact stageFullScales_times h

end Findings

/-! ## Silence -/

section Silence

variable {run : StoredRun} {stage : String} {scan : SilenceScan}

/-- What the scan keeps: times in order, and windows counted up for each stage. -/
structure SilenceScan.Sound (scan : SilenceScan) : Prop where
  times : ∀ window ∈ scan.windows, 0 ≤ window.startMs ∧ window.startMs ≤ window.endMs
  current : ∀ observation ∈ scan.current,
    0 ≤ observation.startMs ∧ nearest observation.startMs = observation.startMs
  counted : ∀ window ∈ scan.windows,
    window.windowIndex < scan.windows.countP fun w => w.stage = window.stage
  nodup : (scan.windows.map fun window => (window.stage, window.windowIndex)).Nodup

theorem SilenceScan.Sound.finishWindow (h : scan.Sound) : (scan.finishWindow stage).Sound := by
  simp only [SilenceScan.finishWindow]
  split
  · exact h
  · rename_i first rest hcurrent
    obtain ⟨hfirst, hfloat⟩ := h.current first (by simp [hcurrent])
    split
    · rename_i hduration
      have hmin : 0 ≤ stageSilenceMinWindowMs := by norm_num [stageSilenceMinWindowMs]
      refine ⟨?_, by simp, ?_, ?_⟩
      · intro window hwindow
        rcases List.mem_append.mp hwindow with hwindow | hwindow
        · exact h.times window hwindow
        · obtain rfl := List.mem_singleton.mp hwindow
          refine ⟨hfirst, ?_⟩
          calc first.startMs = nearest first.startMs := hfloat.symm
            _ ≤ _ := nearest_mono (le_add_of_nonneg_right (hmin.trans hduration))
      · intro window hwindow
        rw [List.countP_append]
        rcases List.mem_append.mp hwindow with hwindow | hwindow
        · exact (h.counted window hwindow).trans_le (Nat.le_add_right _ _)
        · obtain rfl := List.mem_singleton.mp hwindow
          simp
      · rw [List.map_append, List.nodup_append]
        refine ⟨h.nodup, List.nodup_singleton _, ?_⟩
        intro a ha b hb heq
        obtain ⟨window, hwindow, rfl⟩ := List.mem_map.mp ha
        simp only [List.map_cons, List.map_nil, List.mem_singleton] at hb
        subst hb
        obtain ⟨rfl, hindex⟩ := Prod.mk.inj heq
        exact absurd (h.counted window hwindow) (by simp [hindex])
    · exact ⟨h.times, by simp, h.counted, h.nodup⟩

theorem SilenceScan.Sound.observe (h : scan.Sound) {bundle : StageBundle} {next : SilenceScan}
    (hnext : scan.observe run stage bundle = .ok next) : next.Sound := by
  unfold SilenceScan.observe at hnext
  split at hnext
  · cases hnext
    exact h.finishWindow
  · obtain ⟨startMs, hstart, hnext⟩ := bind_eq_ok.mp hnext
    cases hnext
    have hscan : (if scan.breaks startMs then scan.finishWindow stage else scan).Sound := by
      split
      · exact h.finishWindow
      · exact h
    refine ⟨hscan.times, ?_, hscan.counted, hscan.nodup⟩
    intro observation hobservation
    rcases List.mem_append.mp hobservation with hobservation | hobservation
    · exact hscan.current observation hobservation
    · obtain rfl := List.mem_singleton.mp hobservation
      exact ⟨relativeMs_nonneg hstart, relativeMs_isFloat hstart⟩

theorem silenceWindowsOfStage_sound {bundlesByStage : List (String × List StageBundle)}
    {windows found : List StageSilenceWindow} (hwindows : SilenceScan.Sound { windows })
    (h : silenceWindowsOfStage run bundlesByStage windows stage = .ok found) :
    SilenceScan.Sound { windows := found } := by
  obtain ⟨scan, hscan, h⟩ := bind_eq_ok.mp h
  cases h
  have hsound : scan.Sound :=
    invariant_of_foldlM (fun _ hscan _ _ _ hnext => hscan.observe hnext) hwindows hscan
  have hfinished := @SilenceScan.Sound.finishWindow stage scan hsound
  exact ⟨hfinished.times, by simp, hfinished.counted, hfinished.nodup⟩

theorem silenceWindows_spec {windows : List StageSilenceWindow}
    (h : stageSilenceWindows run = .ok windows) :
    (∀ window ∈ windows, 0 ≤ window.startMs ∧ window.startMs ≤ window.endMs) ∧
      (windows.map fun window => (window.stage, window.windowIndex)).Nodup := by
  obtain ⟨bundlesByStage, -, h⟩ := bind_eq_ok.mp h
  have hsound : SilenceScan.Sound { windows } :=
    @invariant_of_foldlM _ _ _ _ _ (fun windows => SilenceScan.Sound { windows }) _ _
      (fun _ hwindows _ _ _ hnext => silenceWindowsOfStage_sound hwindows hnext)
      ⟨by simp, by simp, by simp, by simp⟩ h
  exact ⟨hsound.times, hsound.nodup⟩

end Silence

/-! ## Dead air and media time -/

section Combined

variable {run : StoredRun}

theorem mem_playbackContexts {playbacks : List CorrelatedActivityEvidence}
    {playback : Option CorrelatedActivityEvidence} (h : playback ∈ playbackContexts playbacks) :
    ∀ item ∈ playback, item ∈ playbacks := by
  intro item hitem
  rw [Option.mem_def] at hitem
  unfold playbackContexts at h
  split at h
  · simp [hitem] at h
  · simpa [hitem] using h

theorem deadAirs_spec {deadAirs : List AssistantOutputDeadAirEvidence}
    (h : assistantOutputDeadAirEvidence run = .ok deadAirs) :
    ∀ item ∈ deadAirs, ∃ windows responses playbacks, stageSilenceWindows run = .ok windows ∧
      providerResponseEvidence run = .ok responses ∧ assistantPlaybackEvidence run = .ok playbacks ∧
      item.silence ∈ windows ∧ item.providerResponse ∈ responses ∧
      (∀ playback ∈ item.assistantPlayback, playback ∈ playbacks) ∧
      item = deadAir item.silence item.providerResponse item.assistantPlayback ∧
      item.startMs ≤ item.endMs := by
  unfold assistantOutputDeadAirEvidence at h
  split at h
  · cases h
    simp
  · obtain ⟨windows, hwindows, h⟩ := bind_eq_ok.mp h
    obtain ⟨playbacks, hplaybacks, h⟩ := bind_eq_ok.mp h
    obtain ⟨evidence, hevidence, h⟩ := bind_eq_ok.mp h
    cases h
    intro item hitem
    obtain ⟨items, hitems, hitem⟩ := List.mem_flatten.mp hitem
    obtain ⟨silence, hsilence, hfound⟩ := exists_of_mem_mapM hevidence hitems
    obtain ⟨responses, hresponses, hfound⟩ := bind_eq_ok.mp hfound
    cases hfound
    obtain ⟨hitem, hoverlap⟩ := List.mem_filter.mp hitem
    obtain ⟨response, hresponse, hitem⟩ := List.mem_flatMap.mp hitem
    obtain ⟨playback, hplayback, rfl⟩ := List.mem_map.mp hitem
    have hmin : 0 < assistantOutputDeadAirMinOverlapMs := by
      norm_num [assistantOutputDeadAirMinOverlapMs]
    have hpos := hmin.trans_le (of_decide_eq_true hoverlap)
    exact ⟨windows, responses, playbacks, hwindows, hresponses, hplaybacks,
      (List.mem_filter.mp hsilence).1, hresponse, mem_playbackContexts hplayback, rfl,
      (sub_pos.mp (pos_of_nearest_pos hpos)).le⟩

theorem durationContraction_spec {v : VerificationResult × ℕ} {e : DurationContractionEvidence}
    (h : durationContraction run v = .ok (some e)) :
    e.verificationIndex = v.2 ∧ e.outputDurationMs ≤ e.inputDurationMs ∧
      plainNumber (v.1.observed.get? "output_duration_ms") = .ok (some e.outputDurationMs) := by
  unfold durationContraction at h
  split at h
  · simp at h
  · obtain ⟨input, -, h⟩ := bind_eq_ok.mp h
    obtain ⟨output, houtput, h⟩ := bind_eq_ok.mp h
    obtain ⟨ratio, -, h⟩ := bind_eq_ok.mp h
    split at h
    · split at h
      · simp at h
      · rename_i hlt
        simp only [Except.ok.injEq, Option.some.injEq] at h
        subst h
        exact ⟨rfl, (not_le.mp hlt).le, houtput⟩
    · simp at h

end Combined

end VoxBench.ControlPlane
