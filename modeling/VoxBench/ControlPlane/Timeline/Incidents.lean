import VoxBench.ControlPlane.Timeline.Lanes

/-!
# Incidents

An incident cites the events and artifacts that it was read from by their ids. The summary
texts of the incidents, and the text that a barge-in incident makes of `interrupt_path`, are
left out: they format numbers for display.

## Main definitions

* `typedTimelineIncidents` — the incidents of a run.
-/

namespace VoxBench.ControlPlane

open VoxBench.Lib

inductive TimelineSeverity where
  | info
  | warning
  | error
  deriving DecidableEq, Repr

inductive TimelineConfidence where
  | certain
  | high
  | medium
  | low
  deriving DecidableEq, Repr

structure TimelineIncident where
  incidentId : String
  ruleId : String
  category : TimelineCategory
  severity : TimelineSeverity
  title : String
  startMs : ℚ
  endMs : ℚ
  confidence : TimelineConfidence
  stage : Option String := none
  direction : Option String := none
  observed : List (String × Json) := []
  expected : List (String × Json) := []
  evidenceRefs : List String := []

/-- `artifact_by_stage.get(stage)`: the last artifact of the stage. -/
def artifactOfStage (artifacts : List TimelineTypedArtifact) (stage : Option String) :
    Option String :=
  stage.bind fun name => (artifacts.reverse.find? fun artifact => artifact.stage = some name).map
    TimelineTypedArtifact.artifactId

/-! ## PCM discontinuities -/

/-- `PCM_DISCONTINUITY_CORRELATION_WINDOW_MS`. -/
def pcmDiscontinuityCorrelationWindowMs : ℚ := 100

def pcmCorrelationNames : List String :=
  ["playback_queue_cleared", "barge_in_completed", "provider_interrupt_requested",
    "provider_interrupted"]

/-- The distance of a candidate from an event, in seconds, if the two are near. -/
def nearbyCandidate (event candidate : TimelineEventArtifact) :
    Except TimelineError (Option (TimelineEventArtifact × ℚ)) :=
  if candidate.name ∈ pcmCorrelationNames then do
    let delta ← candidate.ts.subtract event.ts
    return if |totalMs delta| ≤ pcmDiscontinuityCorrelationWindowMs then
      some (candidate, |totalSeconds delta|)
    else none
  else .ok none

/-- The events that a discontinuity may be related to, nearest first. -/
def nearbyEvents (run : StoredRun) (event : TimelineEventArtifact) :
    Except TimelineError (List TimelineEventArtifact) := do
  let candidates ← collect (nearbyCandidate event) run.timelineEvents
  return (sortOn (fun c => toLex (c.2, c.1.eventId)) candidates).map Prod.fst

def pcmIncident (run : StoredRun) (artifacts : List TimelineTypedArtifact)
    (event : TimelineEventArtifact) : Except TimelineError TimelineIncident := do
  let nearby ← nearbyEvents run event
  -- both numbers are read for the summary
  let _ ← numericAttribute event.attributes "magnitude"
  let _ ← numericAttribute event.attributes "media_time_ms"
  let wallTimeMs ← relativeMs run event.ts
  return {
    incidentId := "pcm-discontinuity:" ++ event.eventId
    ruleId := "pcm16_adjacent_delta_v1"
    category := .pipeline
    severity := .warning
    title := "PCM discontinuity suspected at " ++
      (event.stage.filter (· ≠ "")).getD "unknown stage"
    startMs := wallTimeMs
    endMs := wallTimeMs
    confidence := if nearby = [] then .low else .medium
    stage := event.stage
    observed := Dict.set (Dict.set (attributesJson event.attributes)
      "temporally_correlated_event_count" (.int nearby.length)) "remote_playout_observed" (.bool false)
    expected := [("magnitude_below",
        ((Dict.get? event.attributes "threshold").map AttrValue.json).getD (.float (1 / 4))),
      ("audibility", .str "not proven by this detector"), ("remote_playout", .str "not observed")]
    evidenceRefs := (artifactOfStage artifacts event.stage).toList ++
      event.eventId :: nearby.map TimelineEventArtifact.eventId }

/-- The stored events of PCM discontinuities. -/
def pcmEvents (run : StoredRun) : List TimelineEventArtifact :=
  run.timelineEvents.filter fun event => event.name = "stage.pcm_discontinuity_detected"

/-! ## Failed verifications -/

/-- The fields of a verification's `observed` and `expected`. -/
def jsonFields : Json → List (String × Json)
  | .obj fields => fields
  | _ => []

/-- `delta_db` is read for the summary of a failed level check without duration evidence. -/
def readDeltaDb (contraction : Option DurationContractionEvidence) (verification : VerificationResult) :
    Except TimelineError (Option ℚ) :=
  if contraction = none ∧ verification.invariant = "level_preserving" then
    plainNumber (verification.observed.get? "delta_db")
  else .ok none

/-- The incident of a failed verification, given its index among the verifications and among
the failures. -/
def verificationIncident (run : StoredRun) (artifacts : List TimelineTypedArtifact)
    (durationMs : ℚ) (contractions : List DurationContractionEvidence)
    (signals : List StageSignalEvidence) (item : (VerificationResult × ℕ) × ℕ) :
    Except TimelineError TimelineIncident := do
  let verification := item.1.1
  let previousStage :=
    (Dict.get? (previousByStage (pipelineStageNames run)) verification.stage).join
  let contraction := contractions.find? fun evidence => evidence.verificationIndex = item.1.2
  let signal := signals.reverse.find? fun evidence => evidence.stage = verification.stage
  let _ ← readDeltaDb contraction verification
  return {
    incidentId := "verification:" ++ item.2.repr
    ruleId := verification.invariant
    category := .pipeline
    severity := .error
    title :=
      if contraction.isSome then "Media time contracted at " ++ verification.stage
      else if verification.invariant = "level_preserving" then
        "Signal level contract failed at " ++ verification.stage
      else verification.stage ++ ": " ++ verification.invariant
    startMs := (contraction.map DurationContractionEvidence.outputDurationMs).getD 0
    endMs := (contraction.map DurationContractionEvidence.inputDurationMs).getD durationMs
    confidence := .certain
    stage := some verification.stage
    observed := jsonFields verification.observed
    expected := jsonFields verification.expected
    evidenceRefs := (artifactOfStage artifacts previousStage).toList ++
      (artifactOfStage artifacts (some verification.stage)).toList ++
      match contraction with
      | some evidence => [evidence.eventId]
      | none =>
          if verification.invariant = "level_preserving" then
            (signal.map StageSignalEvidence.eventId).toList
          else [] }

/-- The failed verifications, with their index among all of them and among the failures. -/
def failedVerifications (run : StoredRun) : List ((VerificationResult × ℕ) × ℕ) :=
  (run.verifications.zipIdx.filter fun item => ¬ item.1.passed).zipIdx

/-! ## Stages -/

def fullScaleIncident (artifacts : List TimelineTypedArtifact) (item : StageFullScaleEvidence) :
    TimelineIncident where
  incidentId := "full-scale:" ++ item.stage
  ruleId := "pcm_full_scale_samples_v1"
  category := .pipeline
  severity := .warning
  title := "Clipping suspected at " ++ item.stage
  startMs := item.tRelMs
  endMs := item.tRelMs
  confidence := .medium
  stage := some item.stage
  observed := [("full_scale_sample_pct", .float item.fullScaleSamplePct),
    ("sample_peak_dbfs", numberJson item.samplePeakDbfs), ("sample_count", .int item.sampleCount),
    ("first_observed_after_stage", textJson item.previousStage)]
  expected := [("full_scale_sample_pct", .float 0),
    ("clipping_confirmation", .str "waveform plateau or oversampled true-peak evidence required")]
  evidenceRefs := (artifactOfStage artifacts item.previousStage).toList ++
    (artifactOfStage artifacts (some item.stage)).toList ++ [item.eventId]

def deadAirIncident (artifacts : List TimelineTypedArtifact) (item : AssistantOutputDeadAirEvidence) :
    TimelineIncident where
  incidentId := "assistant-output-dead-air:" ++ item.silence.stage ++ ":" ++
    item.silence.windowIndex.repr ++ ":" ++ item.providerResponse.responseIndex.repr
  ruleId := "assistant_output_dead_air_v1"
  category := .conversation
  severity := .warning
  title := "Assistant output dead air suspected"
  startMs := item.startMs
  endMs := item.endMs
  confidence := .medium
  stage := some item.silence.stage
  direction := some "assistant_to_caller"
  observed := [("digital_silence_while_provider_active_ms", .float item.overlapMs),
    ("silence_window_duration_ms", .float (nearest (item.silence.endMs - item.silence.startMs))),
    ("provider_response_duration_ms",
      .float (nearest (item.providerResponse.endMs - item.providerResponse.startMs))),
    ("provider_completion_observed", .bool item.providerResponse.completed),
    ("assistant_playback_observed", .bool item.assistantPlayback.isSome),
    ("assistant_playback_written_audio_ms", attributeJson (item.assistantPlayback.bind fun playback =>
      playback.stopAttribute "written_audio_ms")),
    ("remote_playout_observed", .bool false)]
  expected := [("digital_silence_while_provider_active_ms_below",
      .float assistantOutputDeadAirMinOverlapMs), ("remote_playout", .str "not observed")]
  evidenceRefs := (artifactOfStage artifacts (some item.silence.stage)).toList ++
    [item.silence.startEventId, item.providerResponse.startEventId] ++
    item.providerResponse.doneEventId.toList ++
    (item.assistantPlayback.map CorrelatedActivityEvidence.evidenceRefs).getD []

theorem evidenceRefs_deadAirIncident (artifacts : List TimelineTypedArtifact)
    (item : AssistantOutputDeadAirEvidence) : (deadAirIncident artifacts item).evidenceRefs =
      (artifactOfStage artifacts (some item.silence.stage)).toList ++
        [item.silence.startEventId, item.providerResponse.startEventId] ++
        item.providerResponse.doneEventId.toList ++
        (item.assistantPlayback.map CorrelatedActivityEvidence.evidenceRefs).getD [] := rfl

def underrunIncident (item : AssistantPlaybackUnderrunEvidence) : TimelineIncident where
  incidentId := "assistant-playback-underrun:" ++ item.gap.gapIndex.repr ++ ":" ++
    item.providerResponse.responseIndex.repr
  ruleId := "assistant_playback_underrun_v1"
  category := .buffer
  severity := .warning
  title := "Assistant playback underrun suspected"
  startMs := item.startMs
  endMs := item.endMs
  confidence := .medium
  direction := some "assistant_to_caller"
  observed := [("playback_gap_ms", .float item.gap.gapMs),
    ("playback_gap_while_provider_active_ms", .float item.overlapMs),
    ("previous_written_audio_ms",
      attributeJson (item.gap.previousPlayback.stopAttribute "written_audio_ms")),
    ("previous_stop_reason", attributeJson (item.gap.previousPlayback.stopAttribute "stop_reason")),
    ("provider_completion_observed", .bool item.providerResponse.completed),
    ("remote_playout_observed", .bool false)]
  expected := [("playback_gap_while_provider_active_ms_below",
      .float assistantPlaybackUnderrunMinGapMs),
    ("continuous_audio_contract", .str "not observed"), ("remote_playout", .str "not observed")]
  evidenceRefs := item.gap.evidenceRefs ++ [item.providerResponse.startEventId] ++
    item.providerResponse.doneEventId.toList

theorem evidenceRefs_underrunIncident (item : AssistantPlaybackUnderrunEvidence) :
    (underrunIncident item).evidenceRefs = item.gap.evidenceRefs ++
      [item.providerResponse.startEventId] ++ item.providerResponse.doneEventId.toList := rfl

/-! ## Transport -/

/-- `_rtp_network_loss_confirmation`. -/
def rtpNetworkLossConfirmation (item : RtpPacketDiscontinuityEvidence) : String :=
  match item.captureHealth.map RtpCaptureHealthEvidence.continuity with
  | none | some .notIndependentlyVerified => "capture loss must be excluded at the observation point"
  | some .compromised => "restore capture continuity before attributing the gap to the network"
  | some .verified =>
      "capture continuity verified for this window; path attribution depends on tap placement"

def discontinuityIncident (item : RtpPacketDiscontinuityEvidence) : TimelineIncident where
  incidentId := item.correlationAlias
  ruleId := match item.kind, item.captureCompromised with
    | .sequenceGap, true => "rtp_sequence_gap_capture_ambiguous_v1"
    | .arrivalStall, true => "rtp_arrival_stall_capture_ambiguous_v1"
    | .sequenceGap, false => "rtp_sequence_gap_v1"
    | .arrivalStall, false => "rtp_arrival_stall_v1"
  category := .transport
  severity := .warning
  title := match item.kind, item.captureCompromised with
    | .sequenceGap, true => "RTP sequence gap may be capture loss"
    | .arrivalStall, true => "RTP arrival stall may be capture delay"
    | .sequenceGap, false => "RTP sequence gap observed"
    | .arrivalStall, false => "RTP arrival stall suspected"
  startMs := item.previous.tRelMs
  endMs := item.current.tRelMs
  confidence := match item.captureCompromised, item.kind with
    | true, _ => .low
    | false, .sequenceGap => .high
    | false, .arrivalStall => .medium
  direction := some item.current.direction.text
  observed := [("stream_alias", .str item.current.streamAlias),
    ("previous_sequence_number", .int item.previous.sequenceNumber),
    ("current_sequence_number", .int item.current.sequenceNumber),
    ("sequence_delta", .int item.sequenceDelta),
    ("missing_packet_count", .int item.missingPacketCount),
    ("arrival_gap_ms", .float item.arrivalGapMs), ("media_advance_ms", .float item.mediaAdvanceMs),
    ("excess_arrival_delay_ms", .float item.excessArrivalDelayMs),
    ("payload_type", .int item.current.payloadType),
    ("clock_rate_hz", .int item.current.clockRateHz),
    ("clock_domain", .str item.current.event.clockDomain),
    ("alignment_uncertainty_ms", numberJson (rtpPairAlignmentUncertaintyMs item))] ++
    rtpCaptureAttributes item
  expected := [("sequence_delta", .int 1), ("arrival_excess_ms_below", .float rtpArrivalStallExcessMs),
    ("capture_point_continuity",
      (Dict.get? (rtpCaptureAttributes item) "capture_point_continuity").getD .null),
    ("network_loss_confirmation", .str (rtpNetworkLossConfirmation item))]
  evidenceRefs := item.eventId :: (item.captureHealth.map fun health => health.event.eventId).toList

/-- The title of a degradation window. -/
def windowTitle (window : List RtpQualityEvidence) : String :=
  if (pairs window).any fun p => RtpTrigger.loss ∈ p.1.triggers ∧ RtpTrigger.loss ∈ p.2.triggers then
    "RTP loss burst suspected"
  else
    match windowTriggers window with
    | [.loss] => "RTP packet loss elevated"
    | [.jitter] => "RTP jitter elevated"
    | [.mos] => "RTP quality degraded"
    | _ => "RTP quality degradation"

/-- The values of the findings of a window with the given trigger. -/
def triggerSamples (window : List RtpQualityEvidence) (trigger : RtpTrigger)
    (value : RtpQualityEvidence → Option ℚ) : List ℚ :=
  (window.filter fun item => trigger ∈ item.triggers).filterMap value

/-- The incident of a degradation window, given its index. -/
def windowIncident (window : List RtpQualityEvidence × ℕ) : TimelineIncident where
  incidentId := rtpWindowAlias window.2 window.1
  ruleId := "rtp_quality_degradation_v1"
  category := .transport
  severity := .warning
  title := windowTitle window.1
  startMs := windowStartMs window.1
  endMs := max (windowStartMs window.1) (windowEndMs window.1)
  confidence := .medium
  direction := (windowDirection window.1).map RtpDirection.text
  observed := [("sample_count", .int window.1.length),
    ("triggers", .arr ((windowTriggers window.1).map fun trigger => .str trigger.text)),
    ("peak_loss_pct", numberJson (triggerSamples window.1 .loss RtpQualityEvidence.lossPct).max?),
    ("peak_jitter_ms", numberJson (triggerSamples window.1 .jitter RtpQualityEvidence.jitterMs).max?),
    ("minimum_mos", numberJson (triggerSamples window.1 .mos RtpQualityEvidence.mos).min?),
    ("loss_burst_suspected", .bool ((pairs window.1).any fun p =>
      RtpTrigger.loss ∈ p.1.triggers ∧ RtpTrigger.loss ∈ p.2.triggers))]
  expected := [("loss_pct_below", .float rtpLossWarningPct),
    ("jitter_ms_below", .float rtpJitterWarningMs), ("mos_above", .float rtpMosWarningScore),
    ("packet_gap_confirmation", .str "RTP sequence or arrival cadence required")]
  evidenceRefs := window.1.flatMap RtpQualityEvidence.evidenceRefs

/-! ## The end of a run and barge-ins -/

def failureIncidents (run : StoredRun) (durationMs : ℚ) : List TimelineIncident :=
  (run.failureAlias.map fun _ =>
    ({ incidentId := "run:failure"
       ruleId := "run_failure"
       category := .session
       severity := .error
       title := "Run failed"
       startMs := durationMs
       endMs := durationMs
       confidence := .certain
       evidenceRefs := ["run:failure"] } : TimelineIncident)).toList

/-- The numbers that a barge-in incident reads from the event that cleared the queue. -/
def clearedNumberNames : List String :=
  ["dropped_frames", "discarded_audio_ms", "discarded_total_audio_ms",
    "discarded_signal_bearing_audio_ms", "discarded_signal_bearing_frames", "partial_audio_ms",
    "discarded_provider_chunks", "provider_chunks_last_30ms", "provider_chunks_last_100ms",
    "first_discarded_audio_lead_ms", "queue_depth_before_clear", "evidence_frames_recorded",
    "evidence_frames_omitted", "signal_threshold_rms", "written_audio_ms_before_control"]

/-- The event that cleared the queue, or the completion. -/
def BargeIn.cleared (item : BargeIn) : TimelineEventArtifact :=
  (item.events.find? fun event => event.name = "playback_queue_cleared").getD item.completed

/-- The numbers under the given names. -/
def namedNumbers (attributes : List (String × AttrValue)) (names : List String) :
    Except TimelineError (List (String × Option ℚ)) :=
  names.mapM fun name => do
    let value ← numericAttribute attributes name
    return (name, value)

def bargeInIncident (item : BargeIn) : Except TimelineError TimelineIncident := do
  let numbers ← namedNumbers item.cleared.attributes clearedNumberNames
  let playedAudioEndMs ← numericAttribute item.completed.attributes "played_audio_end_ms"
  let discardedSignalMs := (Dict.get? numbers "discarded_signal_bearing_audio_ms").join
  let writtenAudioMs := (Dict.get? numbers "written_audio_ms_before_control").join
  let signalBeforePlayout := discardedSignalMs.any (0 < ·) && writtenAudioMs.all (· ≤ 0)
  return {
    incidentId := "barge-in:" ++ item.correlationAlias
    ruleId := "barge_in_sequence"
    category := .conversation
    severity := if signalBeforePlayout then .warning else .info
    title :=
      if signalBeforePlayout then "Signal-bearing audio discarded before playout"
      else if discardedSignalMs.isSome then "Barge-in packet evidence captured"
      else "Barge-in handled"
    startMs := item.startMs
    endMs := item.endMs
    confidence := .high
    direction := some "caller_to_assistant"
    observed := [("handling_duration_ms", .float (nearest (item.endMs - item.startMs))),
      ("played_audio_end_ms", numberJson playedAudioEndMs)] ++
      numbers.map (fun f => (f.1, numberJson f.2)) ++ [("remote_playout_observed", .bool false)]
    expected := [("interrupt_path", .str "provider-auto-or-request"),
      ("playback_queue_cleared", .bool true), ("truncate_when_position_available", .bool true),
      ("packet_evidence", .str (if discardedSignalMs.isSome then "captured" else "not observed")),
      ("remote_playout", .str "not observed"),
      ("provider_version_comparison", .str "requires repeated matched calls")]
    evidenceRefs := item.events.map TimelineEventArtifact.eventId }

/-- `_typed_timeline_incidents`. -/
def typedTimelineIncidents (run : StoredRun) (artifacts : List TimelineTypedArtifact) :
    Except TimelineError (List TimelineIncident) := do
  let durationMs ← runTimelineDurationMs run
  let contractions ← durationContractionEvidence run
  let signals ← stageSignalEvidence run
  let pcm ← (pcmEvents run).mapM (pcmIncident run artifacts)
  let verifications ← (failedVerifications run).mapM
    (verificationIncident run artifacts durationMs contractions signals)
  let fullScales ← stageFullScaleEvidence run
  let deadAirs ← assistantOutputDeadAirEvidence run
  let underruns ← assistantPlaybackUnderrunEvidence run
  let discontinuities ← rtpPacketDiscontinuityEvidence run
  let barges ← bargeIns run
  let bargeIncidents ← barges.mapM bargeInIncident
  let windows ← rtpQualityWindows run
  return pcm ++ verifications ++ fullScales.map (fullScaleIncident artifacts) ++
    deadAirs.map (deadAirIncident artifacts) ++ underruns.map underrunIncident ++
    discontinuities.map discontinuityIncident ++ failureIncidents run durationMs ++
    bargeIncidents ++ windows.zipIdx.map windowIncident

end VoxBench.ControlPlane
