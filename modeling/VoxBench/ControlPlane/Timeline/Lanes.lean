import VoxBench.ControlPlane.Timeline.Rtp
import VoxBench.ControlPlane.Timeline.Stages
import VoxBench.Lib.Text
import Mathlib.Data.List.MinMax

/-!
# The lanes of a timeline

The events, intervals, series and artifacts of the timeline of a run, each derived from the
stored run in a pass of its own.

## Main definitions

* `typedTimelineEvents`, `typedTimelineIntervals`, `typedTimelineSeries`,
  `typedTimelineArtifacts` — the four lanes.
* `bargeIn` — the time that a completed barge-in took.

## Main results

* `bargeIns_spec` — a barge-in is made of visible events of the run, at times in order.
-/

namespace VoxBench.ControlPlane

open VoxBench.Lib

/-! ## Entries -/

structure TimelineTypedEvent where
  eventId : String
  category : TimelineCategory
  name : String
  tRelMs : ℚ
  clockDomain : String
  alignmentUncertaintyMs : Option ℚ := none
  direction : Option String := none
  stage : Option String := none
  streamAlias : Option String := none
  source : String
  correlationAlias : Option String := none
  attributes : List (String × Json) := []

structure TimelineTypedInterval where
  intervalId : String
  category : TimelineCategory
  name : String
  startMs : ℚ
  endMs : ℚ
  clockDomain : String
  alignmentUncertaintyMs : Option ℚ := none
  direction : Option String := none
  stage : Option String := none
  streamAlias : Option String := none
  source : String
  correlationAlias : Option String := none
  attributes : List (String × Json) := []

structure TimelineSeriesPoint where
  tRelMs : ℚ
  value : ℚ
  deriving DecidableEq, Repr

structure TimelineTypedSeries where
  seriesId : String
  category : TimelineCategory
  name : String
  unit : Option String := none
  clockDomain : String
  direction : Option String := none
  stage : Option String := none
  streamAlias : Option String := none
  source : String
  points : List TimelineSeriesPoint

structure TimelineTypedArtifact where
  artifactId : String
  category : TimelineCategory
  name : String
  kind : String
  startMs : ℚ
  durationMs : Option ℚ
  stage : Option String
  artifactRef : String
  metadata : List (String × Json)

/-! ## Attribute values -/

def AttrValue.json : AttrValue → Json
  | .str s => .str s
  | .int n => .int n
  | .float q => .float q
  | .bool b => .bool b
  | .null => .null

def numberJson (value : Option ℚ) : Json := (value.map Json.float).getD .null

def textJson (value : Option String) : Json := (value.map Json.str).getD .null

def attributeJson (value : Option AttrValue) : Json := (value.map AttrValue.json).getD .null

def attributesJson (attributes : List (String × AttrValue)) : List (String × Json) :=
  attributes.map fun f => (f.1, f.2.json)

def wall : String := "control_plane_wall"

/-! ## Events -/

/-- `_TIMELINE_EVENT_METRICS`. -/
def timelineEventMetrics : List (String × TimelineCategory) :=
  [("barge_in_events", .conversation), ("dtmf_events", .conversation),
    ("output_frames_dropped", .buffer), ("provider_auto_interrupts", .provider),
    ("provider_input_speech_started", .conversation), ("provider_interrupt_requests", .provider),
    ("provider_interrupted", .provider), ("provider_response_done", .provider),
    ("provider_response_started", .provider), ("provider_stream_ended", .provider),
    ("provider_stream_errors", .provider), ("provider_truncate_requests", .provider)]

/-- `_TYPED_BARGE_IN_METRICS`. -/
def typedBargeInMetrics : List String :=
  ["barge_in_events", "output_frames_dropped", "provider_auto_interrupts",
    "provider_input_speech_started", "provider_interrupt_requests", "provider_interrupted",
    "provider_truncate_requests"]

def sipTypedEvent (run : StoredRun) (item : SipEventResponse × ℕ) :
    Except TimelineError TimelineTypedEvent := do
  let tRelMs ← relativeMs run item.1.ts
  return {
    eventId := "sip:" ++ item.2.repr
    category := .signaling
    name := "sip." ++ String.ofList (Text.lower item.1.method.toList)
    tRelMs := tRelMs
    clockDomain := wall
    direction := some (match item.1.direction with
      | .inbound => "in"
      | .outbound => "out")
    source := "sip_event"
    attributes := [("method", .str item.1.method)] ++
      (item.1.statusCode.map fun code => ("status_code", Json.int code)).toList ++
      (item.1.summaryAlias.map fun text => ("summary_alias", Json.str text)).toList }

/-- The stored events that the timeline shows: single packets stay hidden. -/
def visibleEvents (run : StoredRun) : List TimelineEventArtifact :=
  run.timelineEvents.filter fun event => event.name ≠ "rtp.packet_arrived"

def persistedTypedEvent (run : StoredRun) (event : TimelineEventArtifact) :
    Except TimelineError TimelineTypedEvent := do
  let tRelMs ← relativeMs run event.ts
  return {
    eventId := event.eventId
    category := event.category
    name := event.name
    tRelMs := tRelMs
    clockDomain := event.clockDomain
    alignmentUncertaintyMs := event.alignmentUncertaintyMs
    direction := event.direction
    stage := event.stage
    streamAlias := event.streamAlias
    source := event.source
    correlationAlias := event.correlationAlias
    attributes := attributesJson event.attributes }

/-- The metrics that responses were read from. -/
def responseObservationIndices (responses : List ProviderResponseEvidence) : List ℕ :=
  responses.flatMap fun response =>
    response.startObservationIndex :: response.doneObservationIndex.toList

/-- The metric is shown as an event. -/
def isMetricEvent (run : StoredRun) (indices : List ℕ) (item : MetricArtifact × ℕ) : Bool :=
  (Dict.get? timelineEventMetrics item.1.name).isSome ∧ 0 < item.1.value ∧ item.2 ∉ indices ∧
    item.1.name ∉ run.timelineEvents.map TimelineEventArtifact.name ∧
    ¬ (run.timelineEvents ≠ [] ∧ item.1.name ∈ typedBargeInMetrics)

def metricTypedEvent (run : StoredRun) (item : (MetricArtifact × ℕ) × ℕ) :
    Except TimelineError TimelineTypedEvent := do
  let metric := item.1.1
  let tRelMs ← relativeMs run metric.ts
  return {
    eventId := "metric-event:" ++ item.2.repr
    category := (Dict.get? timelineEventMetrics metric.name).getD .runtime
    name := metric.name
    tRelMs := tRelMs
    clockDomain := wall
    stage := metric.stage
    source := "metric_observation"
    attributes := [("value", .float metric.value)] }

def ProviderResponseEvidence.startEvent (item : ProviderResponseEvidence) : TimelineTypedEvent where
  eventId := item.startEventId
  category := .provider
  name := "provider.response_started"
  tRelMs := item.startMs
  clockDomain := wall
  direction := some "assistant_to_caller"
  source := "provider_lifecycle_metrics"
  correlationAlias := some item.correlationAlias
  attributes := [("completion_observed", .bool item.completed)]

def ProviderResponseEvidence.doneEvent (item : ProviderResponseEvidence) (eventId : String) :
    TimelineTypedEvent where
  eventId := eventId
  category := .provider
  name := "provider.response_done"
  tRelMs := item.endMs
  clockDomain := wall
  direction := some "assistant_to_caller"
  source := "provider_lifecycle_metrics"
  correlationAlias := some item.correlationAlias
  attributes := [("completion_observed", .bool true),
    ("duration_ms", .float (nearest (item.endMs - item.startMs)))]

def ProviderResponseEvidence.typedEvents (item : ProviderResponseEvidence) :
    List TimelineTypedEvent :=
  item.startEvent :: (item.doneEventId.map item.doneEvent).toList

/-- `_rtp_capture_attributes`. -/
def rtpCaptureAttributes (item : RtpPacketDiscontinuityEvidence) : List (String × Json) :=
  match item.captureHealth with
  | none => [("capture_point_continuity", .str "not independently verified")]
  | some health =>
      [("capture_point_continuity", .str health.continuity.text),
        ("capture_drop_counter_supported", .bool health.captureDropCounterSupported),
        ("capture_drop_count", .int health.captureDropCount),
        ("capture_decode_error_count", .int health.decodeErrorCount),
        ("capture_observed_packet_count", .int health.observedPacketCount)]

/-- `_rtp_pair_alignment_uncertainty_ms`. -/
def rtpPairAlignmentUncertaintyMs (item : RtpPacketDiscontinuityEvidence) : Option ℚ :=
  ([item.previous.event.alignmentUncertaintyMs, item.current.event.alignmentUncertaintyMs,
    item.captureHealth.bind fun health => health.event.alignmentUncertaintyMs].filterMap id).max?

def RtpPacketDiscontinuityEvidence.typedEvent (item : RtpPacketDiscontinuityEvidence) :
    TimelineTypedEvent where
  eventId := item.eventId
  category := .transport
  name := match item.kind with
    | .sequenceGap => "rtp.sequence_gap_observed"
    | .arrivalStall => "rtp.arrival_stall_observed"
  tRelMs := item.current.tRelMs
  clockDomain := item.current.event.clockDomain
  alignmentUncertaintyMs := rtpPairAlignmentUncertaintyMs item
  direction := some item.current.direction.text
  streamAlias := some item.current.streamAlias
  source := "rtp_packet_cadence_rule_v1"
  correlationAlias := some item.correlationAlias
  attributes := [("previous_sequence_number", .int item.previous.sequenceNumber),
    ("current_sequence_number", .int item.current.sequenceNumber),
    ("sequence_delta", .int item.sequenceDelta),
    ("missing_packet_count", .int item.missingPacketCount),
    ("arrival_gap_ms", .float item.arrivalGapMs), ("media_advance_ms", .float item.mediaAdvanceMs),
    ("excess_arrival_delay_ms", .float item.excessArrivalDelayMs),
    ("payload_type", .int item.current.payloadType),
    ("clock_rate_hz", .int item.current.clockRateHz)] ++ rtpCaptureAttributes item

def StageSignalEvidence.typedEvent (item : StageSignalEvidence) : TimelineTypedEvent where
  eventId := item.eventId
  category := .pipeline
  name := if 0 < item.deltaDb then "stage.level_increased" else "stage.level_decreased"
  tRelMs := item.tRelMs
  clockDomain := wall
  stage := some item.stage
  source := "stage_signal_metrics"
  correlationAlias := some item.eventId
  attributes := [("input_rms", numberJson item.inputRms), ("output_rms", numberJson item.outputRms),
    ("delta_db", .float item.deltaDb), ("gain_applied", numberJson item.gainApplied),
    ("sample_count", .int item.sampleCount),
    ("event_threshold_db", .float stageLevelEventThresholdDb)]

def StageFullScaleEvidence.typedEvent (item : StageFullScaleEvidence) : TimelineTypedEvent where
  eventId := item.eventId
  category := .pipeline
  name := "stage.full_scale_samples_detected"
  tRelMs := item.tRelMs
  clockDomain := wall
  stage := some item.stage
  source := "pcm_sample_quality"
  correlationAlias := some item.eventId
  attributes := [("previous_stage", textJson item.previousStage),
    ("full_scale_sample_pct", .float item.fullScaleSamplePct),
    ("sample_peak_dbfs", numberJson item.samplePeakDbfs), ("sample_count", .int item.sampleCount),
    ("clipping_status", .str "suspected")]

def StageSilenceWindow.startEventId (item : StageSilenceWindow) : String :=
  item.correlationAlias ++ ":start"

def StageSilenceWindow.typedEvent (item : StageSilenceWindow) : TimelineTypedEvent where
  eventId := item.startEventId
  category := .pipeline
  name := "stage.digital_silence_started"
  tRelMs := item.startMs
  clockDomain := wall
  stage := some item.stage
  source := "pcm_sample_quality"
  correlationAlias := some item.correlationAlias
  attributes := [("duration_ms", .float (nearest (item.endMs - item.startMs))),
    ("observation_count", .int item.observationCount),
    ("peak_silence_sample_pct", .float item.peakSilenceSamplePct),
    ("silence_threshold_dbfs", .float stageSilenceThresholdDbfs)]

def DurationContractionEvidence.typedEvent (item : DurationContractionEvidence) :
    TimelineTypedEvent where
  eventId := item.eventId
  category := .pipeline
  name := "stage.media_time_contracted"
  tRelMs := item.outputDurationMs
  clockDomain := "recording_media_time"
  stage := some item.stage
  source := "duration_verification"
  correlationAlias := some item.correlationAlias
  attributes := [("previous_stage", textJson item.previousStage),
    ("input_duration_ms", .float item.inputDurationMs),
    ("output_duration_ms", .float item.outputDurationMs),
    ("missing_duration_ms", .float item.missingDurationMs),
    ("duration_ratio", .float item.durationRatio)]

/-- `f"rtp-{direction or 'unknown'}"`. -/
def rtpStreamAlias (direction : Option RtpDirection) : String :=
  "rtp-" ++ (direction.map RtpDirection.text).getD "unknown"

def RtpQualityEvidence.typedEvent (item : RtpQualityEvidence) (alias_ : String)
    (trigger : RtpTrigger) : TimelineTypedEvent where
  eventId := item.eventId trigger
  category := .transport
  name := match trigger with
    | .loss => "rtp.loss_elevated"
    | .jitter => "rtp.jitter_elevated"
    | .mos => "rtp.mos_degraded"
  tRelMs := item.tRelMs
  clockDomain := wall
  direction := item.direction.map RtpDirection.text
  streamAlias := some (rtpStreamAlias item.direction)
  source := "rtp_quality_rule_v1"
  correlationAlias := some alias_
  attributes := match trigger with
    | .loss => [("loss_pct", numberJson item.lossPct),
        ("warning_threshold_pct", .float rtpLossWarningPct)]
    | .jitter => [("jitter_ms", numberJson item.jitterMs),
        ("warning_threshold_ms", .float rtpJitterWarningMs)]
    | .mos => [("mos", numberJson item.mos), ("warning_below_or_equal", .float rtpMosWarningScore)]

/-- The events of a degradation window, given its index. -/
def windowTypedEvents (window : List RtpQualityEvidence × ℕ) : List TimelineTypedEvent :=
  window.1.flatMap fun item =>
    item.triggers.map (item.typedEvent (rtpWindowAlias window.2 window.1))

/-- The event of a failed run. -/
def failureTypedEvents (run : StoredRun) : Except TimelineError (List TimelineTypedEvent) :=
  match run.failureAlias with
  | none => .ok []
  | some failureAlias => do
      let tRelMs ← relativeMs run (run.endedAt.getD run.startedAt)
      return [{
        eventId := "run:failure"
        category := .session
        name := "run_failed"
        tRelMs := tRelMs
        clockDomain := wall
        source := "run_state"
        attributes := [("failure_alias", .str failureAlias)] }]

/-- `_typed_timeline_events`. -/
def typedTimelineEvents (run : StoredRun) : Except TimelineError (List TimelineTypedEvent) := do
  let sip ← run.sipEvents.zipIdx.mapM (sipTypedEvent run)
  let persisted ← (visibleEvents run).mapM (persistedTypedEvent run)
  let responses ← providerResponseEvidence run
  let metrics ← (run.metrics.zipIdx.filter
    (isMetricEvent run (responseObservationIndices responses))).zipIdx.mapM (metricTypedEvent run)
  let discontinuities ← rtpPacketDiscontinuityEvidence run
  let signals ← stageSignalEvidence run
  let fullScales ← stageFullScaleEvidence run
  let silences ← stageSilenceWindows run
  let contractions ← durationContractionEvidence run
  let windows ← rtpQualityWindows run
  let failure ← failureTypedEvents run
  return sortOn (fun event => toLex (event.tRelMs, event.eventId))
    (sip ++ persisted ++ metrics ++ responses.flatMap ProviderResponseEvidence.typedEvents ++
      discontinuities.map RtpPacketDiscontinuityEvidence.typedEvent ++
      signals.map StageSignalEvidence.typedEvent ++
      fullScales.map StageFullScaleEvidence.typedEvent ++
      silences.map StageSilenceWindow.typedEvent ++
      contractions.map DurationContractionEvidence.typedEvent ++
      windows.zipIdx.flatMap windowTypedEvents ++ failure)

/-! ## Intervals -/

/-- `int(run.started_at.timestamp() * 1_000_000_000)`. -/
def originNs (run : StoredRun) : ℤ :=
  let ns := nearest (totalSeconds run.startedAt.instant * 1000000000)
  if 0 ≤ ns then ⌊ns⌋ else ⌈ns⌉

def spanTypedInterval (run : StoredRun) (item : SpanArtifact × ℕ) :
    Except TimelineError TimelineTypedInterval := do
  let span := item.1
  let stage := (span.attrs.get? "voxbench.stage").bind Json.str?
  let spanStart ← toFloat ((span.startNs - originNs run : ℤ) / 1000000)
  let spanEnd ← toFloat ((span.endNs - originNs run : ℤ) / 1000000)
  let startMs := max 0 spanStart
  let endMs := max startMs spanEnd
  return {
    intervalId := "span:" ++ item.2.repr
    category := if stage.isSome then .pipeline else .session
    name := span.name
    startMs := startMs
    endMs := endMs
    clockDomain := "otel_epoch_ns"
    stage := stage
    source := "otel_span"
    attributes := [("duration_ms", .float (nearest (endMs - startMs)))] }

def RtpPacketDiscontinuityEvidence.typedInterval (item : RtpPacketDiscontinuityEvidence) :
    TimelineTypedInterval where
  intervalId := item.correlationAlias
  category := .transport
  name := match item.kind with
    | .sequenceGap => "rtp_sequence_gap"
    | .arrivalStall => "rtp_arrival_stall"
  startMs := item.previous.tRelMs
  endMs := item.current.tRelMs
  clockDomain := item.current.event.clockDomain
  alignmentUncertaintyMs := rtpPairAlignmentUncertaintyMs item
  direction := some item.current.direction.text
  streamAlias := some item.current.streamAlias
  source := "rtp_packet_cadence_rule_v1"
  correlationAlias := some item.correlationAlias
  attributes := [("duration_ms", .float (nearest (item.current.tRelMs - item.previous.tRelMs))),
    ("sequence_delta", .int item.sequenceDelta),
    ("missing_packet_count", .int item.missingPacketCount),
    ("arrival_gap_ms", .float item.arrivalGapMs), ("media_advance_ms", .float item.mediaAdvanceMs),
    ("excess_arrival_delay_ms", .float item.excessArrivalDelayMs)] ++ rtpCaptureAttributes item

def ProviderResponseEvidence.typedInterval (item : ProviderResponseEvidence) :
    TimelineTypedInterval where
  intervalId := item.correlationAlias
  category := .provider
  name := "provider_response"
  startMs := item.startMs
  endMs := item.endMs
  clockDomain := wall
  direction := some "assistant_to_caller"
  source := "provider_lifecycle_metrics"
  correlationAlias := some item.correlationAlias
  attributes := [("duration_ms", .float (nearest (item.endMs - item.startMs))),
    ("completion_observed", .bool item.completed)]

def callerSpeechTypedInterval (item : CorrelatedActivityEvidence) : TimelineTypedInterval where
  intervalId := "caller-speech:" ++ item.correlationAlias
  category := .conversation
  name := "caller_speech"
  startMs := item.startMs
  endMs := item.endMs
  clockDomain := wall
  direction := some "caller_to_assistant"
  source := "audiosocket_bridge"
  correlationAlias := some item.correlationAlias
  attributes := [("duration_ms", .float (nearest (item.endMs - item.startMs))),
    ("completion_observed", .bool item.completionObserved),
    ("stop_reason", attributeJson (item.stopAttribute "stop_reason")),
    ("observation_boundary", .str "provider_input_vad")]

def assistantPlaybackTypedInterval (item : CorrelatedActivityEvidence) : TimelineTypedInterval where
  intervalId := "assistant-playback:" ++ item.correlationAlias
  category := .conversation
  name := "assistant_playback"
  startMs := item.startMs
  endMs := item.endMs
  clockDomain := wall
  direction := some "assistant_to_caller"
  source := "audiosocket_bridge"
  correlationAlias := some item.correlationAlias
  attributes := [("duration_ms", .float (nearest (item.endMs - item.startMs))),
    ("completion_observed", .bool item.completionObserved),
    ("written_audio_ms", attributeJson (item.stopAttribute "written_audio_ms")),
    ("stop_reason", attributeJson (item.stopAttribute "stop_reason")),
    ("observation_boundary", .str "audiosocket_frame_write"),
    ("remote_playout_observed", .bool false)]

def AssistantOutputStartWaitEvidence.typedInterval (item : AssistantOutputStartWaitEvidence) :
    TimelineTypedInterval where
  intervalId := "assistant-output-start-wait:" ++ item.providerResponse.responseIndex.repr
  category := .provider
  name := "assistant_output_start_wait"
  startMs := item.startMs
  endMs := item.endMs
  clockDomain := wall
  direction := some "assistant_to_caller"
  source := "provider_playback_correlation"
  correlationAlias := some item.providerResponse.correlationAlias
  attributes := [("duration_ms", .float item.waitMs),
    ("playback_started", .bool item.assistantPlayback.isSome),
    ("playback_correlation_alias",
      textJson (item.assistantPlayback.map CorrelatedActivityEvidence.correlationAlias)),
    ("provider_completion_observed", .bool item.providerResponse.completed),
    ("observation_boundary", .str "provider_response_start_to_audiosocket_first_frame_write"),
    ("latency_threshold_status", .str "not_configured")]

/-- The interval of a gap, given the aliases of the gaps with an underrun. -/
def AssistantPlaybackGapEvidence.typedInterval (underrunGapAliases : List String)
    (item : AssistantPlaybackGapEvidence) : TimelineTypedInterval where
  intervalId := item.correlationAlias
  category := .buffer
  name := "assistant_playback_gap"
  startMs := item.startMs
  endMs := item.endMs
  clockDomain := wall
  direction := some "assistant_to_caller"
  source := "audiosocket_bridge"
  correlationAlias := some item.correlationAlias
  attributes := [("duration_ms", .float item.gapMs),
    ("previous_playback_alias", .str item.previousPlayback.correlationAlias),
    ("next_playback_alias", .str item.nextPlayback.correlationAlias),
    ("incident_status", .str (if item.correlationAlias ∈ underrunGapAliases then
      "assistant_playback_underrun_suspected"
    else "evidence_only_without_provider_response_context")),
    ("remote_playout_observed", .bool false)]

/-- The interval of a silence window, given the aliases of the windows with dead air. -/
def StageSilenceWindow.typedInterval (deadAirSilenceAliases : List String)
    (item : StageSilenceWindow) : TimelineTypedInterval where
  intervalId := item.correlationAlias
  category := .pipeline
  name := "digital_silence"
  startMs := item.startMs
  endMs := item.endMs
  clockDomain := wall
  stage := some item.stage
  source := "pcm_sample_quality"
  correlationAlias := some item.correlationAlias
  attributes := [("duration_ms", .float (nearest (item.endMs - item.startMs))),
    ("observation_count", .int item.observationCount),
    ("peak_silence_sample_pct", .float item.peakSilenceSamplePct),
    ("incident_status", .str (if item.correlationAlias ∈ deadAirSilenceAliases then
      "assistant_output_dead_air_suspected"
    else "evidence_only_without_speech_context"))]

/-- A barge-in that was completed: its events in order, and the time it took. -/
structure BargeIn where
  correlationAlias : String
  events : List TimelineEventArtifact
  completed : TimelineEventArtifact
  startMs : ℚ
  endMs : ℚ
  deriving DecidableEq, Repr

/-- The times of a group of barge-in events, unless it was not completed. -/
def bargeIn (run : StoredRun) (group : String × List TimelineEventArtifact) :
    Except TimelineError (Option BargeIn) :=
  match group.2.reverse.find? (fun event => event.name = "barge_in_completed"),
      group.2.minOn? fun event => event.ts.instant with
  | some completed, some start => do
      let startMs ← relativeMs run start.ts
      let completedMs ← relativeMs run completed.ts
      return some ⟨group.1, group.2, completed, startMs, max startMs completedMs⟩
  | _, _ => .ok none

def bargeIns (run : StoredRun) : Except TimelineError (List BargeIn) := do
  let groups ← correlatedBargeInEvents run
  collect (bargeIn run) groups

def BargeIn.typedInterval (item : BargeIn) : TimelineTypedInterval where
  intervalId := "barge-in:" ++ item.correlationAlias
  category := .conversation
  name := "barge_in"
  startMs := item.startMs
  endMs := item.endMs
  clockDomain := wall
  direction := some "caller_to_assistant"
  source := "audiosocket_bridge"
  correlationAlias := some item.correlationAlias
  attributes := [("duration_ms", .float (nearest (item.endMs - item.startMs)))]

/-- The triggers of a window, sorted by their texts. -/
def windowTriggers (window : List RtpQualityEvidence) : List RtpTrigger :=
  [RtpTrigger.jitter, .loss, .mos].filter fun trigger => window.any fun item => trigger ∈ item.triggers

/-- The interval of a degradation window, given its index. -/
def windowTypedInterval (window : List RtpQualityEvidence × ℕ) : TimelineTypedInterval where
  intervalId := rtpWindowAlias window.2 window.1
  category := .transport
  name := "rtp_quality_degradation"
  startMs := windowStartMs window.1
  endMs := max (windowStartMs window.1) (windowEndMs window.1)
  clockDomain := wall
  direction := (windowDirection window.1).map RtpDirection.text
  streamAlias := some (rtpStreamAlias (windowDirection window.1))
  source := "rtp_quality_rule_v1"
  correlationAlias := some (rtpWindowAlias window.2 window.1)
  attributes := [("duration_ms",
      .float (nearest
        (max (windowStartMs window.1) (windowEndMs window.1) - windowStartMs window.1))),
    ("sample_count", .int window.1.length),
    ("triggers", .arr ((windowTriggers window.1).map fun trigger => .str trigger.text))]

def DurationContractionEvidence.typedInterval (item : DurationContractionEvidence) :
    TimelineTypedInterval where
  intervalId := "media-time-missing:" ++ item.verificationIndex.repr
  category := .pipeline
  name := "media_time_missing"
  startMs := item.outputDurationMs
  endMs := item.inputDurationMs
  clockDomain := "recording_media_time"
  stage := some item.stage
  source := "duration_verification"
  correlationAlias := some item.correlationAlias
  attributes := [("previous_stage", textJson item.previousStage),
    ("missing_duration_ms", .float item.missingDurationMs),
    ("duration_ratio", .float item.durationRatio)]

/-- `_typed_timeline_intervals`. -/
def typedTimelineIntervals (run : StoredRun) : Except TimelineError (List TimelineTypedInterval) := do
  let spans ← run.spans.zipIdx.mapM (spanTypedInterval run)
  let discontinuities ← rtpPacketDiscontinuityEvidence run
  let responses ← providerResponseEvidence run
  let speech ← callerSpeechEvidence run
  let playbacks ← assistantPlaybackEvidence run
  let waits ← assistantOutputStartWaitEvidence run
  let underruns ← assistantPlaybackUnderrunEvidence run
  let gaps ← assistantPlaybackGapEvidence run
  let deadAirs ← assistantOutputDeadAirEvidence run
  let silences ← stageSilenceWindows run
  let barges ← bargeIns run
  let windows ← rtpQualityWindows run
  let contractions ← durationContractionEvidence run
  let underrunGapAliases := underruns.map fun item => item.gap.correlationAlias
  let deadAirSilenceAliases := deadAirs.map fun item => item.silence.correlationAlias
  return sortOn (fun interval => toLex (interval.startMs, interval.intervalId))
    (spans ++ discontinuities.map RtpPacketDiscontinuityEvidence.typedInterval ++
      responses.map ProviderResponseEvidence.typedInterval ++
      speech.map callerSpeechTypedInterval ++ playbacks.map assistantPlaybackTypedInterval ++
      waits.map AssistantOutputStartWaitEvidence.typedInterval ++
      gaps.map (AssistantPlaybackGapEvidence.typedInterval underrunGapAliases) ++
      silences.map (StageSilenceWindow.typedInterval deadAirSilenceAliases) ++
      barges.map BargeIn.typedInterval ++ windows.zipIdx.map windowTypedInterval ++
      contractions.map DurationContractionEvidence.typedInterval)

section BargeIns

variable {run : StoredRun}

/-- The sorted groups of barge-in events. -/
theorem mem_correlatedBargeInEvents {groups : List (String × List TimelineEventArtifact)}
    (h : correlatedBargeInEvents run = .ok groups) {group : String × List TimelineEventArtifact}
    (hgroup : group ∈ groups) {event : TimelineEventArtifact} (hevent : event ∈ group.2) :
    event ∈ run.timelineEvents ∧ event.name ∈ bargeInEventNames := by
  obtain ⟨source, hsource, hsorted⟩ := exists_of_mem_mapM h hgroup
  obtain ⟨events, hevents, hsorted⟩ := bind_eq_ok.mp hsorted
  cases hsorted
  exact mem_of_correlatedEvents hsource ((mem_sortedByTs hevents).mp hevent)

theorem keys_correlatedBargeInEvents {groups : List (String × List TimelineEventArtifact)}
    (h : correlatedBargeInEvents run = .ok groups) : (groups.map Prod.fst).Nodup := by
  have hkeys : groups.map Prod.fst = (correlatedEvents run bargeInEventNames).map Prod.fst := by
    refine map_eq_of_mapM h fun source group hsorted => ?_
    obtain ⟨events, -, hsorted⟩ := bind_eq_ok.mp hsorted
    cases hsorted
    rfl
  rw [hkeys]
  exact nodup_keys_groupOn _ _

theorem bargeIn_spec {group : String × List TimelineEventArtifact} {item : BargeIn}
    (h : bargeIn run group = .ok (some item)) :
    item.correlationAlias = group.1 ∧ item.events = group.2 ∧ item.completed ∈ group.2 ∧
      0 ≤ item.startMs ∧ item.startMs ≤ item.endMs := by
  unfold bargeIn at h
  split at h
  · rename_i completed start hcompleted _
    obtain ⟨startMs, hstart, h⟩ := bind_eq_ok.mp h
    obtain ⟨completedMs, -, h⟩ := bind_eq_ok.mp h
    simp only [pure, Except.pure, Except.ok.injEq, Option.some.injEq] at h
    subst h
    exact ⟨rfl, rfl, List.mem_reverse.mp (List.mem_of_find?_eq_some hcompleted),
      relativeMs_nonneg hstart, le_max_left _ _⟩
  · simp at h

theorem bargeIns_spec {barges : List BargeIn} (h : bargeIns run = .ok barges) :
    (∀ item ∈ barges, (∀ event ∈ item.events, event ∈ run.timelineEvents ∧
        event.name ∈ bargeInEventNames) ∧ 0 ≤ item.startMs ∧ item.startMs ≤ item.endMs) ∧
      (barges.map BargeIn.correlationAlias).Nodup := by
  obtain ⟨groups, hgroups, h⟩ := bind_eq_ok.mp h
  constructor
  · intro item hitem
    obtain ⟨group, hgroup, hfound⟩ := (mem_collect h).mp hitem
    obtain ⟨-, hevents, -, htimes⟩ := bargeIn_spec hfound
    exact ⟨fun event hevent => mem_correlatedBargeInEvents hgroups hgroup (hevents ▸ hevent), htimes⟩
  · exact (keys_correlatedBargeInEvents hgroups).sublist
      (sublist_of_collect h fun _ _ hfound => (bargeIn_spec hfound).1)

end BargeIns

/-! ## Series and artifacts -/

def TimelineCategory.text : TimelineCategory → String
  | .conversation => "conversation"
  | .signaling => "signaling"
  | .transport => "transport"
  | .buffer => "buffer"
  | .pipeline => "pipeline"
  | .provider => "provider"
  | .runtime => "runtime"
  | .session => "session"

/-- `_metric_timeline_category`. -/
def metricTimelineCategory (metric : MetricArtifact) : TimelineCategory :=
  if metric.stage.isSome then .pipeline
  else if metric.name ∈ ["barge_in_events", "dtmf_events"] then .conversation
  else if metric.name = "output_frames_dropped" then .buffer
  else if "provider_".toList <+: metric.name.toList then .provider
  else .runtime

/-- `_TIMELINE_UNITS`. -/
def timelineUnits : List (String × String) :=
  [("active_tasks", "count"), ("audio_chunk_duration_ms", "ms"), ("cpu", "percent"),
    ("delta_db", "dB"), ("frame_cadence_jitter_ms", "ms"), ("frames_in", "count"),
    ("frames_out", "count"), ("gain_applied", "ratio"), ("full_scale_sample_pct", "percent"),
    ("input_rms", "pcm-rms"), ("jitter_ms", "ms"), ("loop_lag", "ms"), ("loss_pct", "percent"),
    ("mos", "score"), ("output_frames_dropped", "count"), ("output_rms", "pcm-rms"),
    ("provider_input_rms", "pcm-rms"), ("rtt_ms", "ms"), ("sample_peak_dbfs", "dBFS"),
    ("silence_sample_pct", "percent")]

/-- `_timeline_unit`. -/
def timelineUnit (name : String) : Option String :=
  match Dict.get? timelineUnits name with
  | some text => some text
  | none =>
      if "_ms".toList <:+ name.toList then some "ms"
      else if "_pct".toList <:+ name.toList then some "percent"
      else if "_events".toList <:+ name.toList ∨ "_failures".toList <:+ name.toList then
        some "count"
      else none

/-- A metric as a point of the series of its category, stage and name. -/
def metricPoint (run : StoredRun) (metric : MetricArtifact) :
    Except TimelineError ((TimelineCategory × Option String × String) × TimelineSeriesPoint) := do
  let tRelMs ← relativeMs run metric.ts
  return ((metricTimelineCategory metric, metric.stage, metric.name), ⟨tRelMs, metric.value⟩)

/-- The values of a stat, under the names of their series. -/
def rtpValues (stat : RtpStatResponse) : List (String × ℚ) :=
  [("jitter_ms", stat.jitterMs), ("loss_pct", stat.lossPct), ("mos", stat.mos),
    ("rtt_ms", stat.rttMs)].filterMap fun f => f.2.map fun value => (f.1, value)

/-- The values of a stat as points of the series of their direction and name. -/
def rtpPoints (run : StoredRun) (stat : RtpStatResponse) :
    Except TimelineError (List ((Option RtpDirection × String) × TimelineSeriesPoint)) :=
  (rtpValues stat).mapM fun f => do
    let tRelMs ← relativeMs run stat.ts
    return ((stat.direction, f.1), ⟨tRelMs, f.2⟩)

def sortedPoints {κ : Type} (group : κ × List (κ × TimelineSeriesPoint)) : List TimelineSeriesPoint :=
  sortOn TimelineSeriesPoint.tRelMs (group.2.map Prod.snd)

/-- `_typed_timeline_series`. -/
def typedTimelineSeries (run : StoredRun) : Except TimelineError (List TimelineTypedSeries) := do
  let metricPoints ← run.metrics.mapM (metricPoint run)
  let statPoints ← run.rtpStats.mapM (rtpPoints run)
  let metricGroups := sortOn (fun group => toLex (group.1.1.text,
    toLex (group.1.2.1.getD "None", group.1.2.2))) (groupOn Prod.fst metricPoints)
  let rtpGroups := sortOn (fun group => toLex ((group.1.1.map RtpDirection.text).getD "None",
    group.1.2)) (groupOn Prod.fst statPoints.flatten)
  return metricGroups.mapIdx (fun index group => {
      seriesId := "metric:" ++ index.repr
      category := group.1.1
      name := group.1.2.2
      unit := timelineUnit group.1.2.2
      clockDomain := wall
      stage := group.1.2.1
      source := "metric_observation"
      points := sortedPoints group }) ++
    rtpGroups.mapIdx fun index group => {
      seriesId := "rtp:" ++ index.repr
      category := .transport
      name := group.1.2
      unit := timelineUnit group.1.2
      clockDomain := wall
      direction := group.1.1.map RtpDirection.text
      streamAlias := some (rtpStreamAlias group.1.1)
      source := "rtp_stats"
      points := sortedPoints group }

/-- `_typed_timeline_artifacts`. -/
def typedTimelineArtifacts (run : StoredRun) : List TimelineTypedArtifact :=
  run.recordings.mapIdx fun index recording => {
    artifactId := "recording:" ++ index.repr
    category := .pipeline
    name := recording.stage ++ " recording"
    kind := "audio"
    startMs := 0
    durationMs := some recording.durationMs
    stage := some recording.stage
    artifactRef := "recording:" ++ recording.stage
    metadata := [("format", recording.format)] }

end VoxBench.ControlPlane
