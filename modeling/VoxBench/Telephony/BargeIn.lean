import VoxBench.Telephony.Loopback
import VoxBench.Telephony.PacketSources

/-!
# The evidence of a barge-in

When the caller interrupts, the audio that has not been played is discarded: the frames in
the playback queue and the bytes that wait for a packet. `_observe_barge_in_audio_evidence`
reports what was discarded, with an event for each of the recent provider chunks and of the
discarded frames; of many it shows the first and the last ones.

## Main definitions

* `boundedEvidence` — the first and the last values.
* `observeBargeInAudioEvidence` — the events and the figures.
-/

namespace VoxBench.Telephony

open VoxBench.Lib VoxBench.ControlPlane VoxBench.Media VoxBench.Observability

/-- `BARGE_IN_CHUNK_LOOKBACK_MS`. -/
def bargeInChunkLookbackMs : ℚ := 250

/-- `BARGE_IN_CHUNK_EVIDENCE_LIMIT`. -/
def bargeInChunkEvidenceLimit : ℕ := 16

/-- `BARGE_IN_FRAME_EVIDENCE_LIMIT`. -/
def bargeInFrameEvidenceLimit : ℕ := 32

/-- `_ProviderAudioChunkObservation`. -/
structure ProviderAudioChunkObservation where
  ordinal : ℕ
  receivedAt : Datetime
  receivedMonotonic : ℚ
  durationMs : ℚ
  rms : ℚ
  silenceSamplePct : ℚ
  signalBearing : Bool
  deriving DecidableEq, Repr

/-- What stops the producer. -/
inductive ProducerError where
  | valueError (reason : String)
  | zeroDivision
  | pcm (e : PcmError)
  | observer (e : ObserverError)
  | packets (e : PacketError)
  /-- An exception of the provider or of the observer. -/
  | external
  deriving DecidableEq, Repr

/-- An error in the words of the producer. -/
def liftError {ε α : Type} (f : ε → ProducerError) (x : Except ε α) : Except ProducerError α :=
  x.mapError f

@[simp] theorem liftError_eq_ok {ε α : Type} {f : ε → ProducerError} {x : Except ε α} {a : α} :
    liftError f x = .ok a ↔ x = .ok a := by
  cases x <;> simp [liftError, Except.mapError]

/-- `round(value, 3)`. -/
def round3 (value : ℚ) : ℚ := roundHalfEven (value * 1000) / 1000

/-- `values[-count:]`. -/
def lastSlice {α : Type} (count : ℕ) (values : List α) : List α :=
  if count = 0 then values else values.drop (values.length - count)

/-- `_bounded_evidence`. -/
def boundedEvidence {α : Type} (values : List α) (limit : ℕ) : List α :=
  if limit = 0 then []
  else if values.length ≤ limit then values
  else
    let headCount := (limit + 1) / 2
    let tailCount := limit - headCount
    values.take headCount ++ lastSlice tailCount values

/-- The figures of a barge-in. -/
structure DiscardFigures where
  droppedFrames : ℕ
  discardedAudioMs : ℚ
  partialAudioMs : ℚ
  discardedTotalAudioMs : ℚ
  discardedSignalBearingFrames : ℕ
  discardedSignalBearingAudioMs : ℚ
  discardedProviderChunks : ℕ
  providerChunksLast30ms : ℕ
  providerChunksLast100ms : ℕ
  firstDiscardedAudioLeadMs : Option ℚ
  queueDepthBeforeClear : ℕ
  evidenceFramesRecorded : ℕ
  evidenceFramesOmitted : ℤ
  signalThresholdRms : ℚ
  writtenAudioMsBeforeControl : ℚ
  remotePlayoutObserved : Bool := false
  deriving DecidableEq, Repr

def DiscardFigures.attributes (d : DiscardFigures) : List (String × AttrValue) :=
  [("dropped_frames", .int d.droppedFrames), ("discarded_audio_ms", .float d.discardedAudioMs),
    ("partial_audio_ms", .float d.partialAudioMs),
    ("discarded_total_audio_ms", .float d.discardedTotalAudioMs),
    ("discarded_signal_bearing_frames", .int d.discardedSignalBearingFrames),
    ("discarded_signal_bearing_audio_ms", .float d.discardedSignalBearingAudioMs),
    ("discarded_provider_chunks", .int d.discardedProviderChunks),
    ("provider_chunks_last_30ms", .int d.providerChunksLast30ms),
    ("provider_chunks_last_100ms", .int d.providerChunksLast100ms),
    ("first_discarded_audio_lead_ms",
      match d.firstDiscardedAudioLeadMs with
      | some lead => .float lead
      | none => .null),
    ("queue_depth_before_clear", .int d.queueDepthBeforeClear),
    ("evidence_frames_recorded", .int d.evidenceFramesRecorded),
    ("evidence_frames_omitted", .int d.evidenceFramesOmitted),
    ("signal_threshold_rms", .float d.signalThresholdRms),
    ("written_audio_ms_before_control", .float d.writtenAudioMsBeforeControl),
    ("remote_playout_observed", .bool d.remotePlayoutObserved)]

/-- What the evidence is taken from, beside the discarded audio. -/
structure EvidenceContext where
  math : FloatMath
  noiseFloor : ℚ
  telephonyRate : ℕ
  streamAlias : String
  recentChunks : List ProviderAudioChunkObservation

/-- The barge-in that the evidence is for. -/
structure BargeInControl where
  correlationAlias : String
  receivedAt : Datetime
  receivedMonotonic : ℚ
  writtenAudioMsBefore : ℚ
  deriving DecidableEq, Repr

namespace BargeInControl

variable (control : BargeInControl) (ctx : EvidenceContext)

/-- The milliseconds from `t` to the control message. -/
def msSince (t : ℚ) : ℚ := (control.receivedMonotonic - t) * 1000

/-- The event of a recent provider chunk. -/
def chunkEvent (chunk : ProviderAudioChunkObservation) : TimelineEvent :=
  { bridgeEvent (control.correlationAlias ++ ":provider-chunk:" ++ chunk.ordinal.repr) .provider
      "provider_output_audio_chunk_received" control.correlationAlias (some "assistant_to_caller")
      [("provider_chunk_ordinal", .int chunk.ordinal),
        ("chunk_duration_ms", .float (round3 chunk.durationMs)),
        ("input_rms", .float (round3 chunk.rms)),
        ("silence_sample_pct", .float (round3 chunk.silenceSamplePct)),
        ("signal_bearing", .bool chunk.signalBearing),
        ("signal_threshold_rms", .float ctx.noiseFloor),
        ("received_before_control_ms",
          .float (round3 (max 0 (control.msSince chunk.receivedMonotonic))))]
      chunk.receivedAt with
    streamAlias := some ctx.streamAlias }

/-- The name of the event of a discarded frame. -/
def frameEventName : String := "playback_frame_enqueued_before_barge_in"

/-- The event of a discarded frame. -/
def frameEvent (o : PlaybackFrameObservation) : Except ProducerError TimelineEvent :=
  match o.sourceWindow.chunkOrdinals.head?, o.sourceWindow.chunkOrdinals.getLast? with
  | some firstOrdinal, some lastOrdinal =>
      .ok
        { bridgeEvent (control.correlationAlias ++ ":discarded-frame:" ++ o.frameOrdinal.repr)
            .buffer frameEventName control.correlationAlias (some "assistant_to_caller")
            [("frame_ordinal", .int o.frameOrdinal),
              ("provider_chunk_first_ordinal", .int firstOrdinal),
              ("provider_chunk_last_ordinal", .int lastOrdinal),
              ("provider_chunk_count", .int o.sourceWindow.chunkOrdinals.length),
              ("frame_duration_ms", .float 20),
              ("output_rms", .float (round3 o.outputRms)),
              ("silence_sample_pct", .float (round3 o.silenceSamplePct)),
              ("signal_bearing", .bool o.signalBearing),
              ("signal_threshold_rms", .float ctx.noiseFloor),
              ("queue_depth_after_enqueue", .int o.queueDepthAfterEnqueue),
              ("provider_receive_to_enqueue_ms", .float
                (round3 ((o.enqueuedMonotonic - o.sourceWindow.firstReceivedMonotonic) * 1000))),
              ("provider_received_before_control_ms", .float
                (round3 (max 0 (control.msSince o.sourceWindow.firstReceivedMonotonic)))),
              ("enqueued_before_control_ms",
                .float (round3 (max 0 (control.msSince o.enqueuedMonotonic)))),
              ("outcome", .str "discarded_on_barge_in")]
            o.enqueuedAt with
          stage := some "serializer"
          streamAlias := some ctx.streamAlias }
  | _, _ => .error (.packets .indexError)

/-- The event of the bytes that waited for a packet. -/
def partialEvent (partialPcm : List UInt8) (window : ProviderAudioSourceWindow) (rms : ℚ)
    (signalBearing : Bool) : Except ProducerError TimelineEvent :=
  (liftError .observer (pcmS16leQuality ctx.math partialPcm)).bind fun quality =>
  match window.chunkOrdinals.head?, window.chunkOrdinals.getLast? with
  | some firstOrdinal, some lastOrdinal =>
      .ok
        { bridgeEvent (control.correlationAlias ++ ":discarded-partial-frame") .buffer
            "playback_partial_frame_buffered_before_barge_in" control.correlationAlias
            (some "assistant_to_caller")
            [("provider_chunk_first_ordinal", .int firstOrdinal),
              ("provider_chunk_last_ordinal", .int lastOrdinal),
              ("provider_chunk_count", .int window.chunkOrdinals.length),
              ("partial_audio_ms", .float (round3 (audioMs partialPcm ctx.telephonyRate))),
              ("output_rms", .float (round3 rms)),
              ("silence_sample_pct", .float (round3 quality.2.2)),
              ("signal_bearing", .bool signalBearing),
              ("signal_threshold_rms", .float ctx.noiseFloor),
              ("outcome", .str "discarded_on_barge_in")]
            window.firstReceivedAt with
          stage := some "serializer"
          streamAlias := some ctx.streamAlias }
  | _, _ => .error (.packets .indexError)

/-- `partial_rms`. -/
def partialRms (partialPcm : List UInt8) : Except ProducerError ℚ :=
  if partialPcm = [] then .ok 0 else liftError .observer (pcmS16leRms ctx.math partialPcm)

/-- The event of the bytes that waited for a packet, if there were any. -/
def partialEvents (partialPcm : List UInt8) (partialWindow : Option ProviderAudioSourceWindow)
    (rms : ℚ) (signalBearing : Bool) : Except ProducerError (List TimelineEvent) :=
  match partialWindow with
  | some window =>
      if partialPcm = [] then .ok []
      else (control.partialEvent ctx partialPcm window rms signalBearing).map fun event => [event]
  | none => .ok []

/-- The recent provider chunks. -/
def recentChunks : List ProviderAudioChunkObservation :=
  ctx.recentChunks.filter fun chunk =>
    0 ≤ control.msSince chunk.receivedMonotonic ∧
      control.msSince chunk.receivedMonotonic ≤ bargeInChunkLookbackMs

/-- The observations of frames. -/
def observations (frames : List OutputFrame) : List PlaybackFrameObservation :=
  frames.filterMap OutputFrame.playbackObservation

/-- Whether the frame is known to bear a signal. -/
def bearsSignal (frame : OutputFrame) : Bool :=
  frame.playbackObservation.any PlaybackFrameObservation.signalBearing

/-- The milliseconds of frames. -/
def framesMs (frames : List OutputFrame) : ℚ :=
  (frames.map fun frame => audioMs frame.payload ctx.telephonyRate).sum

/-- The figures, for discarded frames and partial audio that bears a signal or not. -/
def figures (frames : List OutputFrame) (partialPcm : List UInt8)
    (partialWindow : Option ProviderAudioSourceWindow) (partialSignal : Bool) : DiscardFigures :=
  let observed := observations frames
  let selected := boundedEvidence observed bargeInFrameEvidenceLimit
  let partialMs := audioMs partialPcm ctx.telephonyRate
  let windows := observed.map PlaybackFrameObservation.sourceWindow ++ partialWindow.toList
  { droppedFrames := frames.length
    discardedAudioMs := round3 (framesMs ctx frames)
    partialAudioMs := round3 partialMs
    discardedTotalAudioMs := round3 (framesMs ctx frames + partialMs)
    discardedSignalBearingFrames := observed.countP PlaybackFrameObservation.signalBearing
    discardedSignalBearingAudioMs :=
      round3 (framesMs ctx (frames.filter bearsSignal) + if partialSignal then partialMs else 0)
    discardedProviderChunks :=
      (windows.flatMap ProviderAudioSourceWindow.chunkOrdinals).dedup.length
    providerChunksLast30ms := (control.recentChunks ctx).countP fun chunk =>
      control.msSince chunk.receivedMonotonic ≤ 30
    providerChunksLast100ms := (control.recentChunks ctx).countP fun chunk =>
      control.msSince chunk.receivedMonotonic ≤ 100
    firstDiscardedAudioLeadMs :=
      ((windows.map ProviderAudioSourceWindow.firstReceivedMonotonic).min?).map fun first =>
        round3 (max 0 (control.msSince first))
    queueDepthBeforeClear := frames.length
    evidenceFramesRecorded := selected.length
    evidenceFramesOmitted := observed.length - selected.length
    signalThresholdRms := ctx.noiseFloor
    writtenAudioMsBeforeControl := round3 control.writtenAudioMsBefore }

/-- `_observe_barge_in_audio_evidence`: the events and the figures. -/
def observeBargeInAudioEvidence (frames : List OutputFrame) (partialPcm : List UInt8)
    (partialWindow : Option ProviderAudioSourceWindow) :
    Except ProducerError (List TimelineEvent × DiscardFigures) := do
  let chunkEvents :=
    (boundedEvidence (control.recentChunks ctx) bargeInChunkEvidenceLimit).map
      (control.chunkEvent ctx)
  let frameEvents ← (boundedEvidence (observations frames) bargeInFrameEvidenceLimit).mapM
    (control.frameEvent ctx)
  let rms ← partialRms ctx partialPcm
  let partialSignal := partialPcm ≠ [] ∧ ctx.noiseFloor < rms
  let partialEvents ← control.partialEvents ctx partialPcm partialWindow rms partialSignal
  return (chunkEvents ++ frameEvents ++ partialEvents,
    control.figures ctx frames partialPcm partialWindow partialSignal)

end BargeInControl

end VoxBench.Telephony
