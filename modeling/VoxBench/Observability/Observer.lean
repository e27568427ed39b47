import VoxBench.ControlPlane.Models
import VoxBench.Lib.Elapsed
import VoxBench.Lib.Text
import VoxBench.Media.Pcm
import VoxBench.Observability.Flush

/-!
# What an observer collects

`VoxBenchObserver` measures stage audio, records RTP packets and capture health, and
queues the results for `flush`. The queue is that of `flushMachine`; here is what a call
puts into it. Timeline events are named by three ordinals of the observer. An RTP packet
and a capture health snapshot are checked when they are built, so that their checks are
fields; `RtpPacketTapAdapter` builds both.

## Main definitions

* `Collector.observeStageAudio`, `observeRtpPacket`, `observeRtpCaptureHealth` — the calls.
* `RtpPacketTapAdapter` — datagrams and drop counters.
* `eventId` — the names of timeline events.
-/

namespace VoxBench.Observability

open VoxBench.Lib VoxBench.ControlPlane VoxBench.Media

/-! ## Values -/

/-- A Python float: an exact number, or none. -/
inductive PyFloat where
  | finite (q : ℚ)
  | inf
  | negInf
  | nan
  deriving DecidableEq, Repr

inductive ObserverError where
  | valueError (reason : String)
  deriving DecidableEq, Repr

/-- The functions of `math` that the measurements use. Both are finite on the arguments
that they get. -/
structure FloatMath where
  sqrt : ℚ → ℚ
  log10 : ℚ → ℚ

structure MetricPoint where
  name : String
  value : PyFloat
  stage : Option String
  ts : Datetime
  deriving DecidableEq, Repr

structure AudioChunk where
  stage : String
  pcmS16le : List UInt8
  sampleRateHz : ℕ
  channels : ℕ
  ts : Datetime
  deriving DecidableEq, Repr

structure SipEvent where
  method : String
  direction : SipDirection
  callId : Option String
  statusCode : Option ℤ
  summaryAlias : Option String
  ts : Datetime
  deriving DecidableEq, Repr

structure RtpStats where
  jitterMs : Option PyFloat
  lossPct : Option PyFloat
  mos : Option PyFloat
  direction : Option RtpDirection
  rttMs : Option PyFloat
  ts : Datetime
  deriving DecidableEq, Repr

/-- A `TimelineEvent` as the observer builds it: its numbers are finite. -/
structure TimelineEvent where
  eventId : String
  category : TimelineCategory
  name : String
  source : String
  correlationAlias : Option String
  clockDomain : String
  alignmentUncertaintyMs : Option ℚ
  direction : Option String
  stage : Option String
  streamAlias : Option String
  attributes : List (String × AttrValue)
  ts : Datetime
  deriving DecidableEq, Repr

/-- The items of an observer. -/
abbrev Item : ObservationKind → Type
  | .metrics => MetricPoint
  | .audioChunks => AudioChunk
  | .sipEvents => SipEvent
  | .rtpStats => RtpStats
  | .timelineEvents => TimelineEvent

/-- Nothing of any kind. -/
def noItems : ∀ k, List (Item k) := fun _ => []

/-! ## Event ids -/

/-- The kinds of timeline events that an observer numbers. -/
inductive EventFamily where
  | rtpPacket
  | rtpCaptureHealth
  | pcmDiscontinuity
  deriving DecidableEq, Repr

/-- The text before the ordinal. -/
def EventFamily.text : EventFamily → String
  | .rtpPacket => "rtp-packet:"
  | .rtpCaptureHealth => "rtp-capture-health:"
  | .pcmDiscontinuity => "pcm-discontinuity:"

def eventId (family : EventFamily) (ordinal : ℕ) : String := family.text ++ ordinal.repr

theorem eventId_toList (family : EventFamily) (ordinal : ℕ) :
    (eventId family ordinal).toList = family.text.toList ++ ordinal.repr.toList :=
  String.toList_append

/-- The family and the ordinal can be read off an event id. -/
theorem eventId_inj {f g : EventFamily} {m n : ℕ} (h : eventId f m = eventId g n) :
    f = g ∧ m = n := by
  have hlist : f.text.toList ++ m.repr.toList = g.text.toList ++ n.repr.toList := by
    rw [← eventId_toList, ← eventId_toList, h]
  have hfamily : f = g := by
    have hhead := congrArg (fun cs : List Char => cs.take 5) hlist
    cases f <;> cases g <;> first | rfl | exact absurd hhead (by simp [EventFamily.text])
  subst hfamily
  exact ⟨rfl, Text.repr_inj (List.append_cancel_left hlist)⟩

/-! ## Safe references -/

/-- `_SENSITIVE_REFERENCE_MARKERS`. -/
def sensitiveReferenceMarkers : List String := ["http://", "https://", "<@", "slack://"]

/-- What `_validate_safe_reference` lets pass. -/
structure SafeReference (value : String) (maxLength : ℕ) : Prop where
  nonempty : value ≠ ""
  stripped : Text.strip value = value
  short : value.length ≤ maxLength
  printable : ∀ c ∈ value.toList, 32 ≤ c.toNat
  unmarked : ∀ marker ∈ sensitiveReferenceMarkers,
    ¬ Text.Contains (Text.lower value.toList) marker

instance (value : String) (maxLength : ℕ) : Decidable (SafeReference value maxLength) :=
  decidable_of_iff (value ≠ "" ∧ Text.strip value = value ∧ value.length ≤ maxLength ∧
    (∀ c ∈ value.toList, 32 ≤ c.toNat) ∧ ∀ marker ∈ sensitiveReferenceMarkers,
      ¬ Text.Contains (Text.lower value.toList) marker)
    ⟨fun ⟨h₁, h₂, h₃, h₄, h₅⟩ => ⟨h₁, h₂, h₃, h₄, h₅⟩, fun ⟨h₁, h₂, h₃, h₄, h₅⟩ =>
      ⟨h₁, h₂, h₃, h₄, h₅⟩⟩

def unsafeReference (fieldName : String) (maxLength : ℕ) : ObserverError :=
  .valueError (fieldName ++ " must contain 1 to " ++ maxLength.repr ++ " safe alias characters")

/-! ## RTP packets -/

/-- An `RtpPacket`, with what `__post_init__` has checked. -/
structure RtpPacket where
  streamAlias : String
  direction : RtpDirection
  sequenceNumber : ℕ
  rtpTimestamp : ℕ
  payloadType : ℕ
  clockRateHz : ℕ
  marker : Bool
  clockDomain : String
  alignmentUncertaintyMs : Option ℚ
  ts : Datetime
  alias_safe : SafeReference streamAlias 128
  sequence_fits : sequenceNumber ≤ 0xFFFF
  timestamp_fits : rtpTimestamp ≤ 0xFFFFFFFF
  payload_fits : payloadType ≤ 127
  clock_fits : 0 < clockRateHz ∧ clockRateHz ≤ 384000
  domain_safe : SafeReference clockDomain 64
  uncertainty_nonneg : ∀ q ∈ alignmentUncertaintyMs, 0 ≤ q

theorem nonneg_of_mem_none : ∀ q ∈ (none : Option ℚ), 0 ≤ q := by simp

/-- The check of an alignment uncertainty. -/
def checkUncertainty : Option PyFloat → Option { o : Option ℚ // ∀ q ∈ o, 0 ≤ q }
  | none => some ⟨none, nonneg_of_mem_none⟩
  | some (.finite q) => if h : 0 ≤ q then some ⟨some q, by simpa using h⟩ else none
  | some _ => none

/-- The constructor, with the checks of `__post_init__` in their order. -/
def RtpPacket.make (streamAlias : String) (direction : RtpDirection)
    (sequenceNumber rtpTimestamp payloadType clockRateHz : ℤ) (marker : Bool)
    (clockDomain : String) (alignmentUncertaintyMs : Option PyFloat) (ts : Datetime) :
    Except ObserverError RtpPacket :=
  if h₁ : ¬ SafeReference streamAlias 128 then .error (unsafeReference "stream_alias" 128)
  else if h₂ : ¬ (0 ≤ sequenceNumber ∧ sequenceNumber ≤ 0xFFFF) then
    .error (.valueError "sequence_number must fit in 16 bits")
  else if h₃ : ¬ (0 ≤ rtpTimestamp ∧ rtpTimestamp ≤ 0xFFFFFFFF) then
    .error (.valueError "rtp_timestamp must fit in 32 bits")
  else if h₄ : ¬ (0 ≤ payloadType ∧ payloadType ≤ 127) then
    .error (.valueError "payload_type must fit in 7 bits")
  else if h₅ : ¬ (0 < clockRateHz ∧ clockRateHz ≤ 384000) then
    .error (.valueError "clock_rate_hz must be between 1 and 384000")
  else if h₆ : ¬ SafeReference clockDomain 64 then .error (unsafeReference "clock_domain" 64)
  else
    match checkUncertainty alignmentUncertaintyMs with
    | none => .error (.valueError "alignment_uncertainty_ms must be finite and non-negative")
    | some uncertainty => .ok
        { streamAlias, direction, marker, clockDomain, ts
          sequenceNumber := sequenceNumber.toNat
          rtpTimestamp := rtpTimestamp.toNat
          payloadType := payloadType.toNat
          clockRateHz := clockRateHz.toNat
          alignmentUncertaintyMs := uncertainty.1
          alias_safe := not_not.mp h₁
          sequence_fits := by omega
          timestamp_fits := by omega
          payload_fits := by omega
          clock_fits := by omega
          domain_safe := not_not.mp h₆
          uncertainty_nonneg := uncertainty.2 }

theorem sequenceNumber_fits (b₂ b₃ : UInt8) : b₂.toNat * 256 + b₃.toNat ≤ 0xFFFF := by
  have h₂ := b₂.toNat_lt
  have h₃ := b₃.toNat_lt
  omega

theorem rtpTimestamp_fits (b₄ b₅ b₆ b₇ : UInt8) :
    ((b₄.toNat * 256 + b₅.toNat) * 256 + b₆.toNat) * 256 + b₇.toNat ≤ 0xFFFFFFFF := by
  have h₄ := b₄.toNat_lt
  have h₅ := b₅.toNat_lt
  have h₆ := b₆.toNat_lt
  have h₇ := b₇.toNat_lt
  omega

theorem payloadType_fits (b₁ : UInt8) : b₁.toNat % 128 ≤ 127 := by omega

/-- `rtp_packet_from_datagram`, for a stream that `format` describes. -/
def rtpPacketFromDatagram (format : RtpPacket) (datagram : List UInt8) (ts : Datetime) :
    Except ObserverError RtpPacket :=
  match datagram with
  | b₀ :: b₁ :: b₂ :: b₃ :: b₄ :: b₅ :: b₆ :: b₇ :: _ :: _ :: _ :: _ :: _ =>
      if b₀.toNat / 64 ≠ 2 then .error (.valueError "RTP datagram version must be 2")
      else .ok
        { format with
          sequenceNumber := b₂.toNat * 256 + b₃.toNat
          rtpTimestamp := ((b₄.toNat * 256 + b₅.toNat) * 256 + b₆.toNat) * 256 + b₇.toNat
          payloadType := b₁.toNat % 128
          marker := b₁.toNat / 128 ≠ 0
          ts := ts
          sequence_fits := sequenceNumber_fits b₂ b₃
          timestamp_fits := rtpTimestamp_fits b₄ b₅ b₆ b₇
          payload_fits := payloadType_fits b₁ }
  | _ => .error (.valueError "RTP datagram must contain the 12-byte fixed header")

def directionText : RtpDirection → String
  | .received => "received"
  | .sent => "sent"

/-! ## Capture health -/

inductive CaptureContinuity where
  | verified
  | compromised
  | notIndependentlyVerified
  deriving DecidableEq, Repr

def CaptureContinuity.text : CaptureContinuity → String
  | .verified => "verified"
  | .compromised => "compromised"
  | .notIndependentlyVerified => "not independently verified"

/-- The continuity that the counters of a window tell. -/
def expectedContinuity (captureDropCount decodeErrorCount : ℕ) (supported : Bool) :
    CaptureContinuity :=
  if captureDropCount ≠ 0 ∨ decodeErrorCount ≠ 0 then .compromised
  else if supported then .verified
  else .notIndependentlyVerified

/-- An `RtpCaptureHealthSnapshot`, with what `__post_init__` has checked. -/
structure RtpCaptureHealthSnapshot where
  streamAlias : String
  direction : RtpDirection
  observedPacketCount : ℕ
  captureDropCount : ℕ
  decodeErrorCount : ℕ
  captureDropCounterSupported : Bool
  continuity : CaptureContinuity
  windowDurationMs : ℚ
  clockDomain : String
  alignmentUncertaintyMs : Option ℚ
  ts : Datetime
  alias_safe : SafeReference streamAlias 128
  domain_safe : SafeReference clockDomain 64
  continuity_expected :
    continuity = expectedContinuity captureDropCount decodeErrorCount captureDropCounterSupported
  window_nonneg : 0 ≤ windowDurationMs
  uncertainty_nonneg : ∀ q ∈ alignmentUncertaintyMs, 0 ≤ q

/-- The constructor, with the checks of `__post_init__` in their order. -/
def RtpCaptureHealthSnapshot.make (streamAlias : String) (direction : RtpDirection)
    (observedPacketCount captureDropCount decodeErrorCount : ℤ)
    (captureDropCounterSupported : Bool) (continuity : CaptureContinuity)
    (windowDurationMs : PyFloat) (clockDomain : String) (alignmentUncertaintyMs : Option PyFloat)
    (ts : Datetime) : Except ObserverError RtpCaptureHealthSnapshot :=
  if h₁ : ¬ SafeReference streamAlias 128 then .error (unsafeReference "stream_alias" 128)
  else if h₂ : ¬ SafeReference clockDomain 64 then .error (unsafeReference "clock_domain" 64)
  else if observedPacketCount < 0 then
    .error (.valueError "observed_packet_count must be a non-negative integer")
  else if captureDropCount < 0 then
    .error (.valueError "capture_drop_count must be a non-negative integer")
  else if decodeErrorCount < 0 then
    .error (.valueError "decode_error_count must be a non-negative integer")
  else if h₃ : continuity ≠ expectedContinuity captureDropCount.toNat decodeErrorCount.toNat
      captureDropCounterSupported then
    .error (.valueError "continuity must match capture health counters")
  else
    match windowDurationMs with
    | .finite window =>
        if h₄ : 0 ≤ window then
          match checkUncertainty alignmentUncertaintyMs with
          | none => .error (.valueError "alignment_uncertainty_ms must be finite and non-negative")
          | some uncertainty => .ok
              { streamAlias, direction, captureDropCounterSupported, continuity, clockDomain, ts
                observedPacketCount := observedPacketCount.toNat
                captureDropCount := captureDropCount.toNat
                decodeErrorCount := decodeErrorCount.toNat
                windowDurationMs := window
                alignmentUncertaintyMs := uncertainty.1
                alias_safe := not_not.mp h₁
                domain_safe := not_not.mp h₂
                continuity_expected := not_not.mp h₃
                window_nonneg := h₄
                uncertainty_nonneg := uncertainty.2 }
        else .error (.valueError "window_duration_ms must be finite and non-negative")
    | _ => .error (.valueError "window_duration_ms must be finite and non-negative")

/-- An `RtpPacketTapAdapter`. `format` is the packet that its constructor validates the
stream's parameters with. -/
structure RtpPacketTapAdapter where
  format : RtpPacket
  captureDropCounterSupported : Bool
  windowStartedAt : Datetime
  observedPacketCount : ℕ := 0
  captureDropCount : ℕ := 0
  decodeErrorCount : ℕ := 0

namespace RtpPacketTapAdapter

/-- `__init__`. -/
def make (streamAlias : String) (direction : RtpDirection) (clockRateHz : ℤ)
    (clockDomain : String) (alignmentUncertaintyMs : Option PyFloat)
    (captureDropCounterSupported : Bool) (startedAt : Datetime) :
    Except ObserverError RtpPacketTapAdapter :=
  (RtpPacket.make streamAlias direction 0 0 0 clockRateHz false clockDomain alignmentUncertaintyMs
    startedAt).map fun format =>
      { format, captureDropCounterSupported, windowStartedAt := startedAt }

/-- `observe_datagram`, up to the call of the observer. A datagram that is not decoded is
counted. -/
def observeDatagram (tap : RtpPacketTapAdapter) (datagram : List UInt8) (ts : Datetime) :
    Except ObserverError RtpPacket × RtpPacketTapAdapter :=
  match rtpPacketFromDatagram tap.format datagram ts with
  | .error e => (.error e, { tap with decodeErrorCount := tap.decodeErrorCount + 1 })
  | .ok packet => (.ok packet, { tap with observedPacketCount := tap.observedPacketCount + 1 })

def recordCaptureDrop (tap : RtpPacketTapAdapter) (count : ℤ) :
    Except ObserverError RtpPacketTapAdapter :=
  if count ≤ 0 then .error (.valueError "capture drop count must be a positive integer")
  else .ok
    { tap with
      captureDropCounterSupported := true
      captureDropCount := tap.captureDropCount + count.toNat }

/-- `snapshot`. -/
def snapshot (tap : RtpPacketTapAdapter) (reportedAt : Datetime) : RtpCaptureHealthSnapshot where
  streamAlias := tap.format.streamAlias
  direction := tap.format.direction
  observedPacketCount := tap.observedPacketCount
  captureDropCount := tap.captureDropCount
  decodeErrorCount := tap.decodeErrorCount
  captureDropCounterSupported := tap.captureDropCounterSupported
  continuity := expectedContinuity tap.captureDropCount tap.decodeErrorCount
    tap.captureDropCounterSupported
  windowDurationMs := max 0 (totalMs (reportedAt.instant - tap.windowStartedAt.instant))
  clockDomain := tap.format.clockDomain
  alignmentUncertaintyMs := tap.format.alignmentUncertaintyMs
  ts := reportedAt
  alias_safe := tap.format.alias_safe
  domain_safe := tap.format.domain_safe
  continuity_expected := rfl
  window_nonneg := le_max_left _ _
  uncertainty_nonneg := tap.format.uncertainty_nonneg

/-- `report_health`, up to the call of the observer: a snapshot and a new window. -/
def reportHealth (tap : RtpPacketTapAdapter) (reportedAt : Datetime) :
    RtpCaptureHealthSnapshot × RtpPacketTapAdapter :=
  (tap.snapshot reportedAt,
    { tap with
      windowStartedAt := reportedAt
      observedPacketCount := 0
      captureDropCount := 0
      decodeErrorCount := 0 })

end RtpPacketTapAdapter

/-! ## Measurements of PCM -/

def oddPcm : ObserverError := .valueError "PCM16LE data length must be divisible by two"

def pcmS16leRms (math : FloatMath) (pcm : List UInt8) : Except ObserverError ℚ :=
  if pcm.length % 2 ≠ 0 then .error oddPcm
  else
    let samples := unpackSamples pcm
    if samples = [] then .ok 0
    else .ok (math.sqrt ((samples.map fun v => v * v).sum / samples.length))

/-- `PCM16_SILENCE_AMPLITUDE`: `round(32768 * 10 ** -3)`. -/
def pcm16SilenceAmplitude : ℕ := 33

/-- `pcm_s16le_quality`: peak in dBFS, full-scale and silent samples in percent. -/
def pcmS16leQuality (math : FloatMath) (pcm : List UInt8) : Except ObserverError (ℚ × ℚ × ℚ) :=
  if pcm.length % 2 ≠ 0 then .error oddPcm
  else
    let samples := unpackSamples pcm
    if samples = [] then .ok (-120, 0, 0)
    else
      let peak := samples.foldl (fun peak v => max peak v.natAbs) 0
      let fullScale := samples.countP fun v => v = -32768 ∨ v = 32767
      let silence := samples.countP fun v => v.natAbs ≤ pcm16SilenceAmplitude
      .ok (if peak > 0 then 20 * math.log10 (peak / 32768) else -120,
        fullScale / samples.length * 100, silence / samples.length * 100)

/-- `_delta_db`. -/
def deltaDb (math : FloatMath) (inputRms outputRms : ℚ) : ℚ :=
  if inputRms ≤ 0 ∨ outputRms ≤ 0 then 0 else 20 * math.log10 (outputRms / inputRms)

/-- The magnitude of a suspicious step between two samples. -/
def suspiciousDelta (previous current : ℤ) : Option ℚ :=
  let magnitude : ℚ := (current - previous).natAbs / 32768
  let signalLevel : ℚ := max current.natAbs previous.natAbs / 32768
  if magnitude ≥ 1 / 4 ∧ signalLevel ≥ 1 / 50 then some magnitude else none

/-- `detect_pcm_s16le_discontinuity`: the frame, magnitude and channel of the strongest
step. `previousSamples` has one sample for each channel. -/
def detectPcmS16leDiscontinuity (samples : List ℤ) (channels : ℕ)
    (previousSamples : Option (List ℤ)) : Option (ℕ × ℚ × ℕ) :=
  let positions := (List.range (samples.length / channels)).flatMap fun frameOffset =>
    (List.range channels).map fun channel => (frameOffset, channel)
  positions.foldl
    (fun strongest (frameOffset, channel) =>
      let current := samples.getD (frameOffset * channels + channel) 0
      let previous :=
        if frameOffset ≠ 0 then some (samples.getD ((frameOffset - 1) * channels + channel) 0)
        else previousSamples.map fun frame => frame.getD channel 0
      match previous.bind fun previous => suspiciousDelta previous current with
      | none => strongest
      | some magnitude =>
          if strongest.all fun found => found.2.1 < magnitude then
            some (frameOffset, magnitude, channel)
          else strongest)
    none

/-- `_pcm_s16le_final_frame`. -/
def pcmS16leFinalFrame (pcm : List UInt8) (channels : ℕ) : List ℤ :=
  unpackSamples (pcm.drop (pcm.length - 2 * channels))

/-! ## The calls of an observer -/

/-- The last frame of a stage, the number of frames before the next chunk, and the time of
the last incident. -/
structure StagePcmState where
  sampleRateHz : ℕ
  channels : ℕ
  finalSamples : List ℤ
  mediaFrameOffset : ℕ
  lastIncidentMs : Option ℚ
  deriving DecidableEq, Repr

/-- What an observer remembers besides its queue. -/
structure Collector where
  ordinal : EventFamily → ℕ := fun _ => 0
  stagePcmState : String → Option StagePcmState := fun _ => none

/-- The arguments of `observe_stage_audio`. -/
structure StageAudio where
  stage : String
  inputPcm : List UInt8
  outputPcm : List UInt8
  sampleRateHz : ℤ
  channels : ℤ
  gainApplied : Option PyFloat
  recordOutput : Bool
  ts : Datetime
  deriving DecidableEq, Repr

namespace Collector

/-- Count an event of the family. -/
def bump (c : Collector) (family : EventFamily) : Collector :=
  { c with ordinal := Function.update c.ordinal family (c.ordinal family + 1) }

/-- A single timeline event. -/
def eventItems (event : TimelineEvent) : ∀ k, List (Item k)
  | .timelineEvents => [event]
  | _ => []

/-- The event of `observe_rtp_packet`. -/
def rtpPacketEvent (ordinal : ℕ) (packet : RtpPacket) : TimelineEvent where
  eventId := eventId .rtpPacket ordinal
  category := .transport
  name := "rtp.packet_arrived"
  source := "rtp_packet_header_observer"
  correlationAlias := some packet.streamAlias
  clockDomain := packet.clockDomain
  alignmentUncertaintyMs := packet.alignmentUncertaintyMs
  direction := some (directionText packet.direction)
  stage := none
  streamAlias := some packet.streamAlias
  attributes :=
    [("sequence_number", .int packet.sequenceNumber),
      ("rtp_timestamp", .int packet.rtpTimestamp),
      ("payload_type", .int packet.payloadType),
      ("clock_rate_hz", .int packet.clockRateHz),
      ("marker", .bool packet.marker)]
  ts := packet.ts

def observeRtpPacket (c : Collector) (packet : RtpPacket) : (∀ k, List (Item k)) × Collector :=
  (eventItems (rtpPacketEvent (c.ordinal .rtpPacket) packet), c.bump .rtpPacket)

/-- The event of `observe_rtp_capture_health`. -/
def captureHealthEvent (ordinal : ℕ) (snapshot : RtpCaptureHealthSnapshot) : TimelineEvent where
  eventId := eventId .rtpCaptureHealth ordinal
  category := .transport
  name := "rtp.capture_health_reported"
  source := "rtp_packet_tap_adapter"
  correlationAlias := some snapshot.streamAlias
  clockDomain := snapshot.clockDomain
  alignmentUncertaintyMs := snapshot.alignmentUncertaintyMs
  direction := some (directionText snapshot.direction)
  stage := none
  streamAlias := some snapshot.streamAlias
  attributes :=
    [("observed_packet_count", .int snapshot.observedPacketCount),
      ("capture_drop_count", .int snapshot.captureDropCount),
      ("decode_error_count", .int snapshot.decodeErrorCount),
      ("capture_drop_counter_supported", .bool snapshot.captureDropCounterSupported),
      ("capture_point_continuity", .str snapshot.continuity.text),
      ("window_duration_ms", .float snapshot.windowDurationMs)]
  ts := snapshot.ts

def observeRtpCaptureHealth (c : Collector) (snapshot : RtpCaptureHealthSnapshot) :
    (∀ k, List (Item k)) × Collector :=
  (eventItems (captureHealthEvent (c.ordinal .rtpCaptureHealth) snapshot),
    c.bump .rtpCaptureHealth)

/-- The correlation alias of a discontinuity. -/
def discontinuityAlias (stage : String) (ordinal : ℕ) : String :=
  "pcm-discontinuity:" ++ stage ++ ":" ++ ordinal.repr

/-- The event of a discontinuity at a media time. -/
def discontinuityEvent (ordinal : ℕ) (a : StageAudio) (mediaTimeMs magnitude : ℚ)
    (channel : ℕ) : TimelineEvent where
  eventId := eventId .pcmDiscontinuity ordinal
  category := .pipeline
  name := "stage.pcm_discontinuity_detected"
  source := "pcm_adjacent_delta_detector"
  correlationAlias := some (discontinuityAlias a.stage ordinal)
  clockDomain := "control_plane_wall"
  alignmentUncertaintyMs := none
  direction := none
  stage := some a.stage
  streamAlias := none
  attributes :=
    [("media_time_ms", .float mediaTimeMs),
      ("magnitude", .float magnitude),
      ("channel", .int channel),
      ("detector_contract", .str "pcm16_adjacent_delta_v1"),
      ("sample_format", .str "pcm_s16le"),
      ("sample_rate_hz", .int a.sampleRateHz),
      ("channels", .int a.channels),
      ("threshold", .float (1 / 4)),
      ("minimum_signal_level", .float (1 / 50)),
      ("silence_treatment", .str "ignore_when_both_samples_below_minimum"),
      ("dedup_window_ms", .float 5),
      ("remote_playout_observed", .bool false)]
  ts := a.ts

/-- The state of the stage, if its format has not changed. -/
def priorStage (c : Collector) (a : StageAudio) : Option StagePcmState :=
  (c.stagePcmState a.stage).filter fun prior =>
    prior.sampleRateHz = a.sampleRateHz.toNat ∧ prior.channels = a.channels.toNat

/-- `frames / sample_rate_hz * 1000.0`. -/
def framesMs (frames sampleRateHz : ℕ) : ℚ :=
  nearest (nearest ((frames : ℚ) / sampleRateHz) * 1000)

/-- The media time, magnitude and channel of the incident that a chunk reports, if any: a
discontinuity that does not follow the last incident within 5 ms. -/
def incident (c : Collector) (a : StageAudio) : Option (ℚ × ℚ × ℕ) :=
  let prior := c.priorStage a
  let previousSamples := (prior.map StagePcmState.finalSamples).filter fun frame => frame ≠ []
  match detectPcmS16leDiscontinuity (unpackSamples a.outputPcm) a.channels.toNat previousSamples with
  | none => none
  | some (frameOffset, magnitude, channel) =>
      let offset := (prior.map StagePcmState.mediaFrameOffset).getD 0
      let mediaTimeMs := framesMs (offset + frameOffset) a.sampleRateHz.toNat
      if (prior.bind StagePcmState.lastIncidentMs).all fun last =>
          nearest (mediaTimeMs - last) ≥ 5 then
        some (mediaTimeMs, magnitude, channel)
      else none

/-- The stage after the chunk. -/
def nextStage (c : Collector) (a : StageAudio) : StagePcmState :=
  let prior := c.priorStage a
  { sampleRateHz := a.sampleRateHz.toNat
    channels := a.channels.toNat
    finalSamples :=
      if a.outputPcm ≠ [] then pcmS16leFinalFrame a.outputPcm a.channels.toNat
      else (prior.map StagePcmState.finalSamples).getD []
    mediaFrameOffset := (prior.map StagePcmState.mediaFrameOffset).getD 0 +
      a.outputPcm.length / 2 / a.channels.toNat
    lastIncidentMs := match c.incident a with
      | some (mediaTimeMs, _, _) => some mediaTimeMs
      | none => prior.bind StagePcmState.lastIncidentMs }

/-- The metrics of a chunk. -/
def stageMetrics (math : FloatMath) (a : StageAudio) (inputRms outputRms : ℚ)
    (quality : ℚ × ℚ × ℚ) : List MetricPoint :=
  let point (name : String) (value : PyFloat) : MetricPoint := ⟨name, value, some a.stage, a.ts⟩
  let frameCount := a.outputPcm.length / 2 / a.channels.toNat
  [point "input_rms" (.finite inputRms),
    point "output_rms" (.finite outputRms),
    point "delta_db" (.finite (deltaDb math inputRms outputRms)),
    point "sample_peak_dbfs" (.finite quality.1),
    point "full_scale_sample_pct" (.finite quality.2.1),
    point "silence_sample_pct" (.finite quality.2.2),
    point "audio_chunk_duration_ms" (.finite (framesMs frameCount a.sampleRateHz.toNat))] ++
    (a.gainApplied.map (point "gain_applied")).toList

/-- The chunk is kept as a recording. -/
def recorded (a : StageAudio) : Bool := a.recordOutput && a.outputPcm ≠ []

/-- What a chunk queues. -/
def stageItems (math : FloatMath) (c : Collector) (a : StageAudio) (inputRms outputRms : ℚ)
    (quality : ℚ × ℚ × ℚ) : ∀ k, List (Item k)
  | .metrics => stageMetrics math a inputRms outputRms quality
  | .audioChunks =>
      if recorded a then
        [⟨a.stage, a.outputPcm, a.sampleRateHz.toNat, a.channels.toNat, a.ts⟩]
      else []
  | .timelineEvents =>
      match c.incident a with
      | none => []
      | some (mediaTimeMs, magnitude, channel) =>
          [discontinuityEvent (c.ordinal .pcmDiscontinuity) a mediaTimeMs magnitude channel]
  | .sipEvents | .rtpStats => []

def observeStageAudio (math : FloatMath) (c : Collector) (a : StageAudio) :
    Except ObserverError ((∀ k, List (Item k)) × Collector) :=
  if a.sampleRateHz ≤ 0 then .error (.valueError "sample_rate_hz must be positive")
  else if a.channels ≤ 0 then .error (.valueError "channels must be positive")
  else if a.outputPcm.length % (2 * a.channels.toNat) ≠ 0 then
    .error (.valueError "output PCM16LE must contain complete channel frames")
  else
    match pcmS16leRms math a.inputPcm, pcmS16leRms math a.outputPcm,
        pcmS16leQuality math a.outputPcm with
    | .ok inputRms, .ok outputRms, .ok quality =>
        let counted := if (c.incident a).isSome then c.bump .pcmDiscontinuity else c
        .ok (stageItems math c a inputRms outputRms quality,
          { counted with
            stagePcmState := Function.update c.stagePcmState a.stage (some (c.nextStage a)) })
    | .error e, _, _ | _, .error e, _ | _, _, .error e => .error e

end Collector

/-- Everything that accepted stage audio does. -/
theorem observeStageAudio_eq_ok {math : FloatMath} {c : Collector} {a : StageAudio}
    {call : (∀ k, List (Item k)) × Collector}
    (h : c.observeStageAudio math a = .ok call) :
    0 < a.sampleRateHz ∧ 0 < a.channels ∧ a.outputPcm.length % (2 * a.channels.toNat) = 0 ∧
      ∃ inputRms outputRms quality,
        call = (c.stageItems math a inputRms outputRms quality,
          { (if (c.incident a).isSome then c.bump .pcmDiscontinuity else c) with
            stagePcmState := Function.update c.stagePcmState a.stage (some (c.nextStage a)) }) := by
  unfold Collector.observeStageAudio at h
  split at h
  · cases h
  · rename_i hrate
    split at h
    · cases h
    · rename_i hchannels
      split at h
      · cases h
      · rename_i hframes
        split at h
        · rename_i inputRms outputRms quality _ _ _
          refine ⟨by omega, by omega, by simpa using hframes, inputRms, outputRms, quality, ?_⟩
          exact (Except.ok.inj h).symm
        all_goals cases h

end VoxBench.Observability
