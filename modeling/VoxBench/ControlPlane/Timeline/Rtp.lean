import VoxBench.ControlPlane.Timeline.Times
import Mathlib.Data.List.Perm.Subperm

/-!
# Evidence of the RTP transport

RTP stats that breach a threshold are joined to windows of degradation. Packets of one
stream are compared with their neighbours for sequence gaps and arrival stalls, and each
finding carries the capture-health report whose window covers the two packets.

## Main definitions

* `rtpQualityEvidence`, `rtpQualityWindows` — stats over a threshold and their windows.
* `rtpPacketObservations`, `rtpCaptureHealthReports` — the well-formed packets and reports.
* `rtpCaptureHealthForPacketPair` — the report for two packets.
* `rtpPacketDiscontinuityEvidence` — the gaps and stalls.

## Main results

* `quality_spec`, `perm_windows` — findings of different stats, each in one window.
* `mem_rtpPacketObservations`, `mem_rtpCaptureHealthReports` — where packets and reports come
  from.
* `mem_rtpPacketDiscontinuityEvidence` — a finding is about two packets of one stream, in the
  order of their arrival.
-/

namespace VoxBench.ControlPlane

open VoxBench.Lib

def RtpDirection.text : RtpDirection → String
  | .received => "received"
  | .sent => "sent"

/-- `direction or ""`. -/
def directionText (direction : Option RtpDirection) : String :=
  (direction.map RtpDirection.text).getD ""

/-! ## Quality -/

inductive RtpTrigger where
  | loss
  | jitter
  | mos
  deriving DecidableEq, Repr

def RtpTrigger.text : RtpTrigger → String
  | .loss => "loss"
  | .jitter => "jitter"
  | .mos => "mos"

structure RtpQualityEvidence where
  statIndex : ℕ
  directionOrdinal : ℕ
  direction : Option RtpDirection
  tRelMs : ℚ
  lossPct : Option ℚ
  jitterMs : Option ℚ
  mos : Option ℚ
  triggers : List RtpTrigger
  deriving DecidableEq, Repr

/-- The id of the event of a trigger. -/
def RtpQualityEvidence.eventId (e : RtpQualityEvidence) (trigger : RtpTrigger) : String :=
  "rtp:" ++ e.statIndex.repr ++ ":" ++ trigger.text

def RtpQualityEvidence.evidenceRefs (e : RtpQualityEvidence) : List String := e.triggers.map e.eventId

/-- `RTP_LOSS_WARNING_PCT`. -/
def rtpLossWarningPct : ℚ := 1

/-- `RTP_JITTER_WARNING_MS`. -/
def rtpJitterWarningMs : ℚ := 30

/-- `RTP_MOS_WARNING_SCORE`. -/
def rtpMosWarningScore : ℚ := 7 / 2

/-- `RTP_DEGRADATION_WINDOW_GAP_MS`. -/
def rtpDegradationWindowGapMs : ℚ := 5000

/-- The thresholds that a stat breaches. -/
def rtpTriggers (stat : RtpStatResponse) : List RtpTrigger :=
  (if stat.lossPct.any (rtpLossWarningPct ≤ ·) then [.loss] else []) ++
    (if stat.jitterMs.any (rtpJitterWarningMs ≤ ·) then [.jitter] else []) ++
    (if stat.mos.any (· ≤ rtpMosWarningScore) then [.mos] else [])

/-- The evidence of a stat, given its index and its ordinal in its direction. -/
def rtpQuality (run : StoredRun) (item : (RtpStatResponse × ℕ) × ℕ) :
    Except TimelineError (Option RtpQualityEvidence) :=
  let stat := item.1.1
  if rtpTriggers stat = [] then .ok none
  else do
    let tRelMs ← relativeMs run stat.ts
    return some
      { statIndex := item.1.2, directionOrdinal := item.2, direction := stat.direction, tRelMs,
        lossPct := stat.lossPct, jitterMs := stat.jitterMs, mos := stat.mos,
        triggers := rtpTriggers stat }

/-- The evidence of one direction. -/
def rtpQualityOfDirection (run : StoredRun) (stats : List (RtpStatResponse × ℕ)) :
    Except TimelineError (List RtpQualityEvidence) := do
  let ordered ← sortedByTs (fun item => item.1.ts) Prod.snd stats
  collect (rtpQuality run) ordered.zipIdx

/-- `_rtp_quality_evidence`. -/
def rtpQualityEvidence (run : StoredRun) : Except TimelineError (List RtpQualityEvidence) := do
  let evidence ← (groupOn (fun item => item.1.direction) run.rtpStats.zipIdx).mapM
    fun group => rtpQualityOfDirection run group.2
  return sortOn (fun item => toLex (item.tRelMs, toLex (directionText item.direction, item.statIndex)))
    evidence.flatten

/-- Two findings of one direction belong to one window. -/
def RtpQualityEvidence.joins (previous item : RtpQualityEvidence) : Bool :=
  item.directionOrdinal = previous.directionOrdinal + 1 ∧
    nearest (item.tRelMs - previous.tRelMs) ≤ rtpDegradationWindowGapMs

/-- The loop of `_rtp_quality_windows` over the findings of one direction. -/
def splitWindows (current : List RtpQualityEvidence) :
    List RtpQualityEvidence → List (List RtpQualityEvidence)
  | [] => if current = [] then [] else [current]
  | item :: rest =>
      if current.getLast?.all fun previous => previous.joins item then
        splitWindows (current ++ [item]) rest
      else current :: splitWindows [item] rest

/-- `window[0].t_rel_ms` -/
def windowStartMs (window : List RtpQualityEvidence) : ℚ :=
  (window.head?.map RtpQualityEvidence.tRelMs).getD 0

/-- `window[-1].t_rel_ms` -/
def windowEndMs (window : List RtpQualityEvidence) : ℚ :=
  (window.getLast?.map RtpQualityEvidence.tRelMs).getD 0

/-- `window[0].direction` -/
def windowDirection (window : List RtpQualityEvidence) : Option RtpDirection :=
  window.head?.bind RtpQualityEvidence.direction

/-- `_rtp_quality_windows`. -/
def rtpQualityWindows (run : StoredRun) : Except TimelineError (List (List RtpQualityEvidence)) := do
  let evidence ← rtpQualityEvidence run
  let windows := (groupOn RtpQualityEvidence.direction evidence).flatMap fun group =>
    splitWindows [] (sortOn RtpQualityEvidence.tRelMs group.2)
  return sortOn (fun window =>
    toLex (windowStartMs window, directionText (windowDirection window))) windows

/-- `_rtp_window_alias`. -/
def rtpWindowAlias (windowIndex : ℕ) (window : List RtpQualityEvidence) : String :=
  "rtp-degradation:" ++ ((windowDirection window).map RtpDirection.text).getD "unknown" ++ ":" ++
    windowIndex.repr

/-! ## Packets and capture health -/

structure RtpPacketObservationEvidence where
  event : TimelineEventArtifact
  eventOrdinal : ℕ
  direction : RtpDirection
  streamAlias : String
  tRelMs : ℚ
  sequenceNumber : ℤ
  rtpTimestamp : ℤ
  payloadType : ℤ
  clockRateHz : ℤ
  marker : Bool
  deriving DecidableEq, Repr

/-- `event.direction in {"received", "sent"}`. -/
def rtpDirection : Option String → Option RtpDirection
  | some "received" => some .received
  | some "sent" => some .sent
  | _ => none

/-- The packet of an event that is well formed, with its time still open. -/
def packetOf (event : TimelineEventArtifact) (eventOrdinal : ℕ) :
    Option RtpPacketObservationEvidence := do
  guard (event.name = "rtp.packet_arrived")
  let streamAlias ← event.streamAlias
  let direction ← rtpDirection event.direction
  let sequenceNumber ← boundedIntAttribute event.attributes "sequence_number" 0 0xFFFF
  let rtpTimestamp ← boundedIntAttribute event.attributes "rtp_timestamp" 0 0xFFFFFFFF
  let payloadType ← boundedIntAttribute event.attributes "payload_type" 0 127
  let clockRateHz ← boundedIntAttribute event.attributes "clock_rate_hz" 1 384000
  let marker ← boolAttribute event.attributes "marker"
  return ⟨event, eventOrdinal, direction, streamAlias, 0, sequenceNumber, rtpTimestamp, payloadType,
    clockRateHz, marker⟩

def packetObservation (run : StoredRun) (item : TimelineEventArtifact × ℕ) :
    Except TimelineError (Option RtpPacketObservationEvidence) :=
  match packetOf item.1 item.2 with
  | none => .ok none
  | some packet => do
      let tRelMs ← relativeMs run item.1.ts
      return some { packet with tRelMs }

/-- `_rtp_packet_observations`. -/
def rtpPacketObservations (run : StoredRun) :
    Except TimelineError (List RtpPacketObservationEvidence) := do
  let observations ← collect (packetObservation run) run.timelineEvents.zipIdx
  return sortOn (fun item => toLex (item.streamAlias, toLex (item.direction.text,
    toLex (item.tRelMs, item.eventOrdinal)))) observations

inductive CaptureContinuity where
  | verified
  | compromised
  | notIndependentlyVerified
  deriving DecidableEq, Repr

def CaptureContinuity.text : CaptureContinuity → String
  | .verified => "verified"
  | .compromised => "compromised"
  | .notIndependentlyVerified => "not independently verified"

structure RtpCaptureHealthEvidence where
  event : TimelineEventArtifact
  eventOrdinal : ℕ
  direction : RtpDirection
  streamAlias : String
  startMs : ℚ
  endMs : ℚ
  observedPacketCount : ℤ
  captureDropCount : ℤ
  decodeErrorCount : ℤ
  captureDropCounterSupported : Bool
  deriving DecidableEq, Repr

def RtpCaptureHealthEvidence.continuity (health : RtpCaptureHealthEvidence) : CaptureContinuity :=
  if health.captureDropCount ≠ 0 ∨ health.decodeErrorCount ≠ 0 then .compromised
  else if health.captureDropCounterSupported then .verified
  else .notIndependentlyVerified

/-- The counters of a well-formed report, with its window still open. -/
def healthCounters (event : TimelineEventArtifact) (eventOrdinal : ℕ) (direction : RtpDirection)
    (streamAlias : String) : Option RtpCaptureHealthEvidence := do
  let observedPacketCount ←
    boundedIntAttribute event.attributes "observed_packet_count" 0 1000000000
  let captureDropCount ← boundedIntAttribute event.attributes "capture_drop_count" 0 1000000000
  let decodeErrorCount ← boundedIntAttribute event.attributes "decode_error_count" 0 1000000000
  let supported ← boolAttribute event.attributes "capture_drop_counter_supported"
  return ⟨event, eventOrdinal, direction, streamAlias, 0, 0, observedPacketCount, captureDropCount,
    decodeErrorCount, supported⟩

/-- The stream and the direction that a report names. -/
def healthStream (event : TimelineEventArtifact) : Option (String × RtpDirection) := do
  guard (event.name = "rtp.capture_health_reported")
  let streamAlias ← event.streamAlias
  let direction ← rtpDirection event.direction
  return (streamAlias, direction)

def captureHealthReport (run : StoredRun) (item : TimelineEventArtifact × ℕ) :
    Except TimelineError (Option RtpCaptureHealthEvidence) :=
  match healthStream item.1 with
  | none => .ok none
  | some (streamAlias, direction) => do
      let windowDurationMs ← numericAttribute item.1.attributes "window_duration_ms"
      match healthCounters item.1 item.2 direction streamAlias, windowDurationMs with
      | some health, some windowDurationMs =>
          if windowDurationMs < 0 then .ok none
          else do
            let endMs ← relativeMs run item.1.ts
            return some { health with startMs := max 0 (nearest (endMs - windowDurationMs)), endMs }
      | _, _ => .ok none

/-- `_rtp_capture_health_reports`. -/
def rtpCaptureHealthReports (run : StoredRun) :
    Except TimelineError (List RtpCaptureHealthEvidence) := do
  let reports ← collect (captureHealthReport run) run.timelineEvents.zipIdx
  return sortOn (fun item => toLex (item.streamAlias, toLex (item.direction.text,
    toLex (item.endMs, item.eventOrdinal)))) reports

/-- The report is about the stream, the direction and the clock of the packet. -/
def RtpCaptureHealthEvidence.sameStream (report : RtpCaptureHealthEvidence)
    (packet : RtpPacketObservationEvidence) : Bool :=
  report.streamAlias = packet.streamAlias ∧ report.direction = packet.direction ∧
    report.event.clockDomain = packet.event.clockDomain

/-- The window of the report holds the arrivals of both packets. -/
def RtpCaptureHealthEvidence.covers (report : RtpCaptureHealthEvidence)
    (previous current : RtpPacketObservationEvidence) : Bool :=
  report.startMs ≤ previous.tRelMs ∧ current.tRelMs ≤ report.endMs

/-- `_rtp_capture_health_for_packet_pair`. -/
def rtpCaptureHealthForPacketPair (reports : List RtpCaptureHealthEvidence)
    (previous current : RtpPacketObservationEvidence) : Option RtpCaptureHealthEvidence :=
  reports.find? fun report => report.sameStream current ∧ report.covers previous current

/-! ## Discontinuities -/

inductive RtpDiscontinuityKind where
  | sequenceGap
  | arrivalStall
  deriving DecidableEq, Repr

structure RtpPacketDiscontinuityEvidence where
  evidenceIndex : ℕ
  kind : RtpDiscontinuityKind
  previous : RtpPacketObservationEvidence
  current : RtpPacketObservationEvidence
  sequenceDelta : ℤ
  missingPacketCount : ℤ
  arrivalGapMs : ℚ
  mediaAdvanceMs : ℚ
  excessArrivalDelayMs : ℚ
  captureHealth : Option RtpCaptureHealthEvidence
  deriving DecidableEq, Repr

namespace RtpPacketDiscontinuityEvidence

def correlationAlias (e : RtpPacketDiscontinuityEvidence) : String :=
  "rtp-packet-discontinuity:" ++ e.evidenceIndex.repr

def eventId (e : RtpPacketDiscontinuityEvidence) : String := e.correlationAlias ++ ":observed"

def captureCompromised (e : RtpPacketDiscontinuityEvidence) : Bool :=
  e.captureHealth.any fun health => health.continuity = .compromised

end RtpPacketDiscontinuityEvidence

/-- `RTP_ARRIVAL_STALL_EXCESS_MS`. -/
def rtpArrivalStallExcessMs : ℚ := 100

section Pair

variable (previous current : RtpPacketObservationEvidence)

def sequenceDelta : ℤ := (current.sequenceNumber - previous.sequenceNumber) % 65536

def arrivalGapMs : ℚ := max 0 (nearest (current.tRelMs - previous.tRelMs))

def mediaAdvanceMs : ℚ :=
  if current.clockRateHz = previous.clockRateHz then
    nearest (nearest (((current.rtpTimestamp - previous.rtpTimestamp) % 4294967296 : ℤ) /
      current.clockRateHz) * 1000)
  else 0

def excessArrivalDelayMs : ℚ :=
  max 0 (nearest (arrivalGapMs previous current - mediaAdvanceMs previous current))

/-- What is wrong between two neighbouring packets of a stream. -/
def discontinuityKind : Option RtpDiscontinuityKind :=
  if 1 < sequenceDelta previous current ∧ sequenceDelta previous current < 32768 then
    some .sequenceGap
  else if sequenceDelta previous current = 1 ∧ current.clockRateHz = previous.clockRateHz ∧
      rtpArrivalStallExcessMs ≤ excessArrivalDelayMs previous current then
    some .arrivalStall
  else none

end Pair

/-- The evidence of two packets, as the entry of the given index. -/
def discontinuity (reports : List RtpCaptureHealthEvidence) (evidenceIndex : ℕ)
    (previous current : RtpPacketObservationEvidence) (kind : RtpDiscontinuityKind) :
    RtpPacketDiscontinuityEvidence where
  evidenceIndex := evidenceIndex
  kind := kind
  previous := previous
  current := current
  sequenceDelta := sequenceDelta previous current
  missingPacketCount := match kind with
    | .sequenceGap => sequenceDelta previous current - 1
    | .arrivalStall => 0
  arrivalGapMs := arrivalGapMs previous current
  mediaAdvanceMs := mediaAdvanceMs previous current
  excessArrivalDelayMs := excessArrivalDelayMs previous current
  captureHealth := rtpCaptureHealthForPacketPair reports previous current

/-- The neighbouring packets of each stream with something wrong between them. -/
def discontinuousPairs (packets : List RtpPacketObservationEvidence) :
    List ((RtpPacketObservationEvidence × RtpPacketObservationEvidence) × RtpDiscontinuityKind) :=
  (groupOn (fun item => (item.streamAlias, item.direction, item.event.clockDomain)) packets).flatMap
    fun group => (pairs group.2).filterMap fun pair =>
      (discontinuityKind pair.1 pair.2).map fun kind => (pair, kind)

/-- `_rtp_packet_discontinuity_evidence`. -/
def rtpPacketDiscontinuityEvidence (run : StoredRun) :
    Except TimelineError (List RtpPacketDiscontinuityEvidence) := do
  let packets ← rtpPacketObservations run
  let reports ← rtpCaptureHealthReports run
  let evidence := (discontinuousPairs packets).mapIdx fun index item =>
    discontinuity reports index item.1.1 item.1.2 item.2
  return sortOn (fun item => toLex (item.current.tRelMs,
    toLex (item.current.streamAlias, item.evidenceIndex))) evidence

/-! ## Findings and windows -/

section Quality

variable {run : StoredRun}

theorem rtpQuality_spec {item : (RtpStatResponse × ℕ) × ℕ} {e : RtpQualityEvidence}
    (h : rtpQuality run item = .ok (some e)) :
    e.statIndex = item.1.2 ∧ 0 ≤ e.tRelMs ∧ e.triggers = rtpTriggers item.1.1 := by
  simp only [rtpQuality] at h
  split at h
  · simp at h
  · obtain ⟨tRelMs, ht, h⟩ := bind_eq_ok.mp h
    simp only [pure, Except.pure, Except.ok.injEq, Option.some.injEq] at h
    subst h
    exact ⟨rfl, relativeMs_nonneg ht, rfl⟩

theorem nodup_rtpTriggers (stat : RtpStatResponse) : (rtpTriggers stat).Nodup := by
  unfold rtpTriggers
  split <;> split <;> split <;> decide

theorem rtpQualityOfDirection_spec {stats : List (RtpStatResponse × ℕ)}
    {found : List RtpQualityEvidence} (h : rtpQualityOfDirection run stats = .ok found) :
    (found.map RtpQualityEvidence.statIndex).Subperm (stats.map Prod.snd) ∧
      ∀ e ∈ found, 0 ≤ e.tRelMs ∧ e.triggers.Nodup := by
  obtain ⟨ordered, hordered, h⟩ := bind_eq_ok.mp h
  constructor
  · have hsublist := sublist_of_collect h fun _ _ he => (rtpQuality_spec he).1
    have hordinals : ordered.zipIdx.map (fun item => item.1.2) = ordered.map Prod.snd :=
      calc ordered.zipIdx.map (fun item => item.1.2)
          = (ordered.zipIdx.map Prod.fst).map Prod.snd := (List.map_map ..).symm
        _ = ordered.map Prod.snd := by rw [List.zipIdx_map_fst]
    rw [hordinals] at hsublist
    exact hsublist.subperm.trans ((perm_of_sortedByTs hordered).map _).subperm
  · intro e he
    obtain ⟨item, -, hitem⟩ := (mem_collect h).mp he
    obtain ⟨-, ht, htriggers⟩ := rtpQuality_spec hitem
    exact ⟨ht, htriggers ▸ nodup_rtpTriggers _⟩

theorem statIndices_subperm {groups : List (Option RtpDirection × List (RtpStatResponse × ℕ))}
    {found : List (List RtpQualityEvidence)}
    (h : groups.mapM (fun group => rtpQualityOfDirection run group.2) = .ok found) :
    (found.flatten.map RtpQualityEvidence.statIndex).Subperm
      ((groups.flatMap Prod.snd).map Prod.snd) := by
  have hforall := mapM_eq_ok_iff.mp h
  clear h
  induction hforall with
  | nil => exact List.Subperm.refl _
  | cons hgroup _ ih =>
      rw [List.flatten_cons, List.map_append, List.flatMap_cons, List.map_append]
      exact (rtpQualityOfDirection_spec hgroup).1.append ih

theorem quality_spec {evidence : List RtpQualityEvidence} (h : rtpQualityEvidence run = .ok evidence) :
    (∀ e ∈ evidence, 0 ≤ e.tRelMs ∧ e.triggers.Nodup) ∧
      (evidence.map RtpQualityEvidence.statIndex).Nodup := by
  obtain ⟨found, hfound, h⟩ := bind_eq_ok.mp h
  cases h
  constructor
  · intro e he
    obtain ⟨items, hitems, he⟩ := List.mem_flatten.mp ((mem_sortOn _).mp he)
    obtain ⟨group, -, hgroup⟩ := exists_of_mem_mapM hfound hitems
    exact (rtpQualityOfDirection_spec hgroup).2 e he
  · rw [((perm_sortOn _ found.flatten).map _).nodup_iff]
    obtain ⟨indices, hperm, hsublist⟩ := statIndices_subperm hfound
    refine hperm.nodup_iff.mp (List.Nodup.sublist hsublist ?_)
    rw [((perm_groupOn _ run.rtpStats.zipIdx).map _).nodup_iff, List.zipIdx_map_snd]
    exact List.nodup_range'

theorem flatten_splitWindows (current items : List RtpQualityEvidence) :
    (splitWindows current items).flatten = current ++ items := by
  induction items generalizing current with
  | nil =>
      rw [splitWindows]
      split <;> simp_all
  | cons item rest ih =>
      rw [splitWindows]
      split
      · rw [ih, List.append_assoc, List.singleton_append]
      · rw [List.flatten_cons, ih, List.singleton_append]

/-- Every finding is in one window. -/
theorem perm_windows {windows : List (List RtpQualityEvidence)}
    (h : rtpQualityWindows run = .ok windows) :
    ∃ evidence, rtpQualityEvidence run = .ok evidence ∧ windows.flatten.Perm evidence := by
  obtain ⟨evidence, hevidence, h⟩ := bind_eq_ok.mp h
  cases h
  refine ⟨evidence, hevidence, ((perm_sortOn _ _).flatten).trans ?_⟩
  refine List.Perm.trans ?_ (perm_groupOn RtpQualityEvidence.direction evidence)
  induction groupOn RtpQualityEvidence.direction evidence with
  | nil => exact List.Perm.refl _
  | cons group groups ih =>
      rw [List.flatMap_cons, List.flatten_append, flatten_splitWindows, List.nil_append,
        List.flatMap_cons]
      exact (perm_sortOn _ _).append ih

theorem windows_spec {windows : List (List RtpQualityEvidence)}
    (h : rtpQualityWindows run = .ok windows) :
    (∀ window ∈ windows, ∀ e ∈ window, 0 ≤ e.tRelMs ∧ e.triggers.Nodup) ∧
      (windows.flatten.map RtpQualityEvidence.statIndex).Nodup := by
  obtain ⟨evidence, hevidence, hperm⟩ := perm_windows h
  obtain ⟨htimes, hnodup⟩ := quality_spec hevidence
  refine ⟨fun window hwindow e he => htimes e ?_, ((hperm.map _).nodup_iff).mpr hnodup⟩
  exact hperm.mem_iff.mp (List.mem_flatten.mpr ⟨window, hwindow, he⟩)

theorem windowStartMs_nonneg {window : List RtpQualityEvidence} (h : ∀ e ∈ window, 0 ≤ e.tRelMs) :
    0 ≤ windowStartMs window := by
  cases window with
  | nil => exact le_refl _
  | cons e window => exact h e List.mem_cons_self

end Quality

/-! ## What the evidence is read from -/

section Specs

variable {run : StoredRun} {item : TimelineEventArtifact × ℕ}

theorem packetOf_spec {event : TimelineEventArtifact} {eventOrdinal : ℕ}
    {packet : RtpPacketObservationEvidence} (h : packetOf event eventOrdinal = some packet) :
    packet.event = event ∧ packet.eventOrdinal = eventOrdinal ∧
      event.name = "rtp.packet_arrived" := by
  simp only [packetOf, guard, Option.bind_eq_bind, Option.bind_eq_some_iff, Option.pure_def] at h
  obtain ⟨_, hname, _, -, _, -, _, -, _, -, _, -, _, -, _, -, h⟩ := h
  obtain rfl := Option.some.inj h
  exact ⟨rfl, rfl, by simpa using hname⟩

theorem packetObservation_spec {packet : RtpPacketObservationEvidence}
    (h : packetObservation run item = .ok (some packet)) :
    packet.event = item.1 ∧ packet.eventOrdinal = item.2 ∧
      relativeMs run item.1.ts = .ok packet.tRelMs := by
  unfold packetObservation at h
  split at h
  · simp at h
  · rename_i raw hraw
    obtain ⟨hevent, hordinal, -⟩ := packetOf_spec hraw
    obtain ⟨tRelMs, ht, h⟩ := bind_eq_ok.mp h
    obtain rfl : { raw with tRelMs } = packet := by simpa [pure, Except.pure] using h
    exact ⟨hevent, hordinal, ht⟩

theorem mem_rtpPacketObservations {packets : List RtpPacketObservationEvidence}
    (h : rtpPacketObservations run = .ok packets) {packet : RtpPacketObservationEvidence} :
    packet ∈ packets ↔
      ∃ item ∈ run.timelineEvents.zipIdx, packetObservation run item = .ok (some packet) := by
  obtain ⟨observations, hobservations, h⟩ := bind_eq_ok.mp h
  cases h
  rw [mem_sortOn, mem_collect hobservations]

theorem healthStream_spec {event : TimelineEventArtifact} {stream : String × RtpDirection}
    (h : healthStream event = some stream) : event.name = "rtp.capture_health_reported" := by
  simp only [healthStream, guard, Option.bind_eq_bind, Option.bind_eq_some_iff, Option.pure_def] at h
  obtain ⟨_, hname, -⟩ := h
  simpa using hname

theorem healthCounters_spec {event : TimelineEventArtifact} {eventOrdinal : ℕ}
    {direction : RtpDirection} {streamAlias : String} {health : RtpCaptureHealthEvidence}
    (h : healthCounters event eventOrdinal direction streamAlias = some health) :
    health.event = event ∧ health.eventOrdinal = eventOrdinal := by
  simp only [healthCounters, Option.bind_eq_bind, Option.bind_eq_some_iff, Option.pure_def] at h
  obtain ⟨_, -, _, -, _, -, _, -, h⟩ := h
  obtain rfl := Option.some.inj h
  exact ⟨rfl, rfl⟩

theorem captureHealthReport_spec {report : RtpCaptureHealthEvidence}
    (h : captureHealthReport run item = .ok (some report)) :
    report.event = item.1 ∧ report.eventOrdinal = item.2 ∧
      item.1.name = "rtp.capture_health_reported" ∧ relativeMs run item.1.ts = .ok report.endMs := by
  unfold captureHealthReport at h
  split at h
  · simp at h
  · rename_i streamAlias direction hstream
    obtain ⟨duration, -, h⟩ := bind_eq_ok.mp h
    cases hhealth : healthCounters item.1 item.2 direction streamAlias with
    | none => simp [hhealth] at h
    | some health =>
        cases duration with
        | none => simp [hhealth] at h
        | some duration =>
            simp only [hhealth] at h
            split at h
            · simp at h
            · obtain ⟨endMs, hend, h⟩ := bind_eq_ok.mp h
              obtain ⟨hevent, hordinal⟩ := healthCounters_spec hhealth
              simp only [pure, Except.pure, Except.ok.injEq, Option.some.injEq] at h
              subst h
              exact ⟨hevent, hordinal, healthStream_spec hstream, hend⟩

theorem mem_rtpCaptureHealthReports {reports : List RtpCaptureHealthEvidence}
    (h : rtpCaptureHealthReports run = .ok reports) {report : RtpCaptureHealthEvidence} :
    report ∈ reports ↔
      ∃ item ∈ run.timelineEvents.zipIdx, captureHealthReport run item = .ok (some report) := by
  obtain ⟨found, hfound, h⟩ := bind_eq_ok.mp h
  cases h
  rw [mem_sortOn, mem_collect hfound]

/-- Two neighbouring packets of a stream, in the order of their arrival. -/
theorem mem_discontinuousPairs {packets : List RtpPacketObservationEvidence}
    {pair : (RtpPacketObservationEvidence × RtpPacketObservationEvidence) × RtpDiscontinuityKind}
    (hpackets : rtpPacketObservations run = .ok packets) (h : pair ∈ discontinuousPairs packets) :
    pair.1.1 ∈ packets ∧ pair.1.2 ∈ packets ∧ pair.1.1.tRelMs ≤ pair.1.2.tRelMs := by
  obtain ⟨group, hgroup, h⟩ := List.mem_flatMap.mp h
  obtain ⟨⟨previous, current⟩, hpair, h⟩ := List.mem_filterMap.mp h
  obtain ⟨kind, -, rfl⟩ := Option.map_eq_some_iff.mp h
  have hmem := mem_of_mem_pairs hpair
  rw [mem_groupOn hgroup] at hpair hmem
  simp only [List.mem_filter, decide_eq_true_eq] at hmem
  obtain ⟨⟨hprevious, hkey⟩, hcurrent, hkey'⟩ := hmem
  refine ⟨hprevious, hcurrent, ?_⟩
  obtain ⟨observations, -, hsorted⟩ := bind_eq_ok.mp hpackets
  cases hsorted
  have hle := rel_of_mem_pairs ((pairwise_sortOn _ observations).filter _) hpair
  obtain ⟨halias, hdirection, -⟩ : previous.streamAlias = current.streamAlias ∧
      previous.direction = current.direction ∧
      previous.event.clockDomain = current.event.clockDomain := by
    simpa using hkey.trans hkey'.symm
  -- the streams are equal, so that the times decide the order of the sort
  rw [halias, hdirection] at hle
  simp only [Prod.Lex.toLex_le_toLex, lt_self_iff_false, true_and, false_or] at hle
  exact hle.elim le_of_lt fun h => h.1.le

theorem mem_rtpPacketDiscontinuityEvidence {evidence : List RtpPacketDiscontinuityEvidence}
    (h : rtpPacketDiscontinuityEvidence run = .ok evidence) {item : RtpPacketDiscontinuityEvidence}
    (hitem : item ∈ evidence) :
    ∃ packets reports, rtpPacketObservations run = .ok packets ∧
      rtpCaptureHealthReports run = .ok reports ∧
      item.previous ∈ packets ∧ item.current ∈ packets ∧
      item.previous.tRelMs ≤ item.current.tRelMs ∧
      item.captureHealth = rtpCaptureHealthForPacketPair reports item.previous item.current := by
  obtain ⟨packets, hpackets, h⟩ := bind_eq_ok.mp h
  obtain ⟨reports, hreports, h⟩ := bind_eq_ok.mp h
  cases h
  rw [mem_sortOn, List.mem_mapIdx] at hitem
  obtain ⟨index, hindex, rfl⟩ := hitem
  obtain ⟨hprevious, hcurrent, hle⟩ := mem_discontinuousPairs hpackets (List.getElem_mem hindex)
  exact ⟨packets, reports, hpackets, hreports, hprevious, hcurrent, hle, rfl⟩

end Specs

end VoxBench.ControlPlane
