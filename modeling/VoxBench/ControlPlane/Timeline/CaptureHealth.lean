import VoxBench.ControlPlane.Timeline.Views

/-!
# Compromised capture

A gap between two packets says little about the network while the capture itself was losing
packets. The incident of a gap or a stall is downgraded by the report that was found for its
packets: the first report of the stream, by the end of its window, that covers both. A
compromised window that only overlaps the packets is never found, and one that another window
precedes is not found either. Whether a window overlaps the packets is a question about the
times themselves, and whether it covers them is one about the floats that the times are shown at.

## Main results

* `not_blamed_iff` — when every compromised window that overlaps a finding is cited.
* `straddled_window_blamed` — a gap across the border of two windows.
-/

namespace VoxBench.ControlPlane

open VoxBench.Lib

/-- The length of the window, as it was reported. -/
def RtpCaptureHealthEvidence.durationMs (health : RtpCaptureHealthEvidence) : ℚ :=
  match Dict.get? health.event.attributes "window_duration_ms" with
  | some (.int n) => n
  | some (.float q) => q
  | _ => 0

/-- The window overlaps the time between two packets in more than a point. -/
def RtpCaptureHealthEvidence.Overlaps (health : RtpCaptureHealthEvidence)
    (previous current : RtpPacketObservationEvidence) : Prop :=
  let stop : ℚ := health.event.ts.instant
  let first : ℚ := min previous.event.ts.instant current.event.ts.instant
  let last : ℚ := max previous.event.ts.instant current.event.ts.instant
  max (stop - health.durationMs * 1000) first < min stop last

/-- A window of the stream of a finding, with drops or decode errors, that overlaps it. -/
structure Compromises (reports : List RtpCaptureHealthEvidence)
    (item : RtpPacketDiscontinuityEvidence) (health : RtpCaptureHealthEvidence) : Prop where
  mem : health ∈ reports
  stream : health.sameStream item.current = true
  counts : health.captureDropCount ≠ 0 ∨ health.decodeErrorCount ≠ 0
  overlaps : health.Overlaps item.previous item.current

/-- The incident of the finding has low confidence and, after the event of the finding
itself, cites every window that compromises it. -/
def NotBlamed (reports : List RtpCaptureHealthEvidence) (item : RtpPacketDiscontinuityEvidence) :
    Prop :=
  ∀ health, Compromises reports item health →
    (discontinuityIncident item).confidence = .low ∧
      health.event.eventId ∈ (discontinuityIncident item).evidenceRefs.tail

/-- The window is of the stream of the finding and covers both packets, and no other such window
ends earlier or, with the same end, was ingested earlier. -/
structure CoversFirst (reports : List RtpCaptureHealthEvidence)
    (item : RtpPacketDiscontinuityEvidence) (first : RtpCaptureHealthEvidence) : Prop where
  mem : first ∈ reports
  stream : first.sameStream item.current = true
  covers : first.covers item.previous item.current = true
  first : ∀ other ∈ reports, other.sameStream item.current = true →
    other.covers item.previous item.current = true →
    toLex (first.endMs, first.eventOrdinal) ≤ toLex (other.endMs, other.eventOrdinal)

/-- For every window that compromises the finding, the first to cover both packets has drops or
decode errors and bears its event id. -/
def CoveredFirst (reports : List RtpCaptureHealthEvidence) (item : RtpPacketDiscontinuityEvidence) :
    Prop :=
  ∀ health, Compromises reports item health →
    ∃ first, CoversFirst reports item first ∧
      (first.captureDropCount ≠ 0 ∨ first.decodeErrorCount ≠ 0) ∧
      first.event.eventId = health.event.eventId

section Lookup

variable {run : StoredRun} {reports : List RtpCaptureHealthEvidence}
  {health other : RtpCaptureHealthEvidence} {item : RtpPacketDiscontinuityEvidence}

/-- Reports are told apart by the ordinals of their events. -/
theorem report_eq_of_eventOrdinal (hreports : rtpCaptureHealthReports run = .ok reports)
    (hhealth : health ∈ reports) (hother : other ∈ reports)
    (h : health.eventOrdinal = other.eventOrdinal) : health = other := by
  obtain ⟨⟨event, ordinal⟩, hevent, hhealth⟩ := (mem_rtpCaptureHealthReports hreports).mp hhealth
  obtain ⟨⟨event', ordinal'⟩, hevent', hother⟩ := (mem_rtpCaptureHealthReports hreports).mp hother
  obtain ⟨-, rfl, -⟩ := captureHealthReport_spec hhealth
  obtain ⟨-, hordinal, -⟩ := captureHealthReport_spec hother
  have hordinal : ordinal' = health.eventOrdinal := hordinal.symm.trans h.symm
  subst hordinal
  rw [List.mk_mem_zipIdx_iff_getElem?] at hevent hevent'
  rw [hevent, Option.some.injEq] at hevent'
  subst hevent'
  rw [hhealth] at hother
  simpa using hother

/-- The order of two reports of one stream. -/
theorem reports_pairwise (hreports : rtpCaptureHealthReports run = .ok reports) :
    reports.Pairwise fun a b => a.streamAlias = b.streamAlias → a.direction = b.direction →
      toLex (a.endMs, a.eventOrdinal) ≤ toLex (b.endMs, b.eventOrdinal) := by
  obtain ⟨found, -, h⟩ := bind_eq_ok.mp hreports
  cases h
  refine (pairwise_sortOn _ found).imp fun {a b} hab halias hdirection => ?_
  simpa [halias, hdirection, Prod.Lex.toLex_le_toLex] using hab

/-- The report that is found for a finding is the first that covers it. -/
theorem coversFirst_of_captureHealth (hreports : rtpCaptureHealthReports run = .ok reports)
    (hlookup : item.captureHealth = rtpCaptureHealthForPacketPair reports item.previous item.current)
    (hfound : item.captureHealth = some health) : CoversFirst reports item health := by
  have hfind := hlookup.symm.trans hfound
  have hprop := List.find?_some hfind
  simp only [decide_eq_true_eq] at hprop
  refine ⟨List.mem_of_find?_eq_some hfind, hprop.1, hprop.2, fun other hother hstream hcovers => ?_⟩
  rcases eq_or_rel_of_find? (reports_pairwise hreports) hfind hother
    (by simp [hstream, hcovers]) with rfl | hle
  · exact le_refl _
  · have hhealth := hprop.1
    simp only [RtpCaptureHealthEvidence.sameStream, decide_eq_true_eq] at hhealth hstream
    exact hle (hhealth.1.trans hstream.1.symm) (hhealth.2.1.trans hstream.2.1.symm)

/-- The first report that covers a finding is found. -/
theorem captureHealth_eq_of_coversFirst (hreports : rtpCaptureHealthReports run = .ok reports)
    (hlookup : item.captureHealth = rtpCaptureHealthForPacketPair reports item.previous item.current)
    (h : CoversFirst reports item health) : item.captureHealth = some health := by
  cases hfound : item.captureHealth with
  | none =>
      have hnone := List.find?_eq_none.mp (hlookup.symm.trans hfound) health h.mem
      simp [h.stream, h.covers] at hnone
  | some found =>
      have hfirst := coversFirst_of_captureHealth hreports hlookup hfound
      have heq := le_antisymm (h.first found hfirst.mem hfirst.stream hfirst.covers)
        (hfirst.first health h.mem h.stream h.covers)
      have hordinal : health.eventOrdinal = found.eventOrdinal := by
        simpa using congrArg (fun key => (ofLex key).2) heq
      rw [report_eq_of_eventOrdinal hreports h.mem hfirst.mem hordinal]

theorem captureCompromised_iff (hfound : item.captureHealth = some health) :
    item.captureCompromised = true ↔
      health.captureDropCount ≠ 0 ∨ health.decodeErrorCount ≠ 0 := by
  rw [RtpPacketDiscontinuityEvidence.captureCompromised, hfound, Option.any_some,
    decide_eq_true_eq, RtpCaptureHealthEvidence.continuity]
  split_ifs with hcounts <;> simp [hcounts]

theorem confidence_eq_low_iff :
    (discontinuityIncident item).confidence = .low ↔ item.captureCompromised = true := by
  cases hcompromised : item.captureCompromised <;> cases hkind : item.kind <;>
    simp [discontinuityIncident, hcompromised, hkind]

/-- A finding is not blamed on the network exactly when the first window that covers it is the
compromised one. -/
theorem notBlamed_iff_coveredFirst (hreports : rtpCaptureHealthReports run = .ok reports)
    (hlookup : item.captureHealth = rtpCaptureHealthForPacketPair reports item.previous item.current) :
    NotBlamed reports item ↔ CoveredFirst reports item := by
  constructor
  · intro h health hhealth
    obtain ⟨hlow, hcited⟩ := h health hhealth
    cases hfound : item.captureHealth with
    | none => simp [discontinuityIncident, hfound] at hcited
    | some found =>
        have hid : health.event.eventId = found.event.eventId := by
          simpa [discontinuityIncident, hfound] using hcited
        exact ⟨found, coversFirst_of_captureHealth hreports hlookup hfound,
          (captureCompromised_iff hfound).mp (confidence_eq_low_iff.mp hlow), hid.symm⟩
  · intro h health hhealth
    obtain ⟨first, hfirst, hcounts, hid⟩ := h health hhealth
    have hfound := captureHealth_eq_of_coversFirst hreports hlookup hfirst
    refine ⟨confidence_eq_low_iff.mpr ((captureCompromised_iff hfound).mpr hcounts), ?_⟩
    simp [discontinuityIncident, hfound, hid]

end Lookup

/-! ## Runs of packets -/

/-- Every gap and stall of a timeline has its incident, which is downgraded for all compromised
windows that overlap it exactly when each of them is the first window to cover it. -/
theorem not_blamed_iff {run : StoredRun} {timeline : TimelineResponse}
    (h : toTimeline run = .ok timeline) :
    ∃ reports evidence, rtpCaptureHealthReports run = .ok reports ∧
      rtpPacketDiscontinuityEvidence run = .ok evidence ∧
      ∀ item ∈ evidence, discontinuityIncident item ∈ timeline.lanes.incidents ∧
        (NotBlamed reports item ↔ CoveredFirst reports item) := by
  obtain ⟨-, -, -, hincidents⟩ := lanes_of_toTimeline h
  simp only [typedTimelineIncidents, bind_eq_ok, pure, Except.pure, Except.ok.injEq] at hincidents
  obtain ⟨_, -, _, -, _, -, _, -, _, -, _, -, _, -, _, -, evidence, hevidence, _, -, _, -, _, -,
    hincidents⟩ := hincidents
  obtain ⟨_, -, hreports⟩ := bind_eq_ok.mp hevidence
  obtain ⟨reports, hreports, -⟩ := bind_eq_ok.mp hreports
  refine ⟨reports, evidence, hreports, hevidence, fun item hitem => ⟨?_, ?_⟩⟩
  · rw [← hincidents]
    simp only [List.mem_append, List.mem_map]
    exact Or.inl (Or.inl (Or.inl (Or.inr ⟨item, hitem, rfl⟩)))
  · obtain ⟨_, reports', -, hreports', -, -, -, hlookup⟩ :=
      mem_rtpPacketDiscontinuityEvidence hevidence hitem
    rw [hreports, Except.ok.injEq] at hreports'
    subst hreports'
    exact notBlamed_iff_coveredFirst hreports hlookup

/-- A run that shows the given events, on the clock of its start. -/
def eventRun (events : List TimelineEventArtifact) : StoredRun :=
  { createRunningRun "run" "hash" none "provider" "engine" (.utc 0) (configOf ["sink"]) {}
      [] with
    timelineEvents := events }

/-- A packet that arrives at the given millisecond. -/
def packetEvent (eventId : String) (ms : ℤ) (sequenceNumber : ℤ) : TimelineEventArtifact :=
  { eventId := eventId
    category := .transport
    name := "rtp.packet_arrived"
    ts := .utc (ms * 1000)
    direction := some "received"
    streamAlias := some "leg-a"
    attributes := [("sequence_number", .int sequenceNumber), ("rtp_timestamp", .int 160),
      ("payload_type", .int 0), ("clock_rate_hz", .int 8000), ("marker", .bool false)] }

/-- The report of a window of one second that ends at the given millisecond. -/
def healthEvent (eventId : String) (ms : ℤ) (drops : ℤ) : TimelineEventArtifact :=
  { eventId := eventId
    category := .transport
    name := "rtp.capture_health_reported"
    ts := .utc (ms * 1000)
    direction := some "received"
    streamAlias := some "leg-a"
    attributes := [("observed_packet_count", .int 1), ("capture_drop_count", .int drops),
      ("decode_error_count", .int 0), ("capture_drop_counter_supported", .bool true),
      ("window_duration_ms", .float 1000)] }

/-- Two packets on both sides of the border of two windows, the second of which dropped a
packet. -/
def straddledRun : StoredRun :=
  eventRun [packetEvent "packet-1" 900 1, healthEvent "health-1" 1000 0, packetEvent "packet-2" 1100 3,
    healthEvent "health-2" 2000 1]

/-- The confidence of the incidents of the gaps and stalls, and what they cite. -/
def discontinuityFindings (run : StoredRun) :
    Except TimelineError (List (TimelineConfidence × List String)) := do
  let evidence ← rtpPacketDiscontinuityEvidence run
  return evidence.map fun item =>
    ((discontinuityIncident item).confidence, (discontinuityIncident item).evidenceRefs)

/-- The report of `healthEvent` at the given place of the events. -/
def healthOfSecond (eventId : String) (ms : ℤ) (drops : ℤ) (eventOrdinal : ℕ) :
    RtpCaptureHealthEvidence where
  event := healthEvent eventId ms drops
  eventOrdinal := eventOrdinal
  direction := .received
  streamAlias := "leg-a"
  startMs := ms - 1000
  endMs := ms
  observedPacketCount := 1
  captureDropCount := drops
  decodeErrorCount := 0
  captureDropCounterSupported := true

/-- The packet of `packetEvent` at the given place of the events. -/
def packetAt (eventId : String) (ms : ℤ) (sequenceNumber : ℤ) (eventOrdinal : ℕ) :
    RtpPacketObservationEvidence where
  event := packetEvent eventId ms sequenceNumber
  eventOrdinal := eventOrdinal
  direction := .received
  streamAlias := "leg-a"
  tRelMs := ms
  sequenceNumber := sequenceNumber
  rtpTimestamp := 160
  payloadType := 0
  clockRateHz := 8000
  marker := false

/-- The windows of the straddled run follow each other, and the second, with its drop, overlaps
the packets by 100 ms. Still the gap has high confidence and cites neither window. -/
theorem straddled_window_blamed :
    let reports := [healthOfSecond "health-1" 1000 0 1, healthOfSecond "health-2" 2000 1 3]
    let gap := discontinuity reports 0 (packetAt "packet-1" 900 1 0) (packetAt "packet-2" 1100 3 2)
      .sequenceGap
    rtpCaptureHealthReports straddledRun = .ok reports ∧
      rtpPacketDiscontinuityEvidence straddledRun = .ok [gap] ∧
      discontinuityFindings straddledRun =
        .ok [(.high, ["rtp-packet-discontinuity:0:observed"])] ∧
      Compromises reports gap (healthOfSecond "health-2" 2000 1 3) ∧ ¬ NotBlamed reports gap := by
  intro reports gap
  have hcompromises : Compromises reports gap (healthOfSecond "health-2" 2000 1 3) :=
    ⟨by simp [reports], by decide +kernel, by decide, by
      unfold RtpCaptureHealthEvidence.Overlaps
      decide +kernel⟩
  refine ⟨by decide +kernel, by decide +kernel, by decide +kernel, hcompromises, fun h => ?_⟩
  have hlow := (h _ hcompromises).1
  revert hlow
  decide +kernel

/-- Both packets inside the window with the drop. -/
def coveredRun : StoredRun :=
  eventRun [packetEvent "packet-1" 1200 1, packetEvent "packet-2" 1300 3, healthEvent "health-2" 2000 1]

theorem not_blamed_covered :
    discontinuityFindings coveredRun =
        .ok [(.low, ["rtp-packet-discontinuity:0:observed", "health-2"])] ∧
      ∃ timeline reports evidence, toTimeline coveredRun = .ok timeline ∧
        rtpCaptureHealthReports coveredRun = .ok reports ∧
        rtpPacketDiscontinuityEvidence coveredRun = .ok evidence ∧
        ∀ item ∈ evidence, discontinuityIncident item ∈ timeline.lanes.incidents ∧
          (NotBlamed reports item ↔ CoveredFirst reports item) := by
  refine ⟨by decide +kernel, ?_⟩
  have hok : (toTimeline coveredRun).isOk = true := by decide +kernel
  cases h : toTimeline coveredRun with
  | error e =>
      rw [h] at hok
      cases hok
  | ok timeline =>
      obtain ⟨reports, evidence, hreports, hevidence, hitems⟩ :=
        not_blamed_iff h
      exact ⟨timeline, reports, evidence, rfl, hreports, hevidence, hitems⟩

end VoxBench.ControlPlane
