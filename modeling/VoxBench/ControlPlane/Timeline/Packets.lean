import VoxBench.ControlPlane.Timeline.CaptureHealth

/-!
# What packet evidence depends on

A finding about two packets rests on differences: of the arrival times, of the sequence
numbers modulo `2 ^ 16` and of the RTP timestamps modulo `2 ^ 32`. It therefore does not
depend on where the two counters of a stream start. Where the milliseconds that the times of a
stream are shown at are distinct, it does not depend on the order in which the events were
ingested either. Distinct times are shown apart in the first 35 years of a run; after some
three centuries two of them can be one float, and then the ingest order decides.

## Main definitions

* `SameMeasurements` — a change of packets and reports that no finding can see.
* `StoredRun.shiftCounters` — the counters of each stream start elsewhere.
* `DistinctTimes`, `ShownApart` — no two packets and no two reports of a stream have one time, or
  are shown at one time.

## Main results

* `discontinuitiesOf_map` — the findings about changed packets are the changed findings.
* `discontinuity_shiftCounters` — the findings where the counters start elsewhere.
* `discontinuity_perm` — the findings where the events come in another order.
* `not_discontinuity_perm` — two times that are one float.
-/

namespace VoxBench.ControlPlane

open VoxBench.Lib

/-! ## Changes that no finding can see -/

/-- The findings about the given packets. -/
def discontinuitiesOf (packets : List RtpPacketObservationEvidence)
    (reports : List RtpCaptureHealthEvidence) : List RtpPacketDiscontinuityEvidence :=
  sortOn (fun item => toLex (item.current.tRelMs,
    toLex (item.current.streamAlias, item.evidenceIndex)))
    ((discontinuousPairs packets).mapIdx fun index item =>
      discontinuity reports index item.1.1 item.1.2 item.2)

theorem discontinuityEvidence_eq_ok_iff {run : StoredRun}
    {evidence : List RtpPacketDiscontinuityEvidence} :
    rtpPacketDiscontinuityEvidence run = .ok evidence ↔
      ∃ packets reports, rtpPacketObservations run = .ok packets ∧
        rtpCaptureHealthReports run = .ok reports ∧ discontinuitiesOf packets reports = evidence := by
  constructor
  · intro h
    obtain ⟨packets, hpackets, h⟩ := bind_eq_ok.mp h
    obtain ⟨reports, hreports, h⟩ := bind_eq_ok.mp h
    cases h
    exact ⟨packets, reports, hpackets, hreports, rfl⟩
  · rintro ⟨packets, reports, hpackets, hreports, rfl⟩
    exact bind_eq_ok.mpr ⟨packets, hpackets, bind_eq_ok.mpr ⟨reports, hreports, rfl⟩⟩

/-- The stream of a packet: its alias, its direction and its clock domain. -/
def RtpPacketObservationEvidence.stream (packet : RtpPacketObservationEvidence) :
    String × RtpDirection × String :=
  (packet.streamAlias, packet.direction, packet.event.clockDomain)

/-- The media time between two packets, in ticks of the RTP clock. -/
def timestampDelta (previous current : RtpPacketObservationEvidence) : ℤ :=
  (current.rtpTimestamp - previous.rtpTimestamp) % 4294967296

/-- A change of packets and of reports that keeps every stream and every measurement. -/
structure SameMeasurements (f : RtpPacketObservationEvidence → RtpPacketObservationEvidence)
    (g : RtpCaptureHealthEvidence → RtpCaptureHealthEvidence) : Prop where
  stream : ∀ packet, (f packet).stream = packet.stream
  tRelMs : ∀ packet, (f packet).tRelMs = packet.tRelMs
  clockRateHz : ∀ packet, (f packet).clockRateHz = packet.clockRateHz
  sequence : ∀ previous current, previous.stream = current.stream →
    sequenceDelta (f previous) (f current) = sequenceDelta previous current
  timestamp : ∀ previous current, previous.stream = current.stream →
    timestampDelta (f previous) (f current) = timestampDelta previous current
  report : ∀ report packet, (g report).sameStream packet = report.sameStream packet
  window : ∀ report, (g report).startMs = report.startMs ∧ (g report).endMs = report.endMs

/-- A finding about changed packets, beside the changed report. -/
def RtpPacketDiscontinuityEvidence.change
    (f : RtpPacketObservationEvidence → RtpPacketObservationEvidence)
    (g : RtpCaptureHealthEvidence → RtpCaptureHealthEvidence)
    (e : RtpPacketDiscontinuityEvidence) : RtpPacketDiscontinuityEvidence :=
  { e with
    previous := f e.previous
    current := f e.current
    captureHealth := e.captureHealth.map g }

section Change

variable {f : RtpPacketObservationEvidence → RtpPacketObservationEvidence}
  {g : RtpCaptureHealthEvidence → RtpCaptureHealthEvidence}
  {previous current : RtpPacketObservationEvidence}

theorem SameMeasurements.arrivalGapMs (h : SameMeasurements f g) :
    arrivalGapMs (f previous) (f current) = arrivalGapMs previous current := by
  simp only [ControlPlane.arrivalGapMs, h.tRelMs]

theorem SameMeasurements.mediaAdvanceMs (h : SameMeasurements f g)
    (hstream : previous.stream = current.stream) :
    mediaAdvanceMs (f previous) (f current) = mediaAdvanceMs previous current := by
  have hdelta := h.timestamp previous current hstream
  unfold timestampDelta at hdelta
  simp only [ControlPlane.mediaAdvanceMs, h.clockRateHz, hdelta]

theorem SameMeasurements.excessArrivalDelayMs (h : SameMeasurements f g)
    (hstream : previous.stream = current.stream) :
    excessArrivalDelayMs (f previous) (f current) = excessArrivalDelayMs previous current := by
  simp only [ControlPlane.excessArrivalDelayMs, h.arrivalGapMs, h.mediaAdvanceMs hstream]

theorem SameMeasurements.discontinuityKind (h : SameMeasurements f g)
    (hstream : previous.stream = current.stream) :
    discontinuityKind (f previous) (f current) = discontinuityKind previous current := by
  simp only [ControlPlane.discontinuityKind, h.sequence previous current hstream, h.clockRateHz,
    h.excessArrivalDelayMs hstream]

theorem SameMeasurements.captureHealth (h : SameMeasurements f g)
    (reports : List RtpCaptureHealthEvidence) :
    rtpCaptureHealthForPacketPair (reports.map g) (f previous) (f current) =
      (rtpCaptureHealthForPacketPair reports previous current).map g := by
  have hsame : ∀ report : RtpCaptureHealthEvidence,
      report.sameStream (f current) = report.sameStream current := by
    intro report
    have hstream := h.stream current
    simp only [RtpPacketObservationEvidence.stream, Prod.mk.injEq] at hstream
    simp only [RtpCaptureHealthEvidence.sameStream, hstream]
  have hmatch : ∀ report, ((g report).sameStream (f current) ∧
      (g report).covers (f previous) (f current)) ↔
        (report.sameStream current ∧ report.covers previous current) := by
    intro report
    simp only [h.report, hsame, RtpCaptureHealthEvidence.covers, h.tRelMs, (h.window report).1,
      (h.window report).2]
  unfold rtpCaptureHealthForPacketPair
  rw [List.find?_map]
  congr 2
  funext report
  simp only [Function.comp_apply, hmatch]

theorem SameMeasurements.discontinuity (h : SameMeasurements f g)
    (reports : List RtpCaptureHealthEvidence) (index : ℕ) (kind : RtpDiscontinuityKind)
    (hstream : previous.stream = current.stream) :
    discontinuity (reports.map g) index (f previous) (f current) kind =
      (discontinuity reports index previous current kind).change f g := by
  simp only [ControlPlane.discontinuity, RtpPacketDiscontinuityEvidence.change,
    h.sequence previous current hstream, h.arrivalGapMs, h.mediaAdvanceMs hstream,
    h.excessArrivalDelayMs hstream, h.captureHealth]

theorem stream_eq_of_mem_discontinuousPairs {packets : List RtpPacketObservationEvidence}
    {pair : (RtpPacketObservationEvidence × RtpPacketObservationEvidence) × RtpDiscontinuityKind}
    (h : pair ∈ discontinuousPairs packets) : pair.1.1.stream = pair.1.2.stream := by
  obtain ⟨group, hgroup, h⟩ := List.mem_flatMap.mp h
  obtain ⟨⟨previous, current⟩, hpair, h⟩ := List.mem_filterMap.mp h
  obtain ⟨kind, -, rfl⟩ := Option.map_eq_some_iff.mp h
  have hmem := mem_of_mem_pairs hpair
  rw [mem_groupOn hgroup] at hmem
  simp only [List.mem_filter, decide_eq_true_eq] at hmem
  exact hmem.1.2.trans hmem.2.2.symm

theorem discontinuousPairs_map (h : SameMeasurements f g)
    (packets : List RtpPacketObservationEvidence) :
    discontinuousPairs (packets.map f) =
      (discontinuousPairs packets).map fun item => ((f item.1.1, f item.1.2), item.2) := by
  have hkey : (fun packet => ((f packet).streamAlias, (f packet).direction,
      (f packet).event.clockDomain)) =
        fun packet => (packet.streamAlias, packet.direction, packet.event.clockDomain) := by
    funext packet
    exact h.stream packet
  unfold discontinuousPairs
  rw [groupOn_map, hkey, List.flatMap_map, List.map_flatMap]
  refine List.flatMap_congr fun group hgroup => ?_
  rw [pairs_map, List.filterMap_map, List.map_filterMap]
  refine List.filterMap_congr fun pair hpair => ?_
  -- the packets of a group are of one stream
  have hmem := mem_of_mem_pairs hpair
  rw [mem_groupOn hgroup] at hmem
  simp only [List.mem_filter, decide_eq_true_eq] at hmem
  have hstream : pair.1.stream = pair.2.stream := hmem.1.2.trans hmem.2.2.symm
  simp only [Function.comp_apply, h.discontinuityKind hstream, Option.map_map]
  rfl

/-- The findings about changed packets are the changed findings. -/
theorem discontinuitiesOf_map (h : SameMeasurements f g)
    (packets : List RtpPacketObservationEvidence) (reports : List RtpCaptureHealthEvidence) :
    discontinuitiesOf (packets.map f) (reports.map g) =
      (discontinuitiesOf packets reports).map (RtpPacketDiscontinuityEvidence.change f g) := by
  have hfindings : (discontinuousPairs (packets.map f)).mapIdx (fun index item =>
      discontinuity (reports.map g) index item.1.1 item.1.2 item.2) =
        ((discontinuousPairs packets).mapIdx fun index item =>
          discontinuity reports index item.1.1 item.1.2 item.2).map
            (RtpPacketDiscontinuityEvidence.change f g) := by
    rw [discontinuousPairs_map h, List.mapIdx_eq_iff]
    intro i
    rw [List.getElem?_map, List.getElem?_map, List.getElem?_mapIdx]
    cases hitem : (discontinuousPairs packets)[i]? with
    | none => rfl
    | some item =>
        have hstream := stream_eq_of_mem_discontinuousPairs (List.mem_of_getElem? hitem)
        simp only [Option.map_some, h.discontinuity reports i item.2 hstream]
  have hkey : ∀ e : RtpPacketDiscontinuityEvidence,
      toLex ((e.change f g).current.tRelMs,
        toLex ((e.change f g).current.streamAlias, (e.change f g).evidenceIndex)) =
      toLex (e.current.tRelMs, toLex (e.current.streamAlias, e.evidenceIndex)) := by
    intro e
    have hstream := h.stream e.current
    simp only [RtpPacketObservationEvidence.stream, Prod.mk.injEq] at hstream
    simp only [RtpPacketDiscontinuityEvidence.change, h.tRelMs, hstream]
  unfold discontinuitiesOf
  rw [hfindings, sortOn_map]
  simp only [hkey]

end Change

/-! ## Where the counters start -/

/-- Where the sequence numbers and the RTP timestamps of each stream start. -/
abbrev CounterShift := String × RtpDirection × String → ℤ × ℤ

/-- The packet that an event shows, if it shows one. -/
def shownPacket (event : TimelineEventArtifact) : Option RtpPacketObservationEvidence :=
  packetOf event 0

/-- The event of a packet, with its counters shifted. -/
def shiftEvent (shift : CounterShift) (event : TimelineEventArtifact) : TimelineEventArtifact :=
  match shownPacket event with
  | none => event
  | some packet =>
      { event with
        attributes := Dict.set
          (Dict.set event.attributes "sequence_number"
            (.int ((packet.sequenceNumber + (shift packet.stream).1) % 65536)))
          "rtp_timestamp" (.int ((packet.rtpTimestamp + (shift packet.stream).2) % 4294967296)) }

/-- The run with the counters of each stream shifted. -/
def StoredRun.shiftCounters (run : StoredRun) (shift : CounterShift) : StoredRun :=
  { run with timelineEvents := run.timelineEvents.map (shiftEvent shift) }

def shiftPacket (shift : CounterShift) (packet : RtpPacketObservationEvidence) :
    RtpPacketObservationEvidence :=
  { packet with
    event := shiftEvent shift packet.event
    sequenceNumber := (packet.sequenceNumber + (shift packet.stream).1) % 65536
    rtpTimestamp := (packet.rtpTimestamp + (shift packet.stream).2) % 4294967296 }

/-- The finding about the two packets with their counters shifted; nothing else changes. -/
def shiftFinding (shift : CounterShift) (e : RtpPacketDiscontinuityEvidence) :
    RtpPacketDiscontinuityEvidence :=
  { e with
    previous := shiftPacket shift e.previous
    current := shiftPacket shift e.current }

section Shift

variable {shift : CounterShift} {event : TimelineEventArtifact} {eventOrdinal : ℕ}

theorem shiftEvent_of_none (h : shownPacket event = none) : shiftEvent shift event = event := by
  simp only [shiftEvent, h]

@[simp] theorem shiftEvent_name : (shiftEvent shift event).name = event.name := by
  unfold shiftEvent
  split <;> rfl

@[simp] theorem shiftEvent_ts : (shiftEvent shift event).ts = event.ts := by
  unfold shiftEvent
  split <;> rfl

@[simp] theorem shiftEvent_clockDomain :
    (shiftEvent shift event).clockDomain = event.clockDomain := by
  unfold shiftEvent
  split <;> rfl

theorem packetOf_ordinal (event : TimelineEventArtifact) (eventOrdinal : ℕ) :
    packetOf event eventOrdinal =
      (shownPacket event).map fun packet => { packet with eventOrdinal } := by
  simp only [shownPacket, packetOf, Option.bind_eq_bind, Option.map_bind, Function.comp_def,
    Option.pure_def, Option.map_some]

theorem boundedIntAttribute_congr {attributes attributes' : List (String × AttrValue)}
    {name : String} (h : Dict.get? attributes' name = Dict.get? attributes name)
    (minimum maximum : ℤ) : boundedIntAttribute attributes' name minimum maximum =
      boundedIntAttribute attributes name minimum maximum := by
  simp only [boundedIntAttribute, h]

theorem boundedIntAttribute_of_get? {attributes : List (String × AttrValue)} {name : String}
    {n minimum maximum : ℤ} (h : Dict.get? attributes name = some (.int n)) (hmin : minimum ≤ n)
    (hmax : n ≤ maximum) : boundedIntAttribute attributes name minimum maximum = some n := by
  simp only [boundedIntAttribute, h, hmin, hmax, and_self, if_true]

/-- A shifted event shows the shifted packet. -/
theorem shownPacket_shiftEvent :
    shownPacket (shiftEvent shift event) = (shownPacket event).map (shiftPacket shift) := by
  cases hpacket : shownPacket event with
  | none => rw [shiftEvent_of_none hpacket, hpacket, Option.map_none]
  | some packet =>
      have hshift : shiftEvent shift event = { event with
          attributes := Dict.set
            (Dict.set event.attributes "sequence_number"
              (.int ((packet.sequenceNumber + (shift packet.stream).1) % 65536)))
            "rtp_timestamp" (.int ((packet.rtpTimestamp + (shift packet.stream).2) % 4294967296)) } := by
        simp only [shiftEvent, hpacket]
      have hget : ∀ name, name ≠ "sequence_number" → name ≠ "rtp_timestamp" →
          Dict.get? (shiftEvent shift event).attributes name = Dict.get? event.attributes name := by
        intro name hsequence htimestamp
        rw [hshift, Dict.get?_set, Dict.get?_set, if_neg (Ne.symm htimestamp),
          if_neg (Ne.symm hsequence)]
      have hsequence : boundedIntAttribute (shiftEvent shift event).attributes "sequence_number" 0
          0xFFFF = some ((packet.sequenceNumber + (shift packet.stream).1) % 65536) := by
        refine boundedIntAttribute_of_get? ?_ (by omega) (by omega)
        rw [hshift, Dict.get?_set, Dict.get?_set]
        rfl
      have htimestamp : boundedIntAttribute (shiftEvent shift event).attributes "rtp_timestamp" 0
          0xFFFFFFFF = some ((packet.rtpTimestamp + (shift packet.stream).2) % 4294967296) := by
        refine boundedIntAttribute_of_get? ?_ (by omega) (by omega)
        rw [hshift, Dict.get?_set]
        rfl
      simp only [shownPacket, packetOf, Option.bind_eq_bind, Option.bind_eq_some_iff,
        Option.pure_def] at hpacket
      obtain ⟨_, hname, streamAlias, halias, direction, hdirection, sequenceNumber, -, rtpTimestamp,
        -, payloadType, hpayload, clockRateHz, hrate, marker, hmarker, h⟩ := hpacket
      obtain rfl := Option.some.inj h
      have hname' : guard ((shiftEvent shift event).name = "rtp.packet_arrived") = some () := by
        rw [shiftEvent_name]
        exact hname
      have halias' : (shiftEvent shift event).streamAlias = some streamAlias := by
        rw [hshift]
        exact halias
      have hdirection' : rtpDirection (shiftEvent shift event).direction = some direction := by
        rw [hshift]
        exact hdirection
      have hpayload' := (boundedIntAttribute_congr (hget "payload_type" (by decide) (by decide)) 0
        127).trans hpayload
      have hrate' := (boundedIntAttribute_congr (hget "clock_rate_hz" (by decide) (by decide)) 1
        384000).trans hrate
      have hmarker' : boolAttribute (shiftEvent shift event).attributes "marker" = some marker := by
        rw [boolAttribute, hget "marker" (by decide) (by decide)]
        exact hmarker
      simp only [shownPacket, packetOf, hname', halias', hdirection', hsequence, htimestamp, hpayload',
        hrate', hmarker', Option.bind_eq_bind, Option.bind_some, Option.pure_def, Option.map_some]
      rfl

theorem packetObservation_shiftCounters (run : StoredRun) (event : TimelineEventArtifact)
    (eventOrdinal : ℕ) :
    packetObservation (run.shiftCounters shift) (shiftEvent shift event, eventOrdinal) =
      (packetObservation run (event, eventOrdinal)).map (Option.map (shiftPacket shift)) := by
  simp only [packetObservation, packetOf_ordinal, shownPacket_shiftEvent, shiftEvent_ts]
  cases shownPacket event with
  | none => rfl
  | some packet =>
      have hrelative : relativeMs (run.shiftCounters shift) event.ts = relativeMs run event.ts := rfl
      simp only [Option.map_some, hrelative]
      cases relativeMs run event.ts <;> rfl

/-- No event is both a packet and a report. -/
theorem healthStream_of_shownPacket {packet : RtpPacketObservationEvidence}
    (h : shownPacket event = some packet) : healthStream event = none := by
  have hname := (packetOf_spec h).2.2
  simp [healthStream, guard, hname]

theorem captureHealthReport_shiftCounters (run : StoredRun) (event : TimelineEventArtifact)
    (eventOrdinal : ℕ) :
    captureHealthReport (run.shiftCounters shift) (shiftEvent shift event, eventOrdinal) =
      captureHealthReport run (event, eventOrdinal) := by
  cases hpacket : shownPacket event with
  | none => rw [shiftEvent_of_none hpacket]; rfl
  | some packet =>
      have hshown : shownPacket (shiftEvent shift event) = some (shiftPacket shift packet) := by
        rw [shownPacket_shiftEvent, hpacket, Option.map_some]
      simp only [captureHealthReport, healthStream_of_shownPacket hpacket,
        healthStream_of_shownPacket hshown]

theorem rtpPacketObservations_shiftCounters (run : StoredRun) :
    rtpPacketObservations (run.shiftCounters shift) =
      (rtpPacketObservations run).map (List.map (shiftPacket shift)) := by
  have hcollect : collect (packetObservation (run.shiftCounters shift))
      (run.shiftCounters shift).timelineEvents.zipIdx =
        (collect (packetObservation run) run.timelineEvents.zipIdx).map
          (List.map (shiftPacket shift)) := by
    rw [StoredRun.shiftCounters, List.zipIdx_map]
    exact collect_map _ _ fun item _ => packetObservation_shiftCounters run item.1 item.2
  unfold rtpPacketObservations
  rw [hcollect]
  cases collect (packetObservation run) run.timelineEvents.zipIdx with
  | error e => rfl
  | ok observations => exact congrArg Except.ok (sortOn_map _ (shiftPacket shift) observations)

theorem rtpCaptureHealthReports_shiftCounters (run : StoredRun) :
    rtpCaptureHealthReports (run.shiftCounters shift) = rtpCaptureHealthReports run := by
  have hcollect : collect (captureHealthReport (run.shiftCounters shift))
      (run.shiftCounters shift).timelineEvents.zipIdx =
        (collect (captureHealthReport run) run.timelineEvents.zipIdx).map (List.map id) := by
    rw [StoredRun.shiftCounters, List.zipIdx_map]
    refine collect_map _ _ fun item _ => ?_
    rw [Option.map_id_fun, Except.map_id]
    exact captureHealthReport_shiftCounters run item.1 item.2
  unfold rtpCaptureHealthReports
  rw [hcollect, List.map_id_fun, Except.map_id, id_eq]

theorem sameMeasurements_shiftPacket (shift : CounterShift) :
    SameMeasurements (shiftPacket shift) id where
  stream packet := by
    simp only [RtpPacketObservationEvidence.stream, shiftPacket, shiftEvent_clockDomain]
  tRelMs _ := rfl
  clockRateHz _ := rfl
  sequence previous current hstream := by
    simp only [sequenceDelta, shiftPacket, hstream]
    omega
  timestamp previous current hstream := by
    simp only [timestampDelta, shiftPacket, hstream]
    omega
  report _ _ := rfl
  window _ := ⟨rfl, rfl⟩

/-- Where the counters of each stream start makes no difference to the findings. -/
theorem discontinuity_shiftCounters (run : StoredRun) (shift : CounterShift) :
    rtpPacketDiscontinuityEvidence (run.shiftCounters shift) =
      (rtpPacketDiscontinuityEvidence run).map (List.map (shiftFinding shift)) := by
  have hchange : RtpPacketDiscontinuityEvidence.change (shiftPacket shift) id = shiftFinding shift := by
    funext e
    simp only [RtpPacketDiscontinuityEvidence.change, shiftFinding, Option.map_id]
    rfl
  have hmap := discontinuitiesOf_map (sameMeasurements_shiftPacket shift)
  simp only [List.map_id, hchange] at hmap
  unfold rtpPacketDiscontinuityEvidence
  rw [rtpPacketObservations_shiftCounters, rtpCaptureHealthReports_shiftCounters]
  cases rtpPacketObservations run with
  | error e => rfl
  | ok packets =>
      cases rtpCaptureHealthReports run with
      | error e => rfl
      | ok reports => exact congrArg Except.ok (hmap packets reports)

end Shift

/-! ## The order in which events are ingested -/

/-- The packet that the run reads from an event, wherever it stands. -/
def StoredRun.observedPacket (run : StoredRun) (event : TimelineEventArtifact) :
    Option RtpPacketObservationEvidence := (packetObservation run (event, 0)).toOption.join

/-- The capture-health report that the run reads from an event, wherever it stands. -/
def StoredRun.observedReport (run : StoredRun) (event : TimelineEventArtifact) :
    Option RtpCaptureHealthEvidence := (captureHealthReport run (event, 0)).toOption.join

/-- The alias, the direction and the time of a packet. -/
def RtpPacketObservationEvidence.arrival (packet : RtpPacketObservationEvidence) :
    String × RtpDirection × Instant :=
  (packet.streamAlias, packet.direction, packet.event.ts.instant)

/-- The alias, the direction and the time of a report. -/
def RtpCaptureHealthEvidence.arrival (report : RtpCaptureHealthEvidence) :
    String × RtpDirection × Instant :=
  (report.streamAlias, report.direction, report.event.ts.instant)

/-- In one alias and direction no two packets and no two reports have one time, and none comes
before the start of the run. -/
structure StoredRun.DistinctTimes (run : StoredRun) : Prop where
  packets : ((run.timelineEvents.filterMap run.observedPacket).map
    RtpPacketObservationEvidence.arrival).Nodup
  reports : ((run.timelineEvents.filterMap run.observedReport).map
    RtpCaptureHealthEvidence.arrival).Nodup
  packets_started : ∀ packet ∈ run.timelineEvents.filterMap run.observedPacket,
    run.startedAt.instant ≤ packet.event.ts.instant
  reports_started : ∀ report ∈ run.timelineEvents.filterMap run.observedReport,
    run.startedAt.instant ≤ report.event.ts.instant

/-- The key that orders the packets, up to ties. -/
def RtpPacketObservationEvidence.order (packet : RtpPacketObservationEvidence) :
    String ×ₗ String ×ₗ ℚ :=
  toLex (packet.streamAlias, toLex (packet.direction.text, packet.tRelMs))

/-- The key that orders the reports, up to ties. -/
def RtpCaptureHealthEvidence.order (report : RtpCaptureHealthEvidence) : String ×ₗ String ×ₗ ℚ :=
  toLex (report.streamAlias, toLex (report.direction.text, report.endMs))

/-- In one alias and direction no two packets and no two reports are shown at one time. -/
structure StoredRun.ShownApart (run : StoredRun) : Prop where
  packets : ((run.timelineEvents.filterMap run.observedPacket).map
    RtpPacketObservationEvidence.order).Nodup
  reports : ((run.timelineEvents.filterMap run.observedReport).map
    RtpCaptureHealthEvidence.order).Nodup

/-- The packet, whatever its place among the events. -/
def forgetOrdinal (packet : RtpPacketObservationEvidence) : RtpPacketObservationEvidence :=
  { packet with eventOrdinal := 0 }

/-- The report, whatever its place among the events. -/
def forgetReportOrdinal (report : RtpCaptureHealthEvidence) : RtpCaptureHealthEvidence :=
  { report with eventOrdinal := 0 }

/-- The finding, whatever the places of its packets and of its report among the events. -/
def forgetOrdinals (e : RtpPacketDiscontinuityEvidence) : RtpPacketDiscontinuityEvidence :=
  e.change forgetOrdinal forgetReportOrdinal

section Order

variable {run : StoredRun} {event : TimelineEventArtifact}

theorem direction_eq_of_text {d d' : RtpDirection} (h : d.text = d'.text) : d = d' := by
  cases d <;> cases d' <;> first | rfl | (exact absurd h (by decide))

theorem packetObservation_ordinal (eventOrdinal : ℕ) :
    packetObservation run (event, 0) =
      (packetObservation run (event, eventOrdinal)).map (Option.map forgetOrdinal) := by
  simp only [packetObservation, packetOf_ordinal event eventOrdinal]
  have hshown : packetOf event 0 = shownPacket event := rfl
  rw [hshown]
  cases hpacket : shownPacket event with
  | none => rfl
  | some packet =>
      have hordinal : packet.eventOrdinal = 0 := (packetOf_spec hpacket).2.1
      simp only [Option.map_some]
      cases relativeMs run event.ts with
      | error e => rfl
      | ok t => simp [bind, Except.bind, pure, Except.pure, Except.map, forgetOrdinal, hordinal]

theorem healthCounters_ordinal (eventOrdinal : ℕ) (direction : RtpDirection) (streamAlias : String) :
    healthCounters event 0 direction streamAlias =
      (healthCounters event eventOrdinal direction streamAlias).map forgetReportOrdinal := by
  simp only [healthCounters, Option.bind_eq_bind, Option.map_bind, Function.comp_def,
    Option.pure_def, Option.map_some, forgetReportOrdinal]

theorem captureHealthReport_ordinal (eventOrdinal : ℕ) :
    captureHealthReport run (event, 0) =
      (captureHealthReport run (event, eventOrdinal)).map (Option.map forgetReportOrdinal) := by
  unfold captureHealthReport
  cases healthStream event with
  | none => rfl
  | some stream =>
      simp only [healthCounters_ordinal eventOrdinal]
      cases numericAttribute event.attributes "window_duration_ms" with
      | error e => rfl
      | ok duration =>
          cases healthCounters event eventOrdinal stream.2 stream.1 with
          | none => rfl
          | some counters =>
              cases duration with
              | none => rfl
              | some duration =>
                  simp only [bind, Except.bind, Option.map_some]
                  split
                  · rfl
                  · cases relativeMs run event.ts <;> rfl

/-- The run with its events in another order. -/
def StoredRun.withEvents (run : StoredRun) (events : List TimelineEventArtifact) : StoredRun :=
  { run with timelineEvents := events }

section Reading

variable {α : Type} {f : TimelineEventArtifact × ℕ → Except TimelineError (Option α)} {forget : α → α}
  {events events' : List TimelineEventArtifact} {found : List α}

/-- What a loop over the events reads, whatever their places. -/
theorem collect_forget
    (hforget : ∀ event n, f (event, 0) = (f (event, n)).map (Option.map forget)) :
    collect (fun event => f (event, 0)) events = (collect f events.zipIdx).map (List.map forget) := by
  have hcollect : collect (fun event => f (event, 0)) (events.zipIdx.map Prod.fst) =
      (collect f events.zipIdx).map (List.map forget) :=
    collect_map Prod.fst forget fun item _ => hforget item.1 item.2
  rwa [List.zipIdx_map_fst] at hcollect

theorem filterMap_of_collect
    (hforget : ∀ event n, f (event, 0) = (f (event, n)).map (Option.map forget))
    (h : collect f events.zipIdx = .ok found) :
    found.map forget = events.filterMap fun event => (f (event, 0)).toOption.join := by
  refine eq_filterMap_of_collect (f := fun event => f (event, 0)) ?_
  rw [collect_forget hforget, h]
  rfl

theorem perm_of_collect
    (hforget : ∀ event n, f (event, 0) = (f (event, n)).map (Option.map forget))
    (hperm : events.Perm events') (h : collect f events.zipIdx = .ok found) :
    ∃ found', collect f events'.zipIdx = .ok found' ∧ (found.map forget).Perm (found'.map forget) := by
  have hfound : collect (fun event => f (event, 0)) events = .ok (found.map forget) := by
    rw [collect_forget hforget, h]
    rfl
  obtain ⟨ys, hys, hfoundys⟩ := perm_collect hperm hfound
  rw [collect_forget hforget] at hys
  cases hfound' : collect f events'.zipIdx with
  | error e =>
      rw [hfound'] at hys
      cases hys
  | ok found' =>
      rw [hfound'] at hys
      exact ⟨found', rfl, by rwa [← Except.ok.inj hys] at hfoundys⟩

/-- What a loop over the events reads and then sorts, in another order of the events: the same up
to the places, where the sort has no ties but for the places. -/
theorem sorted_perm_of_collect {κ κ' : Type} [LinearOrder κ] [LinearOrder κ'] {key : α → κ}
    {order : α → κ'} (hforget : ∀ event n, f (event, 0) = (f (event, n)).map (Option.map forget))
    (hperm : events.Perm events')
    (hkey : ∀ a b, key a ≤ key b → order (forget a) ≤ order (forget b))
    (hnodup : ((events.filterMap fun event => (f (event, 0)).toOption.join).map order).Nodup)
    {sorted : List α}
    (h : (do
      let found ← collect f events.zipIdx
      return sortOn key found) = .ok sorted) :
    ∃ sorted', (do
      let found ← collect f events'.zipIdx
      return sortOn key found) = .ok sorted' ∧ sorted'.map forget = sorted.map forget := by
  obtain ⟨found, hfound, hsorted⟩ := bind_eq_ok.mp h
  cases hsorted
  obtain ⟨found', hfound', hsame⟩ := perm_of_collect hforget hperm hfound
  refine ⟨_, bind_eq_ok.mpr ⟨found', hfound', rfl⟩, ?_⟩
  rw [← filterMap_of_collect hforget hfound] at hnodup
  exact (map_sortOn_eq_of_perm _ hkey hnodup hsame).symm

end Reading

/-- Items of distinct streams or distinct times have distinct places in the order of the times
that they are shown at. -/
theorem nodup_order {α : Type} {items : List α} {streamAlias : α → String}
    {direction : α → RtpDirection} {t : α → ℚ} {instant : α → Instant}
    (hnodup : (items.map fun a => (streamAlias a, direction a, instant a)).Nodup)
    (ht : ∀ a ∈ items, t a = run.offsetMs (instant a))
    (hstarted : ∀ a ∈ items, run.startedAt.instant ≤ instant a)
    (hnear : ∀ a ∈ items, instant a - run.startedAt.instant < 2 ^ 50) :
    (items.map fun a => toLex (streamAlias a, toLex ((direction a).text, t a))).Nodup := by
  refine List.pairwise_map.mpr ((List.pairwise_map.mp hnodup).imp_of_mem ?_)
  intro a b ha hb hne horder
  refine hne ?_
  simp only [EmbeddingLike.apply_eq_iff_eq, Prod.mk.injEq, ht a ha, ht b hb] at horder
  obtain ⟨halias, hdirection, htime⟩ := horder
  rw [halias, direction_eq_of_text hdirection,
    StoredRun.offsetMs_injOn (hstarted a ha) (hstarted b hb) (hnear a ha) (hnear b hb) htime]

theorem StoredRun.ShownApart.withEvents (h : run.ShownApart)
    {events : List TimelineEventArtifact} (hperm : run.timelineEvents.Perm events) :
    (run.withEvents events).ShownApart where
  packets := ((hperm.filterMap run.observedPacket).map _).nodup_iff.mp h.packets
  reports := ((hperm.filterMap run.observedReport).map _).nodup_iff.mp h.reports

theorem tRelMs_of_observedPacket {packet : RtpPacketObservationEvidence}
    (h : packet ∈ run.timelineEvents.filterMap run.observedPacket) :
    packet.tRelMs = run.offsetMs packet.event.ts.instant := by
  obtain ⟨event, -, hevent⟩ := List.mem_filterMap.mp h
  unfold StoredRun.observedPacket at hevent
  cases hread : packetObservation run (event, 0) with
  | error e => rw [hread] at hevent; cases hevent
  | ok result =>
      rw [hread] at hevent
      obtain rfl : result = some packet := hevent
      obtain ⟨hpacket, -, ht⟩ := packetObservation_spec hread
      rw [hpacket]
      exact (relativeMs_eq_ok_iff.mp ht).2.symm

/-- A finer order refines a coarser one. -/
theorem lex_le_of_lex_le {a a' b b' : String} {t t' : ℚ} {n n' : ℕ}
    (h : toLex (a, toLex (b, toLex (t, n))) ≤ toLex (a', toLex (b', toLex (t', n')))) :
    toLex (a, toLex (b, t)) ≤ toLex (a', toLex (b', t')) := by
  simp only [Prod.Lex.toLex_le_toLex] at h ⊢
  rcases h with ha | ⟨ha, hb | ⟨hb, ht | ⟨ht, -⟩⟩⟩
  · exact Or.inl ha
  · exact Or.inr ⟨ha, Or.inl hb⟩
  · exact Or.inr ⟨ha, Or.inr ⟨hb, ht.le⟩⟩
  · exact Or.inr ⟨ha, Or.inr ⟨hb, ht.le⟩⟩

theorem packet_order_le {packet packet' : RtpPacketObservationEvidence}
    (h : toLex (packet.streamAlias, toLex (packet.direction.text,
        toLex (packet.tRelMs, packet.eventOrdinal))) ≤
      toLex (packet'.streamAlias, toLex (packet'.direction.text,
        toLex (packet'.tRelMs, packet'.eventOrdinal)))) :
    (forgetOrdinal packet).order ≤ (forgetOrdinal packet').order :=
  lex_le_of_lex_le h

/-- The packets in another order of the events, up to their places. -/
theorem rtpPacketObservations_perm (h : run.ShownApart) {events : List TimelineEventArtifact}
    (hperm : run.timelineEvents.Perm events) {packets : List RtpPacketObservationEvidence}
    (hpackets : rtpPacketObservations run = .ok packets) :
    ∃ packets', rtpPacketObservations (run.withEvents events) = .ok packets' ∧
      packets'.map forgetOrdinal = packets.map forgetOrdinal :=
  sorted_perm_of_collect (fun _ n => packetObservation_ordinal n) hperm
    (fun _ _ => packet_order_le) h.packets hpackets

theorem endMs_of_observedReport {report : RtpCaptureHealthEvidence}
    (h : report ∈ run.timelineEvents.filterMap run.observedReport) :
    report.endMs = run.offsetMs report.event.ts.instant := by
  obtain ⟨event, -, hevent⟩ := List.mem_filterMap.mp h
  unfold StoredRun.observedReport at hevent
  cases hread : captureHealthReport run (event, 0) with
  | error e => rw [hread] at hevent; cases hevent
  | ok result =>
      rw [hread] at hevent
      obtain rfl : result = some report := hevent
      obtain ⟨hreport, -, -, ht⟩ := captureHealthReport_spec hread
      rw [hreport]
      exact (relativeMs_eq_ok_iff.mp ht).2.symm

theorem report_order_le {report report' : RtpCaptureHealthEvidence}
    (h : toLex (report.streamAlias, toLex (report.direction.text,
        toLex (report.endMs, report.eventOrdinal))) ≤
      toLex (report'.streamAlias, toLex (report'.direction.text,
        toLex (report'.endMs, report'.eventOrdinal)))) :
    (forgetReportOrdinal report).order ≤ (forgetReportOrdinal report').order :=
  lex_le_of_lex_le h

/-- The reports in another order of the events, up to their places. -/
theorem rtpCaptureHealthReports_perm (h : run.ShownApart) {events : List TimelineEventArtifact}
    (hperm : run.timelineEvents.Perm events) {reports : List RtpCaptureHealthEvidence}
    (hreports : rtpCaptureHealthReports run = .ok reports) :
    ∃ reports', rtpCaptureHealthReports (run.withEvents events) = .ok reports' ∧
      reports'.map forgetReportOrdinal = reports.map forgetReportOrdinal :=
  sorted_perm_of_collect (fun _ n => captureHealthReport_ordinal n) hperm
    (fun _ _ => report_order_le) h.reports hreports

/-- Distinct times are shown apart in the first 35 years of the run. -/
theorem StoredRun.DistinctTimes.shownApart (h : run.DistinctTimes)
    (hpackets : ∀ packet ∈ run.timelineEvents.filterMap run.observedPacket,
      packet.event.ts.instant - run.startedAt.instant < 2 ^ 50)
    (hreports : ∀ report ∈ run.timelineEvents.filterMap run.observedReport,
      report.event.ts.instant - run.startedAt.instant < 2 ^ 50) : run.ShownApart where
  packets := nodup_order h.packets (fun _ => tRelMs_of_observedPacket) h.packets_started hpackets
  reports := nodup_order h.reports (fun _ => endMs_of_observedReport) h.reports_started hreports

theorem sameMeasurements_forget : SameMeasurements forgetOrdinal forgetReportOrdinal where
  stream _ := rfl
  tRelMs _ := rfl
  clockRateHz _ := rfl
  sequence _ _ _ := rfl
  timestamp _ _ _ := rfl
  report _ _ := rfl
  window _ := ⟨rfl, rfl⟩

theorem discontinuity_withEvents (h : run.ShownApart) {events : List TimelineEventArtifact}
    (hperm : run.timelineEvents.Perm events) {evidence : List RtpPacketDiscontinuityEvidence}
    (hevidence : rtpPacketDiscontinuityEvidence run = .ok evidence) :
    ∃ evidence', rtpPacketDiscontinuityEvidence (run.withEvents events) = .ok evidence' ∧
      evidence'.map forgetOrdinals = evidence.map forgetOrdinals := by
  obtain ⟨packets, reports, hpackets, hreports, rfl⟩ := discontinuityEvidence_eq_ok_iff.mp hevidence
  obtain ⟨packets', hpackets', hsame⟩ := rtpPacketObservations_perm h hperm hpackets
  obtain ⟨reports', hreports', hsame'⟩ := rtpCaptureHealthReports_perm h hperm hreports
  refine ⟨_, discontinuityEvidence_eq_ok_iff.mpr ⟨packets', reports', hpackets', hreports', rfl⟩, ?_⟩
  calc (discontinuitiesOf packets' reports').map forgetOrdinals
      = discontinuitiesOf (packets'.map forgetOrdinal) (reports'.map forgetReportOrdinal) :=
        (discontinuitiesOf_map sameMeasurements_forget packets' reports').symm
    _ = discontinuitiesOf (packets.map forgetOrdinal) (reports.map forgetReportOrdinal) := by
        rw [hsame, hsame']
    _ = (discontinuitiesOf packets reports).map forgetOrdinals :=
        discontinuitiesOf_map sameMeasurements_forget packets reports

/-- Up to the places of the events, their order makes no difference to the findings. -/
theorem discontinuity_perm {events : List TimelineEventArtifact}
    (hperm : run.timelineEvents.Perm events) (h : run.ShownApart) :
    (rtpPacketDiscontinuityEvidence (run.withEvents events)).toOption.map
        (List.map forgetOrdinals) =
      (rtpPacketDiscontinuityEvidence run).toOption.map (List.map forgetOrdinals) := by
  cases hevidence : rtpPacketDiscontinuityEvidence run with
  | ok evidence =>
      obtain ⟨evidence', hevidence', hsame⟩ := discontinuity_withEvents h hperm hevidence
      rw [hevidence']
      exact congrArg some hsame
  | error e =>
      cases hevidence' : rtpPacketDiscontinuityEvidence (run.withEvents events) with
      | error e' => rfl
      | ok evidence' =>
          -- the events can be put back in order
          obtain ⟨back, hback, -⟩ := discontinuity_withEvents (h.withEvents hperm) hperm.symm hevidence'
          have hrun : (run.withEvents events).withEvents run.timelineEvents = run := rfl
          rw [hrun, hevidence] at hback
          cases hback

end Order

/-- The packets of one stream, a gap and its report, with distinct times. -/
def tappedRun : StoredRun :=
  eventRun [packetEvent "packet-1" 900 65535, packetEvent "packet-2" 920 0,
    packetEvent "packet-3" 960 2, healthEvent "health-1" 1000 0]

theorem discontinuity_perm_reverse :
    discontinuityFindings tappedRun =
        .ok [(.high, ["rtp-packet-discontinuity:0:observed", "health-1"])] ∧
      (rtpPacketDiscontinuityEvidence
          (tappedRun.withEvents tappedRun.timelineEvents.reverse)).toOption.map
        (List.map forgetOrdinals) =
      (rtpPacketDiscontinuityEvidence tappedRun).toOption.map (List.map forgetOrdinals) :=
  ⟨by decide +kernel, discontinuity_perm (List.reverse_perm _).symm
    ⟨by decide +kernel, by decide +kernel⟩⟩

/-- Two packets, a microsecond apart, some three centuries after the start of the run. -/
def centuriesRun : StoredRun :=
  eventRun [{ packetEvent "packet-1" 0 1 with ts := .utc 11802240000000001 },
    { packetEvent "packet-2" 0 3 with ts := .utc 11802240000000002 }]

/-- Distinct times are not enough: two of them can be one float, and then the gap between the
packets is reported in one order of the events and not in the other. -/
theorem not_discontinuity_perm :
    centuriesRun.DistinctTimes ∧
      ¬ ∀ (run : StoredRun) (events : List TimelineEventArtifact),
        run.timelineEvents.Perm events → run.DistinctTimes →
          (rtpPacketDiscontinuityEvidence (run.withEvents events)).toOption.map
              (List.map forgetOrdinals) =
            (rtpPacketDiscontinuityEvidence run).toOption.map (List.map forgetOrdinals) := by
  have hdistinct : centuriesRun.DistinctTimes :=
    ⟨by decide +kernel, by decide +kernel, by decide +kernel, by decide +kernel⟩
  refine ⟨hdistinct, fun hall => ?_⟩
  have hsame := hall centuriesRun _ (List.reverse_perm _).symm hdistinct
  have hlength := congrArg (Option.map List.length) hsame
  revert hlength
  decide +kernel

end VoxBench.ControlPlane
