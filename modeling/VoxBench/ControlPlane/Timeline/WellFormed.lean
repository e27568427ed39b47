import VoxBench.ControlPlane.Timeline.CaptureHealth

/-!
# Well-formed timelines

The lanes of a timeline are derived in separate passes, and an incident rebuilds the ids of
what it cites. Whatever the run holds, the ids it cites are those of shown events and
artifacts, and times are in order.

## Main definitions

* `TimelineLanes.WellFormed` — cited ids are shown, times are in order, lanes are sorted.

## Main results

* `shows_of_events` — what the events lane shows.
* `timeline_wellFormed` — every timeline is well formed.
-/

namespace VoxBench.ControlPlane

open VoxBench.Lib

/-- The id is that of an event or of an artifact. -/
def Cited (events : List TimelineTypedEvent) (artifacts : List TimelineTypedArtifact)
    (ref : String) : Prop :=
  ref ∈ events.map TimelineTypedEvent.eventId ∨
    ref ∈ artifacts.map TimelineTypedArtifact.artifactId

/-- The incident cites what is shown, and its times are in order. -/
structure TimelineIncident.WellFormed (events : List TimelineTypedEvent)
    (artifacts : List TimelineTypedArtifact) (incident : TimelineIncident) : Prop where
  cited : ∀ ref ∈ incident.evidenceRefs, Cited events artifacts ref
  start_nonneg : 0 ≤ incident.startMs
  start_le_end : incident.startMs ≤ incident.endMs

structure TimelineLanes.WellFormed (lanes : TimelineLanes) : Prop where
  incidents : ∀ incident ∈ lanes.incidents, incident.WellFormed lanes.events lanes.artifacts
  event_times : ∀ event ∈ lanes.events, 0 ≤ event.tRelMs
  interval_times : ∀ interval ∈ lanes.intervals,
    0 ≤ interval.startMs ∧ interval.startMs ≤ interval.endMs
  events_sorted : lanes.events.Pairwise fun a b => a.tRelMs ≤ b.tRelMs
  intervals_sorted : lanes.intervals.Pairwise fun a b => a.startMs ≤ b.startMs

/-! ## What the events lane shows -/

/-- The ids under which the evidence of a run is shown. -/
structure Shows (run : StoredRun) (ids : List String) : Prop where
  visible : ∀ event ∈ run.timelineEvents, event.name ≠ "rtp.packet_arrived" → event.eventId ∈ ids
  response_start : ∀ responses, providerResponseEvidence run = .ok responses →
    ∀ item ∈ responses, item.startEventId ∈ ids
  response_done : ∀ responses, providerResponseEvidence run = .ok responses →
    ∀ item ∈ responses, ∀ id ∈ item.doneEventId, id ∈ ids
  discontinuity : ∀ evidence, rtpPacketDiscontinuityEvidence run = .ok evidence →
    ∀ item ∈ evidence, item.eventId ∈ ids
  signal : ∀ signals, stageSignalEvidence run = .ok signals → ∀ item ∈ signals, item.eventId ∈ ids
  fullScale : ∀ found, stageFullScaleEvidence run = .ok found → ∀ item ∈ found, item.eventId ∈ ids
  silence : ∀ windows, stageSilenceWindows run = .ok windows →
    ∀ item ∈ windows, item.startEventId ∈ ids
  contraction : ∀ evidence, durationContractionEvidence run = .ok evidence →
    ∀ item ∈ evidence, item.eventId ∈ ids
  window : ∀ windows, rtpQualityWindows run = .ok windows →
    ∀ window ∈ windows, ∀ item ∈ window, ∀ ref ∈ item.evidenceRefs, ref ∈ ids
  failure : run.failureAlias.isSome → "run:failure" ∈ ids

section Events

variable {run : StoredRun} {events : List TimelineTypedEvent}

theorem mem_typedEvents_start (item : ProviderResponseEvidence) :
    item.startEventId ∈ item.typedEvents.map TimelineTypedEvent.eventId := by
  simp [ProviderResponseEvidence.typedEvents, ProviderResponseEvidence.startEvent]

theorem mem_typedEvents_done {item : ProviderResponseEvidence} {id : String}
    (h : id ∈ item.doneEventId) : id ∈ item.typedEvents.map TimelineTypedEvent.eventId := by
  rw [Option.mem_def] at h
  simp [ProviderResponseEvidence.typedEvents, h, ProviderResponseEvidence.doneEvent]

theorem mem_windowTypedEvents {windows : List (List RtpQualityEvidence)}
    {window : List RtpQualityEvidence} (hwindow : window ∈ windows) {item : RtpQualityEvidence}
    (hitem : item ∈ window) {ref : String} (href : ref ∈ item.evidenceRefs) :
    ref ∈ (windows.zipIdx.flatMap windowTypedEvents).map TimelineTypedEvent.eventId := by
  obtain ⟨trigger, htrigger, rfl⟩ := List.mem_map.mp href
  obtain ⟨index, hindex, rfl⟩ := List.getElem_of_mem hwindow
  refine List.mem_map.mpr ⟨item.typedEvent (rtpWindowAlias index windows[index]) trigger, ?_, rfl⟩
  refine List.mem_flatMap.mpr ⟨(windows[index], index), ?_, ?_⟩
  · exact List.mk_mem_zipIdx_iff_getElem?.mpr (List.getElem?_eq_getElem hindex)
  · exact List.mem_flatMap.mpr ⟨item, hitem, List.mem_map.mpr ⟨trigger, htrigger, rfl⟩⟩

theorem mem_failureTypedEvents {failure : List TimelineTypedEvent}
    (h : failureTypedEvents run = .ok failure) (hfailed : run.failureAlias.isSome) :
    "run:failure" ∈ failure.map TimelineTypedEvent.eventId := by
  unfold failureTypedEvents at h
  split at h
  · rename_i hnone
    simp [hnone] at hfailed
  · obtain ⟨tRelMs, -, h⟩ := bind_eq_ok.mp h
    cases h
    simp

theorem shows_of_events (h : typedTimelineEvents run = .ok events) :
    Shows run (events.map TimelineTypedEvent.eventId) := by
  simp only [typedTimelineEvents, bind_eq_ok, pure, Except.pure, Except.ok.injEq] at h
  obtain ⟨sip, -, persisted, hpersisted, responses, hresponses, metrics, -, discontinuities,
    hdiscontinuities, signals, hsignals, fullScales, hfullScales, silences, hsilences, contractions,
    hcontractions, windows, hwindows, failure, hfailure, rfl⟩ := h
  -- the sort keeps the ids of each part
  have hids : ∀ id, id ∈ (sortOn (fun event => toLex (event.tRelMs, event.eventId))
      (sip ++ persisted ++ metrics ++ responses.flatMap ProviderResponseEvidence.typedEvents ++
        discontinuities.map RtpPacketDiscontinuityEvidence.typedEvent ++
        signals.map StageSignalEvidence.typedEvent ++
        fullScales.map StageFullScaleEvidence.typedEvent ++
        silences.map StageSilenceWindow.typedEvent ++
        contractions.map DurationContractionEvidence.typedEvent ++
        windows.zipIdx.flatMap windowTypedEvents ++ failure)).map TimelineTypedEvent.eventId ↔ _ :=
    fun id => ((perm_sortOn _ _).map TimelineTypedEvent.eventId).mem_iff
  simp only [List.map_append, List.mem_append] at hids
  refine ⟨?_, ?_, ?_, ?_, ?_, ?_, ?_, ?_, ?_, ?_⟩ <;> simp only [hids]
  · intro event hevent hname
    obtain ⟨shown, hshown, heq⟩ := exists_mem_mapM hpersisted
      (List.mem_filter.mpr ⟨hevent, by simpa using hname⟩)
    obtain ⟨tRelMs, -, heq⟩ := bind_eq_ok.mp heq
    cases heq
    simp only [List.mem_map_of_mem (f := TimelineTypedEvent.eventId) hshown, true_or, or_true]
  · intro responses' hresponses' item hitem
    obtain rfl := Except.ok.inj (hresponses.symm.trans hresponses')
    have hmem : item.startEventId ∈
        (responses.flatMap ProviderResponseEvidence.typedEvents).map TimelineTypedEvent.eventId := by
      rw [List.map_flatMap]
      exact List.mem_flatMap.mpr ⟨item, hitem, mem_typedEvents_start item⟩
    simp only [hmem, true_or, or_true]
  · intro responses' hresponses' item hitem id hid
    obtain rfl := Except.ok.inj (hresponses.symm.trans hresponses')
    have hmem : id ∈
        (responses.flatMap ProviderResponseEvidence.typedEvents).map TimelineTypedEvent.eventId := by
      rw [List.map_flatMap]
      exact List.mem_flatMap.mpr ⟨item, hitem, mem_typedEvents_done hid⟩
    simp only [hmem, true_or, or_true]
  · intro found hfound item hitem
    obtain rfl := Except.ok.inj (hdiscontinuities.symm.trans hfound)
    have hmem : item.eventId ∈
        (discontinuities.map RtpPacketDiscontinuityEvidence.typedEvent).map TimelineTypedEvent.eventId :=
      List.mem_map_of_mem (f := TimelineTypedEvent.eventId) (List.mem_map_of_mem hitem)
    simp only [hmem, true_or, or_true]
  · intro found hfound item hitem
    obtain rfl := Except.ok.inj (hsignals.symm.trans hfound)
    have hmem : item.eventId ∈
        (signals.map StageSignalEvidence.typedEvent).map TimelineTypedEvent.eventId :=
      List.mem_map_of_mem (f := TimelineTypedEvent.eventId) (List.mem_map_of_mem hitem)
    simp only [hmem, true_or, or_true]
  · intro found hfound item hitem
    obtain rfl := Except.ok.inj (hfullScales.symm.trans hfound)
    have hmem : item.eventId ∈
        (fullScales.map StageFullScaleEvidence.typedEvent).map TimelineTypedEvent.eventId :=
      List.mem_map_of_mem (f := TimelineTypedEvent.eventId) (List.mem_map_of_mem hitem)
    simp only [hmem, true_or, or_true]
  · intro found hfound item hitem
    obtain rfl := Except.ok.inj (hsilences.symm.trans hfound)
    have hmem : item.startEventId ∈
        (silences.map StageSilenceWindow.typedEvent).map TimelineTypedEvent.eventId :=
      List.mem_map_of_mem (f := TimelineTypedEvent.eventId) (List.mem_map_of_mem hitem)
    simp only [hmem, true_or, or_true]
  · intro found hfound item hitem
    obtain rfl := Except.ok.inj (hcontractions.symm.trans hfound)
    have hmem : item.eventId ∈
        (contractions.map DurationContractionEvidence.typedEvent).map TimelineTypedEvent.eventId :=
      List.mem_map_of_mem (f := TimelineTypedEvent.eventId) (List.mem_map_of_mem hitem)
    simp only [hmem, true_or, or_true]
  · intro found hfound window hwindow item hitem ref href
    obtain rfl := Except.ok.inj (hwindows.symm.trans hfound)
    simp only [mem_windowTypedEvents hwindow hitem href, true_or, or_true]
  · intro hfailed
    simp only [mem_failureTypedEvents hfailure hfailed, or_true]

end Events

/-! ## Times -/

/-- No verification observed a negative output duration. -/
def MediaTimes (run : StoredRun) : Prop :=
  ∀ v ∈ run.verifications, ∀ output,
    plainNumber (v.observed.get? "output_duration_ms") = .ok (some output) → 0 ≤ output

section Times

variable {run : StoredRun}

theorem contractions_spec (hmedia : MediaTimes run) {contractions : List DurationContractionEvidence}
    (h : durationContractionEvidence run = .ok contractions) :
    ∀ item ∈ contractions, 0 ≤ item.outputDurationMs ∧ item.outputDurationMs ≤ item.inputDurationMs := by
  intro item hitem
  obtain ⟨v, hv, hfound⟩ := (mem_collect h).mp hitem
  obtain ⟨-, hle, houtput⟩ := durationContraction_spec hfound
  have hmem : v.1 ∈ run.verifications := by
    have := List.mem_map_of_mem (f := Prod.fst) hv
    rwa [List.zipIdx_map_fst] at this
  exact ⟨hmedia v.1 hmem _ houtput, hle⟩

theorem discontinuity_times {evidence : List RtpPacketDiscontinuityEvidence}
    (h : rtpPacketDiscontinuityEvidence run = .ok evidence) :
    ∀ item ∈ evidence, 0 ≤ item.previous.tRelMs ∧ item.previous.tRelMs ≤ item.current.tRelMs := by
  intro item hitem
  obtain ⟨packets, _, hpackets, -, hprevious, -, hle, -⟩ := mem_rtpPacketDiscontinuityEvidence h hitem
  obtain ⟨source, -, hsource⟩ := (mem_rtpPacketObservations hpackets).mp hprevious
  exact ⟨relativeMs_nonneg (packetObservation_spec hsource).2.2, hle⟩

theorem event_times (hmedia : MediaTimes run) {events : List TimelineTypedEvent}
    (h : typedTimelineEvents run = .ok events) : ∀ event ∈ events, 0 ≤ event.tRelMs := by
  simp only [typedTimelineEvents, bind_eq_ok, pure, Except.pure, Except.ok.injEq] at h
  obtain ⟨sip, hsip, persisted, hpersisted, responses, hresponses, metrics, hmetrics,
    discontinuities, hdiscontinuities, signals, hsignals, fullScales, hfullScales, silences,
    hsilences, contractions, hcontractions, windows, hwindows, failure, hfailure, rfl⟩ := h
  intro event hevent
  rw [mem_sortOn] at hevent
  simp only [List.mem_append, or_assoc, List.mem_map, List.mem_flatMap] at hevent
  rcases hevent with hevent | hevent | hevent | ⟨item, hitem, hevent⟩ | ⟨item, hitem, rfl⟩ |
    ⟨item, hitem, rfl⟩ | ⟨item, hitem, rfl⟩ | ⟨item, hitem, rfl⟩ | ⟨item, hitem, rfl⟩ |
    ⟨window, hwindow, hevent⟩ | hevent
  · obtain ⟨_, -, hitem⟩ := exists_of_mem_mapM hsip hevent
    obtain ⟨tRelMs, ht, hitem⟩ := bind_eq_ok.mp hitem
    cases hitem
    exact relativeMs_nonneg ht
  · obtain ⟨_, -, hitem⟩ := exists_of_mem_mapM hpersisted hevent
    obtain ⟨tRelMs, ht, hitem⟩ := bind_eq_ok.mp hitem
    cases hitem
    exact relativeMs_nonneg ht
  · obtain ⟨_, -, hitem⟩ := exists_of_mem_mapM hmetrics hevent
    obtain ⟨tRelMs, ht, hitem⟩ := bind_eq_ok.mp hitem
    cases hitem
    exact relativeMs_nonneg ht
  · have htimes := (responses_spec hresponses).1 item hitem
    rcases List.mem_cons.mp hevent with rfl | hevent
    · exact htimes.1
    · obtain ⟨id, -, rfl⟩ := Option.map_eq_some_iff.mp (Option.mem_toList.mp hevent)
      exact htimes.1.trans htimes.2
  · obtain ⟨hprevious, hle⟩ := discontinuity_times hdiscontinuities item hitem
    exact hprevious.trans hle
  · exact (stageSignals_spec hsignals item hitem).2
  · exact fullScales_times hfullScales item hitem
  · exact ((silenceWindows_spec hsilences).1 item hitem).1
  · exact (contractions_spec hmedia hcontractions item hitem).1
  · obtain ⟨item, hitem, hevent⟩ := List.mem_flatMap.mp hevent
    obtain ⟨trigger, -, rfl⟩ := List.mem_map.mp hevent
    exact ((windows_spec hwindows).1 window.1 (List.fst_mem_of_mem_zipIdx hwindow) item hitem).1
  · unfold failureTypedEvents at hfailure
    split at hfailure
    · cases hfailure
      cases hevent
    · obtain ⟨tRelMs, ht, hfailure⟩ := bind_eq_ok.mp hfailure
      cases hfailure
      obtain rfl := List.mem_singleton.mp hevent
      exact relativeMs_nonneg ht

theorem interval_times (hmedia : MediaTimes run) {intervals : List TimelineTypedInterval}
    (h : typedTimelineIntervals run = .ok intervals) :
    ∀ interval ∈ intervals, 0 ≤ interval.startMs ∧ interval.startMs ≤ interval.endMs := by
  simp only [typedTimelineIntervals, bind_eq_ok, pure, Except.pure, Except.ok.injEq] at h
  obtain ⟨spans, hspans, discontinuities, hdiscontinuities, responses, hresponses, speech, hspeech,
    playbacks, hplaybacks, waits, hwaits, underruns, -, gaps, hgaps, deadAirs, -, silences,
    hsilences, barges, hbarges, windows, hwindows, contractions, hcontractions, rfl⟩ := h
  intro interval hinterval
  rw [mem_sortOn] at hinterval
  simp only [List.mem_append, or_assoc, List.mem_map] at hinterval
  rcases hinterval with hinterval | ⟨item, hitem, rfl⟩ | ⟨item, hitem, rfl⟩ | ⟨item, hitem, rfl⟩ |
    ⟨item, hitem, rfl⟩ | ⟨item, hitem, rfl⟩ | ⟨item, hitem, rfl⟩ | ⟨item, hitem, rfl⟩ |
    ⟨item, hitem, rfl⟩ | ⟨window, hwindow, rfl⟩ | ⟨item, hitem, rfl⟩
  · obtain ⟨_, -, hitem⟩ := exists_of_mem_mapM hspans hinterval
    simp only [spanTypedInterval, bind_eq_ok, pure, Except.pure, Except.ok.injEq] at hitem
    obtain ⟨_, -, _, -, rfl⟩ := hitem
    exact ⟨le_max_left _ _, le_max_left _ _⟩
  · exact discontinuity_times hdiscontinuities item hitem
  · exact (responses_spec hresponses).1 item hitem
  · have hsound := (activities_spec hspeech).1 item hitem
    exact ⟨hsound.start_nonneg, hsound.start_le_end⟩
  · have hsound := (activities_spec hplaybacks).1 item hitem
    exact ⟨hsound.start_nonneg, hsound.start_le_end⟩
  · obtain ⟨responses', hresponses', hmap, htimes⟩ := waits_spec hwaits
    obtain ⟨hstart, hle⟩ := htimes item hitem
    have hresponse : item.providerResponse ∈ responses' := hmap ▸ List.mem_map_of_mem hitem
    have hnonneg := ((responses_spec hresponses').1 _ hresponse).1
    exact ⟨show 0 ≤ item.startMs from hstart ▸ hnonneg, hle⟩
  · obtain ⟨playbacks', hplaybacks', -, hall⟩ := gaps_spec hgaps
    obtain ⟨hprevious, -, hstart, hle⟩ := hall item hitem
    have hsound := (activities_spec hplaybacks').1 _ hprevious
    exact ⟨show 0 ≤ item.startMs from hstart ▸ hsound.start_nonneg.trans hsound.start_le_end, hle⟩
  · exact (silenceWindows_spec hsilences).1 item hitem
  · exact ((bargeIns_spec hbarges).1 item hitem).2
  · have hnonneg := windowStartMs_nonneg fun e he =>
      ((windows_spec hwindows).1 window.1 (List.fst_mem_of_mem_zipIdx hwindow) e he).1
    exact ⟨hnonneg, le_max_left _ _⟩
  · exact contractions_spec hmedia hcontractions item hitem

end Times

/-! ## Incidents -/

section Incidents

variable {run : StoredRun} {events : List TimelineTypedEvent}
  {artifacts : List TimelineTypedArtifact}

theorem cited_of_shown {ref : String} (h : ref ∈ events.map TimelineTypedEvent.eventId) :
    Cited events artifacts ref := Or.inl h

theorem cited_artifactOfStage {stage : Option String} {ref : String}
    (h : ref ∈ (artifactOfStage artifacts stage).toList) : Cited events artifacts ref := by
  rw [Option.mem_toList] at h
  obtain ⟨name, -, h⟩ := Option.bind_eq_some_iff.mp h
  obtain ⟨artifact, hfound, rfl⟩ := Option.map_eq_some_iff.mp h
  have hmem := List.mem_reverse.mp (List.mem_of_find?_eq_some hfound)
  exact Or.inr (List.mem_map_of_mem hmem)

variable (hshows : Shows run (events.map TimelineTypedEvent.eventId))
include hshows

theorem pcmIncident_wellFormed {event : TimelineEventArtifact} (hevent : event ∈ pcmEvents run)
    {incident : TimelineIncident} (h : pcmIncident run artifacts event = .ok incident) :
    incident.WellFormed events artifacts := by
  simp only [pcmIncident, bind_eq_ok, pure, Except.pure, Except.ok.injEq] at h
  obtain ⟨nearby, hnearby, _, -, _, -, wallTimeMs, hwall, rfl⟩ := h
  obtain ⟨hmem, hname⟩ := List.mem_filter.mp hevent
  simp only [decide_eq_true_eq] at hname
  refine ⟨fun ref href => ?_, relativeMs_nonneg hwall, le_refl _⟩
  simp only [List.mem_append, List.mem_cons, List.mem_map] at href
  rcases href with href | rfl | ⟨candidate, hcandidate, rfl⟩
  · exact cited_artifactOfStage href
  · exact cited_of_shown (hshows.visible event hmem (by simp [hname]))
  · obtain ⟨candidates, hcandidates, hnearby⟩ := bind_eq_ok.mp hnearby
    cases hnearby
    obtain ⟨pair, hpair, rfl⟩ := List.mem_map.mp hcandidate
    obtain ⟨source, hsource, hfound⟩ := (mem_collect hcandidates).mp ((mem_sortOn _).mp hpair)
    unfold nearbyCandidate at hfound
    split at hfound
    · rename_i hnames
      obtain ⟨delta, -, hfound⟩ := bind_eq_ok.mp hfound
      have hsame : pair.1 = source := by
        simp only [pure, Except.pure, Except.ok.injEq] at hfound
        split at hfound
        · rw [← Option.some.inj hfound]
        · cases hfound
      rw [hsame]
      refine cited_of_shown (hshows.visible source hsource fun hpacket => ?_)
      rw [hpacket] at hnames
      revert hnames
      decide
    · simp at hfound

theorem verificationIncident_wellFormed (hmedia : MediaTimes run) {durationMs : ℚ}
    (hduration : 0 ≤ durationMs) {contractions : List DurationContractionEvidence}
    (hcontractions : durationContractionEvidence run = .ok contractions)
    {signals : List StageSignalEvidence} (hsignals : stageSignalEvidence run = .ok signals)
    {item : (VerificationResult × ℕ) × ℕ} {incident : TimelineIncident}
    (h : verificationIncident run artifacts durationMs contractions signals item = .ok incident) :
    incident.WellFormed events artifacts := by
  simp only [verificationIncident, bind_eq_ok, pure, Except.pure, Except.ok.injEq] at h
  obtain ⟨_, -, rfl⟩ := h
  cases hfound : contractions.find? fun evidence => evidence.verificationIndex = item.1.2 with
  | none =>
      refine ⟨fun ref href => ?_, by simp, by simpa using hduration⟩
      simp only [List.mem_append] at href
      rcases href with (href | href) | href
      · exact cited_artifactOfStage href
      · exact cited_artifactOfStage href
      · split at href
        · obtain ⟨signal, hsignal, rfl⟩ := Option.map_eq_some_iff.mp (Option.mem_toList.mp href)
          have hmem := List.mem_reverse.mp (List.mem_of_find?_eq_some hsignal)
          exact cited_of_shown (hshows.signal signals hsignals signal hmem)
        · cases href
  | some contraction =>
      have hmem := List.mem_of_find?_eq_some hfound
      obtain ⟨hstart, hle⟩ := contractions_spec hmedia hcontractions contraction hmem
      refine ⟨fun ref href => ?_, by simpa using hstart, by simpa using hle⟩
      simp only [List.mem_append] at href
      rcases href with (href | href) | href
      · exact cited_artifactOfStage href
      · exact cited_artifactOfStage href
      · obtain rfl := List.mem_singleton.mp href
        exact cited_of_shown (hshows.contraction contractions hcontractions contraction hmem)

theorem fullScaleIncident_wellFormed {found : List StageFullScaleEvidence}
    (hfound : stageFullScaleEvidence run = .ok found) {item : StageFullScaleEvidence}
    (hitem : item ∈ found) : (fullScaleIncident artifacts item).WellFormed events artifacts := by
  refine ⟨fun ref href => ?_, fullScales_times hfound item hitem, le_refl _⟩
  simp only [fullScaleIncident, List.mem_append, List.mem_singleton] at href
  rcases href with (href | href) | rfl
  · exact cited_artifactOfStage href
  · exact cited_artifactOfStage href
  · exact cited_of_shown (hshows.fullScale found hfound item hitem)

theorem cited_activity {startName stopName : String} {item : CorrelatedActivityEvidence}
    (hitem : item.Sound run startName stopName) (hstart : startName ≠ "rtp.packet_arrived")
    (hstop : stopName ≠ "rtp.packet_arrived") :
    ∀ ref ∈ item.evidenceRefs, Cited events artifacts ref := by
  intro ref href
  rcases List.mem_cons.mp href with rfl | href
  · exact cited_of_shown (hshows.visible _ hitem.start_mem (hitem.start_name ▸ hstart))
  · obtain ⟨stop, hmem, rfl⟩ := Option.map_eq_some_iff.mp (Option.mem_toList.mp href)
    exact cited_of_shown (hshows.visible stop (hitem.stop_mem stop hmem)
      (hitem.stop_name stop hmem ▸ hstop))

theorem deadAirIncident_wellFormed {deadAirs : List AssistantOutputDeadAirEvidence}
    (h : assistantOutputDeadAirEvidence run = .ok deadAirs) {item : AssistantOutputDeadAirEvidence}
    (hitem : item ∈ deadAirs) : (deadAirIncident artifacts item).WellFormed events artifacts := by
  obtain ⟨windows, responses, playbacks, hwindows, hresponses, hplaybacks, hsilence, hresponse,
    hplayback, hdeadAir, hle⟩ := deadAirs_spec h item hitem
  have hstart : 0 ≤ item.startMs := by
    rw [hdeadAir]
    exact ((silenceWindows_spec hwindows).1 _ hsilence).1.trans
      ((le_max_left _ _).trans (le_max_left _ _))
  refine ⟨fun ref href => ?_, ?_, ?_⟩
  · simp only [evidenceRefs_deadAirIncident, List.mem_append, List.mem_cons, List.not_mem_nil,
      or_false] at href
    rcases href with ((href | rfl | rfl) | href) | href
    · exact cited_artifactOfStage href
    · exact cited_of_shown (hshows.silence windows hwindows _ hsilence)
    · exact cited_of_shown (hshows.response_start responses hresponses _ hresponse)
    · exact cited_of_shown
        (hshows.response_done responses hresponses _ hresponse ref (Option.mem_toList.mp href))
    · cases hassistant : item.assistantPlayback with
      | none => simp [hassistant] at href
      | some playback =>
          rw [hassistant] at href
          have hsound := (activities_spec hplaybacks).1 playback (hplayback playback hassistant)
          exact cited_activity hshows hsound (by decide) (by decide) ref href
  · exact hstart
  · exact hle

theorem underrunIncident_wellFormed {underruns : List AssistantPlaybackUnderrunEvidence}
    (h : assistantPlaybackUnderrunEvidence run = .ok underruns)
    {item : AssistantPlaybackUnderrunEvidence} (hitem : item ∈ underruns) :
    (underrunIncident item).WellFormed events artifacts := by
  obtain ⟨gaps, hgaps, hall⟩ := underruns_spec h
  obtain ⟨hgap, ⟨responses, hresponses, hresponse⟩, hstart, hle⟩ := hall item hitem
  obtain ⟨playbacks, hplaybacks, -, hgapall⟩ := gaps_spec hgaps
  obtain ⟨hprevious, hnext, -, -⟩ := hgapall item.gap hgap
  have hnonneg : 0 ≤ item.startMs := by
    rw [hstart]
    exact le_max_of_le_right ((responses_spec hresponses).1 _ hresponse).1
  refine ⟨fun ref href => ?_, ?_, ?_⟩
  · have hrefs : ∀ playback ∈ playbacks, ∀ ref ∈ playback.evidenceRefs, Cited events artifacts ref :=
      fun playback hmem => cited_activity hshows ((activities_spec hplaybacks).1 playback hmem)
        (by decide) (by decide)
    simp only [evidenceRefs_underrunIncident, AssistantPlaybackGapEvidence.evidenceRefs, List.mem_append,
      List.mem_singleton] at href
    rcases href with ((href | rfl) | rfl) | href
    · exact hrefs _ hprevious ref (List.mem_cons_of_mem _ href)
    · exact hrefs _ hnext _ List.mem_cons_self
    · exact cited_of_shown (hshows.response_start responses hresponses _ hresponse)
    · exact cited_of_shown
        (hshows.response_done responses hresponses _ hresponse ref (Option.mem_toList.mp href))
  · exact hnonneg
  · exact hle

theorem discontinuityIncident_wellFormed {evidence : List RtpPacketDiscontinuityEvidence}
    (h : rtpPacketDiscontinuityEvidence run = .ok evidence) {item : RtpPacketDiscontinuityEvidence}
    (hitem : item ∈ evidence) : (discontinuityIncident item).WellFormed events artifacts := by
  obtain ⟨hprevious, hle⟩ := discontinuity_times h item hitem
  refine ⟨fun ref href => ?_, hprevious, hle⟩
  rcases List.mem_cons.mp href with rfl | href
  · exact cited_of_shown (hshows.discontinuity evidence h item hitem)
  · obtain ⟨health, hhealth, rfl⟩ := Option.map_eq_some_iff.mp (Option.mem_toList.mp href)
    obtain ⟨_, reports, -, hreports, -, -, -, hlookup⟩ := mem_rtpPacketDiscontinuityEvidence h hitem
    have hmem := List.mem_of_find?_eq_some (hlookup.symm.trans hhealth)
    obtain ⟨source, hsource, hreport⟩ := (mem_rtpCaptureHealthReports hreports).mp hmem
    obtain ⟨hevent, -, hname⟩ := captureHealthReport_spec hreport
    rw [hevent]
    exact cited_of_shown (hshows.visible _ (List.fst_mem_of_mem_zipIdx hsource) (by simp [hname]))

theorem bargeInIncident_wellFormed {barges : List BargeIn} (h : bargeIns run = .ok barges)
    {item : BargeIn} (hitem : item ∈ barges) {incident : TimelineIncident}
    (hincident : bargeInIncident item = .ok incident) : incident.WellFormed events artifacts := by
  obtain ⟨hevents, hstart, hle⟩ := (bargeIns_spec h).1 item hitem
  simp only [bargeInIncident, bind_eq_ok, pure, Except.pure, Except.ok.injEq] at hincident
  obtain ⟨_, -, _, -, rfl⟩ := hincident
  refine ⟨fun ref href => ?_, hstart, hle⟩
  obtain ⟨event, hevent, rfl⟩ := List.mem_map.mp href
  obtain ⟨hmem, hname⟩ := hevents event hevent
  refine cited_of_shown (hshows.visible event hmem fun hpacket => ?_)
  rw [hpacket] at hname
  revert hname
  decide

theorem windowIncident_wellFormed {windows : List (List RtpQualityEvidence)}
    (h : rtpQualityWindows run = .ok windows) {window : List RtpQualityEvidence × ℕ}
    (hwindow : window ∈ windows.zipIdx) : (windowIncident window).WellFormed events artifacts := by
  have hmem := List.fst_mem_of_mem_zipIdx hwindow
  refine ⟨fun ref href => ?_, windowStartMs_nonneg fun e he => ((windows_spec h).1 _ hmem e he).1,
    le_max_left _ _⟩
  obtain ⟨item, hitem, href⟩ := List.mem_flatMap.mp href
  exact cited_of_shown (hshows.window windows h window.1 hmem item hitem ref href)

theorem incidents_wellFormed (hmedia : MediaTimes run) {incidents : List TimelineIncident}
    (h : typedTimelineIncidents run artifacts = .ok incidents) :
    ∀ incident ∈ incidents, incident.WellFormed events artifacts := by
  simp only [typedTimelineIncidents, bind_eq_ok, pure, Except.pure, Except.ok.injEq] at h
  obtain ⟨durationMs, hduration, contractions, hcontractions, signals, hsignals, pcm, hpcm,
    verifications, hverifications, fullScales, hfullScales, deadAirs, hdeadAirs, underruns,
    hunderruns, discontinuities, hdiscontinuities, barges, hbarges, bargeIncidents, hbargeIncidents,
    windows, hwindows, rfl⟩ := h
  have hnonneg := runTimelineDurationMs_nonneg hduration
  intro incident hincident
  simp only [List.mem_append, or_assoc, List.mem_map] at hincident
  rcases hincident with hincident | hincident | ⟨item, hitem, rfl⟩ | ⟨item, hitem, rfl⟩ |
    ⟨item, hitem, rfl⟩ | ⟨item, hitem, rfl⟩ | hincident | hincident | ⟨window, hwindow, rfl⟩
  · obtain ⟨event, hevent, hfound⟩ := exists_of_mem_mapM hpcm hincident
    exact pcmIncident_wellFormed hshows hevent hfound
  · obtain ⟨item, -, hfound⟩ := exists_of_mem_mapM hverifications hincident
    exact verificationIncident_wellFormed hshows hmedia hnonneg hcontractions hsignals hfound
  · exact fullScaleIncident_wellFormed hshows hfullScales hitem
  · exact deadAirIncident_wellFormed hshows hdeadAirs hitem
  · exact underrunIncident_wellFormed hshows hunderruns hitem
  · exact discontinuityIncident_wellFormed hshows hdiscontinuities hitem
  · obtain ⟨failureAlias, hfailed, rfl⟩ :=
      Option.map_eq_some_iff.mp (Option.mem_toList.mp hincident)
    refine ⟨fun ref href => ?_, hnonneg, le_refl _⟩
    obtain rfl := List.mem_singleton.mp href
    exact cited_of_shown (hshows.failure (by simp [hfailed]))
  · obtain ⟨item, hitem, hfound⟩ := exists_of_mem_mapM hbargeIncidents hincident
    exact bargeInIncident_wellFormed hshows hbarges hitem hfound
  · exact windowIncident_wellFormed hshows hwindows hwindow

end Incidents

/-! ## Timelines -/

section Timelines

variable {run : StoredRun}

theorem events_sorted {events : List TimelineTypedEvent} (h : typedTimelineEvents run = .ok events) :
    events.Pairwise fun a b => a.tRelMs ≤ b.tRelMs := by
  simp only [typedTimelineEvents, bind_eq_ok, pure, Except.pure, Except.ok.injEq] at h
  obtain ⟨_, -, _, -, _, -, _, -, _, -, _, -, _, -, _, -, _, -, _, -, _, -, rfl⟩ := h
  refine (pairwise_sortOn _ _).imp fun {a b} hab => ?_
  exact (Prod.Lex.toLex_le_toLex.mp hab).elim le_of_lt fun h => h.1.le

theorem intervals_sorted {intervals : List TimelineTypedInterval}
    (h : typedTimelineIntervals run = .ok intervals) :
    intervals.Pairwise fun a b => a.startMs ≤ b.startMs := by
  simp only [typedTimelineIntervals, bind_eq_ok, pure, Except.pure, Except.ok.injEq] at h
  obtain ⟨_, -, _, -, _, -, _, -, _, -, _, -, _, -, _, -, _, -, _, -, _, -, _, -, _, -, rfl⟩ := h
  refine (pairwise_sortOn _ _).imp fun {a b} hab => ?_
  exact (Prod.Lex.toLex_le_toLex.mp hab).elim le_of_lt fun h => h.1.le

theorem lanes_wellFormed (hmedia : MediaTimes run) {timeline : TimelineResponse}
    (h : toTimeline run = .ok timeline) : timeline.lanes.WellFormed := by
  obtain ⟨hevents, hintervals, -, hincidents⟩ := lanes_of_toTimeline h
  exact ⟨incidents_wellFormed (shows_of_events hevents) hmedia hincidents,
    event_times hmedia hevents, interval_times hmedia hintervals, events_sorted hevents,
    intervals_sorted hintervals⟩

theorem get?_compareCadence {stage : String} {metrics : String → Option ℚ}
    {intervalMs : Option ℚ} {tolerances : Verification.Tolerances} {v : VerificationResult}
    (h : Verification.compareCadence stage metrics intervalMs tolerances = some v) :
    v.observed.get? "output_duration_ms" = none := by
  unfold Verification.compareCadence at h
  split at h
  · split at h
    · cases h
    · rw [← Option.some.inj h]
      rfl
  · cases h

theorem get?_verifyLevel {math : Observability.FloatMath} {stage : String}
    {previous current : Verification.WavStats} {tolerance : ℚ} {v : VerificationResult}
    (h : Verification.verifyLevel math stage previous current tolerance = some v) :
    v.observed.get? "output_duration_ms" = none := by
  unfold Verification.verifyLevel at h
  split at h
  · split at h
    · cases h
    · rw [← Option.some.inj h]
      rfl
  · cases h

theorem get?_verifyDuration {stage : String} {previous current : Verification.WavStats}
    {tolerance : ℚ} {v : VerificationResult}
    (h : Verification.verifyDuration stage previous current tolerance = some v) :
    ∃ output, v.observed.get? "output_duration_ms" = some (.float output) ∧ 0 ≤ output := by
  unfold Verification.verifyDuration at h
  split at h
  · cases h
  · rename_i hpositive
    push Not at hpositive
    rw [← Option.some.inj h]
    exact ⟨current.durationMs, rfl, hpositive.2.le⟩

/-- The output durations that `verify_recordings` observes are positive. -/
theorem outputDuration_nonneg {files : Verification.WavFiles} {math : Observability.FloatMath}
    {tolerances : Verification.Tolerances} {resolvedConfig : Json}
    {recordings : List RecordingArtifact} {metrics : List MetricArtifact}
    {results : List VerificationResult}
    (h : Verification.verifyRecordings files math tolerances resolvedConfig recordings metrics =
      .ok results) :
    ∀ v ∈ results, ∀ output,
      plainNumber (v.observed.get? "output_duration_ms") = .ok (some output) → 0 ≤ output := by
  -- only the duration check observes one
  refine Verification.forall_mem_verifyStages ?_ ?_ h
  · intro stage cadence hcadence result hresult output houtput
    obtain ⟨-, rfl⟩ | ⟨-, intervalMs, -, rfl⟩ :=
      Verification.Evidence.isochronousResults_eq_ok_iff.mp hcadence
    · cases hresult
    · rw [Option.mem_toList] at hresult
      simp [get?_compareCadence hresult, plainNumber] at houtput
  · intro stage name previous current invariant result hresult output houtput
    unfold Verification.Evidence.signalResult at hresult
    dsimp only at hresult
    split at hresult
    · have hnone : result.observed.get? "output_duration_ms" = none := by
        rw [← Option.some.inj hresult]
        rfl
      simp [hnone, plainNumber] at houtput
    · split at hresult
      · obtain ⟨observed, hget, hnonneg⟩ := get?_verifyDuration hresult
        rw [hget] at houtput
        obtain rfl := Option.some.inj (Except.ok.inj houtput)
        exact hnonneg
      · simp [get?_verifyLevel hresult, plainNumber] at houtput

/-- Every verification is one that `verify_recordings` returned. -/
def StoredRun.Verified (run : StoredRun) : Prop :=
  ∀ v ∈ run.verifications, ∃ files math tolerances resolvedConfig recordings metrics results,
    Verification.verifyRecordings files math tolerances resolvedConfig recordings metrics =
      .ok results ∧ v ∈ results

theorem StoredRun.Verified.mediaTimes (h : run.Verified) : MediaTimes run := by
  intro v hv
  obtain ⟨_, _, _, _, _, _, results, hresults, hmem⟩ := h v hv
  exact outputDuration_nonneg hresults v hmem

/-- The timeline of a run is well formed, whatever was observed of the run. -/
theorem timeline_wellFormed (hverified : run.Verified) {timeline : TimelineResponse}
    (h : toTimeline run = .ok timeline) : timeline.lanes.WellFormed :=
  lanes_wellFormed hverified.mediaTimes h

/-- A config with two stages, the second of which has to keep the duration. -/
def contractedConfig : Json :=
  .obj [("spec", .obj [("media", .obj [("pipeline", .arr [.obj [("type", .str "source")],
    .obj [("type", .str "sink"),
      ("invariants_applicable", .arr [.str "duration_preserving"])]])])])]

/-- Silence of one second at the first stage and of half a second at the second. -/
def contractedFiles (uri : String) : Except Verification.ReadError Verification.WavFile :=
  .ok {
    nchannels := 1
    sampwidth := 2
    nframes := if uri = "source.wav" then 8000 else 4000
    framerate := 8000
    frames := [] }

def contractedRecordings : List RecordingArtifact :=
  [⟨"source", "source.wav", .null, 1000⟩, ⟨"sink", "sink.wav", .null, 500⟩]

def contractedVerifications : Except Verification.ReadError (List VerificationResult) :=
  Verification.verifyRecordings contractedFiles ⟨id, id⟩ {} contractedConfig contractedRecordings []

/-- A gap between two packets, and half of the media lost at a stage. -/
def contractedRun : StoredRun :=
  { eventRun [packetEvent "packet-1" 1200 1, packetEvent "packet-2" 1300 3,
      healthEvent "health-1" 2000 0] with
    resolvedConfig := contractedConfig
    recordings := contractedRecordings
    verifications := contractedVerifications.toOption.getD [] }

theorem contractedRun_wellFormed : ∃ timeline, toTimeline contractedRun = .ok timeline ∧
    timeline.lanes.incidents.map TimelineIncident.evidenceRefs =
      [["recording:0", "recording:1", "duration-contraction:0"],
        ["rtp-packet-discontinuity:0:observed", "health-1"]] ∧
    timeline.lanes.WellFormed := by
  have hverified : contractedRun.Verified := by
    intro v hv
    cases hresults : contractedVerifications with
    | error e =>
        rw [contractedRun, hresults] at hv
        cases hv
    | ok results =>
        rw [contractedRun, hresults] at hv
        exact ⟨_, _, _, _, _, _, results, hresults, hv⟩
  have hrefs : (toTimeline contractedRun).map (fun timeline =>
      timeline.lanes.incidents.map TimelineIncident.evidenceRefs) =
        .ok [["recording:0", "recording:1", "duration-contraction:0"],
          ["rtp-packet-discontinuity:0:observed", "health-1"]] := by
    decide +kernel
  cases htimeline : toTimeline contractedRun with
  | error e =>
      rw [htimeline] at hrefs
      cases hrefs
  | ok timeline =>
      rw [htimeline] at hrefs
      exact ⟨timeline, rfl, Except.ok.inj hrefs, timeline_wellFormed hverified htimeline⟩

end Timelines

end VoxBench.ControlPlane
