import VoxBench.ControlPlane.Timeline.Times

/-!
# Evidence of the conversation

Provider responses come from pairs of metrics, caller speech and assistant playback from
events that share a correlation alias. From these follow the wait for the first output of a
response, the gaps between playback bursts, and the underruns.

## Main definitions

* `providerResponseEvidence` — the responses, by a scan with one open response.
* `callerSpeechEvidence`, `assistantPlaybackEvidence` — the correlated activities.
* `assistantOutputStartWaitEvidence`, `assistantPlaybackGapEvidence`,
  `assistantPlaybackUnderrunEvidence` — what follows from the two.
* `correlatedBargeInEvents` — the events of each barge-in.

## Main results

* `responses_spec` — responses have times in order and indices of their own.
* `activities_spec` — an activity starts and stops with visible events of the run.
-/

namespace VoxBench.ControlPlane

open VoxBench.Lib

/-! ## Provider responses -/

structure ProviderResponseEvidence where
  responseIndex : ℕ
  startObservationIndex : ℕ
  doneObservationIndex : Option ℕ
  startMs : ℚ
  endMs : ℚ
  completed : Bool
  deriving DecidableEq, Repr

namespace ProviderResponseEvidence

def correlationAlias (e : ProviderResponseEvidence) : String :=
  "provider-response:" ++ e.responseIndex.repr

def startEventId (e : ProviderResponseEvidence) : String := e.correlationAlias ++ ":start"

def doneEventId (e : ProviderResponseEvidence) : Option String :=
  if e.completed then some (e.correlationAlias ++ ":done") else none

end ProviderResponseEvidence

/-- `_PROVIDER_RESPONSE_METRICS`. -/
def providerResponseMetrics : List String := ["provider_response_done", "provider_response_started"]

structure ActiveResponse where
  responseIndex : ℕ
  startObservationIndex : ℕ
  startMs : ℚ
  deriving DecidableEq, Repr

/-- The response that ends at a time, with the observation that completed it. -/
def ActiveResponse.close (active : ActiveResponse) (done : Option ℕ) (tRelMs : ℚ) :
    ProviderResponseEvidence where
  responseIndex := active.responseIndex
  startObservationIndex := active.startObservationIndex
  doneObservationIndex := done
  startMs := active.startMs
  endMs := max active.startMs tRelMs
  completed := done.isSome

structure ResponseScan where
  responses : List ProviderResponseEvidence := []
  active : Option ActiveResponse := none
  nextResponseIndex : ℕ := 0

/-- One observation of the loop of `_provider_response_evidence`: the metric, its index among
the metrics and its time. -/
def ResponseScan.observe (scan : ResponseScan) (o : (MetricArtifact × ℕ) × ℚ) : ResponseScan :=
  if o.1.1.name = "provider_response_started" then
    { responses := scan.responses ++ (scan.active.map (·.close none o.2)).toList
      active := some ⟨scan.nextResponseIndex, o.1.2, o.2⟩
      nextResponseIndex := scan.nextResponseIndex + 1 }
  else
    match scan.active with
    | none => scan
    | some active =>
        { scan with
          responses := scan.responses ++ [active.close (some o.1.2) o.2]
          active := none }

/-- A response that is still open lasts to the end of the timeline. -/
def ResponseScan.finish (run : StoredRun) (scan : ResponseScan) :
    Except TimelineError (List ProviderResponseEvidence) :=
  match scan.active with
  | none => .ok scan.responses
  | some active => do
      let durationMs ← runTimelineDurationMs run
      return scan.responses ++ [active.close none durationMs]

/-- The metrics that start or complete a response, with their indices. -/
def responseObservations (run : StoredRun) : List (MetricArtifact × ℕ) :=
  run.metrics.zipIdx.filter fun o => o.1.name ∈ providerResponseMetrics ∧ 0 < o.1.value

/-- A value with the time that it is shown at. -/
def timed {α : Type} (run : StoredRun) (time : α → Datetime) (a : α) : Except TimelineError (α × ℚ) := do
  let tRelMs ← relativeMs run (time a)
  return (a, tRelMs)

/-- `_provider_response_evidence`. -/
def providerResponseEvidence (run : StoredRun) :
    Except TimelineError (List ProviderResponseEvidence) := do
  let observations ← sortedByTs (fun o => o.1.ts) Prod.snd (responseObservations run)
  let observed ← observations.mapM (timed run fun o => o.1.ts)
  let responses ← (observed.foldl ResponseScan.observe {}).finish run
  return sortOn (fun item => toLex (item.startMs, item.responseIndex)) responses

/-! ## Correlated activities -/

structure CorrelatedActivityEvidence where
  correlationAlias : String
  startEvent : TimelineEventArtifact
  stopEvent : Option TimelineEventArtifact
  startMs : ℚ
  endMs : ℚ
  deriving DecidableEq, Repr

namespace CorrelatedActivityEvidence

def completionObserved (e : CorrelatedActivityEvidence) : Bool :=
  e.stopEvent.any fun stop => Dict.get? stop.attributes "completion_observed" ≠ some (.bool false)

def evidenceRefs (e : CorrelatedActivityEvidence) : List String :=
  e.startEvent.eventId :: (e.stopEvent.map TimelineEventArtifact.eventId).toList

/-- An attribute of the event that stopped the activity. -/
def stopAttribute (e : CorrelatedActivityEvidence) (name : String) : Option AttrValue :=
  e.stopEvent.bind fun stop => Dict.get? stop.attributes name

end CorrelatedActivityEvidence

/-- The events of the given names with a correlation alias, grouped by it. -/
def correlatedEvents (run : StoredRun) (names : List String) :
    List (String × List TimelineEventArtifact) :=
  groupOn (fun event => event.correlationAlias.getD "")
    (run.timelineEvents.filter fun event => event.correlationAlias.isSome ∧ event.name ∈ names)

/-- The end of an activity: its stop, or the end of the timeline. -/
def activityEndMs (run : StoredRun) (timelineEndMs startMs : ℚ) :
    Option TimelineEventArtifact → Except TimelineError ℚ
  | some stop => do
      let stopMs ← relativeMs run stop.ts
      return max startMs stopMs
  | none => .ok (max startMs timelineEndMs)

/-- The activity of one group. The events are sorted, so that their times compare. -/
def activityOfGroup (run : StoredRun) (startName stopName : String) (timelineEndMs : ℚ)
    (group : String × List TimelineEventArtifact) :
    Except TimelineError (Option CorrelatedActivityEvidence) := do
  let ordered ← sortedByTs TimelineEventArtifact.ts TimelineEventArtifact.eventId group.2
  match ordered.find? fun event => event.name = startName with
  | none => return none
  | some startEvent =>
      let stopEvent := ordered.find? fun event =>
        event.name = stopName ∧ startEvent.ts.instant ≤ event.ts.instant
      let startMs ← relativeMs run startEvent.ts
      let endMs ← activityEndMs run timelineEndMs startMs stopEvent
      return some ⟨group.1, startEvent, stopEvent, startMs, endMs⟩

/-- `_correlated_activity_evidence`. -/
def correlatedActivityEvidence (run : StoredRun) (startName stopName : String) :
    Except TimelineError (List CorrelatedActivityEvidence) := do
  let timelineEndMs ← runTimelineDurationMs run
  let evidence ← collect (activityOfGroup run startName stopName timelineEndMs)
    (correlatedEvents run [startName, stopName])
  return sortOn (fun item => toLex (item.startMs, item.correlationAlias)) evidence

/-- `_caller_speech_evidence`. -/
def callerSpeechEvidence (run : StoredRun) : Except TimelineError (List CorrelatedActivityEvidence) :=
  correlatedActivityEvidence run "provider_input_speech_started" "provider_input_speech_stopped"

/-- `_assistant_playback_evidence`. -/
def assistantPlaybackEvidence (run : StoredRun) :
    Except TimelineError (List CorrelatedActivityEvidence) :=
  correlatedActivityEvidence run "assistant_playback_started" "assistant_playback_stopped"

/-! ## Responses and playback -/

structure AssistantOutputStartWaitEvidence where
  providerResponse : ProviderResponseEvidence
  assistantPlayback : Option CorrelatedActivityEvidence
  startMs : ℚ
  endMs : ℚ
  deriving DecidableEq, Repr

def AssistantOutputStartWaitEvidence.waitMs (e : AssistantOutputStartWaitEvidence) : ℚ :=
  nearest (e.endMs - e.startMs)

/-- The loop of `_assistant_output_start_wait_evidence`, with the aliases of the playback
bursts that responses have claimed. -/
def startWaits (playbacks : List CorrelatedActivityEvidence) (timelineEndMs : ℚ) :
    List String → List ProviderResponseEvidence → List AssistantOutputStartWaitEvidence
  | _, [] => []
  | claimed, response :: rest =>
      let associationEndMs := (rest.head?.map ProviderResponseEvidence.startMs).getD timelineEndMs
      let playback := playbacks.find? fun item =>
        item.correlationAlias ∉ claimed ∧ response.startMs ≤ item.startMs ∧
          item.startMs ≤ associationEndMs
      let endMs := match playback with
        | some item => item.startMs
        | none => min response.endMs associationEndMs
      { providerResponse := response
        assistantPlayback := playback
        startMs := response.startMs
        endMs := max response.startMs endMs } ::
        startWaits playbacks timelineEndMs
          ((playback.map CorrelatedActivityEvidence.correlationAlias).toList ++ claimed) rest

/-- `_assistant_output_start_wait_evidence`. -/
def assistantOutputStartWaitEvidence (run : StoredRun) :
    Except TimelineError (List AssistantOutputStartWaitEvidence) := do
  let responses ← providerResponseEvidence run
  let playbacks ← assistantPlaybackEvidence run
  let timelineEndMs ← runTimelineDurationMs run
  return startWaits playbacks timelineEndMs [] responses

structure AssistantPlaybackGapEvidence where
  gapIndex : ℕ
  previousPlayback : CorrelatedActivityEvidence
  nextPlayback : CorrelatedActivityEvidence
  startMs : ℚ
  endMs : ℚ
  deriving DecidableEq, Repr

namespace AssistantPlaybackGapEvidence

def gapMs (e : AssistantPlaybackGapEvidence) : ℚ := nearest (e.endMs - e.startMs)

def correlationAlias (e : AssistantPlaybackGapEvidence) : String :=
  "assistant-playback-gap:" ++ e.gapIndex.repr

def evidenceRefs (e : AssistantPlaybackGapEvidence) : List String :=
  (e.previousPlayback.stopEvent.map TimelineEventArtifact.eventId).toList ++
    [e.nextPlayback.startEvent.eventId]

end AssistantPlaybackGapEvidence

/-- The first of two bursts stopped for lack of media, before the second started. -/
def isMediaGap (bursts : CorrelatedActivityEvidence × CorrelatedActivityEvidence) : Bool :=
  bursts.1.stopAttribute "stop_reason" = some (.str "media_gap") ∧
    bursts.1.endMs < bursts.2.startMs

/-- `_assistant_playback_gap_evidence`. -/
def assistantPlaybackGapEvidence (run : StoredRun) :
    Except TimelineError (List AssistantPlaybackGapEvidence) := do
  let playbacks ← assistantPlaybackEvidence run
  return ((pairs playbacks).filter isMediaGap).mapIdx fun index bursts =>
    ⟨index, bursts.1, bursts.2, bursts.1.endMs, bursts.2.startMs⟩

structure AssistantPlaybackUnderrunEvidence where
  gap : AssistantPlaybackGapEvidence
  providerResponse : ProviderResponseEvidence
  startMs : ℚ
  endMs : ℚ
  deriving DecidableEq, Repr

def AssistantPlaybackUnderrunEvidence.overlapMs (e : AssistantPlaybackUnderrunEvidence) : ℚ :=
  nearest (e.endMs - e.startMs)

/-- `ASSISTANT_PLAYBACK_UNDERRUN_MIN_GAP_MS`. -/
def assistantPlaybackUnderrunMinGapMs : ℚ := 200

/-- `_assistant_playback_underrun_evidence`. -/
def assistantPlaybackUnderrunEvidence (run : StoredRun) :
    Except TimelineError (List AssistantPlaybackUnderrunEvidence) := do
  let gaps ← assistantPlaybackGapEvidence run
  -- the responses are computed once for each gap
  let evidence ← gaps.mapM fun gap => do
    let responses ← providerResponseEvidence run
    return (responses.map fun response =>
      (⟨gap, response, max gap.startMs response.startMs, min gap.endMs response.endMs⟩ :
        AssistantPlaybackUnderrunEvidence)).filter fun item =>
          assistantPlaybackUnderrunMinGapMs ≤ item.overlapMs
  return evidence.flatten

/-- The names of the events that belong to a barge-in. -/
def bargeInEventNames : List String :=
  ["provider_input_speech_started", "provider_interrupted", "provider_auto_interrupt_confirmed",
    "provider_interrupt_requested", "provider_truncate_requested",
    "provider_output_audio_chunk_received", "playback_frame_enqueued_before_barge_in",
    "playback_partial_frame_buffered_before_barge_in", "playback_queue_cleared",
    "barge_in_completed"]

/-- `_correlated_barge_in_events`. -/
def correlatedBargeInEvents (run : StoredRun) :
    Except TimelineError (List (String × List TimelineEventArtifact)) :=
  (correlatedEvents run bargeInEventNames).mapM fun group => do
    let events ← sortedByTs TimelineEventArtifact.ts TimelineEventArtifact.eventId group.2
    return (group.1, events)

/-! ## Responses -/

section Responses

variable {run : StoredRun} {scan : ResponseScan}

/-- What the scan keeps: times in order, and indices counted up from 0. -/
structure ResponseScan.Sound (scan : ResponseScan) : Prop where
  times : ∀ response ∈ scan.responses, 0 ≤ response.startMs ∧ response.startMs ≤ response.endMs
  active : ∀ active ∈ scan.active, 0 ≤ active.startMs
  indices : scan.responses.map ProviderResponseEvidence.responseIndex ++
    (scan.active.map ActiveResponse.responseIndex).toList = List.range scan.nextResponseIndex

theorem ActiveResponse.close_times {active : ActiveResponse} (h : 0 ≤ active.startMs)
    (done : Option ℕ) (t : ℚ) :
    0 ≤ (active.close done t).startMs ∧ (active.close done t).startMs ≤ (active.close done t).endMs :=
  ⟨h, le_max_left _ _⟩

theorem ResponseScan.Sound.observe (h : scan.Sound) {o : (MetricArtifact × ℕ) × ℚ} (ho : 0 ≤ o.2) :
    (scan.observe o).Sound := by
  have hindices := h.indices
  unfold ResponseScan.observe
  split
  · refine ⟨?_, ?_, ?_⟩
    · intro response hresponse
      rcases List.mem_append.mp hresponse with hresponse | hresponse
      · exact h.times response hresponse
      · obtain ⟨active, hactive, rfl⟩ := Option.map_eq_some_iff.mp (Option.mem_toList.mp hresponse)
        exact ActiveResponse.close_times (h.active active hactive) _ _
    · intro active hactive
      cases hactive
      exact ho
    · rw [List.range_succ, ← hindices]
      cases scan.active <;> simp [ActiveResponse.close]
  · split
    · exact h
    · rename_i active hactive
      refine ⟨?_, by simp, ?_⟩
      · intro response hresponse
        rcases List.mem_append.mp hresponse with hresponse | hresponse
        · exact h.times response hresponse
        · obtain rfl := List.mem_singleton.mp hresponse
          exact ActiveResponse.close_times (h.active active hactive) _ _
      · simpa [hactive, ActiveResponse.close] using hindices

theorem ResponseScan.Sound.foldl (h : scan.Sound) {observed : List ((MetricArtifact × ℕ) × ℚ)}
    (hobserved : ∀ o ∈ observed, 0 ≤ o.2) : (observed.foldl ResponseScan.observe scan).Sound := by
  induction observed generalizing scan with
  | nil => exact h
  | cons o observed ih =>
      exact ih (h.observe (hobserved o List.mem_cons_self))
        fun o ho => hobserved o (List.mem_cons_of_mem _ ho)

theorem ResponseScan.Sound.finish (h : scan.Sound) {responses : List ProviderResponseEvidence}
    (hfinish : scan.finish run = .ok responses) :
    (∀ response ∈ responses, 0 ≤ response.startMs ∧ response.startMs ≤ response.endMs) ∧
      responses.map ProviderResponseEvidence.responseIndex = List.range scan.nextResponseIndex := by
  have hindices := h.indices
  unfold ResponseScan.finish at hfinish
  split at hfinish
  · rename_i hactive
    cases hfinish
    exact ⟨h.times, by simpa [hactive] using hindices⟩
  · rename_i active hactive
    obtain ⟨duration, -, hfinish⟩ := bind_eq_ok.mp hfinish
    cases hfinish
    refine ⟨fun response hresponse => ?_, by simpa [hactive, ActiveResponse.close] using hindices⟩
    rcases List.mem_append.mp hresponse with hresponse | hresponse
    · exact h.times response hresponse
    · obtain rfl := List.mem_singleton.mp hresponse
      exact ActiveResponse.close_times (h.active active hactive) _ _

theorem timed_eq_ok_iff {α : Type} {time : α → Datetime} {a : α} {b : α × ℚ} :
    timed run time a = .ok b ↔ relativeMs run (time a) = .ok b.2 ∧ a = b.1 := by
  obtain ⟨b, t⟩ := b
  simp only [timed, bind_eq_ok, return_eq_ok]
  constructor
  · rintro ⟨_, h, rfl, rfl⟩
    exact ⟨h, rfl⟩
  · rintro ⟨h, rfl⟩
    exact ⟨t, h, rfl, rfl⟩

theorem responses_spec {responses : List ProviderResponseEvidence}
    (h : providerResponseEvidence run = .ok responses) :
    (∀ response ∈ responses, 0 ≤ response.startMs ∧ response.startMs ≤ response.endMs) ∧
      (responses.map ProviderResponseEvidence.responseIndex).Nodup := by
  obtain ⟨observations, -, h⟩ := bind_eq_ok.mp h
  obtain ⟨observed, hobserved, h⟩ := bind_eq_ok.mp h
  obtain ⟨found, hfound, h⟩ := bind_eq_ok.mp h
  cases h
  have htimes : ∀ o ∈ observed, 0 ≤ o.2 := by
    intro o ho
    obtain ⟨_, -, ht⟩ := exists_of_mem_mapM hobserved ho
    exact relativeMs_nonneg (timed_eq_ok_iff.mp ht).1
  have hsound : ResponseScan.Sound {} := ⟨by simp, by simp, rfl⟩
  obtain ⟨hordered, hindices⟩ := (hsound.foldl htimes).finish hfound
  refine ⟨fun response hresponse => hordered response ((mem_sortOn _).mp hresponse), ?_⟩
  rw [((perm_sortOn _ found).map _).nodup_iff, hindices]
  exact List.nodup_range

end Responses

/-! ## Activities -/

section Activities

variable {run : StoredRun} {startName stopName : String} {timelineEndMs : ℚ}

/-- The activity starts and stops with events of the run, at times in order. -/
structure CorrelatedActivityEvidence.Sound (run : StoredRun) (startName stopName : String)
    (e : CorrelatedActivityEvidence) : Prop where
  start_mem : e.startEvent ∈ run.timelineEvents
  start_name : e.startEvent.name = startName
  stop_mem : ∀ stop ∈ e.stopEvent, stop ∈ run.timelineEvents
  stop_name : ∀ stop ∈ e.stopEvent, stop.name = stopName
  start_nonneg : 0 ≤ e.startMs
  start_le_end : e.startMs ≤ e.endMs

theorem mem_of_correlatedEvents {names : List String} {group : String × List TimelineEventArtifact}
    (h : group ∈ correlatedEvents run names) {event : TimelineEventArtifact} (hevent : event ∈ group.2) :
    event ∈ run.timelineEvents ∧ event.name ∈ names := by
  rw [mem_groupOn h] at hevent
  simp only [List.mem_filter, decide_eq_true_eq] at hevent
  exact ⟨hevent.1.1, hevent.1.2.2⟩

theorem le_activityEndMs {startMs endMs : ℚ} {stop : Option TimelineEventArtifact}
    (h : activityEndMs run timelineEndMs startMs stop = .ok endMs) : startMs ≤ endMs := by
  cases stop with
  | none =>
      cases h
      exact le_max_left _ _
  | some stop =>
      obtain ⟨stopMs, -, h⟩ := bind_eq_ok.mp h
      cases h
      exact le_max_left _ _

theorem activityOfGroup_spec {names : List String} {group : String × List TimelineEventArtifact}
    {e : CorrelatedActivityEvidence} (hgroup : group ∈ correlatedEvents run names)
    (h : activityOfGroup run startName stopName timelineEndMs group = .ok (some e)) :
    e.Sound run startName stopName := by
  obtain ⟨ordered, hordered, h⟩ := bind_eq_ok.mp h
  have hmem : ∀ event ∈ ordered, event ∈ run.timelineEvents := fun event hevent =>
    (mem_of_correlatedEvents hgroup ((mem_sortedByTs hordered).mp hevent)).1
  split at h
  · simp [pure, Except.pure] at h
  · rename_i startEvent hstart
    obtain ⟨startMs, hstartMs, h⟩ := bind_eq_ok.mp h
    obtain ⟨endMs, hendMs, h⟩ := bind_eq_ok.mp h
    simp only [pure, Except.pure, Except.ok.injEq, Option.some.injEq] at h
    subst h
    refine ⟨hmem _ (List.mem_of_find?_eq_some hstart), by simpa using List.find?_some hstart,
      fun stop hstop => hmem _ (List.mem_of_find?_eq_some hstop), fun stop hstop => ?_,
      relativeMs_nonneg hstartMs, le_activityEndMs hendMs⟩
    have hprop := List.find?_some hstop
    simp only [decide_eq_true_eq] at hprop
    exact hprop.1

theorem correlationAlias_activityOfGroup {group : String × List TimelineEventArtifact}
    {e : CorrelatedActivityEvidence}
    (h : activityOfGroup run startName stopName timelineEndMs group = .ok (some e)) :
    e.correlationAlias = group.1 := by
  obtain ⟨ordered, -, h⟩ := bind_eq_ok.mp h
  split at h
  · simp [pure, Except.pure] at h
  · obtain ⟨startMs, -, h⟩ := bind_eq_ok.mp h
    obtain ⟨endMs, -, h⟩ := bind_eq_ok.mp h
    simp only [pure, Except.pure, Except.ok.injEq, Option.some.injEq] at h
    rw [← h]

theorem activities_spec {activities : List CorrelatedActivityEvidence}
    (h : correlatedActivityEvidence run startName stopName = .ok activities) :
    (∀ e ∈ activities, e.Sound run startName stopName) ∧
      (activities.map CorrelatedActivityEvidence.correlationAlias).Nodup := by
  obtain ⟨timelineEndMs, -, h⟩ := bind_eq_ok.mp h
  obtain ⟨evidence, hevidence, h⟩ := bind_eq_ok.mp h
  cases h
  constructor
  · intro e he
    obtain ⟨group, hgroup, hactivity⟩ := (mem_collect hevidence).mp ((mem_sortOn _).mp he)
    exact activityOfGroup_spec hgroup hactivity
  · rw [((perm_sortOn _ evidence).map _).nodup_iff]
    exact (nodup_keys_groupOn _ _).sublist
      (sublist_of_collect hevidence fun _ _ => correlationAlias_activityOfGroup)

end Activities

/-! ## Waits, gaps and underruns -/

section Output

variable {run : StoredRun}

theorem map_providerResponse_startWaits (playbacks : List CorrelatedActivityEvidence)
    (timelineEndMs : ℚ) (claimed : List String) (responses : List ProviderResponseEvidence) :
    (startWaits playbacks timelineEndMs claimed responses).map
      AssistantOutputStartWaitEvidence.providerResponse = responses := by
  induction responses generalizing claimed with
  | nil => rfl
  | cons response rest ih => rw [startWaits, List.map_cons, ih]

theorem startWaits_times {playbacks : List CorrelatedActivityEvidence} {timelineEndMs : ℚ}
    {claimed : List String} {responses : List ProviderResponseEvidence}
    {wait : AssistantOutputStartWaitEvidence}
    (h : wait ∈ startWaits playbacks timelineEndMs claimed responses) :
    wait.startMs = wait.providerResponse.startMs ∧ wait.startMs ≤ wait.endMs := by
  induction responses generalizing claimed with
  | nil => cases h
  | cons response rest ih =>
      rw [startWaits] at h
      rcases List.mem_cons.mp h with rfl | h
      · exact ⟨rfl, le_max_left _ _⟩
      · exact ih h

theorem waits_spec {waits : List AssistantOutputStartWaitEvidence}
    (h : assistantOutputStartWaitEvidence run = .ok waits) :
    ∃ responses, providerResponseEvidence run = .ok responses ∧
      waits.map AssistantOutputStartWaitEvidence.providerResponse = responses ∧
      ∀ wait ∈ waits, wait.startMs = wait.providerResponse.startMs ∧ wait.startMs ≤ wait.endMs := by
  obtain ⟨responses, hresponses, h⟩ := bind_eq_ok.mp h
  obtain ⟨playbacks, -, h⟩ := bind_eq_ok.mp h
  obtain ⟨timelineEndMs, -, h⟩ := bind_eq_ok.mp h
  cases h
  exact ⟨responses, hresponses, map_providerResponse_startWaits _ _ _ _, fun wait =>
    startWaits_times⟩

theorem gaps_spec {gaps : List AssistantPlaybackGapEvidence}
    (h : assistantPlaybackGapEvidence run = .ok gaps) :
    ∃ playbacks, assistantPlaybackEvidence run = .ok playbacks ∧
      gaps.map AssistantPlaybackGapEvidence.gapIndex = List.range gaps.length ∧
      ∀ gap ∈ gaps, gap.previousPlayback ∈ playbacks ∧ gap.nextPlayback ∈ playbacks ∧
        gap.startMs = gap.previousPlayback.endMs ∧ gap.startMs ≤ gap.endMs := by
  obtain ⟨playbacks, hplaybacks, h⟩ := bind_eq_ok.mp h
  cases h
  refine ⟨playbacks, hplaybacks, ?_, fun gap hgap => ?_⟩
  · exact List.ext_getElem (by simp) (by simp)
  · obtain ⟨index, hindex, rfl⟩ := List.mem_mapIdx.mp hgap
    have hpair := List.mem_filter.mp (List.getElem_mem hindex)
    obtain ⟨hprevious, hnext⟩ := mem_of_mem_pairs hpair.1
    have hlt := hpair.2
    simp only [isMediaGap, decide_eq_true_eq] at hlt
    exact ⟨hprevious, hnext, rfl, hlt.2.le⟩

theorem underruns_spec {underruns : List AssistantPlaybackUnderrunEvidence}
    (h : assistantPlaybackUnderrunEvidence run = .ok underruns) :
    ∃ gaps, assistantPlaybackGapEvidence run = .ok gaps ∧
      ∀ item ∈ underruns, item.gap ∈ gaps ∧
        (∃ responses, providerResponseEvidence run = .ok responses ∧
          item.providerResponse ∈ responses) ∧
        item.startMs = max item.gap.startMs item.providerResponse.startMs ∧
        item.startMs ≤ item.endMs := by
  obtain ⟨gaps, hgaps, h⟩ := bind_eq_ok.mp h
  obtain ⟨evidence, hevidence, h⟩ := bind_eq_ok.mp h
  cases h
  refine ⟨gaps, hgaps, fun item hitem => ?_⟩
  obtain ⟨items, hitems, hitem⟩ := List.mem_flatten.mp hitem
  obtain ⟨gap, hgap, hfound⟩ := exists_of_mem_mapM hevidence hitems
  obtain ⟨responses, hresponses, hfound⟩ := bind_eq_ok.mp hfound
  cases hfound
  obtain ⟨hitem, hoverlap⟩ := List.mem_filter.mp hitem
  obtain ⟨response, hresponse, rfl⟩ := List.mem_map.mp hitem
  refine ⟨hgap, ⟨responses, hresponses, hresponse⟩, rfl, ?_⟩
  have hmin : 0 < assistantPlaybackUnderrunMinGapMs := by norm_num [assistantPlaybackUnderrunMinGapMs]
  have hpos := hmin.trans_le (of_decide_eq_true hoverlap)
  exact (sub_pos.mp (pos_of_nearest_pos hpos)).le

end Output

end VoxBench.ControlPlane
