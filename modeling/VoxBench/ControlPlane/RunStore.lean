import VoxBench.ControlPlane.Models
import VoxBench.Lib.Table

/-!
# The run tables of the Postgres repository

`PostgresRunRepository` keeps one header row per run and seven child tables whose
rows carry the run and an ordinal. `_save_in_session` writes the header and then
deletes and re-inserts every child row of the run; `_restore` reads the header and
the children back in ordinal order. `find?_saveInSession_self` and
`find?_saveInSession_of_ne` reduce the pair to a map from run to run: a save
stores exactly the given run, read on the UTC clock, and touches no other.
-/

namespace VoxBench.ControlPlane

open VoxBench.Lib

/-- A row of the `runs` table. -/
structure RunRow where
  id : Uuid
  configHash : String
  callId : Option String
  conversationId : String
  provider : String
  engine : String
  status : RunStatus
  failureAlias : Option String
  resolvedConfig : Json
  environmentMetadata : RunEnvironmentMetadata
  readinessChecklist : List ReadinessChecklistItem
  startedAt : Datetime
  endedAt : Option Datetime

/-! ## The columns of the child tables -/

/-- The columns of `recordings`, but for the run and the ordinal of a row. -/
structure RecordingRow where
  stage : String
  uri : String
  format : Json
  durationMs : ℚ

/-- The columns of `spans`. -/
structure SpanRow where
  traceId : String
  spanId : String
  parentId : Option String
  name : String
  startNs : ℤ
  endNs : ℤ
  attrs : Json

/-- The columns of `metrics`. -/
structure MetricRow where
  stage : Option String
  name : String
  value : ℚ
  ts : Datetime

/-- The columns of `verifications`. -/
structure VerificationRow where
  stage : String
  invariant : String
  passed : Bool
  observed : Json
  expected : Json
  detail : String

/-- The columns of `sip_events`. -/
structure SipEventRow where
  callId : Option String
  method : String
  direction : SipDirection
  statusCode : Option ℤ
  summaryAlias : Option String
  ts : Datetime

/-- The columns of `rtp_stats`. -/
structure RtpStatRow where
  ts : Datetime
  jitterMs : Option ℚ
  lossPct : Option ℚ
  mos : Option ℚ
  direction : Option RtpDirection
  rttMs : Option ℚ

/-- The columns of `timeline_events`. -/
structure TimelineEventRow where
  eventId : String
  category : TimelineCategory
  name : String
  ts : Datetime
  clockDomain : String
  alignmentUncertaintyMs : Option ℚ
  direction : Option String
  stage : Option String
  streamAlias : Option String
  source : String
  correlationAlias : Option String
  attributes : List (String × AttrValue)

/-- The `runs` table and its seven child tables; the event ids of a run are unique. -/
structure RunStore where
  runs : Table RunRow RunRow.id
  recordings : List (ChildRow Uuid RecordingRow)
  spans : List (ChildRow Uuid SpanRow)
  metrics : List (ChildRow Uuid MetricRow)
  verifications : List (ChildRow Uuid VerificationRow)
  sipEvents : List (ChildRow Uuid SipEventRow)
  rtpStats : List (ChildRow Uuid RtpStatRow)
  timelineEvents : List (ChildRow Uuid TimelineEventRow)
  events_unique : ∀ k, ((children k timelineEvents).map TimelineEventRow.eventId).Nodup

namespace RunStore

/-- Tables without rows. -/
def empty : RunStore := ⟨∅, [], [], [], [], [], [], [], by simp [children]⟩

/-- The column values `_save_in_session` writes to the header. -/
def headerRow (run : StoredRun) (runUuid : Uuid) : RunRow where
  id := runUuid
  configHash := run.configHash
  callId := run.callId
  conversationId := run.conversationId
  provider := run.provider
  engine := run.engine
  status := run.status
  failureAlias := run.failureAlias
  resolvedConfig := run.resolvedConfig
  environmentMetadata := run.environment
  readinessChecklist := run.readinessChecklist
  startedAt := run.startedAt
  endedAt := run.endedAt

/-! The column values `_save_in_session` writes for each artifact. -/

def recordingRow (item : RecordingArtifact) : RecordingRow where
  stage := item.stage
  uri := item.uri
  format := item.format
  durationMs := item.durationMs

def spanRow (item : SpanArtifact) : SpanRow where
  traceId := item.traceId
  spanId := item.spanId
  parentId := item.parentId
  name := item.name
  startNs := item.startNs
  endNs := item.endNs
  attrs := item.attrs

def metricRow (item : MetricArtifact) : MetricRow where
  stage := item.stage
  name := item.name
  value := item.value
  ts := item.ts

def verificationRow (item : VerificationResult) : VerificationRow where
  stage := item.stage
  invariant := item.invariant
  passed := item.passed
  observed := item.observed
  expected := item.expected
  detail := item.detail

def sipEventRow (item : SipEventResponse) : SipEventRow where
  callId := item.callId
  method := item.method
  direction := item.direction
  statusCode := item.statusCode
  summaryAlias := item.summaryAlias
  ts := item.ts

def rtpStatRow (item : RtpStatResponse) : RtpStatRow where
  ts := item.ts
  jitterMs := item.jitterMs
  lossPct := item.lossPct
  mos := item.mos
  direction := item.direction
  rttMs := item.rttMs

def timelineEventRow (item : TimelineEventArtifact) : TimelineEventRow where
  eventId := item.eventId
  category := item.category
  name := item.name
  ts := item.ts
  clockDomain := item.clockDomain
  alignmentUncertaintyMs := item.alignmentUncertaintyMs
  direction := item.direction
  stage := item.stage
  streamAlias := item.streamAlias
  source := item.source
  correlationAlias := item.correlationAlias
  attributes := item.attributes

/-! The artifacts `_restore` reads back from the columns, on the UTC clock. -/

def restoreRecording (item : RecordingRow) : RecordingArtifact where
  stage := item.stage
  uri := item.uri
  format := item.format
  durationMs := item.durationMs

def restoreSpan (item : SpanRow) : SpanArtifact where
  traceId := item.traceId
  spanId := item.spanId
  parentId := item.parentId
  name := item.name
  startNs := item.startNs
  endNs := item.endNs
  attrs := item.attrs

def restoreMetric (item : MetricRow) : MetricArtifact where
  stage := item.stage
  name := item.name
  value := item.value
  ts := item.ts.asUtc

def restoreVerification (item : VerificationRow) : VerificationResult where
  stage := item.stage
  invariant := item.invariant
  passed := item.passed
  observed := item.observed
  expected := item.expected
  detail := item.detail

def restoreSipEvent (item : SipEventRow) : SipEventResponse where
  callId := item.callId
  method := item.method
  direction := item.direction
  statusCode := item.statusCode
  summaryAlias := item.summaryAlias
  ts := item.ts.asUtc

def restoreRtpStat (item : RtpStatRow) : RtpStatResponse where
  ts := item.ts.asUtc
  jitterMs := item.jitterMs
  lossPct := item.lossPct
  mos := item.mos
  direction := item.direction
  rttMs := item.rttMs

def restoreTimelineEvent (item : TimelineEventRow) : TimelineEventArtifact where
  eventId := item.eventId
  category := item.category
  name := item.name
  ts := item.ts.asUtc
  clockDomain := item.clockDomain
  alignmentUncertaintyMs := item.alignmentUncertaintyMs
  direction := item.direction
  stage := item.stage
  streamAlias := item.streamAlias
  source := item.source
  correlationAlias := item.correlationAlias
  attributes := item.attributes

/-! No column is lost, and none lands in another: reading a written row gives the artifact,
with its timestamp on the UTC clock. -/

@[simp] theorem restoreRecording_recordingRow (item : RecordingArtifact) :
    restoreRecording (recordingRow item) = item := rfl
@[simp] theorem restoreSpan_spanRow (item : SpanArtifact) :
    restoreSpan (spanRow item) = item := rfl
@[simp] theorem restoreMetric_metricRow (item : MetricArtifact) :
    restoreMetric (metricRow item) = item.asUtc := rfl
@[simp] theorem restoreVerification_verificationRow (item : VerificationResult) :
    restoreVerification (verificationRow item) = item := rfl
@[simp] theorem restoreSipEvent_sipEventRow (item : SipEventResponse) :
    restoreSipEvent (sipEventRow item) = item.asUtc := rfl
@[simp] theorem restoreRtpStat_rtpStatRow (item : RtpStatResponse) :
    restoreRtpStat (rtpStatRow item) = item.asUtc := rfl
@[simp] theorem restoreTimelineEvent_timelineEventRow (item : TimelineEventArtifact) :
    restoreTimelineEvent (timelineEventRow item) = item.asUtc := rfl

@[simp] theorem asUtc_restoreMetric (item : MetricRow) :
    (restoreMetric item).asUtc = restoreMetric item := by
  simp [MetricArtifact.asUtc, restoreMetric]
@[simp] theorem asUtc_restoreSipEvent (item : SipEventRow) :
    (restoreSipEvent item).asUtc = restoreSipEvent item := by
  simp [SipEventResponse.asUtc, restoreSipEvent]
@[simp] theorem asUtc_restoreRtpStat (item : RtpStatRow) :
    (restoreRtpStat item).asUtc = restoreRtpStat item := by
  simp [RtpStatResponse.asUtc, restoreRtpStat]
@[simp] theorem asUtc_restoreTimelineEvent (item : TimelineEventRow) :
    (restoreTimelineEvent item).asUtc = restoreTimelineEvent item := by
  simp [TimelineEventArtifact.asUtc, restoreTimelineEvent]

theorem map_eventId_timelineEventRow (events : List TimelineEventArtifact) :
    (events.map timelineEventRow).map TimelineEventRow.eventId =
      events.map TimelineEventArtifact.eventId := by
  rw [List.map_map]
  rfl

theorem map_eventId_restoreTimelineEvent (rows : List TimelineEventRow) :
    (rows.map restoreTimelineEvent).map TimelineEventArtifact.eventId =
      rows.map TimelineEventRow.eventId := by
  rw [List.map_map]
  rfl

/-- Insert the header of a new run, or overwrite every column of a stored one. -/
def putHeader (runs : Table RunRow RunRow.id) (row : RunRow) : Table RunRow RunRow.id :=
  if h : row.id ∈ runs.rows.map RunRow.id then
    runs.update (fun r => if r.id = row.id then row else r)
      (by intro r; split <;> simp_all)
  else runs.insert row h

/-- `_save_in_session`. The unique constraint on `(run_id, event_id)` makes a run
with a repeated event id fail, and the transaction roll back. -/
def saveInSession (store : RunStore) (run : StoredRun) (runUuid : Uuid) :
    Except PyError RunStore :=
  if h : (run.timelineEvents.map TimelineEventArtifact.eventId).Nodup then
    .ok
      { runs := putHeader store.runs (headerRow run runUuid)
        recordings :=
          replaceChildren runUuid (run.recordings.map recordingRow) store.recordings
        spans := replaceChildren runUuid (run.spans.map spanRow) store.spans
        metrics := replaceChildren runUuid (run.metrics.map metricRow) store.metrics
        verifications :=
          replaceChildren runUuid (run.verifications.map verificationRow) store.verifications
        sipEvents := replaceChildren runUuid (run.sipEvents.map sipEventRow) store.sipEvents
        rtpStats := replaceChildren runUuid (run.rtpStats.map rtpStatRow) store.rtpStats
        timelineEvents :=
          replaceChildren runUuid (run.timelineEvents.map timelineEventRow) store.timelineEvents
        events_unique := by
          intro k
          by_cases hk : k = runUuid
          · rw [hk, children_replaceChildren_self, map_eventId_timelineEventRow]
            exact h
          · rw [children_replaceChildren_of_ne hk]
            exact store.events_unique k }
  else .error .runRepositoryError

/-- `_restore`: the run of a header row, its children in ordinal order and every
timestamp on the UTC clock. -/
def restore (store : RunStore) (row : RunRow) : StoredRun where
  runId := row.id.str
  configHash := row.configHash
  callId := row.callId
  conversationId := row.conversationId
  provider := row.provider
  engine := row.engine
  status := row.status
  failureAlias := row.failureAlias
  startedAt := row.startedAt.asUtc
  endedAt := row.endedAt.map Datetime.asUtc
  resolvedConfig := row.resolvedConfig
  recordings := (children row.id store.recordings).map restoreRecording
  spans := (children row.id store.spans).map restoreSpan
  metrics := (children row.id store.metrics).map restoreMetric
  verifications := (children row.id store.verifications).map restoreVerification
  sipEvents := (children row.id store.sipEvents).map restoreSipEvent
  rtpStats := (children row.id store.rtpStats).map restoreRtpStat
  timelineEvents := (children row.id store.timelineEvents).map restoreTimelineEvent
  environment := row.environmentMetadata
  readinessChecklist := row.readinessChecklist

/-- The stored run under an identifier. -/
def find? (store : RunStore) (runUuid : Uuid) : Option StoredRun :=
  (store.runs.find? runUuid).map store.restore

/-- `PostgresRunRepository.get`: a malformed identifier names no run. -/
def get (store : RunStore) (runId : String) : Option StoredRun :=
  (Uuid.parse runId).bind store.find?

/-- `PostgresRunRepository.save`, in one transaction. -/
def save (store : RunStore) (run : StoredRun) : Except PyError RunStore :=
  match Uuid.parse run.runId with
  | none => .error (.valueError "badly formed hexadecimal UUID string")
  | some runUuid => store.saveInSession run runUuid

/-! ## What a save stores -/

theorem find?_putHeader (runs : Table RunRow RunRow.id) (row : RunRow) (k : Uuid) :
    (putHeader runs row).find? k = if k = row.id then some row else runs.find? k := by
  unfold putHeader
  split
  · rename_i hmem
    obtain ⟨old, hold, hid⟩ := List.mem_map.mp hmem
    by_cases hk : k = row.id
    · subst hk
      rw [if_pos rfl, Table.find?_eq_some_iff]
      exact ⟨List.mem_map.mpr ⟨old, hold, by simp [hid]⟩, rfl⟩
    · rw [if_neg hk]
      cases hf : runs.find? k with
      | none =>
          rw [Table.find?_eq_none_iff] at hf ⊢
          intro r hr
          obtain ⟨r₀, hr₀, rfl⟩ := List.mem_map.mp hr
          split
          · exact fun h => hk h.symm
          · exact hf r₀ hr₀
      | some r =>
          obtain ⟨hr, hrk⟩ := Table.find?_eq_some_iff.mp hf
          rw [Table.find?_eq_some_iff]
          refine ⟨List.mem_map.mpr ⟨r, hr, ?_⟩, hrk⟩
          rw [if_neg (by rw [hrk]; exact hk)]
  · rename_i hmem
    by_cases hk : k = row.id
    · subst hk
      rw [if_pos rfl, Table.find?_eq_some_iff]
      exact ⟨by simp, rfl⟩
    · rw [if_neg hk]
      simp [Table.find?, Ne.symm hk]

/-- Every run that was stored before a save is stored after it. -/
theorem mem_putHeader {runs : Table RunRow RunRow.id} {row : RunRow} {k : Uuid}
    (h : (runs.find? k).isSome) : ((putHeader runs row).find? k).isSome := by
  rw [find?_putHeader]
  split
  · rfl
  · exact h

variable {store store' : RunStore} {run : StoredRun} {runUuid : Uuid}

/-- A successful save stores exactly the given run, under its identifier and with
its timestamps read on the UTC clock. -/
theorem find?_saveInSession_self (h : store.saveInSession run runUuid = .ok store') :
    store'.find? runUuid = some { run.asUtc with runId := runUuid.str } := by
  unfold saveInSession at h
  split at h
  · cases h
    simp [find?, find?_putHeader, headerRow, restore, StoredRun.asUtc, Function.comp_def]
  · cases h

/-- A save leaves every other run as it was. -/
theorem find?_saveInSession_of_ne (h : store.saveInSession run runUuid = .ok store')
    {k : Uuid} (hk : k ≠ runUuid) : store'.find? k = store.find? k := by
  unfold saveInSession at h
  split at h
  · cases h
    simp only [find?, find?_putHeader, headerRow, if_neg hk]
    cases hf : store.runs.find? k with
    | none => rfl
    | some row =>
        have hid : row.id = k := (Table.find?_eq_some_iff.mp hf).2
        have hne : row.id ≠ runUuid := by rw [hid]; exact hk
        simp [restore, children_replaceChildren_of_ne hne]
  · cases h

theorem isSome_find?_saveInSession (h : store.saveInSession run runUuid = .ok store')
    {k : Uuid} (hk : (store.runs.find? k).isSome) : (store'.runs.find? k).isSome := by
  unfold saveInSession at h
  split at h
  · cases h
    exact mem_putHeader hk
  · cases h

theorem map_eventId_asUtc (events : List TimelineEventArtifact) :
    (events.map TimelineEventArtifact.asUtc).map TimelineEventArtifact.eventId =
      events.map TimelineEventArtifact.eventId := by
  rw [List.map_map]
  rfl

/-- The event ids of a stored run are unique. -/
theorem nodup_eventId_of_find? (h : store.find? runUuid = some run) :
    (run.timelineEvents.map TimelineEventArtifact.eventId).Nodup := by
  obtain ⟨row, hrow, rfl⟩ := Option.map_eq_some_iff.mp h
  rw [restore, map_eventId_restoreTimelineEvent]
  exact store.events_unique row.id

/-- A stored run is stored under its own identifier. -/
theorem runId_of_find? (h : store.find? runUuid = some run) : run.runId = runUuid.str := by
  obtain ⟨row, hrow, rfl⟩ := Option.map_eq_some_iff.mp h
  have hid : row.id = runUuid := (Table.find?_eq_some_iff.mp hrow).2
  rw [restore, hid]

/-- A stored run is read on the UTC clock. -/
theorem asUtc_of_find? (h : store.find? runUuid = some run) : run.asUtc = run := by
  obtain ⟨row, -, rfl⟩ := Option.map_eq_some_iff.mp h
  simp [StoredRun.asUtc, restore, Function.comp_def]

@[simp] theorem get_str (store : RunStore) (k : Uuid) : store.get k.str = store.find? k := by
  simp [get]

end RunStore
end VoxBench.ControlPlane
