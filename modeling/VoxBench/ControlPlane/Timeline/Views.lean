import VoxBench.ControlPlane.Repository
import VoxBench.ControlPlane.Timeline.Incidents
import Mathlib.Data.Rat.Floor

/-!
# The views of a run

The timeline of a run, its live status, the live preview of all runs and the trends across
sessions are what the API serves of the stored runs.

## Main definitions

* `toTimeline`, `toLiveStatus` — the views of one run.
* `livePreview`, `crossSessionTrends` — the views of all runs of a memory repository.
-/

namespace VoxBench.ControlPlane

open VoxBench.Lib

/-! ## The timeline -/

structure TimelineMetricPoint where
  ts : ℚ
  name : String
  value : ℚ
  deriving DecidableEq, Repr

structure TimelineSipEvent where
  ts : ℚ
  event : SipEventResponse
  deriving DecidableEq, Repr

structure TimelineRtpStat where
  ts : ℚ
  stat : RtpStatResponse
  deriving DecidableEq, Repr

structure TimelineStageLane where
  stage : String
  metrics : List TimelineMetricPoint
  violations : List VerificationResult

structure TimelineLanes where
  sipLadder : List TimelineSipEvent
  rtpQuality : List TimelineRtpStat
  stages : List TimelineStageLane
  host : List TimelineMetricPoint
  recordings : List RecordingArtifact
  events : List TimelineTypedEvent
  intervals : List TimelineTypedInterval
  series : List TimelineTypedSeries
  artifacts : List TimelineTypedArtifact
  incidents : List TimelineIncident

structure ReadinessSummaryResponse where
  passedCount : ℕ
  failedCount : ℕ
  unknownCount : ℕ
  manualBlockerCount : ℕ
  incompleteCount : ℕ
  deriving DecidableEq, Repr

structure TimelineResponse where
  runId : String
  t0 : Datetime
  configHash : String
  environment : RunEnvironmentMetadata
  readinessChecklist : List ReadinessChecklistItem
  readinessSummary : ReadinessSummaryResponse
  lanes : TimelineLanes

def readinessSummary (run : StoredRun) : ReadinessSummaryResponse :=
  let count (status : ReadinessStatus) :=
    run.readinessChecklist.countP fun item => item.status = status
  { passedCount := count .pass
    failedCount := count .fail
    unknownCount := count .unknown
    manualBlockerCount := run.environment.manualBlockers.length
    incompleteCount := count .fail + count .unknown + run.environment.manualBlockers.length }

def timelineMetricPoint (run : StoredRun) (metric : MetricArtifact) :
    Except TimelineError TimelineMetricPoint := do
  let ts ← relativeSeconds metric.ts run.startedAt
  return ⟨ts, metric.name, metric.value⟩

/-- The lane of one place of the pipeline. -/
def timelineStageLane (run : StoredRun) (stage : String) : Except TimelineError TimelineStageLane := do
  let metrics ← (run.metrics.filter fun metric => metric.stage = some stage).mapM
    (timelineMetricPoint run)
  return ⟨stage, metrics, run.verifications.filter fun v => v.stage = stage ∧ ¬ v.passed⟩

def timelineSipEvent (run : StoredRun) (event : SipEventResponse) :
    Except TimelineError TimelineSipEvent := do
  let ts ← relativeSeconds event.ts run.startedAt
  return ⟨ts, event⟩

def timelineRtpStat (run : StoredRun) (stat : RtpStatResponse) :
    Except TimelineError TimelineRtpStat := do
  let ts ← relativeSeconds stat.ts run.startedAt
  return ⟨ts, stat⟩

/-- `StoredRun.to_timeline`. -/
def toTimeline (run : StoredRun) : Except TimelineError TimelineResponse := do
  let stages ← (pipelineStageNames run).mapM (timelineStageLane run)
  let host ← (run.metrics.filter fun metric => metric.stage = none).mapM (timelineMetricPoint run)
  let sipLadder ← run.sipEvents.mapM (timelineSipEvent run)
  let rtpQuality ← run.rtpStats.mapM (timelineRtpStat run)
  let events ← typedTimelineEvents run
  let intervals ← typedTimelineIntervals run
  let series ← typedTimelineSeries run
  let artifacts := typedTimelineArtifacts run
  let incidents ← typedTimelineIncidents run artifacts
  return {
    runId := run.runId
    t0 := run.startedAt
    configHash := run.configHash
    environment := run.environment
    readinessChecklist := run.readinessChecklist
    readinessSummary := readinessSummary run
    lanes := { sipLadder, rtpQuality, stages, host, recordings := run.recordings, events,
               intervals, series, artifacts, incidents } }

/-- The lanes of a timeline are those of the passes. -/
theorem lanes_of_toTimeline {run : StoredRun} {timeline : TimelineResponse}
    (h : toTimeline run = .ok timeline) :
    typedTimelineEvents run = .ok timeline.lanes.events ∧
      typedTimelineIntervals run = .ok timeline.lanes.intervals ∧
      typedTimelineArtifacts run = timeline.lanes.artifacts ∧
      typedTimelineIncidents run timeline.lanes.artifacts = .ok timeline.lanes.incidents := by
  simp only [toTimeline, bind_eq_ok, pure, Except.pure, Except.ok.injEq] at h
  obtain ⟨_, -, _, -, _, -, _, -, events, hevents, intervals, hintervals, _, -, incidents,
    hincidents, rfl⟩ := h
  exact ⟨hevents, hintervals, rfl, hincidents⟩

/-! ## The live status -/

inductive ProviderConnectionState where
  | notApplicable
  | pending
  | connected
  | exhausted
  | unobserved
  deriving DecidableEq, Repr

structure ProviderConnectionStatusResponse where
  state : ProviderConnectionState
  attempts : ℤ
  retries : ℤ
  failures : ℤ
  exhausted : Bool
  deriving DecidableEq, Repr

inductive RtpCollectorState where
  | inactive
  | connected
  | collecting
  | failed
  deriving DecidableEq, Repr

structure RtpCollectorStatusResponse where
  state : RtpCollectorState
  eventsCollected : ℤ
  failures : ℤ
  deriving DecidableEq, Repr

structure LiveRunStatusResponse where
  runId : String
  status : RunStatus
  failureAlias : Option String
  startedAt : Datetime
  endedAt : Option Datetime
  environmentProfile : EnvironmentProfile
  serverAlias : Option String
  integrationTargetAlias : Option String
  readinessSummary : ReadinessSummaryResponse
  manualBlockers : List String
  latestHostMetrics : List MetricArtifact
  providerConnection : ProviderConnectionStatusResponse
  rtpCollector : RtpCollectorStatusResponse
  violationCount : ℕ
  tags : List String

/-- `metric.ts >= current.ts` -/
def notBefore (metric current : MetricArtifact) : Except TimelineError Bool := do
  let delta ← metric.ts.subtract current.ts
  return decide (0 ≤ delta)

/-- The metrics of the host. -/
def hostMetrics (run : StoredRun) : List MetricArtifact :=
  run.metrics.filter fun metric => metric.stage = none

/-- One metric of the loop of `latest_host_metrics`. -/
def addHostMetric (byName : List (String × MetricArtifact)) (metric : MetricArtifact) :
    Except TimelineError (List (String × MetricArtifact)) :=
  match Dict.get? byName metric.name with
  | none => .ok (Dict.set byName metric.name metric)
  | some current => do
      let later ← notBefore metric current
      return if later then Dict.set byName metric.name metric else byName

/-- `latest_host_metrics`. -/
def latestHostMetrics (run : StoredRun) : Except TimelineError (List MetricArtifact) := do
  let byName ← (hostMetrics run).foldlM addHostMetric []
  return sortOn MetricArtifact.name (byName.map Prod.snd)

/-- `max(0, int(value))`. -/
def countOf (value : ℚ) : ℤ := max 0 ⌊value⌋

/-- `provider_connection_status`. -/
def providerConnectionStatus (run : StoredRun) :
    Except TimelineError ProviderConnectionStatusResponse := do
  let metrics ← latestHostMetrics run
  let value (name : String) : ℚ :=
    ((metrics.find? fun metric => metric.name = name).map MetricArtifact.value).getD 0
  let attempts := countOf (value "provider_connect_attempts")
  let exhausted : Bool := 0 < value "provider_connect_exhausted" ∨
    run.failureAlias = some "provider-connect-error"
  return {
    state :=
      if exhausted then .exhausted
      else if 0 < attempts then .connected
      else if "provider" ∉ run.environment.tags then .notApplicable
      else if run.status = .running then .pending
      else .unobserved
    attempts := attempts
    retries := countOf (value "provider_connect_retries")
    failures := countOf (value "provider_connect_failures")
    exhausted := exhausted }

/-- One metric of the loop of `rtp_collector_status`. -/
def latestStatusMetric (latest : Option MetricArtifact) (metric : MetricArtifact) :
    Except TimelineError (Option MetricArtifact) :=
  match latest with
  | none => .ok (some metric)
  | some current => do
      let later ← notBefore metric current
      return some (if later then metric else current)

/-- The sum of the counts under one name. -/
def sumOfCounts (run : StoredRun) (name : String) : ℤ :=
  (((hostMetrics run).filter fun metric => metric.name = name).map fun metric =>
    countOf metric.value).sum

/-- `rtp_collector_status`. -/
def rtpCollectorStatus (run : StoredRun) : Except TimelineError RtpCollectorStatusResponse := do
  let latest ← ((hostMetrics run).filter fun metric => metric.name ∈ ["asterisk_ami_rtcp_connected",
    "asterisk_ami_rtcp_events", "asterisk_ami_rtcp_failures"]).foldlM latestStatusMetric none
  return {
    state := match latest.map MetricArtifact.name with
      | some "asterisk_ami_rtcp_failures" => .failed
      | some "asterisk_ami_rtcp_events" => .collecting
      | some "asterisk_ami_rtcp_connected" => .connected
      | _ => .inactive
    eventsCollected := sumOfCounts run "asterisk_ami_rtcp_events"
    failures := sumOfCounts run "asterisk_ami_rtcp_failures" }

/-- `StoredRun.to_live_status`. -/
def toLiveStatus (run : StoredRun) : Except TimelineError LiveRunStatusResponse := do
  let metrics ← latestHostMetrics run
  let providerConnection ← providerConnectionStatus run
  let rtpCollector ← rtpCollectorStatus run
  return {
    runId := run.runId
    status := run.status
    failureAlias := run.failureAlias
    startedAt := run.startedAt
    endedAt := run.endedAt
    environmentProfile := run.environment.environmentProfile
    serverAlias := run.environment.serverAlias
    integrationTargetAlias := run.environment.integrationTargetAlias
    readinessSummary := readinessSummary run
    manualBlockers := run.environment.manualBlockers
    latestHostMetrics := metrics
    providerConnection := providerConnection
    rtpCollector := rtpCollector
    violationCount := run.verifications.countP fun v => ¬ v.passed
    tags := run.environment.tags }

/-! ## All runs -/

/-- `_live_preview`. -/
def livePreview (memory : InMemoryRunRepository) :
    Except TimelineError (List LiveRunStatusResponse) := do
  let runs ← memory.listRecent.mapError TimelineError.clock
  runs.mapM toLiveStatus

inductive CrossSessionTrendState where
  | insufficient
  | stable
  | increasing
  deriving DecidableEq, Repr

structure CrossSessionTrendPoint where
  runId : String
  startedAt : Datetime
  value : ℚ
  deriving DecidableEq, Repr

structure CrossSessionTrendResponse where
  metric : String
  environmentProfile : EnvironmentProfile
  serverAlias : String
  state : CrossSessionTrendState
  sampleCount : ℕ
  firstValue : ℚ
  latestValue : ℚ
  totalDelta : ℚ
  points : List CrossSessionTrendPoint

def EnvironmentProfile.text : EnvironmentProfile → String
  | .local => "local"
  | .dev => "dev"
  | .demo => "demo"
  | .integration => "integration"
  | .staging => "staging"

/-- `CROSS_SESSION_METRIC_NAMES`. -/
def crossSessionMetricNames : List String := ["active_tasks", "memory_rss_bytes"]

/-- `CROSS_SESSION_MIN_SAMPLES`. -/
def crossSessionMinSamples : ℕ := 3

/-- The points of a run that has ended, under the keys of their trends. -/
def trendPoints (run : StoredRun) :
    Except TimelineError (List ((EnvironmentProfile × String × String) × CrossSessionTrendPoint)) :=
  match run.status.terminal && run.endedAt.isSome, run.environment.serverAlias with
  | true, some serverAlias => do
      let metrics ← latestHostMetrics run
      return crossSessionMetricNames.filterMap fun name =>
        (metrics.find? fun metric => metric.name = name).map fun metric =>
          ((run.environment.environmentProfile, serverAlias, name),
            ⟨run.runId, run.startedAt, metric.value⟩)
  | _, _ => .ok []

def crossSessionTrend (group : (EnvironmentProfile × String × String) ×
    List ((EnvironmentProfile × String × String) × CrossSessionTrendPoint)) :
    CrossSessionTrendResponse :=
  let points := group.2.map Prod.snd
  let values := points.map CrossSessionTrendPoint.value
  let firstValue := values.head?.getD 0
  let latestValue := values.getLast?.getD 0
  { metric := group.1.2.2
    environmentProfile := group.1.1
    serverAlias := group.1.2.1
    state :=
      if points.length < crossSessionMinSamples then .insufficient
      else if 0 < latestValue - firstValue ∧ ((pairs values).all fun p => p.1 ≤ p.2) then .increasing
      else .stable
    sampleCount := points.length
    firstValue := firstValue
    latestValue := latestValue
    totalDelta := latestValue - firstValue
    points := points }

/-- `_cross_session_trends`. -/
def crossSessionTrends (memory : InMemoryRunRepository) :
    Except TimelineError (List CrossSessionTrendResponse) := do
  let runs ← memory.listAll.mapError TimelineError.clock
  let points ← runs.mapM trendPoints
  return (sortOn (fun group => toLex (group.1.1.text, toLex group.1.2))
    (groupOn Prod.fst points.flatten)).map crossSessionTrend

end VoxBench.ControlPlane
