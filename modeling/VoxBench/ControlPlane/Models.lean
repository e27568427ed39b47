import VoxBench.Lib.Uuid
import Mathlib.Data.Rat.Defs

/-!
# The control plane's data model

The values that a stored run is made of, field by field as the dataclasses and
response models declare them. Floats are exact rationals; JSON documents that the
control plane only carries along are trees. A `datetime` keeps the reading of its
own wall clock and its UTC offset, because a naive and an aware value behave
differently before they reach the database.
-/

namespace VoxBench.ControlPlane

open VoxBench.Lib

/-! ## Time -/

/-- A point on the UTC time line, in microseconds since the epoch; what a
`timestamptz` column holds. -/
abbrev Instant := ℤ

/-- `timedelta(seconds=n)`, in microseconds. -/
def seconds (n : ℤ) : ℤ := n * 1000000

/-- A Python `datetime`: the wall-clock reading and, unless it is naive, the
offset of that clock from UTC, both in microseconds. -/
structure Datetime where
  wall : ℤ
  utcoffset : Option ℤ
  deriving DecidableEq, Repr

namespace Datetime

/-- The instant meant by the reading; a naive reading is taken as UTC. -/
def instant (d : Datetime) : Instant := d.wall - d.utcoffset.getD 0

/-- An aware reading on the UTC clock. -/
def utc (t : Instant) : Datetime := ⟨t, some 0⟩

/-- `_as_utc`: the same instant read on the UTC clock. -/
def asUtc (d : Datetime) : Datetime := utc d.instant

@[simp] theorem instant_utc (t : Instant) : (utc t).instant = t := by simp [instant, utc]
@[simp] theorem instant_asUtc (d : Datetime) : d.asUtc.instant = d.instant := instant_utc _
@[simp] theorem asUtc_asUtc (d : Datetime) : d.asUtc.asUtc = d.asUtc := by
  simp [asUtc]

end Datetime

/-! ## JSON documents -/

/-- A JSON document as `json.loads` returns it; objects keep insertion order. A finite float is
its value, but for `-0.0`, which equals `0.0` and prints otherwise. -/
inductive Json where
  | null
  | bool (b : Bool)
  | int (n : ℤ)
  | float (q : ℚ)
  | negZero
  | str (s : String)
  | arr (items : List Json)
  | obj (fields : List (String × Json))
  deriving Repr

namespace Json

/-- `document[key]` on an object. -/
def get? : Json → String → Option Json
  | .obj fields, key => (fields.find? fun f => f.1 = key).map Prod.snd
  | _, _ => none

/-- The elements of an array, and nothing for other documents. -/
def elems : Json → List Json
  | .arr items => items
  | _ => []

/-- The text of a JSON string. -/
def str? : Json → Option String
  | .str s => some s
  | _ => none

/-- `isinstance(document, float)`. -/
def isFloat : Json → Bool
  | .float _ | .negZero => true
  | _ => false

end Json

/-- A scalar attribute of a timeline event. -/
inductive AttrValue where
  | str (s : String)
  | int (n : ℤ)
  | float (q : ℚ)
  | bool (b : Bool)
  | null
  deriving DecidableEq, Repr

/-! ## Evidence of a run -/

inductive SipDirection where
  | inbound
  | outbound
  deriving DecidableEq, Repr

inductive RtpDirection where
  | received
  | sent
  deriving DecidableEq, Repr

inductive TimelineCategory where
  | conversation
  | signaling
  | transport
  | buffer
  | pipeline
  | provider
  | runtime
  | session
  deriving DecidableEq, Repr

structure RecordingArtifact where
  stage : String
  uri : String
  format : Json
  durationMs : ℚ
  deriving Repr

structure SpanArtifact where
  traceId : String
  spanId : String
  parentId : Option String
  name : String
  startNs : ℤ
  endNs : ℤ
  attrs : Json
  deriving Repr

structure MetricArtifact where
  stage : Option String
  name : String
  value : ℚ
  ts : Datetime
  deriving DecidableEq, Repr

structure VerificationResult where
  stage : String
  invariant : String
  passed : Bool
  observed : Json
  expected : Json
  detail : String
  deriving Repr

structure SipEventResponse where
  callId : Option String
  method : String
  direction : SipDirection
  ts : Datetime
  statusCode : Option ℤ
  summaryAlias : Option String
  deriving DecidableEq, Repr

structure RtpStatResponse where
  ts : Datetime
  jitterMs : Option ℚ
  lossPct : Option ℚ
  mos : Option ℚ
  direction : Option RtpDirection
  rttMs : Option ℚ
  deriving DecidableEq, Repr

structure TimelineEventArtifact where
  eventId : String
  category : TimelineCategory
  name : String
  ts : Datetime
  clockDomain : String := "control_plane_wall"
  alignmentUncertaintyMs : Option ℚ := none
  direction : Option String := none
  stage : Option String := none
  streamAlias : Option String := none
  source : String := "observer"
  correlationAlias : Option String := none
  attributes : List (String × AttrValue) := []
  deriving DecidableEq, Repr

/-! ## Environment and readiness -/

inductive EnvironmentProfile where
  | local
  | dev
  | demo
  | integration
  | staging
  deriving DecidableEq, Repr

structure RunEnvironmentMetadata where
  environmentProfile : EnvironmentProfile := .local
  serverAlias : Option String := none
  integrationTargetAlias : Option String := none
  environmentSnapshotHash : Option String := none
  startedFrom : Option String := none
  operatorNote : Option String := none
  manualBlockers : List String := []
  tags : List String := []
  relatedInternalRef : Option String := none
  secretRefNames : List String := []
  deriving DecidableEq, Repr

inductive ReadinessStatus where
  | pass
  | fail
  | unknown
  deriving DecidableEq, Repr

structure ReadinessChecklistItem where
  itemId : String
  label : String
  status : ReadinessStatus := .unknown
  note : Option String := none
  deriving DecidableEq, Repr

/-! ## Stored runs -/

inductive RunStatus where
  | running
  | completed
  | failed
  deriving DecidableEq, Repr

/-- `completed` and `failed` are the statuses a run ends in. -/
def RunStatus.terminal : RunStatus → Bool
  | .running => false
  | .completed | .failed => true

structure StoredRun where
  runId : String
  configHash : String
  callId : Option String
  conversationId : String
  provider : String
  engine : String
  status : RunStatus
  startedAt : Datetime
  endedAt : Option Datetime
  resolvedConfig : Json
  recordings : List RecordingArtifact
  spans : List SpanArtifact
  metrics : List MetricArtifact
  failureAlias : Option String := none
  verifications : List VerificationResult := []
  sipEvents : List SipEventResponse := []
  rtpStats : List RtpStatResponse := []
  timelineEvents : List TimelineEventArtifact := []
  environment : RunEnvironmentMetadata := {}
  readinessChecklist : List ReadinessChecklistItem := []
  deriving Repr

/-- `_create_running_run`: a run as it is first stored. `provider` and `engine` are
what it reads from the resolved config. -/
def createRunningRun (runId configHash : String) (callId : Option String)
    (provider engine : String) (startedAt : Datetime) (resolvedConfig : Json)
    (environment : RunEnvironmentMetadata) (readinessChecklist : List ReadinessChecklistItem) :
    StoredRun :=
  { runId, configHash, callId, conversationId := "", provider, engine, status := .running,
    startedAt, endedAt := none, resolvedConfig, recordings := [], spans := [], metrics := [],
    environment, readinessChecklist }

/-! ## Reading timestamps on the UTC clock -/

def MetricArtifact.asUtc (m : MetricArtifact) : MetricArtifact := { m with ts := m.ts.asUtc }
def SipEventResponse.asUtc (e : SipEventResponse) : SipEventResponse := { e with ts := e.ts.asUtc }
def RtpStatResponse.asUtc (r : RtpStatResponse) : RtpStatResponse := { r with ts := r.ts.asUtc }
def TimelineEventArtifact.asUtc (e : TimelineEventArtifact) : TimelineEventArtifact :=
  { e with ts := e.ts.asUtc }

/-- A run with every timestamp read on the UTC clock, as the repository returns it. -/
def StoredRun.asUtc (run : StoredRun) : StoredRun :=
  { run with
    startedAt := run.startedAt.asUtc
    endedAt := run.endedAt.map Datetime.asUtc
    metrics := run.metrics.map MetricArtifact.asUtc
    sipEvents := run.sipEvents.map SipEventResponse.asUtc
    rtpStats := run.rtpStats.map RtpStatResponse.asUtc
    timelineEvents := run.timelineEvents.map TimelineEventArtifact.asUtc }

@[simp] theorem MetricArtifact.asUtc_asUtc (m : MetricArtifact) : m.asUtc.asUtc = m.asUtc := by
  simp [MetricArtifact.asUtc]
@[simp] theorem SipEventResponse.asUtc_asUtc (e : SipEventResponse) :
    e.asUtc.asUtc = e.asUtc := by simp [SipEventResponse.asUtc]
@[simp] theorem RtpStatResponse.asUtc_asUtc (r : RtpStatResponse) :
    r.asUtc.asUtc = r.asUtc := by simp [RtpStatResponse.asUtc]
@[simp] theorem TimelineEventArtifact.asUtc_asUtc (e : TimelineEventArtifact) :
    e.asUtc.asUtc = e.asUtc := by simp [TimelineEventArtifact.asUtc]

/-! ## Errors -/

/-- The exceptions of the control plane. -/
inductive PyError where
  /-- `ValueError` with its reason alias. -/
  | valueError (reason : String)
  /-- `RunJobQueueError`: "run job queue is unavailable". -/
  | runJobQueueError
  /-- `RunRepositoryError`: "run repository is unavailable". -/
  | runRepositoryError
  /-- A `KeyError`, which no handler catches. -/
  | keyError (key : String)
  /-- An `HTTPException` with its status code and detail. -/
  | http (statusCode : ℕ) (detail : String)
  deriving DecidableEq, Repr

/-- A sequence of calls succeeds exactly when each of them does. -/
theorem bind_eq_ok {ε α β : Type} {x : Except ε α} {f : α → Except ε β} {b : β} :
    (x >>= f) = .ok b ↔ ∃ a, x = .ok a ∧ f a = .ok b := by
  cases x with
  | error e => simp [bind, Except.bind]
  | ok a => simp [bind, Except.bind]

theorem return_eq_ok {ε α β : Type} {a a' : α} {b b' : β} :
    (pure (a, b) : Except ε (α × β)) = .ok (a', b') ↔ a = a' ∧ b = b' := by
  simp [pure, Except.pure]

end VoxBench.ControlPlane
