import VoxBench.Lib.Machine
import VoxBench.Lib.Uuid
import VoxBench.Lib.Table
import VoxBench.Lib.Slices
import VoxBench.Lib.Base64
import VoxBench.Lib.Rounding
import VoxBench.ControlPlane.Models
import VoxBench.ControlPlane.RunStore
import VoxBench.ControlPlane.JobQueue
import VoxBench.ControlPlane.JobLifecycle
import VoxBench.ControlPlane.Fencing
import VoxBench.ControlPlane.RunWorker
import VoxBench.ControlPlane.Ingest
import VoxBench.ControlPlane.Execution
import VoxBench.ControlPlane.Writers
import VoxBench.ControlPlane.Immutability
import VoxBench.Observability.Flush
import VoxBench.Media.Pcm
import VoxBench.Telephony.CallClose
import VoxBench.Media.Resampling
import VoxBench.Lib.Text
import VoxBench.Observability.Observer
import VoxBench.Observability.Payload
import VoxBench.Observability.Delivery
import VoxBench.Telephony.Loopback
import VoxBench.Observability.ExactlyOnce
import VoxBench.Observability.Acceptance
import VoxBench.Lib.Stream
import VoxBench.Telephony.Framing
import VoxBench.Lib.Dict
import VoxBench.Lib.Walk
import VoxBench.Registry.Merge
import VoxBench.Registry.Schemas
import VoxBench.Lib.Traverse
import VoxBench.Registry.Service
import VoxBench.Registry.Hashing
import VoxBench.Registry.Validation
import VoxBench.Registry.Resolve
import VoxBench.Registry.Materialize
import VoxBench.Registry.Reproducible
import VoxBench.Verification.Core
import VoxBench.Verification.Coverage
import VoxBench.ControlPlane.Clock
import VoxBench.ControlPlane.Repository
import VoxBench.Lib.Utf8
import VoxBench.ControlPlane.Recording
import VoxBench.ControlPlane.Recorder
import VoxBench.ControlPlane.Timeline.Times
import VoxBench.ControlPlane.Timeline.Conversation
import VoxBench.ControlPlane.Timeline.Stages
import VoxBench.ControlPlane.Timeline.Rtp
import VoxBench.ControlPlane.Timeline.Lanes
import VoxBench.ControlPlane.Timeline.Incidents
import VoxBench.ControlPlane.Timeline.Views
import VoxBench.ControlPlane.Timeline.CaptureHealth
import VoxBench.ControlPlane.Timeline.WellFormed
import VoxBench.ControlPlane.QueueProgress
import VoxBench.ControlPlane.Timeline.Responses
import VoxBench.ControlPlane.Timeline.Waits
import VoxBench.ControlPlane.Timeline.Packets
import VoxBench.ControlPlane.Timeline.SequenceGaps
import VoxBench.ControlPlane.Timeline.Windows
import VoxBench.ControlPlane.Timeline.Silences
import VoxBench.Lib.Double
import VoxBench.Verification.Aggregation
import VoxBench.Verification.TreatmentReport
import VoxBench.Lib.Argmax
import VoxBench.Media.Interpolation
import VoxBench.Observability.Discontinuity
import VoxBench.Observability.StageCalls
import VoxBench.Observability.MediaTime
import VoxBench.Lib.Condition
import VoxBench.Telephony.PlaybackBuffer
import VoxBench.Verification.ExecuteRun
import VoxBench.ControlPlane.WorkerOutcome
import VoxBench.ControlPlane.LeaseKeeping
import VoxBench.Lib.Episodes
import VoxBench.Telephony.CallAudio
import VoxBench.Telephony.Lifecycles
import VoxBench.Telephony.BargeIn
import VoxBench.Telephony.Bridge
import VoxBench.Telephony.Packetization
import VoxBench.Telephony.Truncation
import VoxBench.Telephony.Discard
import VoxBench.Verification.Regression
import VoxBench.Lib.Average
import VoxBench.Verification.ExactAggregation
import VoxBench.Verification.LoadedReports
import VoxBench.Registry.Contracts
import VoxBench.Observability.TapHealth
import VoxBench.Lib.Url
import VoxBench.Lib.PosixPath
import VoxBench.Lib.Delimited
import VoxBench.Lib.Hmac
import VoxBench.Lib.PercentCoding
import VoxBench.EngineHarness.ObjectStorage
import VoxBench.EngineHarness.LocalStorage
import VoxBench.ControlPlane.AudioSession
import VoxBench.Registry.CanonicalText
import VoxBench.Lib.Lines
import VoxBench.Telephony.AmiRtcp
import VoxBench.Lib.NumberText
import VoxBench.Telephony.RtcpCollector
import VoxBench.ControlPlane.Supervisor
import VoxBench.ControlPlane.RecordingAudio
import VoxBench.EngineHarness.Harness
import VoxBench.Verification.NominalRun
import VoxBench.Verification.Calibration
import VoxBench.Lib.Companding
import VoxBench.Media.G711
import VoxBench.Lib.Writes
import VoxBench.SyntheticCaller.Offline
import VoxBench.SyntheticCaller.Verification
import VoxBench.SyntheticCaller.Treatment
