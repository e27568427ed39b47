import VoxBench.ControlPlane.Ingest

/-!
# Executing a stored run

`_populate_stored_run_result` runs the engine harness on a stored run and assigns the
result to the run's fields, one statement after another. The order of the assignments
matters where another thread can see the same object, so it is kept as a list.
-/

namespace VoxBench.ControlPlane

open VoxBench.Lib

/-- What `EngineHarness.run_once` returns. -/
structure HarnessResult where
  conversationId : String
  recordings : List RecordingArtifact
  spans : List SpanArtifact
  metrics : List MetricArtifact

/-- How an execution ends: with a verified result, with a result on which
`verify_recordings` raises, or with an exception of the harness. -/
inductive Execution where
  | succeeds (result : HarnessResult)
  | verifyRaises (result : HarnessResult)
  | raises

/-- `verify_recordings`. -/
abbrev Verify :=
  Json → List RecordingArtifact → List MetricArtifact → List VerificationResult

/-- The assignments that copy a harness result into the run. -/
def harnessAssignments (now : Instant) (result : HarnessResult) : List (StoredRun → StoredRun) :=
  [fun run => { run with conversationId := result.conversationId },
    fun run => { run with status := .completed },
    fun run => { run with endedAt := some (.utc now) },
    fun run => { run with recordings := result.recordings },
    fun run => { run with spans := result.spans },
    fun run => { run with metrics := result.metrics }]

/-- The assignments of `_populate_stored_run_result`, in their order. -/
def resultAssignments (verify : Verify) (now : Instant) :
    Execution → List (StoredRun → StoredRun)
  | .succeeds result => harnessAssignments now result ++
      [fun run : StoredRun => { run with
        verifications := verify run.resolvedConfig result.recordings result.metrics }]
  | .verifyRaises result => harnessAssignments now result
  | .raises =>
      [fun run => { run with status := .failed },
        fun run => { run with failureAlias := some "engine-harness-error" },
        fun run => { run with endedAt := some (.utc now) }]

/-- `_populate_stored_run_result`, on a run that nobody else holds. -/
def populateStoredRunResult (verify : Verify) (now : Instant) (execution : Execution)
    (run : StoredRun) : StoredRun :=
  (resultAssignments verify now execution).foldl (fun run assign => assign run) run

/-- Executing a run leaves the signaling, transport and timeline evidence alone. -/
theorem populate_keeps (verify : Verify) (now : Instant) (execution : Execution)
    (run : StoredRun) :
    let run' := populateStoredRunResult verify now execution run
    run'.runId = run.runId ∧ run'.sipEvents = run.sipEvents ∧ run'.rtpStats = run.rtpStats ∧
      run'.timelineEvents = run.timelineEvents := by
  cases execution <;> exact ⟨rfl, rfl, rfl, rfl⟩

end VoxBench.ControlPlane
