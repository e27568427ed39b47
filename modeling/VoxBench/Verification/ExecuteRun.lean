import VoxBench.ControlPlane.Execution
import VoxBench.ControlPlane.Repository
import VoxBench.Verification.Coverage

/-!
# Executing and saving a run

`_execute_stored_run` saves the run in a `finally`, however the execution ends. The handler
that marks a run as failed covers the harness, but not the verification of its result, which
comes after the assignment of the status. Reading a recording raises more than
`_try_read_wav_stats` catches, and `float(config_ptime_ms)` raises on a large integer; such a run
is saved as completed without its verifications.

## Main definitions

* `executeStoredRun` — the repository after the execution.
* `ConsistentlySaved` — a completed run with its verifications, or a failed one.

## Main results

* `executeStoredRun_consistent_iff` — when the saved run is consistent.
-/

namespace VoxBench.Verification

open VoxBench.Lib VoxBench.ControlPlane VoxBench.Observability

/-- How `EngineHarness.run_once` ends: it returns, or raises an `Exception`, or raises
something that `except Exception` does not catch. -/
inductive HarnessOutcome where
  | returns (result : HarnessResult)
  | raises
  | interrupted

section Execute

variable (files : WavFiles) (math : FloatMath) (tolerances : Tolerances)

/-- What the execution comes to, for a run with the config. An interruption assigns nothing. -/
def HarnessOutcome.execution (resolvedConfig : Json) : HarnessOutcome → Option Execution
  | .returns result =>
      match verifyRecordings files math tolerances resolvedConfig result.recordings
          result.metrics with
      | .ok _ => some (.succeeds result)
      | .error _ => some (.verifyRaises result)
  | .raises => some .raises
  | .interrupted => none

/-- What `verify_recordings` returns, where it returns. -/
def returnedResults : Verify := fun resolvedConfig recordings metrics =>
  match verifyRecordings files math tolerances resolvedConfig recordings metrics with
  | .ok results => results
  | .error _ => []

/-- The run that `_execute_stored_run` saves. -/
def savedRun (now : Instant) (outcome : HarnessOutcome) (run : StoredRun) : StoredRun :=
  match outcome.execution files math tolerances run.resolvedConfig with
  | some execution =>
      populateStoredRunResult (returnedResults files math tolerances) now execution run
  | none => run

/-- `_execute_stored_run`, on a run that nobody else holds. -/
def executeStoredRun (now : Instant) (outcome : HarnessOutcome) (run : StoredRun)
    (memory : InMemoryRunRepository) : InMemoryRunRepository :=
  memory.save (savedRun files math tolerances now outcome run)

/-- Completed and verified, or failed. -/
def ConsistentlySaved (run : StoredRun) : Prop :=
  (run.status = .completed ∧ run.endedAt.isSome ∧
    verifyRecordings files math tolerances run.resolvedConfig run.recordings run.metrics =
      .ok run.verifications) ∨
  (run.status = .failed ∧ run.endedAt.isSome ∧ run.failureAlias.isSome)

end Execute

variable {files : WavFiles} {math : FloatMath} {tolerances : Tolerances} {now : Instant}
  {outcome : HarnessOutcome} {run : StoredRun}

theorem runId_savedRun : (savedRun files math tolerances now outcome run).runId = run.runId := by
  unfold savedRun
  split
  · exact (populate_keeps _ _ _ _).1
  · rfl

/-- The repository returns what was saved. -/
theorem get_executeStoredRun (memory : InMemoryRunRepository) :
    (executeStoredRun files math tolerances now outcome run memory).get run.runId =
      some (savedRun files math tolerances now outcome run) := by
  rw [executeStoredRun, InMemoryRunRepository.save, InMemoryRunRepository.get, Dict.get?_set,
    runId_savedRun, if_pos rfl]

/-- A verified result is saved with its verifications. -/
theorem savedRun_verified {result : HarnessResult} {results : List VerificationResult}
    (h : verifyRecordings files math tolerances run.resolvedConfig result.recordings
      result.metrics = .ok results) :
    ConsistentlySaved files math tolerances
      (savedRun files math tolerances now (.returns result) run) := by
  have hexecution : HarnessOutcome.execution files math tolerances run.resolvedConfig
      (.returns result) = some (.succeeds result) := by
    simp only [HarnessOutcome.execution, h]
  have hreturned : returnedResults files math tolerances run.resolvedConfig result.recordings
      result.metrics = results := by
    simp only [returnedResults, h]
  rw [savedRun, hexecution]
  refine .inl ⟨rfl, rfl, ?_⟩
  exact h.trans (congrArg _ hreturned.symm)

/-- A result on which the verification raises is saved as completed all the same. -/
theorem savedRun_of_error {result : HarnessResult} {e : ReadError}
    (h : verifyRecordings files math tolerances run.resolvedConfig result.recordings
      result.metrics = .error e) :
    savedRun files math tolerances now (.returns result) run =
      populateStoredRunResult (returnedResults files math tolerances) now (.verifyRaises result)
        run := by
  simp only [savedRun, HarnessOutcome.execution, h]

theorem savedRun_unverified {result : HarnessResult} {e : ReadError}
    (h : verifyRecordings files math tolerances run.resolvedConfig result.recordings
      result.metrics = .error e) :
    ¬ ConsistentlySaved files math tolerances
      (savedRun files math tolerances now (.returns result) run) := by
  rw [savedRun_of_error h]
  rintro (⟨-, -, hverified⟩ | ⟨hfailed, -⟩)
  · exact absurd (h.symm.trans hverified) nofun
  · cases hfailed

/-- For every running run, every outcome of the harness and every content of the files: the
saved run is consistent exactly when the harness raises an `Exception`, or returns recordings
of which none that the verification reads fails in a way that is not caught, and the frame
interval of the config is a float where it is asked for. -/
theorem executeStoredRun_consistent_iff (hrun : run.status = .running)
    (memory : InMemoryRunRepository) :
    (∃ saved, (executeStoredRun files math tolerances now outcome run memory).get run.runId =
        some saved ∧ ConsistentlySaved files math tolerances saved) ↔
      outcome = .raises ∨ ∃ result, outcome = .returns result ∧
        (evidence files math tolerances run.resolvedConfig result.recordings
          result.metrics).PtimeFits (pipeline run.resolvedConfig) ∧
        (evidence files math tolerances run.resolvedConfig result.recordings
          result.metrics).CaughtFrom none (pipeline run.resolvedConfig) := by
  have hsaved : (∃ saved, (executeStoredRun files math tolerances now outcome run memory).get
      run.runId = some saved ∧ ConsistentlySaved files math tolerances saved) ↔
      ConsistentlySaved files math tolerances
        (savedRun files math tolerances now outcome run) := by
    simp [get_executeStoredRun]
  rw [hsaved]
  cases outcome with
  | raises => exact iff_of_true (.inr ⟨rfl, rfl, rfl⟩) (.inl rfl)
  | interrupted =>
      refine iff_of_false ?_ (by simp)
      rintro (⟨hstatus, -⟩ | ⟨hstatus, -⟩)
      · exact absurd (hrun.symm.trans hstatus) nofun
      · exact absurd (hrun.symm.trans hstatus) nofun
  | returns result =>
      have hcaught := @Evidence.exists_verifyStages_iff
        (evidence files math tolerances run.resolvedConfig result.recordings result.metrics)
        none (pipeline run.resolvedConfig)
      have hiff : ConsistentlySaved files math tolerances
          (savedRun files math tolerances now (.returns result) run) ↔
          ∃ results, verifyRecordings files math tolerances run.resolvedConfig
            result.recordings result.metrics = .ok results := by
        cases hverify : verifyRecordings files math tolerances run.resolvedConfig
            result.recordings result.metrics with
        | ok results => exact iff_of_true (savedRun_verified hverify) ⟨results, rfl⟩
        | error e => exact iff_of_false (savedRun_unverified hverify) (by simp)
      rw [hiff]
      simpa [verifyRecordings] using hcaught

/-- A running run of two stages, and what the harness returned for it. -/
def twoStageRun : StoredRun :=
  createRunningRun "run-1" "hash" none "provider" "engine" ⟨0, some 0⟩ twoStageConfig {} []

def twoStageResult : HarnessResult := ⟨"conversation", [agcRecording, limiterRecording], [], []⟩

/-- With readable recordings the run is saved with its verifications. -/
theorem executeStoredRun_consistent_tone :
    ∃ saved, (executeStoredRun (fun _ => .ok tone) noMath {} 0 (.returns twoStageResult)
        twoStageRun {}).get "run-1" = some saved ∧
      ConsistentlySaved (fun _ => .ok tone) noMath {} saved := by
  refine (executeStoredRun_consistent_iff rfl {}).mpr
    (.inr ⟨twoStageResult, rfl, ptimeFits_twoStageConfig, ?_⟩)
  intro before stage after previous current hsplit hprevious hcurrent hsignal
  have hcaught : ∀ recording, readWavStats (fun _ => .ok tone) recording ≠ .error .raised := by
    intro recording
    rw [(readable_tone rfl).stats]
    nofun
  exact ⟨hcaught previous, hcaught current⟩

/-- A recording whose samples end in the middle of one: `struct.unpack` raises, and the run is
saved as completed without verifications. -/
theorem executeStoredRun_truncated :
    let files : WavFiles := fun uri =>
      .ok (if uri = "file:///agc.wav" then tone else ⟨1, 2, 2, 8000, [0, 16, 0]⟩)
    ∃ saved, (executeStoredRun files noMath {} 0 (.returns twoStageResult) twoStageRun {}).get
        "run-1" = some saved ∧ saved.status = .completed ∧ saved.verifications = [] ∧
      ¬ ConsistentlySaved files noMath {} saved := by
  intro files
  have hraises : (verifyRecordings files noMath {} twoStageConfig
      [agcRecording, limiterRecording] []).isOk = false := by
    decide +kernel
  cases hverify : verifyRecordings files noMath {} twoStageConfig
      [agcRecording, limiterRecording] [] with
  | ok results =>
      rw [hverify] at hraises
      cases hraises
  | error e =>
      have hunverified : ¬ ConsistentlySaved files noMath {}
          (savedRun files noMath {} 0 (.returns twoStageResult) twoStageRun) :=
        savedRun_unverified hverify
      have hrun := @savedRun_of_error files noMath {} 0 twoStageRun twoStageResult e hverify
      refine ⟨_, get_executeStoredRun {}, ?_, ?_, hunverified⟩
      · rw [hrun]
        rfl
      · rw [hrun]
        rfl

end VoxBench.Verification
