import VoxBench.ControlPlane.Writers

/-!
# Terminal runs

The life of one stored run: the requests that write to it, the executors that write their
result back, and the thread of `_start_background_run`, which assigns the result to the
object that the memory repository stores. In Postgres a request and an executor read the
run in one transaction and write it in another. In memory a request is one step, because a
handler never awaits; an assignment of the thread is one step.

## Main results

* `terminal_immutable` — a run that has ended does not change, as long as every write lands
  while it is running and no thread assigns to the stored object.
* `terminal_run_changes` — what happens otherwise.
-/

namespace VoxBench.ControlPlane

open VoxBench.Lib

/-- Where the run is stored. The memory repository keeps the object itself, Postgres
its rows. -/
inductive Repository where
  | memory
  | postgres
  deriving DecidableEq

/-- What is read back of a run that was saved. -/
def Repository.stored : Repository → StoredRun → StoredRun
  | .memory, run => run
  | .postgres, run => run.asUtc

/-- What an executor writes back: the copy after `_populate_stored_run_result`, or the copy
that `_record_failure` has marked on top of it. -/
inductive Outcome where
  | populated (execution : Execution) (now : Instant)
  | recordedFailure (execution : Execution) (failureAlias : String) (now : Instant)

def Outcome.apply (verify : Verify) (run : StoredRun) : Outcome → StoredRun
  | .populated execution now => populateStoredRunResult verify now execution run
  | .recordedFailure execution failureAlias now =>
      { populateStoredRunResult verify now execution run with
        status := .failed, failureAlias := some failureAlias, endedAt := some (.utc now) }

/-- What `complete_observed_run` makes of a run, unless it has ended. -/
def completeEdit (verify : Verify) (now : Instant) (run : StoredRun) : Option StoredRun :=
  match run.status with
  | .running => some
      (run.completeObserved (verify run.resolvedConfig run.recordings run.metrics) now)
  | .completed | .failed => none

/-- What `fail_observed_run` makes of a run, unless it has ended. -/
def failEdit (failureAlias : String) (now : Instant) (run : StoredRun) : Option StoredRun :=
  match run.status with
  | .running => some (run.failObserved failureAlias now)
  | .completed | .failed => none

/-- What is written to a run: by a request, or by an executor. -/
inductive LifeEdit where
  | sipEvent (event : SipEventResponse)
  | rtpStat (stat : RtpStatResponse)
  /-- An observation batch in an API process with its own audio buffers. -/
  | observations (api : RunApiState) (request : ObservationBatchRequest)
  | complete (now : Instant)
  | fail (failureAlias : String) (now : Instant)
  | execute (outcome : Outcome)

/-- The edited run, unless the request is refused. Ingest of SIP events and RTP stats does
not look at the status. -/
def LifeEdit.apply (verify : Verify) (run : StoredRun) : LifeEdit → Option StoredRun
  | .sipEvent event => some (run.addSipEvent event)
  | .rtpStat stat => some (run.addRtpStat stat)
  | .observations api request => observationEdit api run request
  | .complete now => completeEdit verify now run
  | .fail failureAlias now => failEdit failureAlias now run
  | .execute outcome => some (outcome.apply verify run)

/-- The edit is that of a request. -/
def LifeEdit.isRequest : LifeEdit → Bool
  | .execute _ => false
  | _ => true

/-- The stored run, the copies that were read of it, and the assignments that the background
thread has yet to make. -/
structure RunLife where
  stored : StoredRun
  copies : ℕ → Option StoredRun
  thread : List (StoredRun → StoredRun)

inductive LifeStep where
  /-- A request on the object of the memory repository. -/
  | request (edit : LifeEdit)
  /-- The handler of a request or an executor reads its copy, or an executor keeps the one it
  has created the run with. -/
  | load (w : ℕ)
  /-- It writes its edited copy: a save, or a commit under a lease. -/
  | commit (w : ℕ) (edit : LifeEdit)
  /-- It gives up: a crash, a lost lease, a retry or a failed save. -/
  | drop (w : ℕ)
  /-- The harness returns to the background thread. -/
  | harnessReturns (execution : Execution) (now : Instant)
  /-- The background thread makes its next assignment. -/
  | assign

section Machine

variable (repository : Repository) (verify : Verify)

/-- Save an edited run; a refused request leaves it as it is. -/
def RunLife.save (s : RunLife) : Option StoredRun → RunLife
  | none => s
  | some run => { s with stored := repository.stored run }

def RunLife.next (s : RunLife) : LifeStep → RunLife
  | .request edit => s.save repository (edit.apply verify s.stored)
  | .load w => { s with copies := Function.update s.copies w (some s.stored) }
  | .commit w edit =>
      match s.copies w with
      | none => s
      | some run =>
          { s.save repository (edit.apply verify run) with
            copies := Function.update s.copies w none }
  | .drop w => { s with copies := Function.update s.copies w none }
  | .harnessReturns execution now => { s with thread := resultAssignments verify now execution }
  | .assign =>
      match s.thread with
      | [] => s
      | assign :: left => { s with stored := assign s.stored, thread := left }

/-- A run as `_create_running_run` makes it. `create_observed_run` names a conversation,
and `create_run` on the memory repository has executed it before any other step. -/
def Created (run : StoredRun) : Prop :=
  ∃ runId configHash callId conversationId provider engine startedAt resolvedConfig environment
      readinessChecklist,
    let created : StoredRun :=
      { createRunningRun runId configHash callId provider engine startedAt resolvedConfig
          environment readinessChecklist with conversationId := conversationId }
    run = repository.stored created ∨
      repository = .memory ∧
        ∃ execution now, run = populateStoredRunResult verify now execution created

/-- Copies are read from Postgres; the object itself and the background thread are those of
the memory repository. -/
def lifeMachine : Machine RunLife LifeStep where
  init s := Created repository verify s.stored ∧ (∀ w, s.copies w = none) ∧ s.thread = []
  enabled s
    | .request edit => repository = .memory ∧ edit.isRequest = true
    | .load _ | .commit _ _ | .drop _ => repository = .postgres
    | .harnessReturns _ _ => repository = .memory ∧ s.thread = []
    | .assign => repository = .memory
  next := RunLife.next repository verify

end Machine

/-- The fields of a run that must not change once it has ended. -/
structure RunEvidence where
  status : RunStatus
  endedAt : Option Datetime
  failureAlias : Option String
  recordings : List RecordingArtifact
  metrics : List MetricArtifact
  spans : List SpanArtifact
  verifications : List VerificationResult
  sipEvents : List SipEventResponse
  rtpStats : List RtpStatResponse
  timelineEvents : List TimelineEventArtifact

def StoredRun.evidence (run : StoredRun) : RunEvidence :=
  ⟨run.status, run.endedAt, run.failureAlias, run.recordings, run.metrics, run.spans,
    run.verifications, run.sipEvents, run.rtpStats, run.timelineEvents⟩

/-- A run has an end exactly when its status is terminal, and a failure alias exactly when
it has failed. -/
structure StoredRun.Consistent (run : StoredRun) : Prop where
  ended : run.endedAt.isSome = run.status.terminal
  failure : run.failureAlias.isSome = decide (run.status = .failed)

/-- Every state of a run is consistent, and from the first terminal state on the evidence
stays as it is. -/
def TerminalImmutable (repository : Repository) (verify : Verify) (s : RunLife)
    (ls : List LifeStep) : Prop :=
  let M := lifeMachine repository verify
  (∀ ks, ks <+: ls → (M.exec s ks).stored.Consistent) ∧
    ∀ ks ms, ks ++ ms <+: ls → (M.exec s ks).stored.status.terminal = true →
      (M.exec s (ks ++ ms)).stored.evidence = (M.exec s ks).stored.evidence

/-- What is written lands while the stored run is running, and no thread assigns to the
stored object. A refused request writes nothing; on the stored object itself that leaves SIP
events and RTP stats. -/
def WritesWhileRunning (verify : Verify) (s : RunLife) : LifeStep → Prop
  | .request edit => edit.apply verify s.stored = none ∨ s.stored.status = .running
  | .commit w edit =>
      (∀ run, s.copies w = some run → edit.apply verify run = none) ∨ s.stored.status = .running
  | .assign => s.thread = []
  | .load _ | .drop _ | .harnessReturns .. => True

/-! ## What a step keeps -/

/-- The stored run is consistent, and while it is running so are the copies of it. -/
structure LifeInv (s : RunLife) : Prop where
  consistent : s.stored.Consistent
  copies : s.stored.status = .running → ∀ w run, s.copies w = some run →
    run.Consistent ∧ run.status = .running

section Steps

variable {repository : Repository} {verify : Verify} {s : RunLife} {run run' : StoredRun}

theorem consistent_stored (h : run.Consistent) : (repository.stored run).Consistent := by
  cases repository with
  | memory => exact h
  | postgres => exact ⟨by simpa [Repository.stored, StoredRun.asUtc] using h.ended, h.failure⟩

@[simp] theorem status_stored : (repository.stored run).status = run.status := by
  cases repository <;> rfl

theorem StoredRun.Consistent.alias_of_running (h : run.Consistent) (hrun : run.status = .running) :
    run.failureAlias = none := by
  have halias := h.failure
  rw [hrun] at halias
  simpa using halias

theorem completeEdit_eq_some {now : Instant} (h : completeEdit verify now run = some run') :
    run.status = .running ∧ run' = run.completeObserved
      (verify run.resolvedConfig run.recordings run.metrics) now := by
  unfold completeEdit at h
  cases hstatus : run.status with
  | running => exact ⟨rfl, by simpa [hstatus] using h.symm⟩
  | completed | failed => simp [hstatus] at h

theorem failEdit_eq_some {failureAlias : String} {now : Instant}
    (h : failEdit failureAlias now run = some run') :
    run.status = .running ∧ run' = run.failObserved failureAlias now := by
  unfold failEdit at h
  cases hstatus : run.status with
  | running => exact ⟨rfl, by simpa [hstatus] using h.symm⟩
  | completed | failed => simp [hstatus] at h

/-- An executed copy without a failure of its own is consistent. -/
theorem consistent_apply (outcome : Outcome) (h : run.failureAlias = none) :
    (outcome.apply verify run).Consistent ∧ (outcome.apply verify run).status.terminal = true := by
  cases outcome with
  | populated execution now =>
      cases execution with
      | succeeds result | verifyRaises result =>
          exact ⟨⟨rfl, by simp [Outcome.apply, populateStoredRunResult, resultAssignments,
            harnessAssignments, h]⟩, rfl⟩
      | raises => exact ⟨⟨rfl, rfl⟩, rfl⟩
  | recordedFailure execution failureAlias now => exact ⟨⟨rfl, rfl⟩, rfl⟩

/-- An edit of a consistent running run is consistent. -/
theorem consistent_edit {edit : LifeEdit} (h : edit.apply verify run = some run')
    (hrun : run.Consistent) (hrunning : run.status = .running) : run'.Consistent := by
  cases edit with
  | sipEvent event | rtpStat stat =>
      cases h
      exact ⟨hrun.ended, hrun.failure⟩
  | observations api request =>
      obtain ⟨recordings, rfl⟩ := observationEdit_spec h
      exact ⟨hrun.ended, hrun.failure⟩
  | complete now =>
      obtain ⟨-, rfl⟩ := completeEdit_eq_some h
      refine ⟨rfl, ?_⟩
      simp [StoredRun.completeObserved, hrun.alias_of_running hrunning]
  | fail failureAlias now =>
      obtain ⟨-, rfl⟩ := failEdit_eq_some h
      exact ⟨rfl, rfl⟩
  | execute outcome =>
      cases h
      exact (consistent_apply outcome (hrun.alias_of_running hrunning)).1

/-- A save of an edited running run. -/
theorem lifeInv_save {edit : LifeEdit} (hs : LifeInv s) (hstored : s.stored.status = .running)
    (hrun : run.Consistent) (hrunning : run.status = .running) :
    LifeInv (s.save repository (edit.apply verify run)) := by
  cases hedit : edit.apply verify run with
  | none => exact hs
  | some run' =>
      have hconsistent := consistent_edit hedit hrun hrunning
      exact ⟨consistent_stored hconsistent, fun _ => hs.copies hstored⟩

/-- Dropping a copy. -/
theorem lifeInv_drop (hs : LifeInv s) (w : ℕ) :
    LifeInv { s with copies := Function.update s.copies w none } := by
  refine ⟨hs.consistent, fun hrun w' copy hcopy => ?_⟩
  by_cases hww : w' = w
  · subst hww
    simp at hcopy
  · simp only [Function.update_of_ne hww] at hcopy
    exact hs.copies hrun w' copy hcopy

/-- Every write meets a running run and leaves a consistent one. -/
theorem lifeInv_next {l : LifeStep} (hl : WritesWhileRunning verify s l) (hs : LifeInv s) :
    LifeInv (s.next repository verify l) ∧ (s.stored.status.terminal = true →
      (s.next repository verify l).stored.evidence = s.stored.evidence) := by
  -- a write in a running state has nothing to keep
  have hopen : ∀ {p : Prop}, s.stored.status = .running → s.stored.status.terminal = true → p := by
    intro p hrun hterminal
    rw [hrun] at hterminal
    cases hterminal
  cases l with
  | request edit =>
      rcases hl with hrefused | hrun
      · simpa [RunLife.next, RunLife.save, hrefused] using hs
      · exact ⟨lifeInv_save hs hrun hs.consistent hrun, hopen hrun⟩
  | load w =>
      refine ⟨⟨hs.consistent, fun hrun w' copy hcopy => ?_⟩, fun _ => rfl⟩
      by_cases hww : w' = w
      · subst hww
        simp only [RunLife.next, Function.update_self, Option.some.injEq] at hcopy
        rw [← hcopy]
        exact ⟨hs.consistent, hrun⟩
      · simp only [RunLife.next, Function.update_of_ne hww] at hcopy
        exact hs.copies hrun w' copy hcopy
  | commit w edit =>
      cases hcopy : s.copies w with
      | none => simpa [RunLife.next, hcopy] using hs
      | some run =>
          simp only [RunLife.next, hcopy]
          rcases hl with hrefused | hrun
          · rw [hrefused run hcopy]
            exact ⟨lifeInv_drop hs w, fun _ => rfl⟩
          · obtain ⟨hconsistent, hrunning⟩ := hs.copies hrun w run hcopy
            have hsave := @lifeInv_save repository verify _ _ edit hs hrun hconsistent hrunning
            have hsame : (s.save repository (edit.apply verify run)).copies = s.copies := by
              cases edit.apply verify run <;> rfl
            have hdrop := lifeInv_drop hsave w
            rw [hsame] at hdrop
            exact ⟨hdrop, hopen hrun⟩
  | drop w => exact ⟨lifeInv_drop hs w, fun _ => rfl⟩
  | harnessReturns execution now => exact ⟨⟨hs.consistent, hs.copies⟩, fun _ => rfl⟩
  | assign =>
      have hthread : s.thread = [] := hl
      simpa [RunLife.next, hthread] using hs

theorem lifeInv_init (h : (lifeMachine repository verify).init s) : LifeInv s := by
  obtain ⟨⟨runId, configHash, callId, conversationId, provider, engine, startedAt, resolvedConfig,
    environment, readinessChecklist, hstored⟩, hcopies, -⟩ := h
  refine ⟨?_, fun _ w run hrun => by simp [hcopies w] at hrun⟩
  rcases hstored with hstored | ⟨-, execution, now, hstored⟩
  · rw [hstored]
    exact consistent_stored ⟨rfl, rfl⟩
  · rw [hstored]
    exact (consistent_apply (.populated execution now) rfl).1

theorem lifeInv_exec {ls : List LifeStep}
    (hls : (lifeMachine repository verify).Along (WritesWhileRunning verify) s ls) (hs : LifeInv s) :
    LifeInv ((lifeMachine repository verify).exec s ls) := by
  have hstep : ∀ t l, WritesWhileRunning verify t l → LifeInv t →
      LifeInv ((lifeMachine repository verify).next t l) := fun t l hl ht => (lifeInv_next hl ht).1
  exact hls.invariant hstep hs

/-- From a terminal state on, the evidence is carried along the run step by step. -/
theorem evidence_exec {ls : List LifeStep}
    (hls : (lifeMachine repository verify).Along (WritesWhileRunning verify) s ls) (hs : LifeInv s)
    (hterminal : s.stored.status.terminal = true) :
    ((lifeMachine repository verify).exec s ls).stored.evidence = s.stored.evidence := by
  have hstep : ∀ t l, WritesWhileRunning verify t l →
      LifeInv t ∧ t.stored.evidence = s.stored.evidence →
      LifeInv ((lifeMachine repository verify).next t l) ∧
        ((lifeMachine repository verify).next t l).stored.evidence = s.stored.evidence := by
    rintro t l hl ⟨ht, hsame⟩
    have hstatus : t.stored.status = s.stored.status := congrArg RunEvidence.status hsame
    have hnext := @lifeInv_next repository verify _ _ hl ht
    rw [hstatus] at hnext
    exact ⟨hnext.1, (hnext.2 hterminal).trans hsame⟩
  exact (hls.invariant hstep ⟨hs, rfl⟩).2

/-- In every life of a run in which every write lands while it is running and no thread
assigns to the stored object, every stored state is consistent, and from the first terminal
one on no step changes the evidence. -/
theorem terminal_immutable {ls : List LifeStep} (h₀ : (lifeMachine repository verify).init s)
    (hls : (lifeMachine repository verify).Along (WritesWhileRunning verify) s ls) :
    TerminalImmutable repository verify s ls := by
  refine ⟨fun ks hks => ?_, fun ks ms hks hterminal => ?_⟩
  · obtain ⟨rest, rfl⟩ := hks
    exact (lifeInv_exec (Machine.along_append.mp hls).1 (lifeInv_init h₀)).consistent
  · obtain ⟨rest, rfl⟩ := hks
    obtain ⟨hks, hms⟩ := Machine.along_append.mp (Machine.along_append.mp hls).1
    rw [Machine.exec_append]
    exact evidence_exec hms (lifeInv_exec hks (lifeInv_init h₀)) hterminal

end Steps

/-! ## Requests are steps

On a Postgres repository, a request with a reachable database reads the stored run and
commits the edit of its name. -/

section Requests

variable {verify : Verify} {state : RunApiState} {k : Uuid} {run run' : StoredRun}

/-- What a copy becomes that is read and written at once. -/
theorem stored_exec_load_commit (copies : ℕ → Option StoredRun)
    (thread : List (StoredRun → StoredRun)) (w : ℕ) (edit : LifeEdit) :
    ((lifeMachine .postgres verify).exec ⟨run, copies, thread⟩ [.load w, .commit w edit]).stored =
      ((edit.apply verify run).map StoredRun.asUtc).getD run := by
  simp only [Machine.exec, List.foldl, lifeMachine, RunLife.next, Function.update_self]
  cases edit.apply verify run <;> rfl

variable (hfind : state.repository.find? k = some run) (copies : ℕ → Option StoredRun)
  (thread : List (StoredRun → StoredRun)) (w : ℕ)

include hfind

/-- What a save stores of an edit that leaves the timeline alone. -/
theorem find?_save_of_timelineEvents (api : RunApiState) (run' : StoredRun)
    (hid : run'.runId = run.runId)
    (hevents : run'.timelineEvents = run.timelineEvents) :
    ∃ store, api.save run' false = .ok { api with repository := store } ∧
      store.find? k = some run'.asUtc := by
  have hk := RunStore.runId_of_find? hfind
  have hnodup := RunStore.nodup_eventId_of_find? hfind
  rw [← hid] at hk
  rw [← hevents] at hnodup
  exact find?_save_edit hk hnodup

theorem find?_ingestSipEvent (request : SipEventRequest) (hid : request.runId = k.str) :
    (ingestSipEvent state request false).2.repository.find? k = some
      ((lifeMachine .postgres verify).exec ⟨run, copies, thread⟩
        [.load w, .commit w (.sipEvent request.event)]).stored := by
  rw [stored_exec_load_commit]
  obtain ⟨store, hsave, hstore⟩ := find?_save_of_timelineEvents hfind state
    (run.addSipEvent request.event) rfl rfl
  simp only [ingestSipEvent, hid, RunStore.get_str, hfind, hsave]
  exact hstore

theorem find?_ingestRtpStat (request : RtpStatRequest) (hid : request.runId = k.str) :
    (ingestRtpStat state request false).2.repository.find? k = some
      ((lifeMachine .postgres verify).exec ⟨run, copies, thread⟩
        [.load w, .commit w (.rtpStat request.stat)]).stored := by
  rw [stored_exec_load_commit]
  obtain ⟨store, hsave, hstore⟩ := find?_save_of_timelineEvents hfind state
    (run.addRtpStat request.stat) rfl rfl
  simp only [ingestRtpStat, hid, RunStore.get_str, hfind, hsave]
  exact hstore

theorem find?_ingestObservationBatch (request : ObservationBatchRequest)
    (hid : request.runId = k.str) :
    (ingestObservationBatch state request false).2.repository.find? k = some
      ((lifeMachine .postgres verify).exec ⟨run, copies, thread⟩
        [.load w, .commit w (.observations state request)]).stored := by
  rw [stored_exec_load_commit]
  cases hcheck : checkObservationBatch state run request with
  | error e =>
      simp only [ingestObservationBatch, hid, RunStore.get_str, hfind, hcheck, LifeEdit.apply,
        observationEdit, Option.map_none, Option.getD_none]
  | ok decoded =>
      obtain ⟨-, hfst, -, hfits⟩ := checkObservationBatch_spec hcheck
      rw [← hfst] at hfits
      obtain ⟨state₁, written, hwrite, -, hrun, -⟩ := writeAllAudio_spec hfits
      have hk : written.runId = k.str := by
        rw [hrun]
        exact @RunStore.runId_of_find? _ run _ hfind
      have hevents : written.timelineEvents = run.timelineEvents := by rw [hrun]
      have hnodup := @nodup_addObservations request _
        (by rw [hevents]; exact RunStore.nodup_eventId_of_find? hfind)
      obtain ⟨store, hsave, hstore⟩ :=
        @find?_save_edit state₁ _ (written.addObservations request) hk hnodup
      simp only [ingestObservationBatch, hid, RunStore.get_str, hfind, hcheck, hwrite, hsave,
        LifeEdit.apply, observationEdit]
      exact hstore

theorem find?_completeObservedRun (now : Instant) :
    (completeObservedRun verify state k.str now false).2.repository.find? k = some
      ((lifeMachine .postgres verify).exec ⟨run, copies, thread⟩
        [.load w, .commit w (.complete now)]).stored := by
  rw [stored_exec_load_commit]
  cases hstatus : run.status with
  | completed | failed =>
      simp [completeObservedRun, hfind, hstatus, LifeEdit.apply, completeEdit]
  | running =>
      obtain ⟨store, hsave, hstore⟩ := find?_save_of_timelineEvents hfind (state.dropBuffers k.str)
        (run.completeObserved (verify run.resolvedConfig run.recordings run.metrics) now) rfl rfl
      simp only [completeObservedRun, RunStore.get_str, hfind, hstatus, hsave, LifeEdit.apply,
        completeEdit]
      exact hstore

theorem find?_failObservedRun (failureAlias : String) (now : Instant) :
    (failObservedRun state k.str failureAlias now false).2.repository.find? k = some
      ((lifeMachine .postgres verify).exec ⟨run, copies, thread⟩
        [.load w, .commit w (.fail failureAlias now)]).stored := by
  rw [stored_exec_load_commit]
  cases hstatus : run.status with
  | completed | failed =>
      simp [failObservedRun, hfind, hstatus, LifeEdit.apply, failEdit]
  | running =>
      obtain ⟨store, hsave, hstore⟩ := find?_save_of_timelineEvents hfind (state.dropBuffers k.str)
        (run.failObserved failureAlias now) rfl rfl
      simp only [failObservedRun, RunStore.get_str, hfind, hstatus, hsave, LifeEdit.apply,
        failEdit]
      exact hstore

end Requests

/-! ## Writes that come too late -/

section Late

variable {repository : Repository} {verify : Verify} {s : RunLife}

/-- A SIP event is appended to any run. -/
theorem evidence_next_sipEvent (event : SipEventResponse) {w : ℕ}
    (hw : s.copies w = some s.stored) :
    (s.next repository verify (.commit w (.sipEvent event))).stored.evidence ≠
      s.stored.evidence := by
  intro hsame
  have hlength : (s.next repository verify (.commit w (.sipEvent event))).stored.sipEvents.length =
      s.stored.sipEvents.length := congrArg (fun e => e.sipEvents.length) hsame
  cases repository <;>
    simp [RunLife.next, hw, LifeEdit.apply, RunLife.save, Repository.stored, StoredRun.asUtc,
      StoredRun.addSipEvent] at hlength

/-- An RTP stat is appended to any run. -/
theorem evidence_next_rtpStat (stat : RtpStatResponse) {w : ℕ}
    (hw : s.copies w = some s.stored) :
    (s.next repository verify (.commit w (.rtpStat stat))).stored.evidence ≠
      s.stored.evidence := by
  intro hsame
  have hlength : (s.next repository verify (.commit w (.rtpStat stat))).stored.rtpStats.length =
      s.stored.rtpStats.length := congrArg (fun e => e.rtpStats.length) hsame
  cases repository <;>
    simp [RunLife.next, hw, LifeEdit.apply, RunLife.save, Repository.stored, StoredRun.asUtc,
      StoredRun.addRtpStat] at hlength

/-- The background thread never gets through its assignments without an inconsistent
state, since it sets the status of a running run before its end. -/
theorem thread_inconsistent {execution : Execution} {now : Instant}
    (hs : s.stored.Consistent) (hrun : s.stored.status = .running)
    (hthread : s.thread = resultAssignments verify now execution) :
    ∃ n, ¬ ((lifeMachine repository verify).exec s (List.replicate n .assign)).stored.Consistent := by
  have hended : s.stored.endedAt.isSome = false := by rw [hs.ended, hrun]; rfl
  cases execution with
  | succeeds result | verifyRaises result =>
      refine ⟨2, fun h => ?_⟩
      have hlate := h.ended
      simp only [List.replicate, Machine.exec, List.foldl, lifeMachine, RunLife.next, hthread,
        resultAssignments, harnessAssignments, List.cons_append] at hlate
      rw [hended] at hlate
      cases hlate
  | raises =>
      refine ⟨1, fun h => ?_⟩
      have hlate := h.ended
      simp only [List.replicate, Machine.exec, List.foldl, lifeMachine, RunLife.next, hthread,
        resultAssignments] at hlate
      rw [hended] at hlate
      cases hlate

end Late

/-- A created run with nothing going on. -/
def lifeStart : RunLife := ⟨observedRun, fun _ => none, []⟩

/-- The run is completed, and then a SIP event arrives. -/
def sipAfterComplete : List LifeStep :=
  [.load 0, .commit 0 (.complete 1), .load 1, .commit 1 (.sipEvent (sipEvent "BYE"))]

/-- A worker commits a run that was failed while it executed. -/
def commitAfterFail : List LifeStep :=
  [.load 0, .load 1, .commit 1 (.fail "provider-closed" 1),
    .commit 0 (.execute (.populated (.succeeds ⟨"conversation", [], [], []⟩) 2))]

/-- A request that read the run before its completion saves it after that. -/
def saveAfterComplete : List LifeStep :=
  [.load 0, .load 1, .commit 1 (.complete 1), .commit 0 (.sipEvent (sipEvent "INVITE"))]

/-- The background thread has assigned the conversation and the status. -/
def threadSteps : List LifeStep :=
  [.harnessReturns (.succeeds ⟨"conversation", [], [], []⟩) 1, .assign, .assign]

theorem init_lifeStart (repository : Repository) (verify : Verify) :
    (lifeMachine repository verify).init lifeStart := by
  refine ⟨⟨(Uuid.ofNat 1).str, "hash", none, "observed-" ++ (Uuid.ofNat 1).str, "echo",
    "loopback", .utc 0, observedRun.resolvedConfig, {}, [], .inl ?_⟩, fun _ => rfl, rfl⟩
  cases repository <;> rfl

/-- Lives of a run, each of them legal, that do not keep it: a SIP event is appended to a
completed run, a commit completes a failed one, a save from an earlier read makes a completed
run running again, and the thread of the memory repository leaves a completed run without an
end. -/
theorem terminal_run_changes :
    ((lifeMachine .postgres noVerify).init lifeStart ∧
      ((lifeMachine .postgres noVerify).Legal lifeStart sipAfterComplete ∧
        ¬ TerminalImmutable .postgres noVerify lifeStart sipAfterComplete) ∧
      ((lifeMachine .postgres noVerify).Legal lifeStart commitAfterFail ∧
        ¬ TerminalImmutable .postgres noVerify lifeStart commitAfterFail) ∧
      ((lifeMachine .postgres noVerify).Legal lifeStart saveAfterComplete ∧
        ¬ TerminalImmutable .postgres noVerify lifeStart saveAfterComplete)) ∧
    ((lifeMachine .memory noVerify).init lifeStart ∧
      (lifeMachine .memory noVerify).Legal lifeStart threadSteps ∧
        ¬ TerminalImmutable .memory noVerify lifeStart threadSteps) := by
  refine ⟨⟨init_lifeStart _ _, ⟨⟨rfl, rfl, rfl, rfl, trivial⟩, fun h => ?_⟩,
    ⟨⟨rfl, rfl, rfl, rfl, trivial⟩, fun h => ?_⟩, ⟨⟨rfl, rfl, rfl, rfl, trivial⟩, fun h => ?_⟩⟩,
    ⟨init_lifeStart _ _, ⟨⟨rfl, rfl⟩, rfl, rfl, trivial⟩, fun h => ?_⟩⟩
  · exact @evidence_next_sipEvent .postgres noVerify
      ((lifeMachine .postgres noVerify).exec lifeStart (sipAfterComplete.take 3))
      (sipEvent "BYE") 1 rfl
      (h.2 (sipAfterComplete.take 3) (sipAfterComplete.drop 3) (List.prefix_refl _) rfl)
  · have hstatus := congrArg RunEvidence.status (h.2 (commitAfterFail.take 3)
      (commitAfterFail.drop 3) (List.prefix_refl _) rfl)
    cases hstatus
  · have hstatus := congrArg RunEvidence.status (h.2 (saveAfterComplete.take 3)
      (saveAfterComplete.drop 3) (List.prefix_refl _) rfl)
    cases hstatus
  · have hlate := (h.1 threadSteps (List.prefix_refl _)).ended
    cases hlate

/-- A SIP event before the completion, a worker that commits before a failure, and requests
that are refused afterwards. -/
theorem terminal_immutable_in_order :
    TerminalImmutable .postgres noVerify lifeStart
      [.load 0, .load 1, .commit 1 (.sipEvent (sipEvent "INVITE")),
        .commit 0 (.execute (.populated (.succeeds ⟨"conversation", [], [], []⟩) 1)),
        .load 2, .commit 2 (.fail "provider-closed" 2), .load 3, .commit 3 (.complete 3)] :=
  terminal_immutable (init_lifeStart _ _)
    ⟨trivial, trivial, .inr rfl, .inr rfl, trivial, .inl fun run hrun => by cases hrun; rfl,
      trivial, .inl fun run hrun => by cases hrun; rfl, trivial⟩

end VoxBench.ControlPlane
