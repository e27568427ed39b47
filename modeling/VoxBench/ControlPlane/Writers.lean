import VoxBench.ControlPlane.Execution
import VoxBench.Lib.Machine

/-!
# Writers of one run

A writer of a stored run reads it in one transaction and writes its edited copy back in
another: an ingest request appends to the copy, a worker executes it. A write replaces
the header and all child rows of the run, with no check of what happened since the read.
The machine below lets any number of writers interleave at their transactions.

## Main results

* `acknowledged_kept` — what ingest requests on a run acknowledged is kept as long as no
  other ingest of that run lands between a writer's read and its own write.
* `acknowledged_lost` — what is lost otherwise, and what is replaced by design.
-/

namespace VoxBench.ControlPlane

open VoxBench.Lib

/-- An edit of a copied run. -/
inductive RunUpdate where
  | sipEvent (event : SipEventResponse)
  | rtpStat (stat : RtpStatResponse)
  /-- An observation batch in an API process with its own audio buffers. -/
  | observations (api : RunApiState) (request : ObservationBatchRequest)
  /-- The successful execution of the run by a worker. -/
  | execute (result : HarnessResult) (now : Instant)
  /-- The failure that a worker records on the last attempt, after the execution has left
  its assignments in the copy. -/
  | recordFailure (execution : Execution) (failureAlias : String) (now : Instant)

/-- What an accepted observation batch makes of its copy of the run. -/
def observationEdit (api : RunApiState) (stored : StoredRun) (request : ObservationBatchRequest) :
    Option StoredRun :=
  match checkObservationBatch api stored request with
  | .error _ => none
  | .ok decoded =>
      match writeAllAudio api stored decoded with
      | (.ok (), _, written) => some (written.addObservations request)
      | (.error _, _, _) => none

/-- The edited copy, unless the request is refused. -/
def RunUpdate.edit (verify : Verify) (update : RunUpdate) (run : StoredRun) : Option StoredRun :=
  match update with
  | .sipEvent event => some (run.addSipEvent event)
  | .rtpStat stat => some (run.addRtpStat stat)
  | .observations api request => observationEdit api run request
  | .execute result now => some (populateStoredRunResult verify now (.succeeds result) run)
  | .recordFailure execution failureAlias now =>
      some { populateStoredRunResult verify now execution run with
        status := .failed, failureAlias := some failureAlias, endedAt := some (.utc now) }

/-- The update carries items that a successful request acknowledges. -/
def RunUpdate.carries : RunUpdate → Bool
  | .sipEvent _ | .rtpStat _ => true
  | .observations _ request =>
      !(request.sipEvents.isEmpty && request.rtpStats.isEmpty && request.metrics.isEmpty &&
        request.timelineEvents.isEmpty)
  | .execute .. | .recordFailure .. => false

/-- What ingest requests on a run have acknowledged, on the UTC clock. Metrics are
counted from the last harness result, which replaces them. -/
structure Acknowledged where
  sipEvents : List SipEventResponse := []
  rtpStats : List RtpStatResponse := []
  metrics : List MetricArtifact := []
  eventIds : List String := []

def Acknowledged.add (a : Acknowledged) : RunUpdate → Acknowledged
  | .sipEvent event => { a with sipEvents := a.sipEvents ++ [event.asUtc] }
  | .rtpStat stat => { a with rtpStats := a.rtpStats ++ [stat.asUtc] }
  | .observations _ request =>
      { sipEvents := a.sipEvents ++
          request.sipEvents.map fun e => (SipEventObservationRequest.event e).asUtc
        rtpStats := a.rtpStats ++
          request.rtpStats.map fun r => (RtpStatObservationRequest.stat r).asUtc
        metrics := a.metrics ++
          request.metrics.map fun m => (MetricObservationRequest.artifact m).asUtc
        eventIds := a.eventIds ++ request.timelineEvents.map fun e => e.eventId }
  | .execute .. | .recordFailure (.succeeds _) .. | .recordFailure (.verifyRaises _) .. =>
      { a with metrics := [] }
  | .recordFailure .raises .. => a

/-- A writer between its transactions. `seen` is the number of ingests of the run that
had landed when it read its copy. -/
inductive Writer where
  | idle
  | holding (runUuid : Uuid) (run : StoredRun) (seen : ℕ)

/-- The stored runs and their writers. `ingests`, the number of writes that carried items,
and `acknowledged` record what happened. -/
structure WriterState where
  store : RunStore
  writers : ℕ → Writer
  ingests : Uuid → ℕ
  acknowledged : Uuid → Acknowledged

/-- A step: a writer reads a run, writes its edited copy back, or gives up (an error, a
crash, or a commit refused for its lease). -/
inductive WriterStep where
  | get (w : ℕ) (runUuid : Uuid)
  | put (w : ℕ) (update : RunUpdate)
  | abandon (w : ℕ)

/-- The store that the write of a copy leaves, unless the request is refused or its save
raises. -/
def WriterState.written (verify : Verify) (s : WriterState) (runUuid : Uuid) (run : StoredRun)
    (update : RunUpdate) : Option RunStore :=
  (update.edit verify run).bind fun run' => (s.store.saveInSession run' runUuid).toOption

/-- The write of a copy, with its acknowledgement. -/
def WriterState.put (verify : Verify) (s : WriterState) (runUuid : Uuid) (run : StoredRun)
    (update : RunUpdate) : WriterState :=
  match s.written verify runUuid run update with
  | none => s
  | some store =>
      { s with
        store := store
        ingests := Function.update s.ingests runUuid
          (s.ingests runUuid + if update.carries then 1 else 0)
        acknowledged := Function.update s.acknowledged runUuid
          ((s.acknowledged runUuid).add update) }

def writerMachine (verify : Verify) : Machine WriterState WriterStep where
  init s := (∀ w, s.writers w = .idle) ∧ (∀ k, s.ingests k = 0) ∧ ∀ k, s.acknowledged k = {}
  enabled _ _ := True
  next s
    | .get w runUuid =>
        match s.store.find? runUuid with
        | none => s
        | some run =>
            { s with
              writers := Function.update s.writers w (.holding runUuid run (s.ingests runUuid)) }
    | .put w update =>
        match s.writers w with
        | .idle => s
        | .holding runUuid run _ =>
            { s.put verify runUuid run update with
              writers := Function.update s.writers w .idle }
    | .abandon w => { s with writers := Function.update s.writers w .idle }

/-- A write of the run `k` that lands is based on all ingests of that run: none of them
landed since its writer read the run. -/
def NoConflict (verify : Verify) (k : Uuid) (s : WriterState) : WriterStep → Prop
  | .put w update =>
      match s.writers w with
      | .idle => True
      | .holding runUuid run seen =>
          runUuid = k → (s.written verify runUuid run update).isSome → s.ingests runUuid = seen
  | .get .. | .abandon _ => True

instance (verify : Verify) (k : Uuid) (s : WriterState) : ∀ l, Decidable (NoConflict verify k s l)
  | .get .. | .abandon .. => isTrue trivial
  | .put w update =>
      match h : s.writers w with
      | .idle => isTrue (by simp [NoConflict, h])
      | .holding runUuid run seen =>
          decidable_of_iff (runUuid = k → (s.written verify runUuid run update).isSome →
            s.ingests runUuid = seen) (by simp [NoConflict, h])

/-! ## What an edit keeps -/

/-- Everything acknowledged is in the run, in its order; of a timeline event, an event
with its id. -/
structure Acknowledged.Kept (a : Acknowledged) (run : StoredRun) : Prop where
  sipEvents : a.sipEvents.Sublist run.sipEvents
  rtpStats : a.rtpStats.Sublist run.rtpStats
  metrics : a.metrics.Sublist run.metrics
  eventIds : ∀ id ∈ a.eventIds, id ∈ run.timelineEvents.map TimelineEventArtifact.eventId

section Edit

variable {verify : Verify} {a : Acknowledged} {run run' : StoredRun} {update : RunUpdate}

theorem observationEdit_spec {api : RunApiState} {request : ObservationBatchRequest}
    (h : observationEdit api run request = some run') :
    ∃ recordings, run' = { run.addObservations request with recordings := recordings } := by
  unfold observationEdit at h
  cases hcheck : checkObservationBatch api run request with
  | error e => simp [hcheck] at h
  | ok decoded =>
      obtain ⟨-, hfst, -, hfits⟩ := checkObservationBatch_spec hcheck
      rw [← hfst] at hfits
      obtain ⟨api', written, hwrite, -, hrun, -⟩ := writeAllAudio_spec hfits
      simp only [hcheck, hwrite, Option.some.injEq] at h
      refine ⟨written.recordings, ?_⟩
      rw [← h, hrun]
      rfl

/-- Every id of a batch is the id of an event of the edited run. -/
theorem eventId_mem_addObservations {request : ObservationBatchRequest}
    {e : TimelineEventObservationRequest} (he : e ∈ request.timelineEvents) :
    e.eventId ∈ (run.addObservations request).timelineEvents.map TimelineEventArtifact.eventId := by
  simp only [StoredRun.addObservations, List.map_append, List.map_map, List.mem_append]
  by_cases hold : e.eventId ∈ run.timelineEvents.map TimelineEventArtifact.eventId
  · exact .inl hold
  · exact .inr (List.mem_map.mpr ⟨e, List.mem_filter.mpr ⟨he, by simpa using hold⟩, rfl⟩)

/-- An edit of a run as it is stored keeps what was acknowledged and adds its own. -/
theorem kept_edit (h : update.edit verify run = some run') (hutc : run.asUtc = run)
    (hkept : a.Kept run) : (a.add update).Kept run'.asUtc := by
  have hsip : run.sipEvents.map SipEventResponse.asUtc = run.sipEvents :=
    congrArg StoredRun.sipEvents hutc
  have hrtp : run.rtpStats.map RtpStatResponse.asUtc = run.rtpStats :=
    congrArg StoredRun.rtpStats hutc
  have hmetrics : run.metrics.map MetricArtifact.asUtc = run.metrics :=
    congrArg StoredRun.metrics hutc
  have hsip' : a.sipEvents.Sublist (run.sipEvents.map SipEventResponse.asUtc) := by
    rw [hsip]
    exact hkept.sipEvents
  have hrtp' : a.rtpStats.Sublist (run.rtpStats.map RtpStatResponse.asUtc) := by
    rw [hrtp]
    exact hkept.rtpStats
  have hmetrics' : a.metrics.Sublist (run.metrics.map MetricArtifact.asUtc) := by
    rw [hmetrics]
    exact hkept.metrics
  have hids : ∀ id ∈ a.eventIds, id ∈ (run.timelineEvents.map TimelineEventArtifact.asUtc).map
      TimelineEventArtifact.eventId := by
    rw [RunStore.map_eventId_asUtc]
    exact hkept.eventIds
  cases update with
  | sipEvent event =>
      cases h
      refine ⟨?_, hrtp', hmetrics', hids⟩
      simp only [Acknowledged.add, StoredRun.asUtc, StoredRun.addSipEvent, List.map_append]
      exact hsip'.append (List.Sublist.refl _)
  | rtpStat stat =>
      cases h
      refine ⟨hsip', ?_, hmetrics', hids⟩
      simp only [Acknowledged.add, StoredRun.asUtc, StoredRun.addRtpStat, List.map_append]
      exact hrtp'.append (List.Sublist.refl _)
  | observations api request =>
      obtain ⟨recordings, rfl⟩ := observationEdit_spec h
      refine ⟨?_, ?_, ?_, fun id hid => ?_⟩
      · simp only [Acknowledged.add, StoredRun.asUtc, StoredRun.addObservations, List.map_append,
          List.map_map]
        exact hsip'.append (List.Sublist.refl _)
      · simp only [Acknowledged.add, StoredRun.asUtc, StoredRun.addObservations, List.map_append,
          List.map_map]
        exact hrtp'.append (List.Sublist.refl _)
      · simp only [Acknowledged.add, StoredRun.asUtc, StoredRun.addObservations, List.map_append,
          List.map_map]
        exact hmetrics'.append (List.Sublist.refl _)
      · simp only [StoredRun.asUtc]
        rw [RunStore.map_eventId_asUtc]
        rcases List.mem_append.mp hid with hid | hid
        · have hold := hkept.eventIds id hid
          simp only [StoredRun.addObservations, List.map_append, List.mem_append]
          exact .inl hold
        · obtain ⟨e, he, rfl⟩ := List.mem_map.mp hid
          exact eventId_mem_addObservations he
  | execute result now =>
      cases h
      exact ⟨hsip', hrtp', List.nil_sublist _, hids⟩
  | recordFailure execution failureAlias now =>
      cases h
      cases execution with
      | succeeds result | verifyRaises result =>
          exact ⟨hsip', hrtp', List.nil_sublist _, hids⟩
      | raises => exact ⟨hsip', hrtp', hmetrics', hids⟩

end Edit

/-! ## Runs of writers -/

section Writers

variable {verify : Verify} {s : WriterState}

/-- An update that carries nothing acknowledges nothing, and at most takes the metrics. -/
theorem Acknowledged.Kept.add_of_not_carries {a : Acknowledged} {run : StoredRun}
    {update : RunUpdate} (h : a.Kept run) (hcarries : update.carries = false) :
    (a.add update).Kept run := by
  cases update with
  | sipEvent | rtpStat => cases hcarries
  | observations api request =>
      simp only [RunUpdate.carries, Bool.not_eq_false', Bool.and_eq_true,
        List.isEmpty_iff] at hcarries
      obtain ⟨⟨⟨hsip, hrtp⟩, hmetrics⟩, hevents⟩ := hcarries
      have hsame : a.add (.observations api request) = a := by
        simp [Acknowledged.add, hsip, hrtp, hmetrics, hevents]
      rwa [hsame]
  | execute result now => exact ⟨h.sipEvents, h.rtpStats, List.nil_sublist _, h.eventIds⟩
  | recordFailure execution failureAlias now =>
      cases execution with
      | succeeds result | verifyRaises result =>
          exact ⟨h.sipEvents, h.rtpStats, List.nil_sublist _, h.eventIds⟩
      | raises => exact h

theorem Acknowledged.Kept.of_runId {a : Acknowledged} {run : StoredRun} (h : a.Kept run)
    (runId : String) : a.Kept { run with runId := runId } :=
  ⟨h.sipEvents, h.rtpStats, h.metrics, h.eventIds⟩

/-- Everything that a write of the run `j` does. -/
theorem put_cases {j : Uuid} {run : StoredRun} {update : RunUpdate} :
    s.written verify j run update = none ∧ s.put verify j run update = s ∨
    ∃ run' store, s.written verify j run update = some store ∧
      update.edit verify run = some run' ∧ s.store.saveInSession run' j = .ok store ∧
      s.put verify j run update = { s with
        store := store
        ingests := Function.update s.ingests j (s.ingests j + if update.carries then 1 else 0)
        acknowledged := Function.update s.acknowledged j ((s.acknowledged j).add update) } := by
  unfold WriterState.put
  cases hwritten : s.written verify j run update with
  | none => exact .inl ⟨rfl, rfl⟩
  | some store =>
      obtain ⟨run', hedit, hsave⟩ := Option.bind_eq_some_iff.mp hwritten
      refine .inr ⟨run', store, rfl, hedit, ?_, rfl⟩
      cases hresult : s.store.saveInSession run' j with
      | error e => simp [hresult, Except.toOption] at hsave
      | ok store' =>
          rw [hresult] at hsave
          exact congrArg Except.ok (Option.some.inj hsave)

/-- What is acknowledged of the run `k` is kept, and so it is in every copy of the run that
is based on all of its ingests. -/
structure WriterInv (k : Uuid) (s : WriterState) : Prop where
  kept : ∀ run, s.store.find? k = some run → (s.acknowledged k).Kept run
  stored : s.store.find? k = none → s.acknowledged k = {}
  current : ∀ w run seen, s.writers w = .holding k run seen →
    seen ≤ s.ingests k ∧ (seen = s.ingests k → run.asUtc = run ∧ (s.acknowledged k).Kept run)

variable {k : Uuid}

/-- A write of another run does not matter. -/
theorem writerInv_put_of_ne {j : Uuid} {run : StoredRun} {update : RunUpdate}
    (hs : WriterInv k s) (hj : k ≠ j) : WriterInv k (s.put verify j run update) := by
  rcases put_cases (s := s) (j := j) with ⟨-, hsame⟩ | ⟨run', store, -, -, hsave, hput⟩
  · rw [hsame]
    exact hs
  · rw [hput]
    have hfind := RunStore.find?_saveInSession_of_ne hsave hj
    refine ⟨fun other hother => ?_, fun hnone => ?_, fun w other seen hw => ?_⟩
    · simp only [Function.update_of_ne hj]
      exact hs.kept other (hfind ▸ hother)
    · simp only [Function.update_of_ne hj]
      exact hs.stored (hfind ▸ hnone)
    · simp only [Function.update_of_ne hj]
      exact hs.current w other seen hw

/-- A write of a copy that is based on all ingests keeps what was acknowledged. -/
theorem writerInv_put {run : StoredRun} {update : RunUpdate} (hs : WriterInv k s)
    (hcopy : (s.written verify k run update).isSome →
      run.asUtc = run ∧ (s.acknowledged k).Kept run) :
    WriterInv k (s.put verify k run update) := by
  rcases put_cases (s := s) (j := k) with ⟨-, hsame⟩ | ⟨run', store, hwritten, hedit, hsave, hput⟩
  · rw [hsame]
    exact hs
  · rw [hput]
    obtain ⟨hutc, hkept⟩ := hcopy (by rw [hwritten]; rfl)
    have hself := RunStore.find?_saveInSession_self hsave
    refine ⟨fun other hother => ?_, fun hnone => ?_, fun w other seen hw => ?_⟩
    · simp only [Function.update_self]
      rw [hself, Option.some.injEq] at hother
      rw [← hother]
      exact (kept_edit hedit hutc hkept).of_runId _
    · rw [hself] at hnone
      cases hnone
    · obtain ⟨hle, hcurrent⟩ := hs.current w other seen hw
      simp only [Function.update_self]
      cases hcarries : update.carries with
      | true =>
          simp only [if_true]
          exact ⟨by omega, fun heq => by omega⟩
      | false =>
          simp only [Bool.false_eq_true, if_false, Nat.add_zero]
          refine ⟨hle, fun heq => ?_⟩
          exact ⟨(hcurrent heq).1, (hcurrent heq).2.add_of_not_carries hcarries⟩

/-- Taking a writer out of its cycle. -/
theorem writerInv_idle (hs : WriterInv k s) (w : ℕ) :
    WriterInv k { s with writers := Function.update s.writers w .idle } := by
  refine ⟨hs.kept, hs.stored, fun w' run seen hw => ?_⟩
  by_cases hww : w' = w
  · subst hww
    simp at hw
  · simp only [Function.update_of_ne hww] at hw
    exact hs.current w' run seen hw

theorem writers_put (j : Uuid) (run : StoredRun) (update : RunUpdate) :
    (s.put verify j run update).writers = s.writers := by
  rcases put_cases (s := s) (j := j) with ⟨-, hsame⟩ | ⟨run', store, -, -, -, hput⟩
  · rw [hsame]
  · rw [hput]

theorem writerInv_next {l : WriterStep} (hl : NoConflict verify k s l) (hs : WriterInv k s) :
    WriterInv k ((writerMachine verify).next s l) := by
  cases l with
  | get w j =>
      simp only [writerMachine]
      cases hfind : s.store.find? j with
      | none => exact hs
      | some run =>
          refine ⟨hs.kept, hs.stored, fun w' other seen hw => ?_⟩
          by_cases hww : w' = w
          · subst hww
            simp only [Function.update_self, Writer.holding.injEq] at hw
            obtain ⟨rfl, rfl, rfl⟩ := hw
            exact ⟨Nat.le_refl _, fun _ => ⟨RunStore.asUtc_of_find? hfind, hs.kept run hfind⟩⟩
          · simp only [Function.update_of_ne hww] at hw
            exact hs.current w' other seen hw
  | put w update =>
      simp only [writerMachine]
      cases hw : s.writers w with
      | idle => exact hs
      | holding j run seen =>
          have hput : WriterInv k (s.put verify j run update) := by
            by_cases hj : k = j
            · subst hj
              refine writerInv_put hs fun hsome => (hs.current w run seen hw).2 ?_
              have hbased : s.ingests k = seen := by
                simp only [NoConflict, hw] at hl
                exact hl trivial hsome
              exact hbased.symm
            · exact writerInv_put_of_ne hs hj
          have hidle := writerInv_idle hput w
          rwa [writers_put] at hidle
  | abandon w => exact writerInv_idle hs w

/-- A read and the write that follows it at once. -/
theorem store_exec_get_put {k : Uuid} {run run' : StoredRun} {store : RunStore}
    {update : RunUpdate} (w : ℕ) (hfind : s.store.find? k = some run)
    (hedit : update.edit verify run = some run') (hid : run'.runId = run.runId)
    (hsave : s.store.save run' = .ok store) :
    ((writerMachine verify).exec s [.get w k, .put w update]).store = store := by
  rw [RunStore.runId_of_find? hfind] at hid
  have hput : s.store.saveInSession run' k = .ok store := by
    simpa [RunStore.save, hid] using hsave
  simp [writerMachine, Machine.exec, hfind, WriterState.put, WriterState.written, hedit, hput,
    Except.toOption]

/-- The edit that a request makes of the run it finds and saves is a read and a write. -/
theorem store_exec_of_get {repository store : RunStore} {runId : String} {run run' : StoredRun}
    {update : RunUpdate} (w : ℕ) (hs : s.store = repository) (hget : repository.get runId = some run)
    (hedit : update.edit verify run = some run') (hid : run'.runId = run.runId)
    (hsave : repository.save run' = .ok store) :
    ∃ k, ((writerMachine verify).exec s [.get w k, .put w update]).store = store := by
  obtain ⟨k, -, hfind⟩ := Option.bind_eq_some_iff.mp hget
  rw [← hs] at hfind hsave
  exact ⟨k, store_exec_get_put w hfind hedit hid hsave⟩

/-- A request that is answered with success is a read and a write of a writer. -/
theorem ingestSipEvent_eq_writerSteps {state state' : RunApiState} {request : SipEventRequest}
    {event : SipEventResponse} (w : ℕ) (hs : s.store = state.repository)
    (h : ingestSipEvent state request false = (.ok event, state')) :
    ∃ k, ((writerMachine verify).exec s [.get w k, .put w (.sipEvent event)]).store =
      state'.repository := by
  unfold ingestSipEvent at h
  cases hget : state.repository.get request.runId with
  | none => simp [hget] at h
  | some stored =>
      cases hsave : state.repository.save (stored.addSipEvent request.event) with
      | error e => simp [hget, RunApiState.save, hsave, Except.map] at h
      | ok store =>
          simp only [hget, RunApiState.save, hsave, Except.map, Bool.false_eq_true, if_false,
            Prod.mk.injEq, Except.ok.injEq] at h
          obtain ⟨rfl, rfl⟩ := h
          exact store_exec_of_get w hs hget rfl rfl hsave

theorem ingestRtpStat_eq_writerSteps {state state' : RunApiState} {request : RtpStatRequest}
    {stat : RtpStatResponse} (w : ℕ) (hs : s.store = state.repository)
    (h : ingestRtpStat state request false = (.ok stat, state')) :
    ∃ k, ((writerMachine verify).exec s [.get w k, .put w (.rtpStat stat)]).store =
      state'.repository := by
  unfold ingestRtpStat at h
  cases hget : state.repository.get request.runId with
  | none => simp [hget] at h
  | some stored =>
      cases hsave : state.repository.save (stored.addRtpStat request.stat) with
      | error e => simp [hget, RunApiState.save, hsave, Except.map] at h
      | ok store =>
          simp only [hget, RunApiState.save, hsave, Except.map, Bool.false_eq_true, if_false,
            Prod.mk.injEq, Except.ok.injEq] at h
          obtain ⟨rfl, rfl⟩ := h
          exact store_exec_of_get w hs hget rfl rfl hsave

theorem ingestObservationBatch_eq_writerSteps {state state' : RunApiState}
    {request : ObservationBatchRequest} {response : ObservationBatchResponse} (w : ℕ)
    (hs : s.store = state.repository)
    (h : ingestObservationBatch state request false = (.ok response, state')) :
    ∃ k, ((writerMachine verify).exec s [.get w k, .put w (.observations state request)]).store =
      state'.repository := by
  unfold ingestObservationBatch at h
  cases hget : state.repository.get request.runId with
  | none => simp [hget] at h
  | some stored =>
      cases hcheck : checkObservationBatch state stored request with
      | error e => simp [hget, hcheck] at h
      | ok decoded =>
          obtain ⟨-, hfst, -, hfits⟩ := checkObservationBatch_spec hcheck
          rw [← hfst] at hfits
          obtain ⟨state₁, written, hwrite, hrepo, hrun, -⟩ := writeAllAudio_spec hfits
          cases hsave : state₁.repository.save (written.addObservations request) with
          | error e => simp [hget, hcheck, hwrite, RunApiState.save, hsave, Except.map] at h
          | ok store =>
              simp only [hget, hcheck, hwrite, RunApiState.save, hsave, Except.map,
                Bool.false_eq_true, if_false, Prod.mk.injEq] at h
              obtain ⟨-, rfl⟩ := h
              rw [hrepo] at hsave
              have hedit : observationEdit state stored request =
                  some (written.addObservations request) := by
                simp [observationEdit, hcheck, hwrite]
              have hid : (written.addObservations request).runId = stored.runId := by
                rw [hrun]
                rfl
              exact store_exec_of_get w hs hget hedit hid hsave

/-- In a run of writers where no ingest of the stored run lands between a writer's read of
that run and its own write, every SIP event and RTP stat that an ingest request on the run
acknowledged is in the stored run, so is every metric acknowledged since a harness result
replaced the metrics, and for every acknowledged timeline event an event with its id. -/
theorem acknowledged_kept {ls : List WriterStep} (h₀ : (writerMachine verify).init s) (k : Uuid)
    (hls : (writerMachine verify).Along (NoConflict verify k) s ls) :
    let t := (writerMachine verify).exec s ls
    (∀ run, t.store.find? k = some run → (t.acknowledged k).Kept run) ∧
      (t.store.find? k = none → t.acknowledged k = {}) := by
  intro t
  have hinv : WriterInv k t := by
    refine Machine.Along.invariant (fun s l hl hs => writerInv_next hl hs) hls ?_
    obtain ⟨hidle, -, hack⟩ := h₀
    refine ⟨fun run _ => ?_, fun _ => hack k, fun w run seen hw => ?_⟩
    · rw [hack k]
      exact ⟨List.nil_sublist _, List.nil_sublist _, List.nil_sublist _, by simp⟩
    · rw [hidle w] at hw
      cases hw
  exact ⟨hinv.kept, hinv.stored⟩

end Writers

/-! ## What is lost -/

/-- A SIP event of a call. -/
def sipEvent (method : String) : SipEventResponse :=
  ⟨none, method, .inbound, .utc 0, none, none⟩

/-- A batch with a metric and a timeline event. -/
def metricBatch (name : String) : ObservationBatchRequest where
  runId := (Uuid.ofNat 1).str
  metrics := [⟨none, name, 1, .utc 0⟩]
  audioChunks := []
  sipEvents := []
  rtpStats := []
  timelineEvents := [⟨"event-1", .runtime, name, .utc 0, "control_plane_wall", none, none, none,
    none, "observer", none, []⟩]
  events_unique := by simp

/-- A stored run with nothing going on. -/
def writersStart : WriterState where
  store := observedState.repository
  writers := fun _ => .idle
  ingests := fun _ => 0
  acknowledged := fun _ => {}

def noVerify : Verify := fun _ _ _ => []

/-- The stored run after a run of writers. -/
def storedAfter (ls : List WriterStep) : Option StoredRun :=
  ((writerMachine noVerify).exec writersStart ls).store.find? (Uuid.ofNat 1)

/-- What was acknowledged in a run of writers. -/
def acknowledgedAfter (ls : List WriterStep) : Acknowledged :=
  ((writerMachine noVerify).exec writersStart ls).acknowledged (Uuid.ofNat 1)

/-- Two requests that read the run before either has written. -/
def interleavedSteps : List WriterStep :=
  [.get 0 (Uuid.ofNat 1), .get 1 (Uuid.ofNat 1), .put 0 (.sipEvent (sipEvent "INVITE")),
    .put 1 (.sipEvent (sipEvent "BYE"))]

/-- A batch, then a worker that executes the run. -/
def executedSteps : List WriterStep :=
  [.get 0 (Uuid.ofNat 1), .put 0 (.observations observedState (metricBatch "rtt")),
    .get 1 (Uuid.ofNat 1), .put 1 (.execute ⟨"conversation", [], [], []⟩ 1)]

/-- Two batches with different events of one id. -/
def collidingSteps : List WriterStep :=
  [.get 0 (Uuid.ofNat 1), .put 0 (.observations observedState (metricBatch "rtt")),
    .get 1 (Uuid.ofNat 1), .put 1 (.observations observedState (metricBatch "jitter"))]

/-- Acknowledged evidence that is not in the stored run: the SIP event of a request whose
write is followed by a write from an earlier read; a metric that the harness result
replaces; and an event whose id the run already had. -/
theorem acknowledged_lost :
    ((acknowledgedAfter interleavedSteps).sipEvents = [sipEvent "INVITE", sipEvent "BYE"] ∧
      (storedAfter interleavedSteps).map StoredRun.sipEvents = some [sipEvent "BYE"]) ∧
    ((acknowledgedAfter (executedSteps.take 2)).metrics = [⟨none, "rtt", 1, .utc 0⟩] ∧
      (storedAfter executedSteps).map StoredRun.metrics = some []) ∧
    ((acknowledgedAfter collidingSteps).eventIds = ["event-1", "event-1"] ∧
      (storedAfter collidingSteps).map (fun run => run.timelineEvents.map
        TimelineEventArtifact.name) = some ["rtt"]) := by
  decide +kernel

/-- A worker that executes the run while a request holds its copy: the request's write
takes the execution back, and no ingest is lost. -/
def overwrittenSteps : List WriterStep :=
  [.get 0 (Uuid.ofNat 1), .get 1 (Uuid.ofNat 1), .put 1 (.execute ⟨"conversation", [], [], []⟩ 1),
    .put 0 (.sipEvent (sipEvent "INVITE"))]

/-- Neither the steps of `executedSteps` nor those of `overwrittenSteps` conflict. -/
theorem acknowledged_kept_executedSteps :
    (∀ run, storedAfter executedSteps = some run → (acknowledgedAfter executedSteps).Kept run) ∧
      ∀ run, storedAfter overwrittenSteps = some run →
        (acknowledgedAfter overwrittenSteps).Kept run := by
  have h₀ : (writerMachine noVerify).init writersStart := ⟨fun _ => rfl, fun _ => rfl, fun _ => rfl⟩
  have hexecuted : (writerMachine noVerify).Along (NoConflict noVerify (Uuid.ofNat 1))
      writersStart executedSteps := by
    decide +kernel
  have hoverwritten : (writerMachine noVerify).Along (NoConflict noVerify (Uuid.ofNat 1))
      writersStart overwrittenSteps := by
    decide +kernel
  exact ⟨(acknowledged_kept h₀ (Uuid.ofNat 1) hexecuted).1,
    (acknowledged_kept h₀ (Uuid.ofNat 1) hoverwritten).1⟩

end VoxBench.ControlPlane
