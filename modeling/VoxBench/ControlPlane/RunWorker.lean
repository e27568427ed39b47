import VoxBench.ControlPlane.Fencing

/-!
# Workers: a run and its job end together

`RunJobWorker.run_one` claims a job, loads its run, executes it while a heartbeat
thread keeps the lease, and then commits the result or records a failure. Here it is
cut at its transactions, so that any number of workers interleave with each other,
with new submissions and with crashes between any two of them. What the executor
does to the run it is given is an argument of the step.

## Main results

* `agreement_iff` — a run of the system keeps every job and its run in agreement
  exactly when no claim meets an exhausted job.
* `crash_on_last_attempt` — a crash on the last attempt, and the next claim fails the
  job alone.
-/

namespace VoxBench.ControlPlane

open VoxBench.Lib

/-- A worker's configuration, within the bounds of `__post_init__`. -/
structure RunJobWorker where
  workerId : String
  leaseSeconds : ℤ := 60
  retryDelaySeconds : ℤ := 5
  workerId_valid : isSafeAlias workerId = true
  leaseSeconds_valid : 5 ≤ leaseSeconds ∧ leaseSeconds ≤ 300
  retryDelaySeconds_valid : 0 ≤ retryDelaySeconds ∧ retryDelaySeconds ≤ 3600

namespace RunJobWorker

variable (worker : RunJobWorker)

/-- `_record_failure`: on the last attempt the failed run is committed with its job,
before that the job goes back to the queue. -/
def recordFailure (run : StoredRun) (lease : RunJobLease) (failureAlias : String)
    (now endedAt : Datetime) : QueueOp :=
  if lease.finalAttempt then
    .commitLeasedResult
      { run with status := .failed, failureAlias := some failureAlias, endedAt := some endedAt }
      lease worker.workerId now
  else .fail lease worker.workerId failureAlias true worker.retryDelaySeconds now

/-- The alias under which `run_one` records a result that is not a completed run. -/
def resultFailureAlias (run : StoredRun) : String :=
  match run.failureAlias with
  | some failureAlias =>
      if run.status = .failed ∧ isSafeAlias failureAlias then failureAlias
      else "run-result-invalid"
  | none => "run-result-invalid"

/-- The end of `run_one`, once the heartbeat has stopped with the lease active:
`raised` tells whether the executor left by an exception. -/
def conclude (run : StoredRun) (lease : RunJobLease) (raised : Bool) (now endedAt : Datetime) :
    QueueOp :=
  if raised then worker.recordFailure run lease "engine-harness-error" now endedAt
  else if run.status = .completed ∧ run.endedAt.isSome then
    .commitLeasedResult run lease worker.workerId now
  else worker.recordFailure run lease (resultFailureAlias run) now endedAt

end RunJobWorker

/-- Where a worker stands between two transactions of `run_one`. -/
inductive WorkerPhase where
  | idle
  /-- The job is claimed, its run not yet loaded. -/
  | claimed (lease : RunJobLease)
  /-- The run was not found. -/
  | runMissing (lease : RunJobLease)
  /-- The executor works on `run`; `lost` is the heartbeat thread's event. -/
  | executing (lease : RunJobLease) (run : StoredRun) (lost : Bool)
  /-- The executor is done and the heartbeat stopped with the lease active. -/
  | concluding (lease : RunJobLease) (run : StoredRun) (raised : Bool)

/-- The lease a worker works under. -/
def WorkerPhase.lease? : WorkerPhase → Option RunJobLease
  | .idle => none
  | .claimed lease | .runMissing lease => some lease
  | .executing lease _ _ | .concluding lease _ _ => some lease

instance (phase : WorkerPhase) : Decidable (phase = .idle) :=
  match phase with
  | .idle => isTrue rfl
  | .claimed _ | .runMissing _ | .executing .. | .concluding .. => isFalse nofun

/-- The queue and the phase of every worker. -/
structure SystemState where
  queue : QueueState
  phase : ℕ → WorkerPhase

/-- A step of the system. A crash also stands for a database error, which leaves
`run_one` by an exception without a change. -/
inductive SystemStep where
  | submit (run : StoredRun) (now : Datetime) (newId : Uuid) (createdAt : Instant)
  | claim (w : ℕ) (now : Datetime) (token : Uuid) (locked : List Uuid)
  | load (w : ℕ)
  | failMissing (w : ℕ) (now : Datetime)
  | heartbeat (w : ℕ) (now : Datetime)
  /-- A heartbeat thread that outlived the join of its worker. -/
  | lateHeartbeat (w : ℕ) (lease : RunJobLease) (now : Datetime)
  /-- The executor leaves `run` behind, and the heartbeat thread is joined in time or not. -/
  | executed (w : ℕ) (run : StoredRun) (raised joined : Bool)
  | conclude (w : ℕ) (now endedAt : Datetime)
  | crash (w : ℕ)

section System

variable (q : PostgresRunJobQueue) (workers : ℕ → RunJobWorker)

/-- The transaction that a step runs, if any. -/
def SystemState.call? (s : SystemState) : SystemStep → Option QueueOp
  | .submit run now newId createdAt => some (.saveQueuedRun run now newId createdAt)
  | .claim w now token locked =>
      match s.phase w with
      | .idle => some (.claim (workers w).workerId (workers w).leaseSeconds now token locked)
      | _ => none
  | .failMissing w now =>
      match s.phase w with
      | .runMissing lease => some (.fail lease (workers w).workerId "run-not-found" false 0 now)
      | _ => none
  | .heartbeat w now =>
      match s.phase w with
      | .executing lease _ false =>
          some (.heartbeat lease (workers w).workerId (workers w).leaseSeconds now)
      | _ => none
  | .lateHeartbeat w lease now =>
      some (.heartbeat lease (workers w).workerId (workers w).leaseSeconds now)
  | .conclude w now endedAt =>
      match s.phase w with
      | .concluding lease run raised =>
          some ((workers w).conclude run lease raised now endedAt)
      | _ => none
  | .load _ | .executed .. | .crash _ => none

/-- Whether a call reports success. -/
def QueueOp.succeeds (op : QueueOp) (db : RunDb) : Bool :=
  match op.run q db with
  | .ok (.applied b, _) => b
  | _ => false

/-- The phase that a step leaves its worker in. -/
def SystemState.phase? (s : SystemState) : SystemStep → Option (ℕ × WorkerPhase)
  | .submit .. | .lateHeartbeat .. => none
  | .claim w now token locked =>
      match s.call? workers (.claim w now token locked) with
      | some op =>
          match op.handsOut q s.queue.db with
          | some lease => some (w, .claimed lease)
          | none => some (w, .idle)
      | none => none
  | .load w =>
      match s.phase w with
      | .claimed lease =>
          match s.queue.db.store.get lease.runId with
          | some run => some (w, .executing lease run false)
          | none => some (w, .runMissing lease)
      | _ => none
  | .failMissing w _ =>
      match s.phase w with
      | .runMissing _ => some (w, .idle)
      | _ => none
  | .heartbeat w now =>
      match s.phase w with
      | .executing lease run false =>
          let op := .heartbeat lease (workers w).workerId (workers w).leaseSeconds now
          some (w, .executing lease run (!QueueOp.succeeds q op s.queue.db))
      | _ => none
  | .executed w run raised joined =>
      match s.phase w with
      | .executing lease _ lost =>
          if lost || !joined then some (w, .idle) else some (w, .concluding lease run raised)
      | _ => none
  | .conclude w _ _ =>
      match s.phase w with
      | .concluding .. => some (w, .idle)
      | _ => none
  | .crash w => some (w, .idle)

/-- Workers over an initially empty job table. A step that does not fit the phase of
its worker does nothing. -/
def systemMachine : Machine SystemState SystemStep where
  init s := (queueMachine q).init s.queue ∧ ∀ w, s.phase w = .idle
  enabled s l := ∀ op ∈ s.call? workers l, (queueMachine q).enabled s.queue op
  next s l :=
    { queue :=
        match s.call? workers l with
        | some op => (queueMachine q).next s.queue op
        | none => s.queue
      phase :=
        match s.phase? q workers l with
        | some (w, phase) => Function.update s.phase w phase
        | none => s.phase }

instance (s : SystemState) (l : SystemStep) :
    Decidable ((systemMachine q workers).enabled s l) :=
  inferInstanceAs (Decidable (∀ op ∈ s.call? workers l, (queueMachine q).enabled s.queue op))

end System

/-! ## Agreement of a job with its run -/

/-- The job ended the way its run did. -/
def RunJobRow.EndsWith (r : RunJobRow) (run : StoredRun) : Prop :=
  r.state = .completed ∧ run.status = .completed ∨
    r.state = .failed ∧ run.status = .failed ∧ run.failureAlias.isSome

/-- A job that has ended has a run with the same outcome. -/
def RunDb.JobsEndWithRuns (db : RunDb) : Prop :=
  ∀ r ∈ db.jobs.rows, r.state.terminal = true →
    ∃ run, db.store.find? r.runId = some run ∧ r.EndsWith run

/-- A run that has ended has a job that has ended. -/
def RunDb.RunsEndWithJobs (db : RunDb) : Prop :=
  ∀ r ∈ db.jobs.rows, ∀ run, db.store.find? r.runId = some run →
    run.status.terminal = true → r.state.terminal = true

/-- Every job and its run end together. -/
def RunDb.Agreement (db : RunDb) : Prop := db.JobsEndWithRuns ∧ db.RunsEndWithJobs

section Agreement

variable {q : PostgresRunJobQueue} {db db' : RunDb}

theorem RunDb.eq_of_runId_eq {r r' : RunJobRow} (hr : r ∈ db.jobs.rows)
    (hr' : r' ∈ db.jobs.rows) (h : r.runId = r'.runId) : r = r' :=
  List.inj_on_of_nodup_map db.run_unique hr hr' h

/-- A transaction on the jobs alone that ends none of them. -/
structure EndsNone (db db' : RunDb) : Prop where
  store : db'.store = db.store
  terminal : ∀ r' ∈ db'.jobs.rows, r'.state.terminal = true → r' ∈ db.jobs.rows

theorem RunDb.JobsEndWithRuns.of_endsNone (h : EndsNone db db') (hdb : db.JobsEndWithRuns) :
    db'.JobsEndWithRuns := by
  intro r' hr' hterm
  rw [h.store]
  exact hdb r' (h.terminal r' hr' hterm) hterm

/-- A transaction on the jobs alone that adds no job. -/
theorem RunDb.RunsEndWithJobs.of_evolve {fresh : Uuid → Prop} {leases : Uuid → Bool}
    (hstore : db'.store = db.store) (hlen : db'.jobs.rows.length = db.jobs.rows.length)
    (h : JobsEvolve q.maxAttempts fresh leases db db') (hdb : db.RunsEndWithJobs) :
    db'.RunsEndWithJobs := by
  obtain ⟨move, new, hrows, hmove, -⟩ := h
  have hnew : new = [] := by
    rw [hrows, List.length_append, List.length_map] at hlen
    exact List.length_eq_zero_iff.mp (by omega)
  intro r' hr' run hrun hterm
  rw [hrows, hnew, List.append_nil, List.mem_map] at hr'
  obtain ⟨r, hr, rfl⟩ := hr'
  have hstep := hmove r hr
  rw [hstore, hstep.keepsKeys.2] at hrun
  have hend := hdb r hr run hrun hterm
  rwa [hstep.eq_of_terminal hend]

/-- A change under a lease that leaves the held row unfinished ends no job. -/
theorem endsNone_leasedChange {lease : RunJobLease} {worker : String} {now : Instant}
    {change : RunJobRow → RunJobRow} {b : Bool} (hstore : db'.store = db.store)
    (h : LeasedChange db lease worker now change b db')
    (hopen : ∀ r ∈ db.jobs.rows, ∀ jobId token, Uuid.parse lease.jobId = some jobId →
      Uuid.parse lease.leaseToken = some token → r.heldBy jobId worker token now = true →
      (change r).state.terminal = false) :
    EndsNone db db' := by
  refine ⟨hstore, fun r' hr' hterm => ?_⟩
  cases h with
  | refused => exact hr'
  | applied hjob htoken hr hheld hrows =>
      rename_i jobId token held
      rw [hrows, List.mem_map] at hr'
      obtain ⟨r, hmem, rfl⟩ := hr'
      by_cases hid : r.id = held.id
      · obtain rfl := RunDb.eq_of_id_eq hmem hr hid
        have := hopen r hr jobId token hjob htoken hheld
        simp [this] at hterm
      · simpa [hid] using hmem

theorem length_leasedChange {lease : RunJobLease} {worker : String} {now : Instant}
    {change : RunJobRow → RunJobRow} {b : Bool}
    (h : LeasedChange db lease worker now change b db') :
    db'.jobs.rows.length = db.jobs.rows.length := by
  cases h with
  | refused => rfl
  | applied hjob htoken hr hheld hrows => rw [hrows, List.length_map]

theorem length_claim {worker : String} {leaseSeconds : ℤ} {now : Datetime} {token : Uuid}
    {locked : List Uuid} {res : Option RunJobLease}
    (h : q.claim db worker leaseSeconds now token locked = .ok (res, db')) :
    db'.jobs.rows.length = db.jobs.rows.length := by
  obtain ⟨-, ⟨-, rfl⟩ | ⟨row, -, -, -, hrows⟩⟩ := PostgresRunJobQueue.claim_spec h
  · simp
  · rw [hrows]
    simp

/-- A claim that meets no exhausted job ends none. -/
theorem endsNone_claim {worker : String} {leaseSeconds : ℤ} {now : Datetime} {token : Uuid}
    {locked : List Uuid} {res : Option RunJobLease}
    (h : q.claim db worker leaseSeconds now token locked = .ok (res, db'))
    (hnone : ∀ r ∈ db.jobs.rows, r.exhausted now.instant q.maxAttempts = false) :
    EndsNone db db' := by
  have hexpire : q.expireExhaustedJobs db now.instant = db := RunDb.updateJobs_eq_self hnone
  obtain ⟨hstore, hcase⟩ := PostgresRunJobQueue.claim_spec h
  rw [hexpire] at hcase
  refine ⟨hstore, fun r' hr' hterm => ?_⟩
  rcases hcase with ⟨-, rfl⟩ | ⟨row, -, -, -, hrows⟩
  · exact hr'
  · rw [hrows, List.mem_map] at hr'
    obtain ⟨r, hr, rfl⟩ := hr'
    by_cases hid : r.id = row.id
    · simp [hid, RunJobRow.lease, RunJobState.terminal] at hterm
    · simpa [hid] using hr

/-- A claim fails the exhausted jobs it meets. -/
theorem expire_mem_claim {worker : String} {leaseSeconds : ℤ} {now : Datetime} {token : Uuid}
    {locked : List Uuid} {res : Option RunJobLease}
    (h : q.claim db worker leaseSeconds now token locked = .ok (res, db')) {r : RunJobRow}
    (hr : r ∈ db.jobs.rows) (hexh : r.exhausted now.instant q.maxAttempts = true) :
    r.expire ∈ db'.jobs.rows := by
  have hmem : r.expire ∈ (q.expireExhaustedJobs db now.instant).jobs.rows := by
    rw [PostgresRunJobQueue.rows_expireExhaustedJobs, List.mem_map]
    exact ⟨r, hr, by rw [if_pos hexh]⟩
  obtain ⟨-, ⟨-, rfl⟩ | ⟨row, hrow, hclaim, -, hrows⟩⟩ := PostgresRunJobQueue.claim_spec h
  · exact hmem
  · rw [hrows, List.mem_map]
    refine ⟨r.expire, hmem, if_neg fun hid => ?_⟩
    obtain rfl := RunDb.eq_of_id_eq hmem hrow hid
    rw [not_claimable_expire] at hclaim
    cases hclaim

/-- A new job waits for a running run, and is the only job of that run. -/
theorem agreement_saveQueuedRun {run : StoredRun} {jobId : String} {now : Datetime}
    {newId : Uuid} {createdAt : Instant}
    (h : PostgresRunRepository.saveQueuedRun db run now newId createdAt = .ok (jobId, db')) :
    (db.JobsEndWithRuns → db'.JobsEndWithRuns) ∧ (db.RunsEndWithJobs → db'.RunsEndWithJobs) := by
  obtain ⟨hrunning, -, rfl | ⟨runUuid, row, -, hsave, hother, hrow, -, hstate, -, -, -, -, hrows⟩⟩ :=
    PostgresRunRepository.saveQueuedRun_spec h
  · exact ⟨id, id⟩
  · have hkeep : ∀ r ∈ db.jobs.rows, db'.store.find? r.runId = db.store.find? r.runId :=
      fun r hr => RunStore.find?_saveInSession_of_ne hsave (hother r hr)
    constructor
    · intro hdb r hr hterm
      rw [hrows, List.mem_append, List.mem_singleton] at hr
      rcases hr with hr | rfl
      · rw [hkeep r hr]
        exact hdb r hr hterm
      · simp [hstate, RunJobState.terminal] at hterm
    · intro hdb r hr run' hrun' hterm
      rw [hrows, List.mem_append, List.mem_singleton] at hr
      rcases hr with hr | rfl
      · rw [hkeep r hr] at hrun'
        exact hdb r hr run' hrun' hterm
      · rw [hrow, RunStore.find?_saveInSession_self hsave] at hrun'
        rw [← Option.some.inj hrun'] at hterm
        simp [StoredRun.asUtc, hrunning, RunStatus.terminal] at hterm

/-- A commit ends the job and the run in one transaction. -/
theorem agreement_commitLeasedResult {run : StoredRun} {lease : RunJobLease} {worker : String}
    {now : Datetime} {b : Bool}
    (hrun : run.status = .completed ∨ run.status = .failed ∧ run.failureAlias.isSome)
    (h : PostgresRunRepository.commitLeasedResult db run lease worker now = .ok (b, db')) :
    (db.JobsEndWithRuns → db'.JobsEndWithRuns) ∧ (db.RunsEndWithJobs → db'.RunsEndWithJobs) := by
  obtain ⟨-, -, hchange, hstored⟩ := PostgresRunRepository.commitLeasedResult_spec h
  cases hchange with
  | refused => exact ⟨id, id⟩
  | applied hjob htoken hr hheld hrows =>
      rename_i jobId token held
      obtain ⟨runUuid, -, -, hheldRun, hsave⟩ := hstored rfl
      have hheldId : held.runId = runUuid := by
        refine hheldRun held hr ?_
        rw [hjob, RunJobRow.id_of_heldBy hheld]
      have hself := RunStore.find?_saveInSession_self hsave
      have hkeep : ∀ r ∈ db.jobs.rows, r.id ≠ held.id →
          db'.store.find? r.runId = db.store.find? r.runId := by
        intro r hmem hid
        refine RunStore.find?_saveInSession_of_ne hsave fun heq => hid ?_
        rw [RunDb.eq_of_runId_eq hmem hr (heq.trans hheldId.symm)]
      have hends : (PostgresRunRepository.commitRow run held).EndsWith
          { run.asUtc with runId := runUuid.str } := by
        rcases hrun with hstatus | ⟨hstatus, halias⟩
        · exact .inl ⟨by simp [PostgresRunRepository.commitRow, RunJobRow.release, hstatus], hstatus⟩
        · exact .inr ⟨by simp [PostgresRunRepository.commitRow, RunJobRow.release, hstatus],
            hstatus, halias⟩
      constructor
      · intro hdb r' hr' hterm
        rw [hrows, List.mem_map] at hr'
        obtain ⟨r, hmem, rfl⟩ := hr'
        by_cases hid : r.id = held.id
        · obtain rfl := RunDb.eq_of_id_eq hmem hr hid
          simp only [if_true]
          exact ⟨_, by rw [← hself, ← hheldId]; rfl, hends⟩
        · simp only [hid, if_false] at hterm ⊢
          rw [hkeep r hmem hid]
          exact hdb r hmem hterm
      · intro hdb r' hr' run' hrun' hterm
        rw [hrows, List.mem_map] at hr'
        obtain ⟨r, hmem, rfl⟩ := hr'
        by_cases hid : r.id = held.id
        · obtain rfl := RunDb.eq_of_id_eq hmem hr hid
          simp only [if_true]
          rcases hends with ⟨hstate, -⟩ | ⟨hstate, -⟩ <;> simp [hstate, RunJobState.terminal]
        · simp only [hid, if_false] at hrun' ⊢
          rw [hkeep r hmem hid] at hrun'
          exact hdb r hmem run' hrun' hterm

end Agreement

/-! ## The calls of the workers -/

/-- What the workers' calls have in common: no job is failed before its last attempt,
and a commit carries an outcome that its job can share. -/
def QueueOp.Disciplined (s : QueueState) : QueueOp → Prop
  | .saveQueuedRun .. | .claim .. | .heartbeat .. => True
  | .fail lease _ _ retryable _ _ =>
      retryable = true ∧ lease ∈ s.issued ∧ lease.finalAttempt = false
  | .commitLeasedResult run .. =>
      run.status = .completed ∨ run.status = .failed ∧ run.failureAlias.isSome
  | .enqueue .. | .complete .. => False

/-- The call is a claim that meets a job with no attempt left. -/
def QueueOp.MeetsExhausted (q : PostgresRunJobQueue) (db : RunDb) : QueueOp → Prop
  | .claim _ _ now _ _ => ∃ r ∈ db.jobs.rows, r.exhausted now.instant q.maxAttempts = true
  | _ => False

section Calls

variable {q : PostgresRunJobQueue} {s : QueueState} {op : QueueOp}

/-- The row that a handed-out lease holds is that of its job. -/
theorem QueueInv.matches_held {lease : RunJobLease} {worker : String} {now : Instant}
    {r : RunJobRow} {jobId token : Uuid} (hs : QueueInv q s) (hissued : lease ∈ s.issued)
    (hr : r ∈ s.db.jobs.rows) (hjob : Uuid.parse lease.jobId = some jobId)
    (htoken : Uuid.parse lease.leaseToken = some token)
    (hheld : r.heldBy jobId worker token now = true) :
    lease.jobId = r.id.str ∧ lease.runId = r.runId.str ∧
      lease.finalAttempt = decide (q.maxAttempts ≤ r.attempts) := by
  obtain ⟨⟨r₀, -, hid₀⟩, ⟨t, ht⟩⟩ := hs.canonical lease hissued
  simp only [RunJobRow.heldBy, Bool.and_eq_true, decide_eq_true_eq] at hheld
  have hjobId : lease.jobId = r.id.str := by
    rw [hid₀, Uuid.parse_str, Option.some.injEq] at hjob
    rw [hid₀, hjob, hheld.1.1.1.1]
  have htok : r.leaseToken.map Uuid.str = some lease.leaseToken := by
    rw [ht, Uuid.parse_str, Option.some.injEq] at htoken
    rw [hheld.1.2, ht, htoken, Option.map_some]
  obtain ⟨hrunId, hfinal⟩ := hs.matching lease hissued r hr hjobId
  exact ⟨hjobId, hrunId, hfinal htok⟩

/-- A retryable failure under a lease that is not the last puts the job back. -/
theorem endsNone_fail {lease : RunJobLease} {worker failureAlias : String} {delay : ℤ}
    {now : Datetime} {b : Bool} {db' : RunDb} (hs : QueueInv q s) (hissued : lease ∈ s.issued)
    (hfinal : lease.finalAttempt = false)
    (h : q.fail s.db lease worker failureAlias true delay now = .ok (b, db')) :
    EndsNone s.db db' := by
  obtain ⟨hstore, -, hchange⟩ := PostgresRunJobQueue.fail_spec h
  refine endsNone_leasedChange hstore hchange fun r hr jobId token hjob htoken hheld => ?_
  have hleft : r.attempts < q.maxAttempts := by
    have := (hs.matches_held hissued hr hjob htoken hheld).2.2
    rw [hfinal, eq_comm, decide_eq_false_iff_not] at this
    omega
  simp [RunJobRow.failWith, RunJobRow.release, hleft, RunJobState.terminal]

/-- Every call of a worker keeps a finished run with its job. -/
theorem runsEndWithJobs_next (hop : op.Disciplined s) (hdb : s.db.RunsEndWithJobs) :
    ((queueMachine q).next s op).db.RunsEndWithJobs := by
  cases hrun : op.run q s.db with
  | error e => simpa [queueMachine, hrun] using hdb
  | ok out =>
      obtain ⟨reply, db'⟩ := out
      have hnext : ((queueMachine q).next s op).db = db' := by simp [queueMachine, hrun]
      rw [hnext]
      have hevolve := jobsEvolve_run hrun fun _ _ _ _ => trivial
      cases op with
      | enqueue | complete => exact hop.elim
      | saveQueuedRun run now newId createdAt =>
          obtain ⟨jobId, hb, -⟩ := map_eq_ok hrun
          exact (agreement_saveQueuedRun hb).2 hdb
      | claim worker leaseSeconds now token locked =>
          obtain ⟨res, hb, -⟩ := map_eq_ok hrun
          exact .of_evolve (PostgresRunJobQueue.claim_spec hb).1 (length_claim hb) hevolve hdb
      | heartbeat lease worker leaseSeconds now =>
          obtain ⟨b, hb, -⟩ := map_eq_ok hrun
          obtain ⟨hstore, hchange⟩ := PostgresRunJobQueue.heartbeat_spec hb
          exact .of_evolve hstore (length_leasedChange hchange) hevolve hdb
      | fail lease worker failureAlias retryable delay now =>
          obtain ⟨b, hb, -⟩ := map_eq_ok hrun
          obtain ⟨hstore, -, hchange⟩ := PostgresRunJobQueue.fail_spec hb
          exact .of_evolve hstore (length_leasedChange hchange) hevolve hdb
      | commitLeasedResult run lease worker now =>
          obtain ⟨b, hb, -⟩ := map_eq_ok hrun
          exact (agreement_commitLeasedResult hop hb).2 hdb

/-- A call of a worker that meets no exhausted job keeps every finished job with its
run. -/
theorem jobsEndWithRuns_next (hs : QueueInv q s) (hop : op.Disciplined s)
    (hnone : ¬ op.MeetsExhausted q s.db) (hdb : s.db.JobsEndWithRuns) :
    ((queueMachine q).next s op).db.JobsEndWithRuns := by
  cases hrun : op.run q s.db with
  | error e => simpa [queueMachine, hrun] using hdb
  | ok out =>
      obtain ⟨reply, db'⟩ := out
      have hnext : ((queueMachine q).next s op).db = db' := by simp [queueMachine, hrun]
      rw [hnext]
      cases op with
      | enqueue | complete => exact hop.elim
      | saveQueuedRun run now newId createdAt =>
          obtain ⟨jobId, hb, -⟩ := map_eq_ok hrun
          exact (agreement_saveQueuedRun hb).1 hdb
      | claim worker leaseSeconds now token locked =>
          obtain ⟨res, hb, -⟩ := map_eq_ok hrun
          refine .of_endsNone (endsNone_claim hb fun r hr => ?_) hdb
          by_contra hexh
          exact hnone ⟨r, hr, by simpa using hexh⟩
      | heartbeat lease worker leaseSeconds now =>
          obtain ⟨b, hb, -⟩ := map_eq_ok hrun
          obtain ⟨hstore, hchange⟩ := PostgresRunJobQueue.heartbeat_spec hb
          refine .of_endsNone (endsNone_leasedChange hstore hchange ?_) hdb
          intro r hr jobId token hjob htoken hheld
          simp only [RunJobRow.heldBy, Bool.and_eq_true, decide_eq_true_eq] at hheld
          simp [RunJobRow.extend, hheld.1.1.1.2, RunJobState.terminal]
      | fail lease worker failureAlias retryable delay now =>
          obtain ⟨b, hb, -⟩ := map_eq_ok hrun
          obtain ⟨rfl, hissued, hfinal⟩ := hop
          exact .of_endsNone (endsNone_fail hs hissued hfinal hb) hdb
      | commitLeasedResult run lease worker now =>
          obtain ⟨b, hb, -⟩ := map_eq_ok hrun
          exact (agreement_commitLeasedResult hop hb).1 hdb

/-- A claim that meets an exhausted job fails it and leaves its run running. -/
theorem not_jobsEndWithRuns_next {worker : String} {leaseSeconds : ℤ} {now : Datetime}
    {token : Uuid} {locked : List Uuid} (hworker : isSafeAlias worker = true)
    (hlease : 5 ≤ leaseSeconds ∧ leaseSeconds ≤ 300) (hdb : s.db.RunsEndWithJobs)
    (h : (QueueOp.claim worker leaseSeconds now token locked).MeetsExhausted q s.db) :
    ¬ ((queueMachine q).next s
      (.claim worker leaseSeconds now token locked)).db.JobsEndWithRuns := by
  obtain ⟨r, hr, hexh⟩ := h
  obtain ⟨res, db', hclaim⟩ :=
    @PostgresRunJobQueue.exists_claim_eq_ok q s.db _ now _ token locked hworker hlease
  have hnext : ((queueMachine q).next s
      (.claim worker leaseSeconds now token locked)).db = db' := by
    simp [queueMachine, QueueOp.run, hclaim, Except.map]
  rw [hnext]
  intro hends
  have hopen : r.state.terminal = false := by
    simp only [RunJobRow.exhausted, RunJobRow.leaseExpired, Bool.and_eq_true, Bool.or_eq_true,
      decide_eq_true_eq] at hexh
    rcases hexh.2 with hstate | ⟨hstate, -⟩ <;> simp [hstate, RunJobState.terminal]
  obtain ⟨run, hrun, hend⟩ := hends r.expire (expire_mem_claim hclaim hr hexh) rfl
  rw [(PostgresRunJobQueue.claim_spec hclaim).1] at hrun
  have hrunning : run.status.terminal = false := by
    by_contra hterm
    have := hdb r hr run hrun (by simpa using hterm)
    simp [hopen] at this
  rcases hend with ⟨-, hstatus⟩ | ⟨-, hstatus, -⟩ <;> simp [hstatus, RunStatus.terminal] at hrunning

end Calls

/-! ## The system -/

section System

variable {q : PostgresRunJobQueue} {workers : ℕ → RunJobWorker} {s : SystemState}
  {l : SystemStep}

/-- What holds in every state of the system: the lease discipline, that workers work
under leases they were handed and never miss a run, and that no run ends before its
job. -/
structure SystemInv (q : PostgresRunJobQueue) (s : SystemState) : Prop where
  queue : QueueInv q s.queue
  leases : ∀ w, ∀ lease ∈ (s.phase w).lease?, lease ∈ s.queue.issued
  found : ∀ w lease, s.phase w ≠ .runMissing lease
  ends : s.queue.db.RunsEndWithJobs

theorem disciplined_recordFailure {worker : RunJobWorker} {run : StoredRun}
    {lease : RunJobLease} {failureAlias : String} {now endedAt : Datetime}
    (hissued : lease ∈ s.queue.issued) :
    (worker.recordFailure run lease failureAlias now endedAt).Disciplined s.queue := by
  unfold RunJobWorker.recordFailure
  split
  · exact .inr ⟨rfl, rfl⟩
  · rename_i hfinal
    exact ⟨rfl, hissued, by simpa using hfinal⟩

theorem disciplined_conclude {worker : RunJobWorker} {run : StoredRun}
    {lease : RunJobLease} {raised : Bool} {now endedAt : Datetime}
    (hissued : lease ∈ s.queue.issued) :
    (worker.conclude run lease raised now endedAt).Disciplined s.queue := by
  unfold RunJobWorker.conclude
  split
  · exact disciplined_recordFailure hissued
  · split
    · rename_i hdone
      exact .inl hdone.1
    · exact disciplined_recordFailure hissued

theorem disciplined_call (hs : SystemInv q s) {op : QueueOp}
    (h : s.call? workers l = some op) : op.Disciplined s.queue := by
  cases l with
  | submit | lateHeartbeat =>
      cases h
      trivial
  | load | executed | crash => cases h
  | claim w now token locked =>
      simp only [SystemState.call?] at h
      split at h
      · cases h
        trivial
      · cases h
  | failMissing w now =>
      simp only [SystemState.call?] at h
      split at h
      · rename_i lease hphase
        exact absurd hphase (hs.found w lease)
      · cases h
  | heartbeat w now =>
      simp only [SystemState.call?] at h
      split at h
      · cases h
        trivial
      · cases h
  | conclude w now endedAt =>
      simp only [SystemState.call?] at h
      split at h
      · rename_i lease run raised hphase
        cases h
        exact disciplined_conclude (hs.leases w lease (by rw [hphase]; rfl))
      · cases h

/-- The run of a lease that was handed out is stored. -/
theorem isSome_get_of_issued {t : QueueState} (ht : QueueInv q t) {lease : RunJobLease}
    (h : lease ∈ t.issued) : (t.db.store.get lease.runId).isSome := by
  obtain ⟨⟨r, hr, hjob⟩, -⟩ := ht.canonical lease h
  rw [(ht.matching lease h r hr hjob).1, RunStore.get_str]
  simpa [RunStore.find?] using t.db.run_exists r hr

/-- Handed-out leases stay on record, and a claim records the one it hands out. -/
theorem mem_issued_next {t : QueueState} {op : QueueOp} {lease : RunJobLease}
    (h : lease ∈ t.issued ∨ op.handsOut q t.db = some lease) :
    lease ∈ ((queueMachine q).next t op).issued := by
  unfold QueueOp.handsOut at h
  cases hrun : op.run q t.db with
  | error e => simpa [queueMachine, hrun] using h
  | ok out =>
      simp only [hrun] at h
      simp only [queueMachine, hrun, List.mem_append, Option.mem_toList, Option.mem_def]
      exact h.symm

theorem queue_next (s : SystemState) (l : SystemStep) :
    ((systemMachine q workers).next s l).queue =
      ((s.call? workers l).map ((queueMachine q).next s.queue)).getD s.queue := by
  simp only [systemMachine]
  cases s.call? workers l <;> rfl

theorem mem_issued_system {lease : RunJobLease} (h : lease ∈ s.queue.issued) :
    lease ∈ ((systemMachine q workers).next s l).queue.issued := by
  rw [queue_next]
  cases s.call? workers l with
  | none => exact h
  | some op => exact mem_issued_next (.inl h)

/-- The phase a step leaves its worker in works under an issued lease and has found
its run. -/
theorem phase?_spec (hs : SystemInv q s) {w : ℕ} {phase : WorkerPhase}
    (h : s.phase? q workers l = some (w, phase)) :
    (∀ lease, phase ≠ .runMissing lease) ∧
      ∀ lease ∈ phase.lease?, lease ∈ ((systemMachine q workers).next s l).queue.issued := by
  -- A worker that keeps its lease, and one that drops it.
  have hkept : ∀ {w' lease' phase'}, (s.phase w').lease? = some lease' →
      phase' = some lease' → ∀ lease ∈ phase',
      lease ∈ ((systemMachine q workers).next s l).queue.issued := by
    rintro w' lease' phase' hlease rfl lease hmem
    obtain rfl := Option.mem_some_iff.mp hmem
    exact mem_issued_system (hs.leases w' lease' hlease)
  have hidle : ∀ lease ∈ WorkerPhase.idle.lease?,
      lease ∈ ((systemMachine q workers).next s l).queue.issued := by
    intro lease hmem
    cases hmem
  cases l with
  | submit | lateHeartbeat => cases h
  | claim w' now token locked =>
      simp only [SystemState.phase?] at h
      split at h
      · rename_i op hcall
        split at h
        · rename_i lease hlease
          cases h
          refine ⟨by simp, fun lease' hmem => ?_⟩
          cases hmem
          rw [queue_next, hcall]
          exact mem_issued_next (.inr hlease)
        · cases h
          exact ⟨by simp, hidle⟩
      · cases h
  | load w' =>
      simp only [SystemState.phase?] at h
      split at h
      · rename_i lease hphase
        have hlease : (s.phase w').lease? = some lease := by rw [hphase]; rfl
        split at h
        · cases h
          exact ⟨by simp, hkept hlease rfl⟩
        · rename_i hnone
          have hfound := isSome_get_of_issued hs.queue (hs.leases w' lease hlease)
          simp [hnone] at hfound
      · cases h
  | failMissing w' now =>
      simp only [SystemState.phase?] at h
      split at h
      · cases h
        exact ⟨by simp, hidle⟩
      · cases h
  | heartbeat w' now =>
      simp only [SystemState.phase?] at h
      split at h
      · rename_i lease run hphase
        cases h
        exact ⟨by simp, hkept (by rw [hphase]; rfl) rfl⟩
      · cases h
  | executed w' run raised joined =>
      simp only [SystemState.phase?] at h
      split at h
      · rename_i lease run' lost hphase
        split at h
        · cases h
          exact ⟨by simp, hidle⟩
        · cases h
          exact ⟨by simp, hkept (by rw [hphase]; rfl) rfl⟩
      · cases h
  | conclude w' now endedAt =>
      simp only [SystemState.phase?] at h
      split at h
      · cases h
        exact ⟨by simp, hidle⟩
      · cases h
  | crash w' =>
      cases h
      exact ⟨by simp, hidle⟩

theorem systemInv_next (hen : (systemMachine q workers).enabled s l) (hs : SystemInv q s) :
    SystemInv q ((systemMachine q workers).next s l) := by
  have hphase : ∀ w, (∀ lease, ((systemMachine q workers).next s l).phase w ≠ .runMissing lease) ∧
      ∀ lease ∈ (((systemMachine q workers).next s l).phase w).lease?,
        lease ∈ ((systemMachine q workers).next s l).queue.issued := by
    intro w
    have hother : (∀ lease, s.phase w ≠ .runMissing lease) ∧ ∀ lease ∈ (s.phase w).lease?,
        lease ∈ ((systemMachine q workers).next s l).queue.issued :=
      ⟨hs.found w, fun lease h => mem_issued_system (hs.leases w lease h)⟩
    cases hmove : s.phase? q workers l with
    | none => simpa [systemMachine, hmove] using hother
    | some move =>
        obtain ⟨w', phase⟩ := move
        have hspec := phase?_spec hs hmove
        have hupdate : ((systemMachine q workers).next s l).phase =
            Function.update s.phase w' phase := by simp [systemMachine, hmove]
        rw [hupdate]
        by_cases hw : w = w'
        · subst hw
          rw [Function.update_self]
          exact hspec
        · rw [Function.update_of_ne hw]
          exact hother
  have hqueue : QueueInv q ((systemMachine q workers).next s l).queue ∧
      ((systemMachine q workers).next s l).queue.db.RunsEndWithJobs := by
    rw [queue_next]
    cases hcall : s.call? workers l with
    | none => exact ⟨hs.queue, hs.ends⟩
    | some op =>
        exact ⟨queueInv_next (hen op hcall) hs.queue,
          runsEndWithJobs_next (disciplined_call hs hcall) hs.ends⟩
  exact ⟨hqueue.1, fun w => (hphase w).2, fun w => (hphase w).1, hqueue.2⟩

theorem systemInv_init (h : (systemMachine q workers).init s) :
    SystemInv q s ∧ s.queue.db.Agreement := by
  obtain ⟨⟨hrows, hissued⟩, hidle⟩ := h
  refine ⟨⟨?_, ?_, ?_, ?_⟩, ?_, ?_⟩
  · exact queueInv_of_reachable (.of_init ⟨hrows, hissued⟩)
  · simp [hidle, WorkerPhase.lease?]
  · simp [hidle]
  · simp [RunDb.RunsEndWithJobs, hrows]
  · simp [RunDb.JobsEndWithRuns, hrows]
  · simp [RunDb.RunsEndWithJobs, hrows]

/-- The step is a claim by an idle worker that meets a job with no attempt left: queued,
or leased to a worker that let its last lease run out. -/
def SystemState.ClaimMeetsExhausted (q : PostgresRunJobQueue) (s : SystemState) :
    SystemStep → Prop
  | .claim w now _ _ => s.phase w = .idle ∧
      ∃ r ∈ s.queue.db.jobs.rows, r.exhausted now.instant q.maxAttempts = true
  | _ => False

instance (s : SystemState) : ∀ l, Decidable (s.ClaimMeetsExhausted q l)
  | .claim w now _ _ => inferInstanceAs (Decidable (s.phase w = .idle ∧
      ∃ r ∈ s.queue.db.jobs.rows, r.exhausted now.instant q.maxAttempts = true))
  | .submit .. | .load _ | .failMissing .. | .heartbeat .. | .lateHeartbeat .. | .executed ..
  | .conclude .. | .crash _ => inferInstanceAs (Decidable False)

theorem not_meetsExhausted_recordFailure {worker : RunJobWorker} {run : StoredRun}
    {lease : RunJobLease} {failureAlias : String} {now endedAt : Datetime} {db : RunDb} :
    ¬ (worker.recordFailure run lease failureAlias now endedAt).MeetsExhausted q db := by
  unfold RunJobWorker.recordFailure
  split <;> exact id

theorem not_meetsExhausted_conclude {worker : RunJobWorker} {run : StoredRun}
    {lease : RunJobLease} {raised : Bool} {now endedAt : Datetime} {db : RunDb} :
    ¬ (worker.conclude run lease raised now endedAt).MeetsExhausted q db := by
  unfold RunJobWorker.conclude
  split
  · exact not_meetsExhausted_recordFailure
  · split
    · exact id
    · exact not_meetsExhausted_recordFailure

theorem meetsExhausted_iff {op : QueueOp} (h : s.call? workers l = some op) :
    s.ClaimMeetsExhausted q l ↔ op.MeetsExhausted q s.queue.db := by
  cases l with
  | submit | lateHeartbeat =>
      cases h
      exact Iff.rfl
  | load | executed | crash => cases h
  | claim w now token locked =>
      simp only [SystemState.call?] at h
      split at h
      · rename_i hphase
        cases h
        exact and_iff_right hphase
      · cases h
  | failMissing w now | heartbeat w now =>
      simp only [SystemState.call?] at h
      split at h
      · cases h
        exact Iff.rfl
      · cases h
  | conclude w now endedAt =>
      simp only [SystemState.call?] at h
      split at h
      · cases h
        exact ⟨False.elim, not_meetsExhausted_conclude⟩
      · cases h

/-- Exactly a claim that meets an exhausted job takes the agreement away. -/
theorem agreement_next_iff (hs : SystemInv q s) (hen : (systemMachine q workers).enabled s l)
    (h : s.queue.db.Agreement) :
    ¬ s.ClaimMeetsExhausted q l ↔ ((systemMachine q workers).next s l).queue.db.Agreement := by
  have hends := (systemInv_next hen hs).ends
  cases hcall : s.call? workers l with
  | none =>
      have hkeep : ((systemMachine q workers).next s l).queue = s.queue := by
        rw [queue_next, hcall]; rfl
      rw [hkeep]
      refine ⟨fun _ => h, fun _ hmeets => ?_⟩
      cases l with
      | claim w now token locked => simp [SystemState.call?, hmeets.1] at hcall
      | _ => exact hmeets
  | some op =>
      have hop := disciplined_call hs hcall
      have hkeep : ((systemMachine q workers).next s l).queue =
          (queueMachine q).next s.queue op := by rw [queue_next, hcall]; rfl
      rw [hkeep] at hends ⊢
      rw [meetsExhausted_iff hcall]
      constructor
      · intro hnone
        exact ⟨jobsEndWithRuns_next hs.queue hop hnone h.1, hends⟩
      · intro hagree hmeets
        cases l with
        | claim w now token locked =>
            simp only [SystemState.call?] at hcall
            split at hcall
            · cases hcall
              exact not_jobsEndWithRuns_next (workers w).workerId_valid
                (workers w).leaseSeconds_valid hs.ends hmeets hagree.1
            · cases hcall
        | _ => exact (meetsExhausted_iff hcall).mpr hmeets

/-- In a run of the system every job ends together with its run, in every state, exactly
when no claim of the run meets a job with no attempt left. -/
theorem agreement_iff {ls : List SystemStep} (h₀ : (systemMachine q workers).init s)
    (hls : (systemMachine q workers).Legal s ls) :
    (∀ ks, ks <+: ls → ((systemMachine q workers).exec s ks).queue.db.Agreement) ↔
      (systemMachine q workers).Along (fun s l => ¬ s.ClaimMeetsExhausted q l) s ls := by
  obtain ⟨hinv, hagree⟩ := systemInv_init h₀
  exact Machine.forall_prefix_iff_along (I := SystemInv q)
    (P := fun s => s.queue.db.Agreement) (fun s l hen hs => systemInv_next hen hs)
    (fun s l hen hs h => agreement_next_iff hs hen h) hls hinv hagree

end System

/-! ## A crash on the last attempt -/

/-- A run as it is submitted for execution by a worker. -/
def submittedRun : StoredRun :=
  createRunningRun (Uuid.ofNat 1).str "hash" none "echo" "loopback" (.utc 0) (.obj []) {} []

/-- Workers of one configuration. -/
def equalWorkers (_ : ℕ) : RunJobWorker :=
  { workerId := "worker", workerId_valid := by decide, leaseSeconds_valid := by decide,
    retryDelaySeconds_valid := by decide }

/-- No jobs, and every worker idle. -/
def SystemState.start : SystemState := ⟨⟨.empty, []⟩, fun _ => .idle⟩

/-- A job that is executed and committed by its first worker. -/
def completedSteps : List SystemStep :=
  [.submit submittedRun (.utc 0) (.ofNat 2) 0, .claim 0 (.utc 0) (.ofNat 3) [], .load 0,
    .heartbeat 0 (.utc (seconds 20)),
    .executed 0 { submittedRun with status := .completed, endedAt := some (.utc (seconds 30)) }
      false true,
    .conclude 0 (.utc (seconds 30)) (.utc (seconds 30)), .claim 1 (.utc (seconds 90)) (.ofNat 4) []]

theorem agreement_completedSteps :
    ((systemMachine ⟨1, by decide⟩ equalWorkers).exec .start completedSteps).queue.db.Agreement :=
  (agreement_iff ⟨⟨rfl, rfl⟩, fun _ => rfl⟩ (by decide +kernel)).mpr (by decide +kernel)
    completedSteps List.prefix_rfl

/-- A job whose only worker crashes, and the claim of the next worker. -/
def crashedSteps : List SystemStep :=
  [.submit submittedRun (.utc 0) (.ofNat 2) 0, .claim 0 (.utc 0) (.ofNat 3) [], .load 0, .crash 0,
    .claim 1 (.utc (seconds 60)) (.ofNat 4) []]

/-- After a crash on the last attempt, the next claim fails the job while its run stays
running for good. -/
theorem crash_on_last_attempt :
    let M := systemMachine ⟨1, by decide⟩ equalWorkers
    M.init .start ∧ M.Legal .start crashedSteps ∧
      ¬ (M.exec .start crashedSteps).queue.db.Agreement := by
  intro M
  refine ⟨⟨⟨rfl, rfl⟩, fun _ => rfl⟩, by decide +kernel, fun hagree => ?_⟩
  have hjob : ∃ r ∈ (M.exec .start crashedSteps).queue.db.jobs.rows,
      r.runId = .ofNat 1 ∧ r.state = .failed := by decide +kernel
  have hrunning : ((M.exec .start crashedSteps).queue.db.store.find? (.ofNat 1)).map
      StoredRun.status = some .running := by decide +kernel
  obtain ⟨r, hr, hid, hfailed⟩ := hjob
  obtain ⟨run, hrun, hend⟩ := hagree.1 r hr (by rw [hfailed]; rfl)
  rw [← hid, hrun, Option.map_some, Option.some.injEq] at hrunning
  rcases hend with ⟨hstate, -⟩ | ⟨-, hstatus, -⟩
  · simp [hfailed] at hstate
  · simp [hrunning] at hstatus

end VoxBench.ControlPlane
