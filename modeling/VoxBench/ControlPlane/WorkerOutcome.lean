import VoxBench.ControlPlane.RunWorker

/-!
# What a worker reports

`RunJobWorker.run_one` returns a `RunWorkerResult`. An invocation is the part of a run of
the system from a worker's claim to the step that returns; other workers take steps in
between. What a step makes of a job and of its run is read off the database alone, and is
compared with the outcome that the code computes from the executor's result, the
heartbeat's verdict, the last-attempt flag of the lease and the two fenced writes.

## Main results

* `worker_step` — a step of a worker ends an invocation and reports the transition it
  makes, or makes none.
* `runOne_outcome` — the result of an invocation describes what the invocation did.
-/

namespace VoxBench.ControlPlane

open VoxBench.Lib

/-- `RunWorkerOutcome`. -/
inductive RunWorkerOutcome where
  | idle
  | completed
  | retryScheduled
  | failed
  | runMissing
  | leaseLost
  deriving DecidableEq, Repr

/-- `RunWorkerResult`. -/
structure RunWorkerResult where
  outcome : RunWorkerOutcome
  jobId : Option String := none
  runId : Option String := none
  attempt : Option ℕ := none
  deriving DecidableEq, Repr

/-- The result that `run_one` makes out for the job of its lease. -/
def RunJobLease.result (lease : RunJobLease) (outcome : RunWorkerOutcome) : RunWorkerResult :=
  { outcome, jobId := some lease.jobId, runId := some lease.runId, attempt := some lease.attempt }

namespace RunJobWorker

/-- What `_record_failure` reports, by whether its transaction was applied. -/
def recordFailureOutcome (lease : RunJobLease) (applied : Bool) : RunWorkerOutcome :=
  if lease.finalAttempt then if applied then .failed else .leaseLost
  else if applied then .retryScheduled else .leaseLost

/-- What the end of `run_one` reports, by whether its transaction was applied. -/
def concludeOutcome (run : StoredRun) (lease : RunJobLease) (raised applied : Bool) :
    RunWorkerOutcome :=
  if raised then recordFailureOutcome lease applied
  else if run.status = .completed ∧ run.endedAt.isSome then
    if applied then .completed else .leaseLost
  else recordFailureOutcome lease applied

end RunJobWorker

/-- Whether a call was applied, if it returns. -/
def QueueOp.applied? (q : PostgresRunJobQueue) (db : RunDb) (op : QueueOp) : Option Bool :=
  match op.run q db with
  | .ok (.applied b, _) => some b
  | _ => none

/-- The worker that takes a step. -/
def SystemStep.worker? : SystemStep → Option ℕ
  | .submit .. => none
  | .claim w .. | .load w | .failMissing w _ | .heartbeat w _ | .lateHeartbeat w _ _ => some w
  | .executed w .. | .conclude w .. | .crash w => some w

/-- The clock reading of a step. -/
def SystemStep.clock? : SystemStep → Option Instant
  | .submit _ now .. | .claim _ now .. | .failMissing _ now | .heartbeat _ now
  | .lateHeartbeat _ _ now | .conclude _ now _ => some now.instant
  | .load _ | .executed .. | .crash _ => none

section System

variable (q : PostgresRunJobQueue) (workers : ℕ → RunJobWorker)

/-- The result that a step returns from `run_one`. An exception returns none. -/
def SystemState.result? (s : SystemState) : SystemStep → Option (ℕ × RunWorkerResult)
  | .claim w now token locked =>
      match s.call? workers (.claim w now token locked) with
      | some op =>
          match op.run q s.queue.db with
          | .ok (.claimed none, _) => some (w, { outcome := .idle })
          | _ => none
      | none => none
  | .failMissing w now =>
      match s.phase w with
      | .runMissing lease =>
          (QueueOp.applied? q s.queue.db
            (.fail lease (workers w).workerId "run-not-found" false 0 now)).map fun applied =>
              (w, lease.result (if applied then .runMissing else .leaseLost))
      | _ => none
  | .executed w _ _ joined =>
      match s.phase w with
      | .executing lease _ lost =>
          if lost || !joined then some (w, lease.result .leaseLost) else none
      | _ => none
  | .conclude w now endedAt =>
      match s.phase w with
      | .concluding lease run raised =>
          (((workers w).conclude run lease raised now endedAt).applied? q s.queue.db).map
            fun applied => (w, lease.result (RunJobWorker.concludeOutcome run lease raised applied))
      | _ => none
  | .submit .. | .load _ | .heartbeat .. | .lateHeartbeat .. | .crash _ => none

/-- From `s`, worker `w` claims, works through `ks` and returns `result` by the step `l`. -/
structure RunOne (s : SystemState) (w : ℕ) (ks : List SystemStep) (l : SystemStep)
    (result : RunWorkerResult) : Prop where
  idle : s.phase w = .idle
  claims : ∃ now token locked, (ks ++ [l]).head? = some (.claim w now token locked)
  busy : (systemMachine q workers).Along
    (fun s l => ((systemMachine q workers).next s l).phase w ≠ .idle) s ks
  returns : ((systemMachine q workers).exec s ks).result? q workers l = some (w, result)

/-! ## What a step makes of a job -/

/-- What becomes of an unfinished job whose run has not ended: `r'` is its row afterwards,
in a database with the run store `store`. -/
def RunWorkerOutcome.Describes (r r' : RunJobRow) (store : RunStore) : RunWorkerOutcome → Prop
  | .completed => r'.state = .completed ∧
      ∃ run, store.find? r.runId = some run ∧ run.status = .completed
  | .failed => r'.state = .failed ∧ ∃ run failureAlias, store.find? r.runId = some run ∧
      run.status = .failed ∧ run.failureAlias = some failureAlias ∧
      r'.failureAlias = some failureAlias
  | .retryScheduled => r.state = .leased ∧ r'.state = .queued ∧ r'.attempts < q.maxAttempts
  | .runMissing => r'.state = .failed ∧ store.find? r.runId = none
  | .idle | .leaseLost => False

/-- Between `db` and `db'` the job of `r` made the transition that `outcome` reports. -/
structure Transition (outcome : RunWorkerOutcome) (r r' : RunJobRow) (db db' : RunDb) :
    Prop where
  before : r ∈ db.jobs.rows
  after : r' ∈ db'.jobs.rows
  sameJob : r'.id = r.id
  jobOpen : r.state.terminal = false
  runOpen : ∀ run, db.store.find? r.runId = some run → run.status.terminal = false
  describes : outcome.Describes q r r' db'.store

/-- A step of worker `w` that makes the transition `outcome` for the job of `r`. -/
def Makes (w : ℕ) (outcome : RunWorkerOutcome) (r : RunJobRow) (s : SystemState)
    (l : SystemStep) : Prop :=
  l.worker? = some w ∧ ∃ r', Transition q outcome r r' s.queue.db
    ((systemMachine q workers).next s l).queue.db

/-- A step of worker `w` leaves every run alone. -/
def KeepsRuns (w : ℕ) (s : SystemState) (l : SystemStep) : Prop :=
  l.worker? = some w →
    ((systemMachine q workers).next s l).queue.db.store = s.queue.db.store

/-- The lease that a step works under. -/
def SystemState.lease? (s : SystemState) : SystemStep → Option RunJobLease
  | .lateHeartbeat _ lease _ => some lease
  | l => l.worker?.bind fun w => (s.phase w).lease?

/-- A step of worker `w` leaves every job alone that is held under another lease. -/
def KeepsHeldJobs (w : ℕ) (s : SystemState) (l : SystemStep) : Prop :=
  l.worker? = some w → ∀ r ∈ s.queue.db.jobs.rows, r.state = .leased →
    (∀ now ∈ l.clock?, r.leaseExpired now = false) →
    r.leaseToken ≠ (s.lease? l).bind (fun lease => Uuid.parse lease.leaseToken) →
    r ∈ ((systemMachine q workers).next s l).queue.db.jobs.rows

end System

section Transition

variable {q : PostgresRunJobQueue} {db db' : RunDb} {outcome : RunWorkerOutcome}
  {r r' : RunJobRow}

theorem Transition.state_ne (h : Transition q outcome r r' db db') : r'.state ≠ r.state := by
  have hopen := h.jobOpen
  have hdescribes := h.describes
  intro heq
  cases outcome with
  | idle | leaseLost => exact hdescribes
  | completed | failed | runMissing => simp [← heq, hdescribes.1, RunJobState.terminal] at hopen
  | retryScheduled => simp [hdescribes.1, hdescribes.2.1] at heq

theorem not_transition_self : ¬ Transition q outcome r r' db db :=
  fun h => h.state_ne (by rw [RunDb.eq_of_id_eq h.after h.before h.sameJob])

/-- The rows and the run tell the outcomes apart. -/
theorem Transition.outcome_eq {outcome' : RunWorkerOutcome} {r'' : RunJobRow}
    (h : Transition q outcome r r' db db') (h' : Transition q outcome' r r'' db db') :
    outcome = outcome' := by
  obtain rfl := RunDb.eq_of_id_eq h.after h'.after (h.sameJob.trans h'.sameJob.symm)
  have hdescribes := h.describes
  have hdescribes' := h'.describes
  cases outcome <;> cases outcome' <;>
    first
    | rfl
    | exact hdescribes.elim
    | exact hdescribes'.elim
    | grind [RunWorkerOutcome.Describes]

/-- Without a change of a run a job can only go back to the queue. -/
theorem Transition.eq_retryScheduled (h : Transition q outcome r r' db db')
    (hstore : db'.store = db.store) : outcome = .retryScheduled := by
  have hopen := h.runOpen
  have hdescribes := h.describes
  rw [← hstore] at hopen
  cases outcome with
  | idle | leaseLost => exact hdescribes.elim
  | completed =>
      obtain ⟨-, run, hrun, hstatus⟩ := hdescribes
      simpa [hstatus, RunStatus.terminal] using hopen run hrun
  | failed =>
      obtain ⟨-, run, -, hrun, hstatus, -⟩ := hdescribes
      simpa [hstatus, RunStatus.terminal] using hopen run hrun
  | runMissing =>
      obtain ⟨-, hmissing⟩ := hdescribes
      have hexists := db.run_exists r h.before
      rw [hstore, RunStore.find?, Option.map_eq_none_iff] at hmissing
      simp [hmissing] at hexists
  | retryScheduled => rfl

/-- A change under a lease makes a transition only of the job that the lease holds. -/
theorem Transition.held {lease : RunJobLease} {worker : String} {now : Instant}
    {change : RunJobRow → RunJobRow} {b : Bool} (h : Transition q outcome r r' db db')
    (hkeys : KeepsKeys change) (hchange : LeasedChange db lease worker now change b db') :
    b = true ∧ r' = change r ∧ ∃ jobId token, Uuid.parse lease.jobId = some jobId ∧
      Uuid.parse lease.leaseToken = some token ∧ r.heldBy jobId worker token now = true := by
  cases hchange with
  | refused => exact absurd h not_transition_self
  | applied hjob htoken hr hheld hrows =>
      rename_i jobId token held
      have hmem := h.after
      rw [hrows, List.mem_map] at hmem
      obtain ⟨x, hx, hx'⟩ := hmem
      have hid : x.id = r.id := by
        rw [← h.sameJob, ← hx']
        split
        · exact (hkeys x).1.symm
        · rfl
      obtain rfl := RunDb.eq_of_id_eq hx h.before hid
      by_cases hsame : x.id = held.id
      · obtain rfl := RunDb.eq_of_id_eq hx hr hsame
        rw [if_pos rfl] at hx'
        exact ⟨rfl, hx'.symm, jobId, token, hjob, htoken, hheld⟩
      · rw [if_neg hsame] at hx'
        exact absurd (congrArg RunJobRow.state hx').symm h.state_ne

/-- A claim makes no transition: an expired job is failed, and its run is not. -/
theorem not_transition_claim {worker : String} {leaseSeconds : ℤ} {now : Datetime}
    {token : Uuid} {locked : List Uuid} {res : Option RunJobLease}
    (hclaim : q.claim db worker leaseSeconds now token locked = .ok (res, db')) :
    ¬ Transition q outcome r r' db db' := by
  intro h
  obtain ⟨hstore, hcases⟩ := PostgresRunJobQueue.claim_spec hclaim
  obtain rfl := h.eq_retryScheduled hstore
  obtain ⟨hleased, hqueued, -⟩ := h.describes
  -- A queued row was queued before the exhausted jobs were failed.
  have hexpire : ∀ x ∈ (q.expireExhaustedJobs db now.instant).jobs.rows, x.state = .queued →
      x ∈ db.jobs.rows := by
    intro x hx hstate
    rw [PostgresRunJobQueue.rows_expireExhaustedJobs, List.mem_map] at hx
    obtain ⟨x₀, hx₀, rfl⟩ := hx
    split at hstate
    · cases hstate
    · rename_i hnot
      rwa [if_neg hnot]
  have hmem : r' ∈ db.jobs.rows := by
    have hafter := h.after
    rcases hcases with ⟨-, rfl⟩ | ⟨row, -, -, -, hrows⟩
    · exact hexpire r' hafter hqueued
    · rw [hrows, List.mem_map] at hafter
      obtain ⟨x, hx, rfl⟩ := hafter
      split at hqueued
      · cases hqueued
      · rename_i hnot
        rw [if_neg hnot]
        exact hexpire x hx hqueued
  rw [RunDb.eq_of_id_eq hmem h.before h.sameJob, hleased] at hqueued
  cases hqueued

end Transition

/-! ## The end of an invocation -/

/-- A call under `lease` that, when it is applied, makes the transition `outcome` for the
job of the lease, and otherwise none. -/
structure Reports (q : PostgresRunJobQueue) (lease : RunJobLease) (outcome : RunWorkerOutcome)
    (db : RunDb) (applied : Bool) (db' : RunDb) : Prop where
  made : applied = true → ∃ r r', Transition q outcome r r' db db'
  only : ∀ outcome' r r', Transition q outcome' r r' db db' →
    applied = true ∧ outcome' = outcome ∧ lease.jobId = r.id.str ∧ lease.runId = r.runId.str
  refused : applied = false → db' = db
  store : outcome = .retryScheduled → db'.store = db.store

section Conclude

variable {q : PostgresRunJobQueue} {s : QueueState} {lease : RunJobLease} {worker : String}
  {now : Datetime} {applied : Bool} {db' : RunDb} {outcome : RunWorkerOutcome}

theorem Reports.of_leasedChange {change : RunJobRow → RunJobRow} (hs : QueueInv q s)
    (hissued : lease ∈ s.issued) (hkeys : KeepsKeys change)
    (hchange : LeasedChange s.db lease worker now.instant change applied db')
    (hmade : ∀ r ∈ s.db.jobs.rows, ∀ jobId token, Uuid.parse lease.jobId = some jobId →
      Uuid.parse lease.leaseToken = some token →
      r.heldBy jobId worker token now.instant = true →
      applied = true → change r ∈ db'.jobs.rows →
      Transition q outcome r (change r) s.db db')
    (hstore : outcome = .retryScheduled → db'.store = s.db.store) :
    Reports q lease outcome s.db applied db' := by
  have hmade' : applied = true → ∃ r r', Transition q outcome r r' s.db db' := by
    intro happlied
    cases hchange with
    | refused => cases happlied
    | applied hjob htoken hr hheld hrows =>
        rename_i held
        refine ⟨held, change held, hmade held hr _ _ hjob htoken hheld rfl ?_⟩
        rw [hrows, List.mem_map]
        exact ⟨held, hr, if_pos rfl⟩
  refine ⟨hmade', fun outcome' r r' h => ?_, ?_, hstore⟩
  · obtain ⟨happlied, -, jobId, token, hjob, htoken, hheld⟩ := h.held hkeys hchange
    obtain ⟨r₁, r₁', h₁⟩ := hmade' happlied
    obtain ⟨-, -, jobId₁, token₁, hjob₁, -, hheld₁⟩ := h₁.held hkeys hchange
    have hid : r₁.id = r.id := by
      rw [RunJobRow.id_of_heldBy hheld₁, RunJobRow.id_of_heldBy hheld]
      exact Option.some.inj (hjob₁.symm.trans hjob)
    obtain rfl := RunDb.eq_of_id_eq h₁.before h.before hid
    obtain ⟨hjobId, hrunId, -⟩ := hs.matches_held hissued h.before hjob htoken hheld
    exact ⟨happlied, h.outcome_eq h₁, hjobId, hrunId⟩
  · intro happlied
    cases hchange with
    | refused => rfl
    | applied => cases happlied

/-- The run of a held job has not ended. -/
theorem runOpen_of_heldBy {db : RunDb} {r : RunJobRow} {jobId token : Uuid} {now : Instant}
    (hends : db.RunsEndWithJobs) (hr : r ∈ db.jobs.rows)
    (hheld : r.heldBy jobId worker token now = true) :
    r.state = .leased ∧
      ∀ run, db.store.find? r.runId = some run → run.status.terminal = false := by
  simp only [RunJobRow.heldBy, Bool.and_eq_true, decide_eq_true_eq] at hheld
  refine ⟨hheld.1.1.1.2, fun run hrun => ?_⟩
  by_contra hterm
  have := hends r hr run hrun (by simpa using hterm)
  simp [hheld.1.1.1.2, RunJobState.terminal] at this

/-- A commit under a lease ends its job and its run alike. -/
theorem reports_commitLeasedResult {run : StoredRun} (hs : QueueInv q s)
    (hends : s.db.RunsEndWithJobs) (hissued : lease ∈ s.issued)
    (hrun : run.status = .completed ∧ outcome = .completed ∨
      run.status = .failed ∧ run.failureAlias.isSome ∧ outcome = .failed)
    (h : PostgresRunRepository.commitLeasedResult s.db run lease worker now =
      .ok (applied, db')) :
    Reports q lease outcome s.db applied db' := by
  obtain ⟨-, -, hchange, hstored⟩ := PostgresRunRepository.commitLeasedResult_spec h
  have hkeys : KeepsKeys (PostgresRunRepository.commitRow run) := fun _ => ⟨rfl, rfl⟩
  have hcommit : outcome ≠ .retryScheduled := by
    rcases hrun with ⟨-, rfl⟩ | ⟨-, -, rfl⟩ <;> simp
  refine .of_leasedChange hs hissued hkeys hchange
    (fun r hr jobId token hjob _ hheld happlied hmem => ?_) (absurd · hcommit)
  obtain ⟨runUuid, -, -, hheldRun, hsave⟩ := hstored happlied
  obtain ⟨hleased, hopen⟩ := runOpen_of_heldBy hends hr hheld
  have hrunId : r.runId = runUuid := by
    refine hheldRun r hr ?_
    rw [hjob, RunJobRow.id_of_heldBy hheld]
  have hfound := RunStore.find?_saveInSession_self hsave
  rw [← hrunId] at hfound
  refine ⟨hr, hmem, rfl, by rw [hleased]; rfl, hopen, ?_⟩
  rcases hrun with ⟨hstatus, rfl⟩ | ⟨hstatus, halias, rfl⟩
  · exact ⟨by simp [PostgresRunRepository.commitRow, RunJobRow.release, hstatus], _, hfound,
      hstatus⟩
  · obtain ⟨failureAlias, halias⟩ := Option.isSome_iff_exists.mp halias
    exact ⟨by simp [PostgresRunRepository.commitRow, RunJobRow.release, hstatus], _, failureAlias,
      hfound, hstatus, halias,
      by simp [PostgresRunRepository.commitRow, RunJobRow.release, hstatus, halias]⟩

/-- A retryable failure under a lease that is not the last puts the job back. -/
theorem reports_fail {failureAlias : String} {delay : ℤ} (hs : QueueInv q s)
    (hends : s.db.RunsEndWithJobs) (hissued : lease ∈ s.issued)
    (hfinal : lease.finalAttempt = false)
    (h : q.fail s.db lease worker failureAlias true delay now = .ok (applied, db')) :
    Reports q lease .retryScheduled s.db applied db' := by
  obtain ⟨hstore, -, hchange⟩ := PostgresRunJobQueue.fail_spec h
  refine .of_leasedChange hs hissued (RunJobRow.keepsKeys_failWith _ _ _ _) hchange
    (fun r hr jobId token hjob htoken hheld happlied hmem => ?_) (fun _ => hstore)
  obtain ⟨hleased, hopen⟩ := runOpen_of_heldBy hends hr hheld
  have hleft : r.attempts < q.maxAttempts := by
    have := (hs.matches_held hissued hr hjob htoken hheld).2.2
    rw [hfinal, eq_comm, decide_eq_false_iff_not] at this
    omega
  refine ⟨hr, hmem, rfl, by rw [hleased]; rfl, hopen, hleased, ?_, hleft⟩
  simp [RunJobRow.failWith, RunJobRow.release, hleft]

/-- The outcome that the end of `run_one` reports, by whether its transaction was
applied. -/
def reported (outcome : RunWorkerOutcome) (applied : Bool) : RunWorkerOutcome :=
  if applied then outcome else .leaseLost

/-- `_record_failure` reports the transition it makes. -/
theorem recordFailure_spec {w : RunJobWorker} {run : StoredRun} {failureAlias : String}
    {endedAt : Datetime} {reply : QueueReply} (hs : QueueInv q s)
    (hends : s.db.RunsEndWithJobs) (hissued : lease ∈ s.issued)
    (h : (w.recordFailure run lease failureAlias now endedAt).run q s.db = .ok (reply, db')) :
    ∃ outcome applied, reply = .applied applied ∧ Reports q lease outcome s.db applied db' ∧
      RunJobWorker.recordFailureOutcome lease = reported outcome := by
  unfold RunJobWorker.recordFailure at h
  unfold RunJobWorker.recordFailureOutcome
  split at h
  · rename_i hfinal
    obtain ⟨applied, hb, rfl⟩ := map_eq_ok h
    refine ⟨.failed, applied, rfl, ?_, by simp [hfinal]; rfl⟩
    exact reports_commitLeasedResult hs hends hissued (.inr ⟨rfl, rfl, rfl⟩) hb
  · rename_i hfinal
    obtain ⟨applied, hb, rfl⟩ := map_eq_ok h
    refine ⟨.retryScheduled, applied, rfl, ?_, by simp [hfinal]; rfl⟩
    exact reports_fail hs hends hissued (by simpa using hfinal) hb

/-- The end of `run_one` reports the transition it makes. -/
theorem conclude_spec {w : RunJobWorker} {run : StoredRun} {raised : Bool} {endedAt : Datetime}
    {reply : QueueReply} (hs : QueueInv q s) (hends : s.db.RunsEndWithJobs)
    (hissued : lease ∈ s.issued)
    (h : (w.conclude run lease raised now endedAt).run q s.db = .ok (reply, db')) :
    ∃ outcome applied, reply = .applied applied ∧ Reports q lease outcome s.db applied db' ∧
      RunJobWorker.concludeOutcome run lease raised = reported outcome := by
  unfold RunJobWorker.conclude at h
  unfold RunJobWorker.concludeOutcome
  split at h
  · rename_i hraised
    simp only [hraised, if_true]
    exact recordFailure_spec hs hends hissued h
  · rename_i hraised
    simp only [hraised]
    split at h
    · rename_i hdone
      obtain ⟨applied, hb, rfl⟩ := map_eq_ok h
      refine ⟨.completed, applied, rfl, ?_, by simp [hdone]; rfl⟩
      exact reports_commitLeasedResult hs hends hissued (.inl ⟨hdone.1, rfl⟩) hb
    · rename_i hnot
      simp only [hnot, if_false]
      exact recordFailure_spec hs hends hissued h

end Conclude

/-! ## A step of a worker -/

section System

variable {q : PostgresRunJobQueue} {workers : ℕ → RunJobWorker} {s : SystemState}
  {l : SystemStep} {w : ℕ} {outcome : RunWorkerOutcome} {r r' : RunJobRow}

/-- The database after a step: that of its transaction, if it has one that returns. -/
theorem db_next (s : SystemState) (l : SystemStep) :
    ((systemMachine q workers).next s l).queue.db =
      match s.call? workers l with
      | some op =>
          match op.run q s.queue.db with
          | .ok (_, db') => db'
          | .error _ => s.queue.db
      | none => s.queue.db := by
  rw [queue_next]
  cases s.call? workers l with
  | none => rfl
  | some op =>
      cases hrun : op.run q s.queue.db <;> simp [queueMachine, hrun]

/-- A database that a step changes was changed by its transaction. -/
theorem call_of_db_next_ne
    (h : ((systemMachine q workers).next s l).queue.db ≠ s.queue.db) :
    ∃ op reply, s.call? workers l = some op ∧ op.run q s.queue.db =
      .ok (reply, ((systemMachine q workers).next s l).queue.db) := by
  have hdb := @db_next q workers s l
  cases hcall : s.call? workers l with
  | none =>
      simp only [hcall] at hdb
      exact absurd hdb h
  | some op =>
      cases hrun : op.run q s.queue.db with
      | error e =>
          simp only [hcall, hrun] at hdb
          exact absurd hdb h
      | ok out =>
          simp only [hcall, hrun] at hdb
          exact ⟨op, out.1, rfl, by rw [hrun, hdb]⟩

/-- The calls of a worker on the way: a claim or a heartbeat. -/
def QueueOp.OnTheWay : QueueOp → Prop
  | .claim .. | .heartbeat .. => True
  | _ => False

/-- A claim and a heartbeat make no transition and leave the runs alone. -/
theorem QueueOp.OnTheWay.quiet {op : QueueOp} {reply : QueueReply} {db db' : RunDb}
    (hop : op.OnTheWay) (h : op.run q db = .ok (reply, db')) :
    (∀ outcome r r', ¬ Transition q outcome r r' db db') ∧ db'.store = db.store := by
  cases op with
  | enqueue | saveQueuedRun | complete | fail | commitLeasedResult => exact hop.elim
  | claim worker leaseSeconds now token locked =>
      obtain ⟨res, hb, -⟩ := map_eq_ok h
      exact ⟨fun _ _ _ => not_transition_claim hb, (PostgresRunJobQueue.claim_spec hb).1⟩
  | heartbeat lease worker leaseSeconds now =>
      obtain ⟨b, hb, -⟩ := map_eq_ok h
      obtain ⟨hstore, hchange⟩ := PostgresRunJobQueue.heartbeat_spec hb
      refine ⟨fun outcome r r' htransition => ?_, hstore⟩
      obtain ⟨-, hrow, -⟩ := htransition.held (RunJobRow.keepsKeys_extend _) hchange
      exact htransition.state_ne (by rw [hrow]; rfl)

/-- What a step of a worker is: the end of an invocation that got so far, or a step
that makes no transition and leaves the runs alone. -/
inductive WorkerStep (q : PostgresRunJobQueue) (w : ℕ) (db db' : RunDb) :
    Option (ℕ × RunWorkerResult) → Prop
  | ends {lease : RunJobLease} {outcome : RunWorkerOutcome} {applied : Bool}
      (hreports : Reports q lease outcome db applied db') :
      WorkerStep q w db db' (some (w, lease.result (reported outcome applied)))
  | quiet {res : Option (ℕ × RunWorkerResult)}
      (hnone : ∀ outcome r r', ¬ Transition q outcome r r' db db')
      (hstore : db'.store = db.store)
      (hres : ∀ result, res = some (w, result) →
        result.outcome = .idle ∨ result.outcome = .leaseLost) :
      WorkerStep q w db db' res

theorem WorkerStep.of_onTheWay {res : Option (ℕ × RunWorkerResult)}
    (hcalls : ∀ op, s.call? workers l = some op → op.OnTheWay)
    (hres : ∀ result, res = some (w, result) →
      result.outcome = .idle ∨ result.outcome = .leaseLost) :
    WorkerStep q w s.queue.db ((systemMachine q workers).next s l).queue.db res := by
  by_cases hsame : ((systemMachine q workers).next s l).queue.db = s.queue.db
  · rw [hsame]
    exact .quiet (fun _ _ _ => not_transition_self) rfl hres
  · obtain ⟨op, reply, hcall, hrun⟩ := call_of_db_next_ne hsame
    obtain ⟨hnone, hstore⟩ := (hcalls op hcall).quiet hrun
    exact .quiet hnone hstore hres

/-- Every step of a worker reports the transition it makes. -/
theorem worker_step (hs : SystemInv q s) (hw : l.worker? = some w) :
    WorkerStep q w s.queue.db ((systemMachine q workers).next s l).queue.db
      (s.result? q workers l) := by
  cases l with
  | submit => cases hw
  | load | crash =>
      refine .of_onTheWay (fun op hcall => ?_) fun result hres => ?_
      · cases hcall
      · cases hres
  | executed w' run raised joined =>
      refine .of_onTheWay (fun op hcall => ?_) fun result hres => ?_
      · cases hcall
      · simp only [SystemState.result?] at hres
        split at hres
        · split at hres
          · cases hres
            exact .inr rfl
          · cases hres
        · cases hres
  | failMissing w' now =>
      refine .of_onTheWay (fun op hcall => ?_) fun result hres => ?_
      · simp only [SystemState.call?] at hcall
        split at hcall
        · rename_i lease hphase
          exact absurd hphase (hs.found w' lease)
        · cases hcall
      · simp only [SystemState.result?] at hres
        split at hres
        · rename_i lease hphase
          exact absurd hphase (hs.found w' lease)
        · cases hres
  | heartbeat w' now =>
      refine .of_onTheWay (fun op hcall => ?_) fun result hres => ?_
      · simp only [SystemState.call?] at hcall
        split at hcall
        · cases hcall
          trivial
        · cases hcall
      · cases hres
  | lateHeartbeat w' lease now =>
      refine .of_onTheWay (fun op hcall => ?_) fun result hres => ?_
      · cases hcall
        trivial
      · cases hres
  | claim w' now token locked =>
      refine .of_onTheWay (fun op hcall => ?_) fun result hres => ?_
      · simp only [SystemState.call?] at hcall
        split at hcall
        · cases hcall
          trivial
        · cases hcall
      · simp only [SystemState.result?] at hres
        split at hres
        · split at hres
          · cases hres
            exact .inl rfl
          · cases hres
        · cases hres
  | conclude w' now endedAt =>
      cases hw
      cases hphase : s.phase w with
      | concluding lease run raised =>
          have hcall : s.call? workers (.conclude w now endedAt) =
              some ((workers w).conclude run lease raised now endedAt) := by
            simp [SystemState.call?, hphase]
          have hdb := @db_next q workers s (.conclude w now endedAt)
          simp only [hcall] at hdb
          simp only [SystemState.result?, hphase, QueueOp.applied?]
          cases hrun : ((workers w).conclude run lease raised now endedAt).run q s.queue.db with
          | error e =>
              simp only [hrun] at hdb
              rw [hdb]
              exact .quiet (fun _ _ _ => not_transition_self) rfl (by simp)
          | ok out =>
              obtain ⟨reply, db'⟩ := out
              simp only [hrun] at hdb
              rw [hdb]
              obtain ⟨outcome, applied, rfl, hreports, houtcome⟩ :=
                conclude_spec hs.queue hs.ends (hs.leases w lease (by rw [hphase]; rfl)) hrun
              simp only [houtcome, Option.map_some]
              exact .ends hreports
      | idle | claimed | runMissing | executing =>
          refine .of_onTheWay (fun op hcall => ?_) fun result hres => ?_
          · simp [SystemState.call?, hphase] at hcall
          · simp [SystemState.result?, hphase] at hres

theorem worker?_of_result? {result : RunWorkerResult}
    (h : s.result? q workers l = some (w, result)) : l.worker? = some w := by
  cases l with
  | submit | load | heartbeat | lateHeartbeat | crash => cases h
  | claim w' now token locked =>
      simp only [SystemState.result?] at h
      split at h
      · split at h
        · cases h
          rfl
        · cases h
      · cases h
  | executed w' run raised joined =>
      simp only [SystemState.result?] at h
      split at h
      · split at h
        · cases h
          rfl
        · cases h
      · cases h
  | failMissing w' now | conclude w' now endedAt =>
      simp only [SystemState.result?] at h
      split at h
      · obtain ⟨applied, -, heq⟩ := Option.map_eq_some_iff.mp h
        cases heq
        rfl
      · cases h

/-- `run_one` has returned. -/
theorem phase_of_result? {result : RunWorkerResult}
    (h : s.result? q workers l = some (w, result)) :
    ((systemMachine q workers).next s l).phase w = .idle := by
  have hmove : s.phase? q workers l = some (w, .idle) := by
    cases l with
    | submit | load | heartbeat | lateHeartbeat | crash => cases h
    | claim w' now token locked =>
        simp only [SystemState.result?] at h
        simp only [SystemState.phase?]
        generalize SystemState.call? workers s (.claim w' now token locked) = call at h ⊢
        cases call with
        | none => cases h
        | some op =>
            dsimp only at h ⊢
            split at h
            · rename_i db' hrun
              cases h
              simp [QueueOp.handsOut, hrun, QueueReply.lease?]
            · cases h
    | executed w' run raised joined =>
        simp only [SystemState.result?] at h
        simp only [SystemState.phase?]
        generalize s.phase w' = phase at h ⊢
        cases phase with
        | idle | claimed | runMissing | concluding => cases h
        | executing lease run' lost =>
            dsimp only at h ⊢
            split at h
            · rename_i hlost
              cases h
              exact if_pos (by simpa using hlost)
            · cases h
    | failMissing w' now | conclude w' now endedAt =>
        simp only [SystemState.result?] at h
        simp only [SystemState.phase?]
        generalize s.phase w' = phase at h ⊢
        split at h
        · obtain ⟨applied, -, heq⟩ := Option.map_eq_some_iff.mp h
          cases heq
          rfl
        · cases h
  simp [systemMachine, hmove]

/-- A step that makes a transition returns a result that reports it. -/
theorem result_of_makes (hs : SystemInv q s) (h : Makes q workers w outcome r s l) :
    ∃ result, s.result? q workers l = some (w, result) ∧ result.outcome = outcome ∧
      result.jobId = some r.id.str ∧ result.runId = some r.runId.str := by
  obtain ⟨hw, r', htransition⟩ := h
  have hstep := @worker_step q workers s l w hs hw
  generalize s.result? q workers l = res at hstep
  cases hstep with
  | quiet hnone => exact absurd htransition (hnone _ _ _)
  | ends hreports =>
      obtain ⟨rfl, rfl, hjob, hrun⟩ := hreports.only _ _ _ htransition
      exact ⟨_, rfl, rfl, congrArg some hjob, congrArg some hrun⟩

/-- A result that reports a transition comes from a step that makes it. -/
theorem makes_of_result (hs : SystemInv q s) {result : RunWorkerResult}
    (h : s.result? q workers l = some (w, result)) (hidle : result.outcome ≠ .idle)
    (hlost : result.outcome ≠ .leaseLost) :
    ∃ r, Makes q workers w result.outcome r s l := by
  have hw := worker?_of_result? h
  have hstep := @worker_step q workers s l w hs hw
  rw [h] at hstep
  cases hstep with
  | quiet _ _ hres => exact absurd (hres result rfl) (by simp [hidle, hlost])
  | @ends lease outcome applied hreports =>
      cases applied with
      | false => exact absurd rfl hlost
      | true =>
          obtain ⟨r, r', htransition⟩ := hreports.made rfl
          exact ⟨r, hw, r', htransition⟩

/-- A run is changed only by a step that reports its end. -/
theorem store_next (hs : SystemInv q s) (hw : l.worker? = some w) :
    ((systemMachine q workers).next s l).queue.db.store = s.queue.db.store ∨
      ∃ r result, s.result? q workers l = some (w, result) ∧
        Makes q workers w result.outcome r s l ∧ result.outcome ≠ .retryScheduled := by
  have hstep := @worker_step q workers s l w hs hw
  cases hres : s.result? q workers l with
  | none =>
      rw [hres] at hstep
      cases hstep with
      | quiet _ hstore => exact .inl hstore
  | some out =>
      rw [hres] at hstep
      cases hstep with
      | quiet _ hstore => exact .inl hstore
      | @ends lease outcome applied hreports =>
          cases applied with
          | false => exact .inl (by rw [hreports.refused rfl])
          | true =>
              by_cases hretry : outcome = .retryScheduled
              · exact .inl (hreports.store hretry)
              · obtain ⟨r, r', htransition⟩ := hreports.made rfl
                exact .inr ⟨r, _, rfl, ⟨hw, r', htransition⟩, hretry⟩

/-! ## Jobs held by others -/

theorem LeasedChange.mem_of_token_ne {lease : RunJobLease} {worker : String} {now : Instant}
    {change : RunJobRow → RunJobRow} {b : Bool} {db db' : RunDb}
    (h : LeasedChange db lease worker now change b db') (hr : r ∈ db.jobs.rows)
    (htoken : r.leaseToken ≠ Uuid.parse lease.leaseToken) : r ∈ db'.jobs.rows := by
  cases h with
  | refused => exact hr
  | applied hjob hparse hmem hheld hrows =>
      rename_i held
      rw [hrows, List.mem_map]
      refine ⟨r, hr, if_neg fun hid => htoken ?_⟩
      obtain rfl := RunDb.eq_of_id_eq hr hmem hid
      simp only [RunJobRow.heldBy, Bool.and_eq_true, decide_eq_true_eq] at hheld
      rw [hheld.1.2, hparse]

/-- A claim leaves a job alone whose lease has not run out. -/
theorem mem_claim {worker : String} {leaseSeconds : ℤ} {now : Datetime} {token : Uuid}
    {locked : List Uuid} {res : Option RunJobLease} {db db' : RunDb}
    (h : q.claim db worker leaseSeconds now token locked = .ok (res, db'))
    (hr : r ∈ db.jobs.rows) (hleased : r.state = .leased)
    (hlive : r.leaseExpired now.instant = false) : r ∈ db'.jobs.rows := by
  have hexhausted : r.exhausted now.instant q.maxAttempts = false := by
    simp [RunJobRow.exhausted, hlive, hleased]
  have hexpired : r ∈ (q.expireExhaustedJobs db now.instant).jobs.rows := by
    rw [PostgresRunJobQueue.rows_expireExhaustedJobs, List.mem_map]
    exact ⟨r, hr, by simp [hexhausted]⟩
  obtain ⟨-, ⟨-, rfl⟩ | ⟨row, hrow, hclaimable, -, hrows⟩⟩ := PostgresRunJobQueue.claim_spec h
  · exact hexpired
  · rw [hrows, List.mem_map]
    refine ⟨r, hexpired, if_neg fun hid => ?_⟩
    obtain rfl := RunDb.eq_of_id_eq hexpired hrow hid
    simp [RunJobRow.claimable, hlive, hleased] at hclaimable

theorem presents_conclude {worker : RunJobWorker} {run : StoredRun} {lease : RunJobLease}
    {raised : Bool} {now endedAt : Datetime} :
    (worker.conclude run lease raised now endedAt).presents =
      some (lease, worker.workerId, now.instant) := by
  unfold RunJobWorker.conclude RunJobWorker.recordFailure
  split
  · split <;> rfl
  · split
    · rfl
    · split <;> rfl

/-- What the transaction of a worker's step presents: the lease of the step, or nothing
in a claim. -/
theorem presents_call {op : QueueOp} (hw : l.worker? = some w)
    (hcall : s.call? workers l = some op) :
    (∃ lease worker now, op.presents = some (lease, worker, now) ∧ s.lease? l = some lease) ∨
      ∃ worker leaseSeconds now token locked,
        op = .claim worker leaseSeconds now token locked ∧ l.clock? = some now.instant := by
  cases l with
  | submit => cases hw
  | load | executed | crash => cases hcall
  | lateHeartbeat w' lease now =>
      cases hcall
      exact .inl ⟨_, _, _, rfl, rfl⟩
  | claim w' now token locked =>
      simp only [SystemState.call?] at hcall
      split at hcall
      · cases hcall
        exact .inr ⟨_, _, _, _, _, rfl, rfl⟩
      · cases hcall
  | failMissing w' now | heartbeat w' now =>
      simp only [SystemState.call?] at hcall
      split at hcall
      · rename_i hphase
        cases hcall
        exact .inl ⟨_, _, _, rfl, by simp [SystemState.lease?, SystemStep.worker?, hphase,
          WorkerPhase.lease?]⟩
      · cases hcall
  | conclude w' now endedAt =>
      simp only [SystemState.call?] at hcall
      split at hcall
      · rename_i hphase
        cases hcall
        exact .inl ⟨_, _, _, presents_conclude, by simp [SystemState.lease?, SystemStep.worker?,
          hphase, WorkerPhase.lease?]⟩
      · cases hcall

theorem keepsHeldJobs (s : SystemState) (l : SystemStep) :
    KeepsHeldJobs q workers w s l := by
  intro hw r hr hleased hlive htoken
  by_cases hsame : ((systemMachine q workers).next s l).queue.db = s.queue.db
  · rwa [hsame]
  · obtain ⟨op, reply, hcall, hrun⟩ := call_of_db_next_ne hsame
    rcases presents_call hw hcall with
      ⟨lease, worker, now, hpresents, hlease⟩ | ⟨worker, leaseSeconds, now, token, locked, rfl, hclock⟩
    · obtain ⟨b, change, -, hchange, -⟩ := leasedChange_run hrun hpresents
      exact hchange.mem_of_token_ne hr (by simpa [hlease] using htoken)
    · obtain ⟨res, hclaim, -⟩ := map_eq_ok hrun
      exact mem_claim hclaim hr hleased (hlive _ hclock)

/-! ## An invocation -/

section Invocation

variable {ks : List SystemStep} {result : RunWorkerResult}

/-- Before it returns, an invocation makes no transition and leaves the runs alone. -/
theorem RunOne.quiet (h : RunOne q workers s w ks l result)
    (hinv : (systemMachine q workers).Along (fun s _ => SystemInv q s) s ks) :
    (∀ outcome r, ¬ (systemMachine q workers).Sometime (Makes q workers w outcome r) s ks) ∧
      (systemMachine q workers).Along (KeepsRuns q workers w) s ks := by
  have hsteps := Machine.along_and.mpr ⟨hinv, h.busy⟩
  constructor
  · intro outcome r
    refine hsteps.not_sometime fun s l hstep hmakes => ?_
    obtain ⟨result, hres, -⟩ := result_of_makes hstep.1 hmakes
    exact hstep.2 (phase_of_result? hres)
  · refine hsteps.mono fun s l hstep hw => ?_
    rcases store_next hstep.1 hw with hstore | ⟨r, result, hres, -⟩
    · exact hstore
    · exact absurd (phase_of_result? hres) hstep.2

/-- The result of an invocation describes the transition that the invocation made: a step
of it ended the job and the run alike, or put the job back with attempts left and no step
changed a run, or failed a job without a run. A lost lease and an idle worker report that
no step changed a run or a job held under another lease. A transition is of the job that
the result names. -/
theorem runOne_outcome (hs : (systemMachine q workers).Reachable s)
    (hls : (systemMachine q workers).Legal s (ks ++ [l]))
    (h : RunOne q workers s w ks l result) :
    let M := systemMachine q workers
    let Made := fun outcome => ∃ r, M.Sometime (Makes q workers w outcome r) s (ks ++ [l])
    (result.outcome = .completed ↔ Made .completed) ∧
      (result.outcome = .retryScheduled ↔
        Made .retryScheduled ∧ M.Along (KeepsRuns q workers w) s (ks ++ [l])) ∧
      (result.outcome = .failed ↔ Made .failed) ∧
      (result.outcome = .runMissing ↔ Made .runMissing) ∧
      (result.outcome = .leaseLost ∨ result.outcome = .idle →
        M.Along (fun s l => KeepsRuns q workers w s l ∧ KeepsHeldJobs q workers w s l) s
          (ks ++ [l])) ∧
      ∀ outcome r, M.Sometime (Makes q workers w outcome r) s (ks ++ [l]) →
        result.jobId = some r.id.str ∧ result.runId = some r.runId.str := by
  intro M Made
  have hreach : ∀ {s}, M.Reachable s → SystemInv q s := fun hs =>
    hs.invariant (fun s h₀ => (systemInv_init h₀).1) fun s l hen => systemInv_next hen
  have hinv : M.Along (fun s _ => SystemInv q s) s (ks ++ [l]) :=
    hs.along (fun s l hs _ => hreach hs) hls
  rw [Machine.along_append] at hinv
  have hlast : SystemInv q (M.exec s ks) := hinv.2.1
  have hreturns : (M.exec s ks).result? q workers l = some (w, result) := h.returns
  obtain ⟨hbefore, hkeeps⟩ := h.quiet hinv.1
  -- Only the last step can make a transition, and it reports it.
  have hmakes : ∀ {outcome r}, M.Sometime (Makes q workers w outcome r) s (ks ++ [l]) →
      Makes q workers w outcome r (M.exec s ks) l := by
    intro outcome r hsome
    rw [Machine.sometime_append] at hsome
    rcases hsome with hsome | hsome | hsome
    · exact absurd hsome (hbefore outcome r)
    · exact hsome
    · exact hsome.elim
  have hreports : ∀ {outcome r}, Makes q workers w outcome r (M.exec s ks) l →
      result.outcome = outcome ∧ result.jobId = some r.id.str ∧
        result.runId = some r.runId.str := by
    intro outcome r hmade
    obtain ⟨result', hres, hreport⟩ := result_of_makes hlast hmade
    obtain rfl : result = result' := by simpa [hreturns] using hres
    exact hreport
  have hiff : ∀ outcome, outcome ≠ .idle → outcome ≠ .leaseLost →
      (result.outcome = outcome ↔ Made outcome) := by
    intro outcome hidle hlost
    constructor
    · rintro rfl
      obtain ⟨r, hmade⟩ := makes_of_result hlast h.returns hidle hlost
      exact ⟨r, Machine.sometime_append.mpr (.inr (.inl hmade))⟩
    · rintro ⟨r, hsome⟩
      exact (hreports (hmakes hsome)).1
  have hruns : (result.outcome = .retryScheduled ∨ result.outcome = .leaseLost ∨
      result.outcome = .idle) → M.Along (KeepsRuns q workers w) s (ks ++ [l]) := by
    intro houtcome
    refine Machine.along_append.mpr ⟨hkeeps, fun hw => ?_, Machine.along_nil⟩
    rcases store_next hlast hw with hstore | ⟨r, result', hres, ⟨-, r', hmade⟩, hretry⟩
    · exact hstore
    · obtain rfl : result = result' := by simpa [hreturns] using hres
      have hdescribes := hmade.describes
      rcases houtcome with houtcome | houtcome | houtcome
      · exact absurd houtcome hretry
      · rw [houtcome] at hdescribes
        exact hdescribes.elim
      · rw [houtcome] at hdescribes
        exact hdescribes.elim
  refine ⟨hiff _ nofun nofun, ?_, hiff _ nofun nofun, hiff _ nofun nofun, ?_, ?_⟩
  · rw [← hiff .retryScheduled nofun nofun]
    exact ⟨fun houtcome => ⟨houtcome, hruns (.inl houtcome)⟩, And.left⟩
  · intro houtcome
    exact Machine.along_and.mpr ⟨hruns (.inr houtcome),
      (Machine.along_true s _).mono fun s l _ => keepsHeldJobs s l⟩
  · intro outcome r hsome
    exact (hreports (hmakes hsome)).2

end Invocation

end System

/-- The first invocation of `completedSteps`. -/
theorem runOne_outcome_completedSteps :
    let M := systemMachine ⟨1, by decide⟩ equalWorkers
    ∃ r, M.Sometime (Makes ⟨1, by decide⟩ equalWorkers 0 .completed r)
      (M.exec .start (completedSteps.take 1)) ((completedSteps.drop 1).take 5) := by
  intro M
  have hinit : M.init .start := ⟨⟨rfl, rfl⟩, fun _ => rfl⟩
  have hs : M.Reachable (M.exec .start (completedSteps.take 1)) :=
    (Machine.Reachable.of_init hinit).run (by decide +kernel)
  have h : RunOne ⟨1, by decide⟩ equalWorkers (M.exec .start (completedSteps.take 1)) 0
      ((completedSteps.drop 1).take 4)
      (.conclude 0 (.utc (seconds 30)) (.utc (seconds 30)))
      { outcome := .completed, jobId := some (Uuid.ofNat 2).str,
        runId := some (Uuid.ofNat 1).str, attempt := some 1 } :=
    ⟨by decide +kernel, ⟨_, _, _, rfl⟩, by decide +kernel, by decide +kernel⟩
  exact (runOne_outcome hs (by decide +kernel) h).1.mp rfl

end VoxBench.ControlPlane
