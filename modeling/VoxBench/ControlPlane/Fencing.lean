import VoxBench.ControlPlane.JobLifecycle
import VoxBench.Lib.Machine

/-!
# Fencing of the job queue

Any number of workers call the queue and the repository in any order, each call
one transaction. A label of `queueMachine` is one call with everything the caller
and the environment choose: the presented lease, the worker, the clock reading, the
rows locked elsewhere, the token drawn. The state keeps, beside the database, the
leases handed out so far; the machine's only constraint is that a drawn token was
not drawn before.

## Main results

* `fencing` — the lease discipline over whole runs: what holds of every row, what
  counts an attempt, that an end is final, and that a lost lease stays lost.
-/

namespace VoxBench.ControlPlane

open VoxBench.Lib

/-- A call of the queue or of the repository's job side. -/
inductive QueueOp where
  | enqueue (runId : String) (now : Datetime) (newId : Uuid) (createdAt : Instant)
  | saveQueuedRun (run : StoredRun) (now : Datetime) (newId : Uuid) (createdAt : Instant)
  | claim (worker : String) (leaseSeconds : ℤ) (now : Datetime) (token : Uuid)
      (locked : List Uuid)
  | heartbeat (lease : RunJobLease) (worker : String) (leaseSeconds : ℤ) (now : Datetime)
  | complete (lease : RunJobLease) (worker : String) (now : Datetime)
  | fail (lease : RunJobLease) (worker failureAlias : String) (retryable : Bool)
      (retryDelaySeconds : ℤ) (now : Datetime)
  | commitLeasedResult (run : StoredRun) (lease : RunJobLease) (worker : String) (now : Datetime)

/-- What a call returns. -/
inductive QueueReply where
  | job (jobId : String)
  | claimed (lease : Option RunJobLease)
  | applied (b : Bool)

/-- The lease a reply hands out. -/
def QueueReply.lease? : QueueReply → Option RunJobLease
  | .claimed lease => lease
  | _ => none

namespace QueueOp

/-- One call as one transaction. -/
def run (q : PostgresRunJobQueue) (db : RunDb) : QueueOp → Except PyError (QueueReply × RunDb)
  | .enqueue runId now newId createdAt =>
      (PostgresRunJobQueue.enqueue db runId now newId createdAt).map (Prod.map .job id)
  | .saveQueuedRun run now newId createdAt =>
      (PostgresRunRepository.saveQueuedRun db run now newId createdAt).map (Prod.map .job id)
  | .claim worker leaseSeconds now token locked =>
      (q.claim db worker leaseSeconds now token locked).map (Prod.map .claimed id)
  | .heartbeat lease worker leaseSeconds now =>
      (PostgresRunJobQueue.heartbeat db lease worker leaseSeconds now).map (Prod.map .applied id)
  | .complete lease worker now =>
      (PostgresRunJobQueue.complete db lease worker now).map (Prod.map .applied id)
  | .fail lease worker failureAlias retryable delay now =>
      (q.fail db lease worker failureAlias retryable delay now).map (Prod.map .applied id)
  | .commitLeasedResult run lease worker now =>
      (PostgresRunRepository.commitLeasedResult db run lease worker now).map
        (Prod.map .applied id)

/-- The lease that a call hands out. -/
def handsOut (q : PostgresRunJobQueue) (db : RunDb) (op : QueueOp) : Option RunJobLease :=
  match op.run q db with
  | .error _ => none
  | .ok (reply, _) => reply.lease?

/-- The lease, the worker and the clock reading that a call presents. -/
def presents : QueueOp → Option (RunJobLease × String × Instant)
  | .heartbeat lease worker _ now => some (lease, worker, now.instant)
  | .complete lease worker now => some (lease, worker, now.instant)
  | .fail lease worker _ _ _ now => some (lease, worker, now.instant)
  | .commitLeasedResult _ lease worker now => some (lease, worker, now.instant)
  | _ => none

end QueueOp

/-- The database and the leases handed out so far, the latest first. -/
structure QueueState where
  db : RunDb
  issued : List RunJobLease

/-- The workers' calls over an initially empty job table. A failed call changes
nothing; a claim that leases a job draws a token not drawn before. -/
def queueMachine (q : PostgresRunJobQueue) : Machine QueueState QueueOp where
  init s := s.db.jobs.rows = [] ∧ s.issued = []
  enabled s op := ∀ lease ∈ op.handsOut q s.db,
    lease.leaseToken ∉ s.issued.map RunJobLease.leaseToken
  next s op :=
    match op.run q s.db with
    | .error _ => s
    | .ok (reply, db') => ⟨db', reply.lease?.toList ++ s.issued⟩

instance (q : PostgresRunJobQueue) (s : QueueState) (op : QueueOp) :
    Decidable ((queueMachine q).enabled s op) :=
  inferInstanceAs (Decidable (∀ lease ∈ op.handsOut q s.db, _))

/-! ## The step, as the lifecycle sees it -/

section Step

variable {q : PostgresRunJobQueue} {s : QueueState} {op : QueueOp} {reply : QueueReply}
  {db db' : RunDb}

theorem map_eq_ok {α β : Type} {x : Except PyError (α × RunDb)} {f : α → β} {b : β}
    (h : x.map (Prod.map f id) = .ok (b, db')) : ∃ a, x = .ok (a, db') ∧ b = f a := by
  cases x with
  | error e => cases h
  | ok a =>
      cases h
      exact ⟨a.1, rfl, rfl⟩

/-- A call that presents a lease is refused without a change, or acts on the row
that its lease holds. -/
theorem leasedChange_run (h : op.run q db = .ok (reply, db')) {lease : RunJobLease}
    {worker : String} {now : Instant} (hp : op.presents = some (lease, worker, now)) :
    ∃ b change, reply = .applied b ∧ LeasedChange db lease worker now change b db' ∧
      (b = false → db' = db) := by
  have hkeep : ∀ {b change}, LeasedChange db lease worker now change b db' →
      b = false → db' = db := by
    intro b change hc hb
    cases hc with
    | refused => rfl
    | applied => cases hb
  cases op with
  | enqueue | saveQueuedRun | claim => cases hp
  | heartbeat lease' worker' leaseSeconds now' =>
      cases hp
      obtain ⟨b, hb, rfl⟩ := map_eq_ok h
      have hc := (PostgresRunJobQueue.heartbeat_spec hb).2
      exact ⟨b, _, rfl, hc, hkeep hc⟩
  | complete lease' worker' now' =>
      cases hp
      obtain ⟨b, hb, rfl⟩ := map_eq_ok h
      have hc := (PostgresRunJobQueue.complete_spec hb).2
      exact ⟨b, _, rfl, hc, hkeep hc⟩
  | fail lease' worker' failureAlias retryable delay now' =>
      cases hp
      obtain ⟨b, hb, rfl⟩ := map_eq_ok h
      have hc := (PostgresRunJobQueue.fail_spec hb).2.2
      exact ⟨b, _, rfl, hc, hkeep hc⟩
  | commitLeasedResult run lease' worker' now' =>
      cases hp
      obtain ⟨b, hb, rfl⟩ := map_eq_ok h
      have hc := (PostgresRunRepository.commitLeasedResult_spec hb).2.2.1
      exact ⟨b, _, rfl, hc, hkeep hc⟩

/-- A lease as a claim makes it out for the row `r`. -/
structure RunJobLease.ForRow (q : PostgresRunJobQueue) (lease : RunJobLease) (r : RunJobRow) :
    Prop where
  jobId : lease.jobId = r.id.str
  runId : lease.runId = r.runId.str
  finalAttempt : lease.finalAttempt = decide (q.maxAttempts ≤ r.attempts + 1)

/-- A returned lease is for a stored job, under a token in canonical form. -/
theorem forRow_run (h : op.run q db = .ok (reply, db')) {lease : RunJobLease}
    (hres : reply.lease? = some lease) :
    (∃ r ∈ db.jobs.rows, lease.ForRow q r) ∧ ∃ token : Uuid, lease.leaseToken = token.str := by
  cases op with
  | claim worker leaseSeconds now token locked =>
      obtain ⟨res, hb, rfl⟩ := map_eq_ok h
      obtain rfl : res = some lease := hres
      obtain ⟨-, ⟨hnone, -⟩ | ⟨row, hrow, -, hlease, -⟩⟩ := PostgresRunJobQueue.claim_spec hb
      · cases hnone
      · rw [PostgresRunJobQueue.rows_expireExhaustedJobs, List.mem_map] at hrow
        obtain ⟨r, hr, hrow⟩ := hrow
        have hsame : row.id = r.id ∧ row.runId = r.runId ∧ row.attempts = r.attempts := by
          rw [← hrow]
          split <;> exact ⟨rfl, rfl, rfl⟩
        rw [Option.some.inj hlease, hsame.1, hsame.2.1, hsame.2.2]
        exact ⟨⟨r, hr, rfl, rfl, rfl⟩, ⟨token, rfl⟩⟩
  | _ =>
      obtain ⟨a, -, rfl⟩ := map_eq_ok h
      cases hres

/-- Every call refines the lifecycle; exactly the job of a returned lease gets a
new lease. -/
theorem jobsEvolve_run {fresh : Uuid → Prop} (h : op.run q db = .ok (reply, db'))
    (hfresh : ∀ lease token, reply.lease? = some lease → lease.leaseToken = token.str →
      fresh token) :
    JobsEvolve q.maxAttempts fresh (leasedJob reply.lease?) db db' := by
  cases op with
  | enqueue runId now newId createdAt =>
      obtain ⟨jobId, hb, rfl⟩ := map_eq_ok h
      exact jobsEvolve_enqueue hb
  | saveQueuedRun run now newId createdAt =>
      obtain ⟨jobId, hb, rfl⟩ := map_eq_ok h
      exact jobsEvolve_saveQueuedRun hb
  | claim worker leaseSeconds now token locked =>
      obtain ⟨res, hb, rfl⟩ := map_eq_ok h
      refine jobsEvolve_claim (fun hres => ?_) hb
      obtain ⟨lease, rfl⟩ := Option.isSome_iff_exists.mp hres
      exact hfresh lease token rfl (leaseToken_claim hb)
  | heartbeat lease worker leaseSeconds now =>
      obtain ⟨b, hb, rfl⟩ := map_eq_ok h
      exact jobsEvolve_heartbeat hb
  | complete lease worker now =>
      obtain ⟨b, hb, rfl⟩ := map_eq_ok h
      exact jobsEvolve_complete hb
  | fail lease worker failureAlias retryable delay now =>
      obtain ⟨b, hb, rfl⟩ := map_eq_ok h
      exact jobsEvolve_fail hb
  | commitLeasedResult run lease worker now =>
      obtain ⟨b, hb, rfl⟩ := map_eq_ok h
      exact jobsEvolve_commitLeasedResult hb

end Step

/-! ## The invariant -/

/-- What a new token is: not drawn before, and the token of the returned lease. -/
def NewToken (issued : List RunJobLease) (res : Option RunJobLease) (token : Uuid) : Prop :=
  token.str ∉ issued.map RunJobLease.leaseToken ∧ ∃ lease ∈ res, lease.leaseToken = token.str

/-- One step of the machine: the jobs evolve, and the returned lease, if any, is
recorded. A returned lease is for a stored job. -/
theorem next_spec {q : PostgresRunJobQueue} {s : QueueState} {op : QueueOp}
    (hen : (queueMachine q).enabled s op) :
    ∃ res : Option RunJobLease,
      ((queueMachine q).next s op).issued = res.toList ++ s.issued ∧
      JobsEvolve q.maxAttempts (NewToken s.issued res) (leasedJob res) s.db
        ((queueMachine q).next s op).db ∧
      (∀ reply db', op.run q s.db = .ok (reply, db') → res = reply.lease?) ∧
      ∀ lease ∈ res, lease.leaseToken ∉ s.issued.map RunJobLease.leaseToken ∧
        (∃ r ∈ s.db.jobs.rows, lease.ForRow q r) ∧
        ∃ token : Uuid, lease.leaseToken = token.str := by
  cases hrun : op.run q s.db with
  | error e =>
      have hnext : (queueMachine q).next s op = s := by simp [queueMachine, hrun]
      rw [hnext]
      exact ⟨none, rfl, .refl _ _ _, by simp, by simp⟩
  | ok out =>
      obtain ⟨reply, db'⟩ := out
      have hnext : (queueMachine q).next s op = ⟨db', reply.lease?.toList ++ s.issued⟩ := by
        simp [queueMachine, hrun]
      have hdrawn : ∀ lease ∈ reply.lease?,
          lease.leaseToken ∉ s.issued.map RunJobLease.leaseToken := by
        simpa [queueMachine, QueueOp.handsOut, hrun] using hen
      rw [hnext]
      refine ⟨reply.lease?, rfl, jobsEvolve_run hrun ?_, ?_, ?_⟩
      · intro lease token hres htoken
        exact ⟨htoken ▸ hdrawn lease hres, lease, hres, htoken⟩
      · intro reply' db'' h
        cases h
        rfl
      · intro lease hres
        exact ⟨hdrawn lease hres, forRow_run hrun hres⟩

/-- What holds of the job table and the recorded leases. -/
structure QueueInv (q : PostgresRunJobQueue) (s : QueueState) : Prop where
  leaseWF : ∀ r ∈ s.db.jobs.rows, r.LeaseWF
  attempts : ∀ r ∈ s.db.jobs.rows, r.attempts ≤ q.maxAttempts
  /-- The token of a row is that of the latest lease on its job. -/
  latest : ∀ r ∈ s.db.jobs.rows, ∀ token, r.leaseToken = some token →
    (s.issued.find? fun l => l.jobId = r.id.str).map RunJobLease.leaseToken = some token.str
  /-- The attempts of a row are the leases handed out on its job. -/
  counted : ∀ r ∈ s.db.jobs.rows,
    r.attempts = s.issued.countP fun l => l.jobId = r.id.str
  distinct : (s.issued.map RunJobLease.leaseToken).Nodup
  canonical : ∀ lease ∈ s.issued, (∃ r ∈ s.db.jobs.rows, lease.jobId = r.id.str) ∧
    ∃ token : Uuid, lease.leaseToken = token.str
  /-- A lease names the run of its job and, while the row carries its token, tells
  whether the job is on its last attempt. -/
  matching : ∀ lease ∈ s.issued, ∀ r ∈ s.db.jobs.rows, lease.jobId = r.id.str →
    lease.runId = r.runId.str ∧ (r.leaseToken.map Uuid.str = some lease.leaseToken →
      lease.finalAttempt = decide (q.maxAttempts ≤ r.attempts))

theorem queueInv_next {q : PostgresRunJobQueue} {s : QueueState} {op : QueueOp}
    (hen : (queueMachine q).enabled s op) (hs : QueueInv q s) :
    QueueInv q ((queueMachine q).next s op) := by
  obtain ⟨res, hissued, hevolve, -, hres⟩ := next_spec hen
  constructor
  · intro r' hr'
    rcases hevolve.cases hr' with ⟨r, hr, hstep⟩ | ⟨hfresh, -⟩
    · exact hstep.leaseWF (hs.leaseWF r hr)
    · exact hfresh.leaseWF
  · intro r' hr'
    rcases hevolve.cases hr' with ⟨r, hr, hstep⟩ | ⟨hfresh, -⟩
    · exact hstep.attempts_le (hs.attempts r hr)
    · simp [hfresh.attempts]
  · intro r' hr' token htoken
    rw [hissued]
    rcases hevolve.cases hr' with ⟨r, hr, hstep⟩ | ⟨hfresh, -⟩
    · rw [hstep.keepsKeys.1]
      rcases hstep.token_cases htoken with ⟨hother, hold⟩ | ⟨hself, hnew, lease, hlease, heq⟩
      · -- The lease that the step hands out, if any, is for another job.
        have hskip : res.toList.find? (fun l => l.jobId = r.id.str) = none := by
          cases res with
          | none => rfl
          | some lease => simpa [leasedJob] using hother
        rw [List.find?_append, hskip]
        simpa using hs.latest r hr token hold
      · obtain rfl := Option.mem_def.mp hlease
        have hfound : lease.jobId = r.id.str := by simpa [leasedJob] using hself
        simp [hfound, heq]
    · simp [hfresh.leaseToken] at htoken
  · intro r' hr'
    rw [hissued, List.countP_append]
    rcases hevolve.cases hr' with ⟨r, hr, hstep⟩ | ⟨hfresh, hid⟩
    · rw [hstep.keepsKeys.1, hstep.attempts_eq, hs.counted r hr, Nat.add_comm]
      congr 1
      cases res with
      | none => rfl
      | some lease => simp [leasedJob, List.countP_cons]
    · rw [hfresh.attempts, eq_comm, Nat.add_eq_zero_iff, List.countP_eq_zero, List.countP_eq_zero]
      have hnone : ∀ lease : RunJobLease, (∃ r ∈ s.db.jobs.rows, lease.jobId = r.id.str) →
          ¬ decide (lease.jobId = r'.id.str) = true := by
        rintro lease ⟨r, hr, hjob⟩ heq
        rw [decide_eq_true_eq, hjob] at heq
        exact hid (Uuid.str_injective heq ▸ List.mem_map.mpr ⟨r, hr, rfl⟩)
      refine ⟨fun lease h => ?_, fun lease h => hnone lease (hs.canonical lease h).1⟩
      obtain ⟨r, hr, hrow⟩ := (hres lease (by simpa using h)).2.1
      exact hnone lease ⟨r, hr, hrow.jobId⟩
  · rw [hissued, List.map_append]
    cases res with
    | none => simpa using hs.distinct
    | some lease => simpa using ⟨by simpa using (hres lease rfl).1, hs.distinct⟩
  · intro lease hlease
    rw [hissued, List.mem_append] at hlease
    have hold : (∃ r ∈ s.db.jobs.rows, lease.jobId = r.id.str) ∧
        ∃ token : Uuid, lease.leaseToken = token.str := by
      rcases hlease with hlease | hlease
      · obtain ⟨⟨r, hr, hrow⟩, htoken⟩ := (hres lease (by simpa using hlease)).2
        exact ⟨⟨r, hr, hrow.jobId⟩, htoken⟩
      · exact hs.canonical lease hlease
    obtain ⟨⟨r, hr, hjob⟩, htoken⟩ := hold
    obtain ⟨r', hr', hstep⟩ := hevolve.moved hr
    exact ⟨⟨r', hr', by rw [hjob, hstep.keepsKeys.1]⟩, htoken⟩
  · intro lease hlease r' hr' hjob
    rw [hissued, List.mem_append] at hlease
    rcases hevolve.cases hr' with ⟨r, hr, hstep⟩ | ⟨-, hid⟩
    · rw [hstep.keepsKeys.1] at hjob
      rw [hstep.keepsKeys.2]
      rcases hlease with hlease | hlease
      · -- The lease of this very step: the row's count just grew by one.
        have hlease : res = some lease := by simpa using hlease
        obtain ⟨-, ⟨r₀, hr₀, hrow⟩, -⟩ := hres lease hlease
        obtain rfl := RunDb.eq_of_id_eq hr hr₀ (Uuid.str_injective (hjob.symm.trans hrow.jobId))
        have hcount := hstep.attempts_eq
        simp only [hlease, leasedJob, Option.any_some, hjob, decide_true, if_true] at hcount
        exact ⟨hrow.runId, fun _ => by rw [hcount, hrow.finalAttempt]⟩
      · obtain ⟨hrun, hfinal⟩ := hs.matching lease hlease r hr hjob
        refine ⟨hrun, fun htoken => ?_⟩
        obtain ⟨token, htok, heq⟩ := Option.map_eq_some_iff.mp htoken
        rcases hstep.token_cases htok with ⟨hother, hold⟩ | ⟨-, hnew, -⟩
        · have hcount := hstep.attempts_eq
          simp only [hother, Bool.false_eq_true, if_false, Nat.add_zero] at hcount
          rw [hcount]
          exact hfinal (by rw [hold, Option.map_some, heq])
        · exact absurd (heq ▸ List.mem_map.mpr ⟨lease, hlease, rfl⟩) hnew
    · have hstored : ∃ r ∈ s.db.jobs.rows, lease.jobId = r.id.str := by
        rcases hlease with hlease | hlease
        · obtain ⟨r, hr, hrow⟩ := (hres lease (by simpa using hlease)).2.1
          exact ⟨r, hr, hrow.jobId⟩
        · exact (hs.canonical lease hlease).1
      obtain ⟨r, hr, hr'id⟩ := hstored
      have heq : r'.id = r.id := Uuid.str_injective (hjob.symm.trans hr'id)
      exact absurd (heq ▸ List.mem_map.mpr ⟨r, hr, rfl⟩) hid

theorem queueInv_of_reachable {q : PostgresRunJobQueue} {s : QueueState}
    (hs : (queueMachine q).Reachable s) : QueueInv q s := by
  refine Machine.Reachable.invariant (fun s₀ h₀ => ?_) (fun s op hen h => queueInv_next hen h) hs
  obtain ⟨hrows, hissued⟩ := h₀
  constructor <;> simp [hrows, hissued]

/-! ## Lost leases -/

/-- The job of the lease was leased again, or has ended. -/
def QueueState.Superseded (s : QueueState) (lease : RunJobLease) : Prop :=
  (∃ newer older, s.issued = newer ++ lease :: older ∧
    ∃ lease' ∈ newer, lease'.jobId = lease.jobId) ∨
  ∃ r ∈ s.db.jobs.rows, r.id.str = lease.jobId ∧ r.state.terminal = true

/-- The lease was handed out and the row of its job carries another token or none. -/
def QueueState.Lost (s : QueueState) (lease : RunJobLease) : Prop :=
  lease ∈ s.issued ∧ ∀ r ∈ s.db.jobs.rows, r.id.str = lease.jobId →
    ∀ token, r.leaseToken = some token → token.str ≠ lease.leaseToken

section Lost

variable {q : PostgresRunJobQueue} {s : QueueState} {lease : RunJobLease}

theorem lost_of_superseded (hs : QueueInv q s) (hmem : lease ∈ s.issued)
    (h : s.Superseded lease) : s.Lost lease := by
  refine ⟨hmem, fun r hr hid token htoken heq => ?_⟩
  rcases h with ⟨newer, older, hissued, lease', hnewer, hjob⟩ | ⟨r', hr', hid', hterm⟩
  · -- The latest lease on the job stands in `newer`, and tokens do not repeat.
    have hlatest := hs.latest r hr token htoken
    have hdistinct := hs.distinct
    rw [hissued] at hlatest hdistinct
    rw [List.find?_append] at hlatest
    cases hfind : newer.find? fun l => l.jobId = r.id.str with
    | none =>
        have := List.find?_eq_none.mp hfind lease' hnewer
        simp [hjob, hid] at this
    | some latest =>
        have hin : latest ∈ newer := List.mem_of_find?_eq_some hfind
        have hsame : latest.leaseToken = lease.leaseToken := by
          rw [hfind] at hlatest
          rw [← heq]
          simpa using hlatest
        rw [List.map_append, List.map_cons, List.nodup_append] at hdistinct
        exact hdistinct.2.2 _ (List.mem_map.mpr ⟨latest, hin, rfl⟩) _
          (List.mem_cons_self ..) hsame
  · have hrow : r = r' := RunDb.eq_of_id_eq hr hr' (Uuid.str_injective (hid.trans hid'.symm))
    rw [hrow, (hs.leaseWF r' hr').token_of_terminal hterm] at htoken
    cases htoken

/-- A lost lease stays lost. -/
theorem lost_next {op : QueueOp} (hen : (queueMachine q).enabled s op) (h : s.Lost lease) :
    ((queueMachine q).next s op).Lost lease := by
  obtain ⟨res, hissued, hevolve, -, -⟩ := next_spec hen
  obtain ⟨hmem, hrows⟩ := h
  refine ⟨hissued ▸ List.mem_append_right _ hmem, fun r' hr' hid token htoken heq => ?_⟩
  rcases hevolve.cases hr' with ⟨r, hr, hstep⟩ | ⟨hfresh, -⟩
  · rcases hstep.token_cases htoken with ⟨-, hold⟩ | ⟨-, hnew, -⟩
    · exact hrows r hr (hstep.keepsKeys.1 ▸ hid) token hold heq
    · exact hnew (heq ▸ List.mem_map.mpr ⟨lease, hmem, rfl⟩)
  · simp [hfresh.leaseToken] at htoken

/-- A call that presents a lost lease is refused and changes nothing. -/
theorem run_of_lost (hs : QueueInv q s) (h : s.Lost lease) {op : QueueOp} {worker : String}
    {now : Instant} (hp : op.presents = some (lease, worker, now)) :
    (∀ db', op.run q s.db ≠ .ok (.applied true, db')) ∧
      ((queueMachine q).next s op).db = s.db := by
  have hrefused : ∀ change db', ¬ LeasedChange s.db lease worker now change true db' := by
    rintro change db' (_ | ⟨hjob, htoken, hr, hheld, -⟩)
    rename_i jobId token r
    obtain ⟨⟨r₀, -, hid⟩, ⟨t, ht⟩⟩ := hs.canonical lease h.1
    simp only [RunJobRow.heldBy, Bool.and_eq_true, decide_eq_true_eq] at hheld
    rw [hid, Uuid.parse_str, Option.some.injEq] at hjob
    rw [ht, Uuid.parse_str, Option.some.injEq] at htoken
    have hrid : r.id.str = lease.jobId := by rw [hid, hjob, hheld.1.1.1.1]
    exact h.2 r hr hrid token hheld.1.2 (by rw [ht, htoken])
  constructor
  · intro db' hrun
    obtain ⟨b, change, hb, hc, -⟩ := leasedChange_run hrun hp
    cases hb
    exact hrefused change db' hc
  · cases hrun : op.run q s.db with
    | error e => simp [queueMachine, hrun]
    | ok out =>
        obtain ⟨reply, db'⟩ := out
        obtain ⟨b, change, rfl, hc, hkeep⟩ := leasedChange_run hrun hp
        cases b with
        | false => simpa [queueMachine, hrun] using hkeep rfl
        | true => exact absurd hc (hrefused change db')

end Lost

/-! ## The lease discipline -/

/-- The job has ended. -/
def RunDb.jobEnded (db : RunDb) (jobId : Uuid) : Bool :=
  db.jobs.rows.any fun r => r.id = jobId && r.state.terminal

/-- How often a job ends in a run. -/
def terminalTransitions (q : PostgresRunJobQueue) (jobId : Uuid) : QueueState → List QueueOp → ℕ :=
  (queueMachine q).countSteps fun s _ s' => !s.db.jobEnded jobId && s'.db.jobEnded jobId

/-- The call's lease is the one on the row: its job, its owner and its token, and the
lease runs beyond the caller's clock. -/
def RunDb.HoldsLease (db : RunDb) (lease : RunJobLease) (worker : String) (now : Instant) : Prop :=
  ∃ r ∈ db.jobs.rows, Uuid.parse lease.jobId = some r.id ∧ r.state = .leased ∧
    r.leaseOwner = some worker ∧ r.leaseToken = Uuid.parse lease.leaseToken ∧
    ∃ expiresAt, r.leaseExpiresAt = some expiresAt ∧ now < expiresAt

section Discipline

variable {q : PostgresRunJobQueue} {s : QueueState}

/-- A finished row is in the table of every later state, unchanged. -/
theorem mem_exec_of_terminal {ls : List QueueOp} (hls : (queueMachine q).Legal s ls)
    {r : RunJobRow} (hr : r ∈ s.db.jobs.rows) (hterm : r.state.terminal = true) :
    r ∈ ((queueMachine q).exec s ls).db.jobs.rows := by
  refine Machine.Along.invariant (I := fun s => r ∈ s.db.jobs.rows) (fun t op hen ht => ?_) hls hr
  obtain ⟨res, -, hevolve, -⟩ := next_spec hen
  obtain ⟨r', hr', hstep⟩ := hevolve.moved ht
  rwa [hstep.eq_of_terminal hterm] at hr'

theorem jobEnded_next {jobId : Uuid} {op : QueueOp} (hen : (queueMachine q).enabled s op)
    (h : s.db.jobEnded jobId = true) :
    ((queueMachine q).next s op).db.jobEnded jobId = true := by
  simp only [RunDb.jobEnded, List.any_eq_true, Bool.and_eq_true] at h ⊢
  obtain ⟨r, hr, hid, hterm⟩ := h
  exact ⟨r, (@mem_exec_of_terminal _ _ [op]) ⟨hen, trivial⟩ hr hterm, hid, hterm⟩

theorem terminalTransitions_le_one {ls : List QueueOp} (hls : (queueMachine q).Legal s ls)
    (jobId : Uuid) : terminalTransitions q jobId s ls ≤ 1 := by
  refine Machine.countSteps_le_one (I := fun s => s.db.jobEnded jobId = true)
    (fun t op hen ht => jobEnded_next hen ht) ?_ ?_ hls
  · intro t op hen ht
    simp [ht]
  · intro t op hen ht
    simp only [Bool.and_eq_true] at ht
    exact ht.2

theorem holdsLease_of_run {op : QueueOp} {lease : RunJobLease} {worker : String}
    {now : Instant} {db db' : RunDb} (hp : op.presents = some (lease, worker, now))
    (h : op.run q db = .ok (.applied true, db')) : db.HoldsLease lease worker now := by
  obtain ⟨b, change, hb, hc, -⟩ := leasedChange_run h hp
  cases hb
  obtain _ | ⟨hjob, htoken, hr, hheld, -⟩ := hc
  rename_i jobId token r
  simp only [RunJobRow.heldBy, Bool.and_eq_true, decide_eq_true_eq, Option.any_eq_true] at hheld
  obtain ⟨⟨⟨⟨hid, hstate⟩, howner⟩, htok⟩, expiresAt, hexp, hnow⟩ := hheld
  exact ⟨r, hr, by rw [hjob, hid], hstate, howner, by rw [htok, htoken], expiresAt, hexp, hnow⟩

/-- The lease discipline, from every reachable state and over every continuation: a
row is leased exactly when its three lease columns are set; its attempts are the
leases handed out on it and stay within the limit; a finished row never changes; a
call that reports success presented the row's current lease; a job ends at most
once; and once a lease is superseded, no call that presents it ever succeeds or
changes the database. -/
theorem fencing (hs : (queueMachine q).Reachable s) :
    (∀ r ∈ s.db.jobs.rows, (r.state = .leased ↔
      r.leaseOwner.isSome ∧ r.leaseToken.isSome ∧ r.leaseExpiresAt.isSome)) ∧
    (∀ r ∈ s.db.jobs.rows, r.attempts ≤ q.maxAttempts ∧
      r.attempts = s.issued.countP fun l => l.jobId = r.id.str) ∧
    (∀ r ∈ s.db.jobs.rows, r.state.terminal = true → ∀ ls, (queueMachine q).Legal s ls →
      r ∈ ((queueMachine q).exec s ls).db.jobs.rows) ∧
    (∀ (op : QueueOp) lease worker now db', op.presents = some (lease, worker, now) →
      op.run q s.db = .ok (.applied true, db') → s.db.HoldsLease lease worker now) ∧
    (∀ jobId ls, (queueMachine q).Legal s ls → terminalTransitions q jobId s ls ≤ 1) ∧
    (∀ lease ∈ s.issued, s.Superseded lease → ∀ ls, (queueMachine q).Legal s ls →
      ∀ (op : QueueOp) worker now, op.presents = some (lease, worker, now) →
        (∀ db', op.run q ((queueMachine q).exec s ls).db ≠ .ok (.applied true, db')) ∧
        ((queueMachine q).next ((queueMachine q).exec s ls) op).db =
          ((queueMachine q).exec s ls).db) := by
  have hinv := queueInv_of_reachable hs
  refine ⟨fun r hr => (hinv.leaseWF r hr).leased_iff,
    fun r hr => ⟨hinv.attempts r hr, hinv.counted r hr⟩,
    fun r hr hterm ls hls => mem_exec_of_terminal hls hr hterm,
    fun op lease worker now db' hp hrun => holdsLease_of_run hp hrun,
    fun jobId ls hls => terminalTransitions_le_one hls jobId, ?_⟩
  intro lease hmem hsup ls hls op worker now hp
  have hlost : ((queueMachine q).exec s ls).Lost lease :=
    Machine.Along.invariant (I := fun s => s.Lost lease) (fun t op hen ht => lost_next hen ht)
      hls (lost_of_superseded hinv hmem hsup)
  exact run_of_lost (queueInv_of_reachable (hs.run hls)) hlost hp

/-- A job whose first lease, to `worker-a`, ran out before `worker-b` claimed it. -/
def reclaimedCalls : List QueueOp :=
  [.saveQueuedRun (createRunningRun (Uuid.ofNat 1).str "hash" none "echo" "loopback" (.utc 0)
      (.obj []) {} []) (.utc 0) (.ofNat 2) 0,
    .claim "worker-a" 5 (.utc 0) (.ofNat 3) [],
    .claim "worker-b" 5 (.utc (seconds 5)) (.ofNat 4) []]

/-- The lease that `worker-a` lost. -/
def reclaimedLease : RunJobLease where
  jobId := (Uuid.ofNat 2).str
  runId := (Uuid.ofNat 1).str
  leaseToken := (Uuid.ofNat 3).str
  attempt := 1
  leaseExpiresAt := seconds 5

/-- Under a clock that still reads its lease as running, the first worker's late
completion is refused. -/
theorem fencing_late_complete :
    let M := queueMachine ⟨3, by decide⟩
    let s := M.exec ⟨.empty, []⟩ reclaimedCalls
    (M.next s (.complete reclaimedLease "worker-a" (.utc 0))).db = s.db := by
  intro M s
  have hs : M.Reachable s :=
    ⟨⟨.empty, []⟩, reclaimedCalls, ⟨rfl, rfl⟩, by decide +kernel, rfl⟩
  have hlost : reclaimedLease ∈ s.issued ∧ s.Superseded reclaimedLease := by
    have hsplit : s.issued = s.issued.take 1 ++ reclaimedLease :: [] := by decide +kernel
    refine ⟨by decide +kernel, .inl ⟨s.issued.take 1, [], hsplit, ?_⟩⟩
    decide +kernel
  exact ((fencing hs).2.2.2.2.2 reclaimedLease hlost.1 hlost.2 [] trivial
    (.complete reclaimedLease "worker-a" (.utc 0)) "worker-a" _ rfl).2

end Discipline

end VoxBench.ControlPlane
