import VoxBench.ControlPlane.RunStore

/-!
# The lease queue and the fenced commit

`PostgresRunJobQueue` hands out leases on the rows of `run_jobs`;
`PostgresRunRepository` enqueues a job together with its run and commits a run
result under a lease. Every operation is one transaction: a function from the
database to a result and the database it leaves, or an exception and no change.
A clock reading, a fresh identifier and the set of rows that concurrent
transactions hold locked are arguments.

## Main definitions

* `RunJobRow`, `RunDb` — the job table beside the run tables, with the primary
  key, the unique run and the foreign key as fields.
* `claim`, `heartbeat`, `complete`, `fail`, `enqueue` — the queue.
* `saveQueuedRun`, `commitLeasedResult` — the repository's side.
-/

namespace VoxBench.ControlPlane

open VoxBench.Lib

inductive RunJobState where
  | queued
  | leased
  | completed
  | failed
  deriving DecidableEq, Repr

/-- `completed` and `failed` jobs are finished. -/
def RunJobState.terminal : RunJobState → Bool
  | .queued | .leased => false
  | .completed | .failed => true

/-- What a successful claim hands to a worker. -/
structure RunJobLease where
  jobId : String
  runId : String
  leaseToken : String
  attempt : ℕ
  leaseExpiresAt : Instant
  finalAttempt : Bool := false
  deriving DecidableEq, Repr

/-- A row of the `run_jobs` table. -/
structure RunJobRow where
  id : Uuid
  runId : Uuid
  state : RunJobState
  availableAt : Instant
  leaseOwner : Option String
  leaseToken : Option Uuid
  leaseExpiresAt : Option Instant
  attempts : ℕ
  failureAlias : Option String
  createdAt : Instant
  deriving DecidableEq, Repr

/-- An update that leaves the identifier and the run of every row alone. -/
def KeepsKeys (f : RunJobRow → RunJobRow) : Prop :=
  ∀ r, (f r).id = r.id ∧ (f r).runId = r.runId

/-- The run tables and the job table. A job names a stored run, and no two jobs
name the same one. -/
structure RunDb where
  store : RunStore
  jobs : Table RunJobRow RunJobRow.id
  run_unique : (jobs.rows.map RunJobRow.runId).Nodup
  run_exists : ∀ r ∈ jobs.rows, (store.runs.find? r.runId).isSome

namespace RunDb

/-- Tables without rows. -/
def empty : RunDb := ⟨.empty, ∅, by simp, by simp⟩

/-- `UPDATE run_jobs SET f WHERE p`. -/
def updateJobs (db : RunDb) (p : RunJobRow → Bool) (f : RunJobRow → RunJobRow)
    (hf : KeepsKeys f) : RunDb where
  store := db.store
  jobs := db.jobs.update (fun r => if p r then f r else r)
    (by intro r; split <;> simp [(hf r).1])
  run_unique := by
    have hmap : (db.jobs.rows.map fun r => if p r then f r else r).map RunJobRow.runId =
        db.jobs.rows.map RunJobRow.runId := by
      rw [List.map_map]
      refine List.map_congr_left fun r _ => ?_
      by_cases h : p r <;> simp [h, (hf r).2]
    rw [Table.rows_update, hmap]; exact db.run_unique
  run_exists := by
    intro r hr
    obtain ⟨r₀, hr₀, rfl⟩ := List.mem_map.mp hr
    have := db.run_exists r₀ hr₀
    split
    · rw [(hf r₀).2]; exact this
    · exact this

/-- `INSERT` of a job, unless a constraint of the table refuses it. -/
def insertJob (db : RunDb) (row : RunJobRow) : Option RunDb :=
  if h : row.id ∉ db.jobs.rows.map RunJobRow.id ∧
      row.runId ∉ db.jobs.rows.map RunJobRow.runId ∧
      (db.store.runs.find? row.runId).isSome then
    some
      { store := db.store
        jobs := db.jobs.insert row h.1
        run_unique := by
          rw [Table.rows_insert, List.map_append]
          exact db.run_unique.append (by simp) (by simpa using h.2.1)
        run_exists := by
          intro r hr
          rcases List.mem_append.mp hr with hr | hr
          · exact db.run_exists r hr
          · rw [List.mem_singleton.mp hr]; exact h.2.2 }
  else none

/-- `_save_in_session` inside a transaction on both tables. -/
def saveRun (db : RunDb) (run : StoredRun) (runUuid : Uuid) : Except PyError RunDb :=
  match h : db.store.saveInSession run runUuid with
  | .error e => .error e
  | .ok store => .ok { db with
      store := store
      run_exists := fun r hr => RunStore.isSome_find?_saveInSession h (db.run_exists r hr) }

@[simp] theorem rows_updateJobs (db : RunDb) (p : RunJobRow → Bool) (f : RunJobRow → RunJobRow)
    (hf : KeepsKeys f) : (db.updateJobs p f hf).jobs.rows =
      db.jobs.rows.map fun r => if p r then f r else r := rfl
@[simp] theorem store_updateJobs (db : RunDb) (p : RunJobRow → Bool) (f : RunJobRow → RunJobRow)
    (hf : KeepsKeys f) : (db.updateJobs p f hf).store = db.store := rfl

@[ext] theorem ext {db db' : RunDb} (hs : db.store = db'.store)
    (hj : db.jobs.rows = db'.jobs.rows) : db = db' := by
  obtain ⟨store, jobs, _, _⟩ := db
  obtain ⟨store', jobs', _, _⟩ := db'
  obtain rfl : store = store' := hs
  obtain rfl : jobs = jobs' := Table.ext hj
  rfl

theorem eq_of_id_eq {db : RunDb} {r r' : RunJobRow} (hr : r ∈ db.jobs.rows)
    (hr' : r' ∈ db.jobs.rows) (h : r.id = r'.id) : r = r' := Table.eq_of_key_eq hr hr' h

/-- An update whose condition no row meets changes nothing. -/
theorem updateJobs_eq_self {db : RunDb} {p : RunJobRow → Bool} {f : RunJobRow → RunJobRow}
    {hf : KeepsKeys f} (h : ∀ r ∈ db.jobs.rows, p r = false) : db.updateJobs p f hf = db := by
  refine RunDb.ext rfl ?_
  rw [rows_updateJobs]
  refine (List.map_congr_left fun r hr => ?_).trans (List.map_id _)
  simp [h r hr]

theorem insertJob_eq_some {db db' : RunDb} {row : RunJobRow} (h : db.insertJob row = some db') :
    db'.store = db.store ∧ db'.jobs.rows = db.jobs.rows ++ [row] ∧
      row.id ∉ db.jobs.rows.map RunJobRow.id ∧
      row.runId ∉ db.jobs.rows.map RunJobRow.runId := by
  unfold insertJob at h
  split at h
  · rename_i hrow
    cases h
    exact ⟨rfl, rfl, hrow.1, hrow.2.1⟩
  · cases h

theorem saveRun_eq_ok {db db' : RunDb} {run : StoredRun} {runUuid : Uuid}
    (h : db.saveRun run runUuid = .ok db') :
    db.store.saveInSession run runUuid = .ok db'.store ∧ db'.jobs = db.jobs := by
  unfold saveRun at h
  split at h
  · cases h
  · rename_i store hstore
    cases h
    exact ⟨hstore, rfl⟩

end RunDb

/-! ## Argument checks -/

/-- `_is_safe_alias` on text: 1 to 128 ASCII letters, digits, `-`, `_` and `.`. -/
def isSafeAlias (value : String) : Bool :=
  1 ≤ value.length && value.length ≤ 128 && value.toList.all (fun c => c.toNat < 128) &&
    value.toList.all fun c => c.isAlphanum || c = '-' || c = '_' || c = '.'

/-- `_validate_alias`. -/
def validateAlias (value reasonAlias : String) : Except PyError Unit :=
  if isSafeAlias value then .ok () else .error (.valueError reasonAlias)

/-- `_validate_lease_seconds`: `_MIN_LEASE_SECONDS` is 5, `_MAX_LEASE_SECONDS` is 300. -/
def validateLeaseSeconds (value : ℤ) : Except PyError Unit :=
  if 5 ≤ value ∧ value ≤ 300 then .ok ()
  else .error (.valueError "run-job-lease-seconds-invalid")

/-- `_parse_uuid`. -/
def parseUuid (value reasonAlias : String) : Except PyError Uuid :=
  match Uuid.parse value with
  | some u => .ok u
  | none => .error (.valueError reasonAlias)

theorem parseUuid_eq_ok {value reasonAlias : String} {u : Uuid} :
    parseUuid value reasonAlias = .ok u ↔ Uuid.parse value = some u := by
  unfold parseUuid
  split <;> simp_all

/-! ## Row conditions and row updates -/

namespace RunJobRow

/-- The `WHERE` of `_active_lease_conditions`: the row is leased to `worker` under
`token` and the lease runs beyond `now`. -/
def heldBy (r : RunJobRow) (jobId : Uuid) (worker : String) (token : Uuid) (now : Instant) :
    Bool :=
  r.id = jobId && r.state = .leased && r.leaseOwner = some worker &&
    r.leaseToken = some token && r.leaseExpiresAt.any (now < ·)

/-- The row is leased and its lease has run out. -/
def leaseExpired (r : RunJobRow) (now : Instant) : Bool :=
  r.state = .leased && r.leaseExpiresAt.any (· ≤ now)

/-- The `WHERE` of `_expire_exhausted_jobs_statement`. -/
def exhausted (r : RunJobRow) (now : Instant) (maxAttempts : ℕ) : Bool :=
  maxAttempts ≤ r.attempts && (r.state = .queued || r.leaseExpired now)

/-- The `WHERE` of `_claim_statement`. -/
def claimable (r : RunJobRow) (now : Instant) (maxAttempts : ℕ) : Bool :=
  r.attempts < maxAttempts &&
    ((r.state = .queued && r.availableAt ≤ now) || r.leaseExpired now)

/-- The `ORDER BY` of `_claim_statement`: `available_at`, `created_at`, `id`. -/
def claimsBefore (r r' : RunJobRow) : Prop :=
  r.availableAt < r'.availableAt ∨ r.availableAt = r'.availableAt ∧
    (r.createdAt < r'.createdAt ∨ r.createdAt = r'.createdAt ∧ r.id ≤ r'.id)

instance : DecidableRel claimsBefore := fun r r' =>
  inferInstanceAs (Decidable (r.availableAt < r'.availableAt ∨ _))

/-- The `SET` of `_expire_exhausted_jobs_statement`. -/
def expire (r : RunJobRow) : RunJobRow :=
  { r with
    state := .failed, leaseOwner := none, leaseToken := none, leaseExpiresAt := none,
    failureAlias := some "attempt-limit-exhausted" }

/-- The assignments of `claim`. -/
def lease (r : RunJobRow) (worker : String) (token : Uuid) (expiresAt : Instant) : RunJobRow :=
  { r with
    state := .leased, leaseOwner := some worker, leaseToken := some token,
    leaseExpiresAt := some expiresAt, attempts := r.attempts + 1, failureAlias := none }

/-- The `SET` of `heartbeat`. -/
def extend (r : RunJobRow) (expiresAt : Instant) : RunJobRow :=
  { r with leaseExpiresAt := some expiresAt }

/-- Leave the lease for another state: the assignments of `complete`, `fail` and
`commit_leased_result`. -/
def release (r : RunJobRow) (state : RunJobState) (failureAlias : Option String) : RunJobRow :=
  { r with
    state := state, leaseOwner := none, leaseToken := none, leaseExpiresAt := none,
    failureAlias := failureAlias }

/-- Leave the lease by `fail`: back to the queue while a retry is allowed. -/
def failWith (r : RunJobRow) (maxAttempts : ℕ) (failureAlias : String) (retryable : Bool)
    (availableAt : Instant) : RunJobRow :=
  { r.release (if retryable && r.attempts < maxAttempts then .queued else .failed)
      (some failureAlias) with
    availableAt := availableAt }

theorem keepsKeys_expire : KeepsKeys expire := fun _ => ⟨rfl, rfl⟩
theorem keepsKeys_lease (worker : String) (token : Uuid) (expiresAt : Instant) :
    KeepsKeys (·.lease worker token expiresAt) := fun _ => ⟨rfl, rfl⟩
theorem keepsKeys_extend (expiresAt : Instant) : KeepsKeys (·.extend expiresAt) :=
  fun _ => ⟨rfl, rfl⟩
theorem keepsKeys_release (state : RunJobState) (failureAlias : Option String) :
    KeepsKeys (·.release state failureAlias) := fun _ => ⟨rfl, rfl⟩
theorem keepsKeys_failWith (maxAttempts : ℕ) (failureAlias : String) (retryable : Bool)
    (availableAt : Instant) :
    KeepsKeys (·.failWith maxAttempts failureAlias retryable availableAt) := fun _ => ⟨rfl, rfl⟩

end RunJobRow

/-! ## The queue -/

/-- The queue's configuration; `__post_init__` bounds the attempts. -/
structure PostgresRunJobQueue where
  maxAttempts : ℕ
  valid : 1 ≤ maxAttempts ∧ maxAttempts ≤ 100

/-- The row that `_claim_statement` selects: the first claimable row that no
concurrent transaction has locked (`FOR UPDATE SKIP LOCKED`). -/
def claimStatement (rows : List RunJobRow) (now : Instant) (maxAttempts : ℕ)
    (locked : List Uuid) : Option RunJobRow :=
  ((rows.filter fun r => r.claimable now maxAttempts && r.id ∉ locked).insertionSort
    RunJobRow.claimsBefore).head?

/-- `_active_lease_conditions`. -/
def activeLeaseConditions (lease : RunJobLease) (worker : String) (now : Instant) :
    Except PyError (RunJobRow → Bool) := do
  let jobId ← parseUuid lease.jobId "run-job-id-invalid"
  let token ← parseUuid lease.leaseToken "run-job-lease-token-invalid"
  return fun r => r.heldBy jobId worker token now

namespace PostgresRunJobQueue

variable (q : PostgresRunJobQueue)

/-- `enqueue`: one job per run. `newId` and `createdAt` are the column defaults of
the inserted row; a refused insert surfaces as `RunJobQueueError`. -/
def enqueue (db : RunDb) (runId : String) (now : Datetime) (newId : Uuid)
    (createdAt : Instant) : Except PyError (String × RunDb) := do
  let runUuid ← parseUuid runId "run-job-run-id-invalid"
  match db.jobs.rows.find? fun r => r.runId = runUuid with
  | some existing => return (existing.id.str, db)
  | none =>
    let job : RunJobRow :=
      { id := newId, runId := runUuid, state := .queued, availableAt := now.instant,
        leaseOwner := none, leaseToken := none, leaseExpiresAt := none, attempts := 0,
        failureAlias := none, createdAt := createdAt }
    match db.insertJob job with
    | some db' => return (job.id.str, db')
    | none => throw .runJobQueueError

/-- The exhausted-attempt expiry at the start of every claim. -/
def expireExhaustedJobs (db : RunDb) (now : Instant) : RunDb :=
  db.updateJobs (fun r => r.exhausted now q.maxAttempts) RunJobRow.expire
    RunJobRow.keepsKeys_expire

/-- `claim`: fail the exhausted jobs, then lease the first claimable one under
the fresh `token`. -/
def claim (db : RunDb) (worker : String) (leaseSeconds : ℤ) (now : Datetime) (token : Uuid)
    (locked : List Uuid) : Except PyError (Option RunJobLease × RunDb) := do
  validateAlias worker "run-job-worker-id-invalid"
  validateLeaseSeconds leaseSeconds
  let claimedAt := now.instant
  let expiresAt := claimedAt + seconds leaseSeconds
  let db := q.expireExhaustedJobs db claimedAt
  match claimStatement db.jobs.rows claimedAt q.maxAttempts locked with
  | none => return (none, db)
  | some row =>
    let leased := row.lease worker token expiresAt
    let db := db.updateJobs (fun r => r.id = row.id) (·.lease worker token expiresAt)
      (RunJobRow.keepsKeys_lease worker token expiresAt)
    return (some
      { jobId := leased.id.str, runId := leased.runId.str, leaseToken := token.str,
        attempt := leased.attempts, leaseExpiresAt := expiresAt,
        finalAttempt := q.maxAttempts ≤ leased.attempts }, db)

/-- `heartbeat`: extend the presented lease while it is active. -/
def heartbeat (db : RunDb) (lease : RunJobLease) (worker : String) (leaseSeconds : ℤ)
    (now : Datetime) : Except PyError (Bool × RunDb) := do
  validateAlias worker "run-job-worker-id-invalid"
  validateLeaseSeconds leaseSeconds
  let active ← activeLeaseConditions lease worker now.instant
  return (db.jobs.rows.countP active = 1,
    db.updateJobs active (·.extend (now.instant + seconds leaseSeconds))
      (RunJobRow.keepsKeys_extend _))

/-- `complete`: finish the job under the presented lease. -/
def complete (db : RunDb) (lease : RunJobLease) (worker : String) (now : Datetime) :
    Except PyError (Bool × RunDb) := do
  validateAlias worker "run-job-worker-id-invalid"
  let active ← activeLeaseConditions lease worker now.instant
  return (db.jobs.rows.countP active = 1,
    db.updateJobs active (·.release .completed none) (RunJobRow.keepsKeys_release _ _))

/-- `fail`: queue the job again, or fail it for good, under the presented lease. -/
def fail (db : RunDb) (lease : RunJobLease) (worker failureAlias : String) (retryable : Bool)
    (retryDelaySeconds : ℤ) (now : Datetime) : Except PyError (Bool × RunDb) := do
  validateAlias worker "run-job-worker-id-invalid"
  validateAlias failureAlias "run-job-failure-alias-invalid"
  if 0 ≤ retryDelaySeconds ∧ retryDelaySeconds ≤ 3600 then
    let active ← activeLeaseConditions lease worker now.instant
    match db.jobs.rows.find? active with
    | none => return (false, db)
    | some row =>
      let availableAt := now.instant + seconds retryDelaySeconds
      return (true, db.updateJobs (fun r => r.id = row.id)
        (·.failWith q.maxAttempts failureAlias retryable availableAt)
        (RunJobRow.keepsKeys_failWith _ _ _ _))
  else throw (.valueError "run-job-retry-delay-invalid")

end PostgresRunJobQueue

/-! ## The repository's side -/

namespace PostgresRunRepository

/-- `save_queued_run`: store the initial run and its queued job in one transaction. -/
def saveQueuedRun (db : RunDb) (run : StoredRun) (now : Datetime) (newId : Uuid)
    (createdAt : Instant) : Except PyError (String × RunDb) :=
  if run.status ≠ .running ∨ run.endedAt.isSome then
    .error (.valueError "queued-run-not-running")
  else
    match Uuid.parse run.runId with
    | none => .error (.valueError "badly formed hexadecimal UUID string")
    | some runUuid =>
      match db.jobs.rows.find? fun r => r.runId = runUuid with
      | some existing => .ok (existing.id.str, db)
      | none => do
        let saved ← db.saveRun run runUuid
        let job : RunJobRow :=
          { id := newId, runId := runUuid, state := .queued, availableAt := now.instant,
            leaseOwner := none, leaseToken := none, leaseExpiresAt := none, attempts := 0,
            failureAlias := none, createdAt := createdAt }
        match saved.insertJob job with
        | some db' => return (job.id.str, db')
        | none => throw .runRepositoryError

/-- `commit_leased_result`: under the presented lease, store the terminal run and
finish its job in one transaction. -/
def commitLeasedResult (db : RunDb) (run : StoredRun) (lease : RunJobLease) (worker : String)
    (now : Datetime) : Except PyError (Bool × RunDb) :=
  if !run.status.terminal || run.endedAt.isNone then
    .error (.valueError "leased-run-result-not-terminal")
  else
    match Uuid.parse run.runId, Uuid.parse lease.runId, Uuid.parse lease.jobId,
        Uuid.parse lease.leaseToken with
    | some runUuid, some leaseRun, some jobUuid, some token =>
      if leaseRun ≠ runUuid then .ok (false, db)
      else
        match db.jobs.rows.find? fun r =>
            r.runId = runUuid && r.heldBy jobUuid worker token now.instant with
        | none => .ok (false, db)
        | some job => do
          let saved ← db.saveRun run runUuid
          let state := if run.status = .completed then RunJobState.completed else .failed
          let failureAlias := if run.status = .failed then run.failureAlias else none
          return (true, saved.updateJobs (fun r => r.id = job.id)
            (·.release state failureAlias) (RunJobRow.keepsKeys_release _ _))
    | _, _, _, _ => .ok (false, db)

end PostgresRunRepository

/-! ## What an operation does

One lemma per operation says everything a successful call can do; nothing below
this section unfolds an operation again. -/

/-- The outcome of an operation that presents a lease: refused without a change,
or applied to the one row that the lease holds. -/
inductive LeasedChange (db : RunDb) (lease : RunJobLease) (worker : String) (now : Instant)
    (change : RunJobRow → RunJobRow) : Bool → RunDb → Prop
  | refused : LeasedChange db lease worker now change false db
  | applied {db' : RunDb} {jobId token : Uuid} {r : RunJobRow}
      (hjob : Uuid.parse lease.jobId = some jobId)
      (htoken : Uuid.parse lease.leaseToken = some token) (hr : r ∈ db.jobs.rows)
      (hheld : r.heldBy jobId worker token now = true)
      (hrows : db'.jobs.rows = db.jobs.rows.map fun x => if x.id = r.id then change x else x) :
      LeasedChange db lease worker now change true db'

theorem RunJobRow.id_of_heldBy {r : RunJobRow} {jobId token : Uuid} {worker : String}
    {now : Instant} (h : r.heldBy jobId worker token now = true) : r.id = jobId := by
  simp only [heldBy, Bool.and_eq_true, decide_eq_true_eq] at h
  exact h.1.1.1.1

/-- The rows of one job that a lease condition selects are its only row. -/
theorem map_heldBy {db : RunDb} {r : RunJobRow} {jobId token : Uuid} {worker : String}
    {now : Instant} (hr : r ∈ db.jobs.rows) (h : r.heldBy jobId worker token now = true)
    (change : RunJobRow → RunJobRow) :
    (db.jobs.rows.map fun x => if x.heldBy jobId worker token now then change x else x) =
      db.jobs.rows.map fun x => if x.id = r.id then change x else x := by
  refine List.map_congr_left fun x hx => ?_
  by_cases hid : x.id = r.id
  · obtain rfl := RunDb.eq_of_id_eq hx hr hid
    simp [h]
  · have hnot : x.heldBy jobId worker token now = false := by
      by_contra hheld
      rw [Bool.not_eq_false] at hheld
      exact hid ((RunJobRow.id_of_heldBy hheld).trans (RunJobRow.id_of_heldBy h).symm)
    simp [hnot, hid]

theorem activeLeaseConditions_eq_ok {lease : RunJobLease} {worker : String} {now : Instant}
    {active : RunJobRow → Bool} (h : activeLeaseConditions lease worker now = .ok active) :
    ∃ jobId token, Uuid.parse lease.jobId = some jobId ∧
      Uuid.parse lease.leaseToken = some token ∧
      active = fun r => r.heldBy jobId worker token now := by
  simp only [activeLeaseConditions, bind_eq_ok, parseUuid_eq_ok] at h
  obtain ⟨jobId, hjob, token, htoken, hactive⟩ := h
  cases hactive
  exact ⟨jobId, token, hjob, htoken, rfl⟩

/-- An update under the lease conditions, reporting whether one row matched. -/
theorem leasedChange_updateJobs {db : RunDb} {lease : RunJobLease} {worker : String}
    {now : Instant} {active : RunJobRow → Bool} {change : RunJobRow → RunJobRow}
    {hf : KeepsKeys change} (h : activeLeaseConditions lease worker now = .ok active) :
    LeasedChange db lease worker now change (decide (db.jobs.rows.countP active = 1))
      (db.updateJobs active change hf) := by
  obtain ⟨jobId, token, hjob, htoken, rfl⟩ := activeLeaseConditions_eq_ok h
  have hcount := Table.countP_eq_one_iff (t := db.jobs) (k := jobId)
    (p := fun r => r.heldBy jobId worker token now) fun r hr => RunJobRow.id_of_heldBy hr
  by_cases hex : ∃ r ∈ db.jobs.rows, r.heldBy jobId worker token now = true
  · rw [decide_eq_true (hcount.mpr hex)]
    obtain ⟨r, hr, hheld⟩ := hex
    exact .applied hjob htoken hr hheld (map_heldBy hr hheld change)
  · rw [decide_eq_false fun h => hex (hcount.mp h)]
    rw [RunDb.updateJobs_eq_self fun r hr => by
      by_contra hne
      exact hex ⟨r, hr, by simpa using hne⟩]
    exact .refused

namespace PostgresRunJobQueue

variable {q : PostgresRunJobQueue} {db db' : RunDb} {lease : RunJobLease} {worker : String}
  {now : Datetime} {b : Bool}

theorem heartbeat_spec {leaseSeconds : ℤ}
    (h : heartbeat db lease worker leaseSeconds now = .ok (b, db')) :
    db'.store = db.store ∧ LeasedChange db lease worker now.instant
      (·.extend (now.instant + seconds leaseSeconds)) b db' := by
  simp only [heartbeat, bind_eq_ok] at h
  obtain ⟨_, _, _, _, active, hactive, hret⟩ := h
  cases hret
  exact ⟨rfl, leasedChange_updateJobs hactive⟩

theorem complete_spec (h : complete db lease worker now = .ok (b, db')) :
    db'.store = db.store ∧ LeasedChange db lease worker now.instant
      (·.release .completed none) b db' := by
  simp only [complete, bind_eq_ok] at h
  obtain ⟨_, _, active, hactive, hret⟩ := h
  cases hret
  exact ⟨rfl, leasedChange_updateJobs hactive⟩

theorem fail_spec {failureAlias : String} {retryable : Bool} {delay : ℤ}
    (h : q.fail db lease worker failureAlias retryable delay now = .ok (b, db')) :
    db'.store = db.store ∧ isSafeAlias failureAlias = true ∧
      LeasedChange db lease worker now.instant
        (·.failWith q.maxAttempts failureAlias retryable (now.instant + seconds delay)) b db' := by
  simp only [fail, bind_eq_ok] at h
  obtain ⟨_, _, _, halias, h⟩ := h
  have hsafe : isSafeAlias failureAlias = true := by
    unfold validateAlias at halias
    split at halias
    · assumption
    · cases halias
  split at h
  · rw [bind_eq_ok] at h
    obtain ⟨active, hactive, h⟩ := h
    obtain ⟨jobId, token, hjob, htoken, rfl⟩ := activeLeaseConditions_eq_ok hactive
    split at h
    · cases h
      exact ⟨rfl, hsafe, .refused⟩
    · rename_i row hrow
      have hr := List.mem_of_find?_eq_some hrow
      have hheld : row.heldBy jobId worker token now.instant = true := by
        simpa using List.find?_some hrow
      cases h
      refine ⟨rfl, hsafe, .applied hjob htoken hr hheld ?_⟩
      rw [RunDb.rows_updateJobs]
      simp only [decide_eq_true_eq]
  · cases h

theorem enqueue_spec {runId jobId : String} {newId : Uuid} {createdAt : Instant}
    (h : enqueue db runId now newId createdAt = .ok (jobId, db')) :
    db'.store = db.store ∧ (db' = db ∨ ∃ row : RunJobRow,
      row.id ∉ db.jobs.rows.map RunJobRow.id ∧ row.state = .queued ∧ row.leaseOwner = none ∧
      row.leaseToken = none ∧ row.leaseExpiresAt = none ∧ row.attempts = 0 ∧
      db'.jobs.rows = db.jobs.rows ++ [row]) := by
  simp only [enqueue, bind_eq_ok, parseUuid_eq_ok] at h
  obtain ⟨runUuid, _, h⟩ := h
  split at h
  · obtain ⟨-, rfl⟩ := return_eq_ok.mp h
    exact ⟨rfl, .inl rfl⟩
  · split at h
    · rename_i hins
      obtain ⟨-, rfl⟩ := return_eq_ok.mp h
      obtain ⟨hstore, hrows, hid, _⟩ := RunDb.insertJob_eq_some hins
      exact ⟨hstore, .inr ⟨_, hid, rfl, rfl, rfl, rfl, rfl, hrows⟩⟩
    · cases h

@[simp] theorem rows_expireExhaustedJobs (q : PostgresRunJobQueue) (db : RunDb) (now : Instant) :
    (q.expireExhaustedJobs db now).jobs.rows = db.jobs.rows.map fun r =>
      if r.exhausted now q.maxAttempts then r.expire else r := rfl

theorem mem_of_claimStatement {rows : List RunJobRow} {now : Instant} {maxAttempts : ℕ}
    {locked : List Uuid} {row : RunJobRow}
    (h : claimStatement rows now maxAttempts locked = some row) :
    row ∈ rows ∧ row.claimable now maxAttempts = true := by
  have hmem := List.mem_of_mem_head? (Option.mem_def.mpr h)
  rw [List.mem_insertionSort, List.mem_filter, Bool.and_eq_true] at hmem
  exact ⟨hmem.1, hmem.2.1⟩

/-- A claim expires the exhausted jobs and, when some row is left to lease, leases
exactly one of them. -/
theorem claim_spec {leaseSeconds : ℤ} {token : Uuid} {locked : List Uuid}
    {res : Option RunJobLease}
    (h : q.claim db worker leaseSeconds now token locked = .ok (res, db')) :
    db'.store = db.store ∧
      ((res = none ∧ db' = q.expireExhaustedJobs db now.instant) ∨
        ∃ row ∈ (q.expireExhaustedJobs db now.instant).jobs.rows,
          row.claimable now.instant q.maxAttempts = true ∧
          res = some
            { jobId := row.id.str, runId := row.runId.str, leaseToken := token.str,
              attempt := row.attempts + 1,
              leaseExpiresAt := now.instant + seconds leaseSeconds,
              finalAttempt := q.maxAttempts ≤ row.attempts + 1 } ∧
          db'.jobs.rows = (q.expireExhaustedJobs db now.instant).jobs.rows.map fun r =>
            if r.id = row.id then r.lease worker token (now.instant + seconds leaseSeconds)
            else r) := by
  simp only [claim, bind_eq_ok] at h
  obtain ⟨_, _, _, _, h⟩ := h
  split at h
  · obtain ⟨rfl, rfl⟩ := return_eq_ok.mp h
    exact ⟨rfl, .inl ⟨rfl, rfl⟩⟩
  · rename_i row hrow
    obtain ⟨hmem, hclaim⟩ := mem_of_claimStatement hrow
    obtain ⟨rfl, rfl⟩ := return_eq_ok.mp h
    refine ⟨rfl, .inr ⟨row, hmem, hclaim, rfl, ?_⟩⟩
    rw [RunDb.rows_updateJobs]
    simp only [decide_eq_true_eq]

/-- With a valid worker and lease time a claim does not raise. -/
theorem exists_claim_eq_ok {leaseSeconds : ℤ} {token : Uuid} {locked : List Uuid}
    (hworker : isSafeAlias worker = true) (hlease : 5 ≤ leaseSeconds ∧ leaseSeconds ≤ 300) :
    ∃ res db', q.claim db worker leaseSeconds now token locked = .ok (res, db') := by
  simp only [claim, validateAlias, hworker, validateLeaseSeconds, hlease, and_self, if_true,
    bind, Except.bind]
  split
  · exact ⟨_, _, rfl⟩
  · exact ⟨_, _, rfl⟩

end PostgresRunJobQueue

namespace PostgresRunRepository

variable {db db' : RunDb} {run : StoredRun} {now : Datetime}

/-- The change a commit makes to the job it holds. -/
def commitRow (run : StoredRun) (r : RunJobRow) : RunJobRow :=
  r.release (if run.status = .completed then .completed else .failed)
    (if run.status = .failed then run.failureAlias else none)

theorem commitLeasedResult_spec {lease : RunJobLease} {worker : String} {b : Bool}
    (h : commitLeasedResult db run lease worker now = .ok (b, db')) :
    run.status.terminal = true ∧ run.endedAt.isSome ∧
      LeasedChange db lease worker now.instant (commitRow run) b db' ∧
      (b = true → ∃ runUuid, Uuid.parse run.runId = some runUuid ∧
        Uuid.parse lease.runId = some runUuid ∧
        (∀ r ∈ db.jobs.rows, Uuid.parse lease.jobId = some r.id → r.runId = runUuid) ∧
        db.store.saveInSession run runUuid = .ok db'.store) := by
  unfold commitLeasedResult at h
  split at h
  · cases h
  · rename_i hterm
    have hterm' : run.status.terminal = true ∧ run.endedAt.isSome := by
      simpa [Option.isSome_iff_ne_none] using hterm
    refine ⟨hterm'.1, hterm'.2, ?_⟩
    split at h
    · rename_i runUuid leaseRun jobId token hrun hleaseRun hjob htoken
      split at h
      · cases h
        exact ⟨.refused, by simp⟩
      · rename_i hsame
        have hsame : leaseRun = runUuid := by simpa using hsame
        split at h
        · cases h
          exact ⟨.refused, by simp⟩
        · rename_i job hfind
          have hjobMem := List.mem_of_find?_eq_some hfind
          have hcond := List.find?_some hfind
          simp only [Bool.and_eq_true, decide_eq_true_eq] at hcond
          rw [bind_eq_ok] at h
          obtain ⟨saved, hsaved, h⟩ := h
          obtain ⟨hstore, hjobs⟩ := RunDb.saveRun_eq_ok hsaved
          cases h
          refine ⟨.applied hjob htoken hjobMem hcond.2 ?_, fun _ => ⟨runUuid, hrun, ?_, ?_, ?_⟩⟩
          · rw [RunDb.rows_updateJobs, hjobs]
            simp only [decide_eq_true_eq, commitRow]
          · rw [hleaseRun, hsame]
          · intro r hr hrid
            have hid : r.id = job.id := by
              rw [RunJobRow.id_of_heldBy hcond.2]
              exact (Option.some.inj (hjob.symm.trans hrid)).symm
            rw [RunDb.eq_of_id_eq hr hjobMem hid]; exact hcond.1
          · exact hstore
    · cases h
      exact ⟨.refused, by simp⟩

theorem saveQueuedRun_spec {jobId : String} {newId : Uuid} {createdAt : Instant}
    (h : saveQueuedRun db run now newId createdAt = .ok (jobId, db')) :
    run.status = .running ∧ run.endedAt = none ∧ (db' = db ∨ ∃ runUuid, ∃ row : RunJobRow,
      Uuid.parse run.runId = some runUuid ∧ db.store.saveInSession run runUuid = .ok db'.store ∧
      (∀ r ∈ db.jobs.rows, r.runId ≠ runUuid) ∧ row.runId = runUuid ∧
      row.id ∉ db.jobs.rows.map RunJobRow.id ∧ row.state = .queued ∧ row.leaseOwner = none ∧
      row.leaseToken = none ∧ row.leaseExpiresAt = none ∧ row.attempts = 0 ∧
      db'.jobs.rows = db.jobs.rows ++ [row]) := by
  unfold saveQueuedRun at h
  split at h
  · cases h
  · rename_i hrunning
    have hrunning : run.status = .running ∧ run.endedAt = none := by
      simpa using hrunning
    refine ⟨hrunning.1, hrunning.2, ?_⟩
    split at h
    · cases h
    · rename_i runUuid hparse
      split at h
      · rw [Except.ok.injEq, Prod.mk.injEq] at h
        exact .inl h.2.symm
      · rename_i hnone
        rw [bind_eq_ok] at h
        obtain ⟨saved, hsaved, h⟩ := h
        obtain ⟨hstore, hjobs⟩ := RunDb.saveRun_eq_ok hsaved
        dsimp only at h
        split at h
        · rename_i hins
          obtain ⟨-, rfl⟩ := return_eq_ok.mp h
          obtain ⟨hins, hrows, hid, _⟩ := RunDb.insertJob_eq_some hins
          rw [hjobs] at hrows hid
          refine .inr ⟨runUuid, _, hparse, ?_, ?_, rfl, hid, rfl, rfl, rfl, rfl, rfl, hrows⟩
          · rw [hstore, hins]
          · simpa using hnone
        · cases h

end PostgresRunRepository
end VoxBench.ControlPlane
