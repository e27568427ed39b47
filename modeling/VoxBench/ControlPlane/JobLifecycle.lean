import VoxBench.ControlPlane.JobQueue

/-!
# The lifecycle of one job

What the queue is for, stated on a single row: a job waits, is leased under a
fresh token, keeps or extends its lease, goes back to the queue, and ends once.
`JobStep` lists the moves; `JobsEvolve` says that a transaction moves every row of
the table by one of them and may add fresh rows. Each operation of the queue and
the repository refines this lifecycle (`jobsEvolve_claim` and its companions), so
that an invariant of the jobs is proved once per move and not once per operation.
-/

namespace VoxBench.ControlPlane

open VoxBench.Lib

/-- The moves of a job. The flag tells whether the move is a new lease. -/
inductive JobStep (maxAttempts : ℕ) (fresh : Uuid → Prop) : Bool → RunJobRow → RunJobRow → Prop
  | stay (r : RunJobRow) : JobStep maxAttempts fresh false r r
  /-- The attempts are used up and no lease is running: the job fails. -/
  | exhausted (r : RunJobRow) {now : Instant} (h : r.exhausted now maxAttempts = true) :
      JobStep maxAttempts fresh false r r.expire
  /-- A waiting or expired job is leased under a fresh token. -/
  | leased (r : RunJobRow) {worker : String} {token : Uuid} {now expiresAt : Instant}
      (hfresh : fresh token) (h : r.claimable now maxAttempts = true) :
      JobStep maxAttempts fresh true r (r.lease worker token expiresAt)
  /-- The holder moves the end of its lease. -/
  | extended (r : RunJobRow) {expiresAt : Instant} (h : r.state = .leased) :
      JobStep maxAttempts fresh false r (r.extend expiresAt)
  /-- The holder gives the lease up for another state. -/
  | released (r : RunJobRow) {state : RunJobState} {failureAlias : Option String}
      {availableAt : Instant} (h : r.state = .leased) (hstate : state ≠ .leased) :
      JobStep maxAttempts fresh false r
        { r.release state failureAlias with availableAt := availableAt }

/-- The lease columns are set together, and exactly while the job is leased. -/
structure RunJobRow.LeaseWF (r : RunJobRow) : Prop where
  owner : r.leaseOwner.isSome ↔ r.state = .leased
  token : r.leaseToken.isSome ↔ r.state = .leased
  expiresAt : r.leaseExpiresAt.isSome ↔ r.state = .leased

/-- A row as `enqueue` and `save_queued_run` insert it. -/
structure RunJobRow.Fresh (r : RunJobRow) : Prop where
  state : r.state = .queued
  leaseOwner : r.leaseOwner = none
  leaseToken : r.leaseToken = none
  leaseExpiresAt : r.leaseExpiresAt = none
  attempts : r.attempts = 0

namespace JobStep

variable {maxAttempts : ℕ} {fresh : Uuid → Prop} {b : Bool} {r r' : RunJobRow}

theorem keepsKeys (h : JobStep maxAttempts fresh b r r') :
    r'.id = r.id ∧ r'.runId = r.runId := by
  cases h <;> exact ⟨rfl, rfl⟩

/-- The attempts count the leases. -/
theorem attempts_eq (h : JobStep maxAttempts fresh b r r') :
    r'.attempts = r.attempts + if b then 1 else 0 := by
  cases h <;> rfl

theorem attempts_le (h : JobStep maxAttempts fresh b r r') (hr : r.attempts ≤ maxAttempts) :
    r'.attempts ≤ maxAttempts := by
  cases h with
  | leased _ hfresh hclaim =>
      have hlt : r.attempts < maxAttempts := by
        simp only [RunJobRow.claimable, Bool.and_eq_true, decide_eq_true_eq] at hclaim
        exact hclaim.1
      exact hlt
  | _ => exact hr

theorem leaseWF (h : JobStep maxAttempts fresh b r r') (hr : r.LeaseWF) : r'.LeaseWF := by
  cases h with
  | stay => exact hr
  | exhausted => constructor <;> simp [RunJobRow.expire]
  | leased => constructor <;> simp [RunJobRow.lease]
  | extended _ hleased => exact ⟨hr.owner, hr.token, by simp [RunJobRow.extend, hleased]⟩
  | released _ hleased hstate => constructor <;> simp [RunJobRow.release, hstate]

/-- A finished job never moves again. -/
theorem eq_of_terminal (h : JobStep maxAttempts fresh b r r') (hr : r.state.terminal = true) :
    r' = r := by
  have hne : r.state ≠ .leased ∧ r.state ≠ .queued := by
    constructor <;> intro hs <;> simp [hs, RunJobState.terminal] at hr
  cases h with
  | stay => rfl
  | exhausted _ h => simp [RunJobRow.exhausted, RunJobRow.leaseExpired, hne.1, hne.2] at h
  | leased _ hfresh h => simp [RunJobRow.claimable, RunJobRow.leaseExpired, hne.1, hne.2] at h
  | extended _ h => exact absurd h hne.1
  | released _ h _ => exact absurd h hne.1

/-- The token of a job is the one it had, or a fresh one after a new lease. -/
theorem token_cases (h : JobStep maxAttempts fresh b r r') {token : Uuid}
    (ht : r'.leaseToken = some token) :
    b = false ∧ r.leaseToken = some token ∨ b = true ∧ fresh token := by
  cases h with
  | stay => exact .inl ⟨rfl, ht⟩
  | exhausted => simp [RunJobRow.expire] at ht
  | leased _ hfresh =>
      have : _ = token := Option.some.inj ht
      exact .inr ⟨rfl, this ▸ hfresh⟩
  | extended => exact .inl ⟨rfl, ht⟩
  | released => simp [RunJobRow.release] at ht

end JobStep

theorem RunJobRow.Fresh.leaseWF {r : RunJobRow} (h : r.Fresh) : r.LeaseWF := by
  constructor <;> simp [h.state, h.leaseOwner, h.leaseToken, h.leaseExpiresAt]

/-- A leased row has all three lease columns, any other row has none. -/
theorem RunJobRow.LeaseWF.leased_iff {r : RunJobRow} (h : r.LeaseWF) : r.state = .leased ↔
    r.leaseOwner.isSome ∧ r.leaseToken.isSome ∧ r.leaseExpiresAt.isSome := by
  rw [h.owner, h.token, h.expiresAt]
  tauto

theorem RunJobRow.LeaseWF.token_of_terminal {r : RunJobRow} (h : r.LeaseWF)
    (hr : r.state.terminal = true) : r.leaseToken = none := by
  rw [Option.eq_none_iff_forall_ne_some]
  intro token ht
  have hleased : r.state = .leased := h.token.mp (by simp [ht])
  simp [hleased, RunJobState.terminal] at hr

/-! ## Transactions -/

/-- A transaction on the job table: every row makes a move of the lifecycle, the
rows that `leases` selects a new lease, and fresh rows may be added. -/
def JobsEvolve (maxAttempts : ℕ) (fresh : Uuid → Prop) (leases : Uuid → Bool)
    (db db' : RunDb) : Prop :=
  ∃ (move : RunJobRow → RunJobRow) (new : List RunJobRow),
    db'.jobs.rows = db.jobs.rows.map move ++ new ∧
    (∀ r ∈ db.jobs.rows, JobStep maxAttempts fresh (leases r.id) r (move r)) ∧
    ∀ r ∈ new, r.Fresh ∧ r.id ∉ db.jobs.rows.map RunJobRow.id

/-- The jobs that a returned lease is for. -/
def leasedJob (res : Option RunJobLease) (id : Uuid) : Bool :=
  res.any fun lease => lease.jobId = id.str

section Refinement

variable {q : PostgresRunJobQueue} {fresh : Uuid → Prop} {db db' : RunDb}

theorem JobsEvolve.refl (maxAttempts : ℕ) (fresh : Uuid → Prop) (db : RunDb) :
    JobsEvolve maxAttempts fresh (fun _ => false) db db :=
  ⟨id, [], by simp, fun r _ => .stay r, by simp⟩

/-- A row of the new table is a moved row or a fresh one. -/
theorem JobsEvolve.cases {maxAttempts : ℕ} {leases : Uuid → Bool}
    (h : JobsEvolve maxAttempts fresh leases db db') {r' : RunJobRow} (hr' : r' ∈ db'.jobs.rows) :
    (∃ r ∈ db.jobs.rows, JobStep maxAttempts fresh (leases r.id) r r') ∨
      r'.Fresh ∧ r'.id ∉ db.jobs.rows.map RunJobRow.id := by
  obtain ⟨move, new, hrows, hmove, hnew⟩ := h
  rw [hrows, List.mem_append, List.mem_map] at hr'
  rcases hr' with ⟨r, hr, rfl⟩ | hr'
  · exact .inl ⟨r, hr, hmove r hr⟩
  · exact .inr (hnew r' hr')

/-- Every row of the old table is still there, moved. -/
theorem JobsEvolve.moved {maxAttempts : ℕ} {leases : Uuid → Bool}
    (h : JobsEvolve maxAttempts fresh leases db db') {r : RunJobRow} (hr : r ∈ db.jobs.rows) :
    ∃ r' ∈ db'.jobs.rows, JobStep maxAttempts fresh (leases r.id) r r' := by
  obtain ⟨move, new, hrows, hmove, _⟩ := h
  refine ⟨move r, ?_, hmove r hr⟩
  rw [hrows, List.mem_append]
  exact .inl (List.mem_map.mpr ⟨r, hr, rfl⟩)

/-- A claimable row has attempts left, so the expiry has passed it by. -/
theorem not_exhausted_of_claimable {r : RunJobRow} {now : Instant} {maxAttempts : ℕ}
    (h : r.claimable now maxAttempts = true) : r.exhausted now maxAttempts = false := by
  simp only [RunJobRow.claimable, Bool.and_eq_true, decide_eq_true_eq] at h
  simp [RunJobRow.exhausted, h.1]

theorem not_claimable_expire (r : RunJobRow) (now : Instant) (maxAttempts : ℕ) :
    r.expire.claimable now maxAttempts = false := by
  simp [RunJobRow.claimable, RunJobRow.leaseExpired, RunJobRow.expire]

theorem jobsEvolve_claim {worker : String} {leaseSeconds : ℤ} {now : Datetime} {token : Uuid}
    {locked : List Uuid} {res : Option RunJobLease} (hfresh : res.isSome → fresh token)
    (h : q.claim db worker leaseSeconds now token locked = .ok (res, db')) :
    JobsEvolve q.maxAttempts fresh (leasedJob res) db db' := by
  obtain ⟨-, ⟨rfl, rfl⟩ | ⟨row, hrow, hclaim, rfl, hrows⟩⟩ :=
    PostgresRunJobQueue.claim_spec h
  · refine ⟨fun r => if r.exhausted now.instant q.maxAttempts then r.expire else r, [],
      by simp, ?_, by simp⟩
    intro r hr
    by_cases hexh : r.exhausted now.instant q.maxAttempts = true
    · simp only [hexh, if_true]
      exact .exhausted r hexh
    · simp only [hexh, Bool.false_eq_true, if_false]
      exact .stay r
  · -- The leased row was not touched by the expiry, so it is a row of the old table.
    have hrow₀ : row ∈ db.jobs.rows := by
      rw [PostgresRunJobQueue.rows_expireExhaustedJobs, List.mem_map] at hrow
      obtain ⟨r, hr, rfl⟩ := hrow
      by_cases hexh : r.exhausted now.instant q.maxAttempts = true
      · simp only [hexh, if_true] at hclaim
        rw [not_claimable_expire] at hclaim
        cases hclaim
      · simpa [hexh] using hr
    refine ⟨fun r => if r.id = row.id then r.lease worker token (now.instant + seconds leaseSeconds)
      else if r.exhausted now.instant q.maxAttempts then r.expire else r, [], ?_, ?_, by simp⟩
    · rw [hrows, PostgresRunJobQueue.rows_expireExhaustedJobs, List.map_map, List.append_nil]
      refine List.map_congr_left fun r hr => ?_
      simp only [Function.comp_apply]
      by_cases hid : r.id = row.id
      · obtain rfl := RunDb.eq_of_id_eq hr hrow₀ hid
        simp [not_exhausted_of_claimable hclaim]
      · by_cases hexh : r.exhausted now.instant q.maxAttempts = true
        · simp [hexh, RunJobRow.expire, hid]
        · simp [hexh, hid]
    · intro r hr
      by_cases hid : r.id = row.id
      · obtain rfl := RunDb.eq_of_id_eq hr hrow₀ hid
        simp only [leasedJob, Option.any_some, decide_true, if_true]
        exact .leased r (hfresh rfl) hclaim
      · have hother : r.id.str ≠ row.id.str := fun he => hid (Uuid.str_injective he)
        simp only [leasedJob, Option.any_some, hother.symm, decide_false, hid, if_false]
        by_cases hexh : r.exhausted now.instant q.maxAttempts = true
        · simp only [hexh, if_true]
          exact .exhausted r hexh
        · simp only [hexh, Bool.false_eq_true, if_false]
          exact .stay r

/-- A returned lease carries the token that the claim drew. -/
theorem leaseToken_claim {worker : String} {leaseSeconds : ℤ} {now : Datetime} {token : Uuid}
    {locked : List Uuid} {lease : RunJobLease}
    (h : q.claim db worker leaseSeconds now token locked = .ok (some lease, db')) :
    lease.leaseToken = token.str := by
  obtain ⟨-, ⟨hnone, -⟩ | ⟨row, -, -, hres, -⟩⟩ := PostgresRunJobQueue.claim_spec h
  · cases hnone
  · rw [Option.some.inj hres]

/-- An operation under a lease moves the row it holds. -/
theorem jobsEvolve_leasedChange {lease : RunJobLease} {worker : String} {now : Instant}
    {change : RunJobRow → RunJobRow} {b : Bool} {maxAttempts : ℕ}
    (hmove : ∀ r, r.state = .leased → JobStep maxAttempts fresh false r (change r))
    (h : LeasedChange db lease worker now change b db') :
    JobsEvolve maxAttempts fresh (fun _ => false) db db' := by
  cases h with
  | refused => exact .refl maxAttempts fresh db
  | applied hjob htoken hr hheld hrows =>
      rename_i jobId token held
      refine ⟨_, [], by rw [hrows, List.append_nil], ?_, by simp⟩
      intro r hr'
      by_cases hid : r.id = held.id
      · obtain rfl := RunDb.eq_of_id_eq hr' hr hid
        have hleased : r.state = .leased := by
          simp only [RunJobRow.heldBy, Bool.and_eq_true, decide_eq_true_eq] at hheld
          exact hheld.1.1.1.2
        simpa using hmove r hleased
      · simpa only [hid, if_false] using JobStep.stay r

theorem jobStep_extend {maxAttempts : ℕ} {r : RunJobRow} (expiresAt : Instant)
    (h : r.state = .leased) : JobStep maxAttempts fresh false r (r.extend expiresAt) :=
  .extended r h

theorem jobStep_release {maxAttempts : ℕ} {r : RunJobRow} {state : RunJobState}
    (failureAlias : Option String) (hstate : state ≠ .leased) (h : r.state = .leased) :
    JobStep maxAttempts fresh false r (r.release state failureAlias) :=
  .released r h hstate

theorem jobStep_failWith {maxAttempts : ℕ} {r : RunJobRow} (failureAlias : String)
    (retryable : Bool) (availableAt : Instant) (h : r.state = .leased) :
    JobStep maxAttempts fresh false r
      (r.failWith maxAttempts failureAlias retryable availableAt) :=
  .released r h (by split <;> simp)

theorem jobStep_commitRow {maxAttempts : ℕ} {r : RunJobRow} (run : StoredRun)
    (h : r.state = .leased) :
    JobStep maxAttempts fresh false r (PostgresRunRepository.commitRow run r) :=
  jobStep_release _ (by split <;> simp) h

theorem jobsEvolve_heartbeat {lease : RunJobLease} {worker : String} {leaseSeconds : ℤ}
    {now : Datetime} {b : Bool} {maxAttempts : ℕ}
    (h : PostgresRunJobQueue.heartbeat db lease worker leaseSeconds now = .ok (b, db')) :
    JobsEvolve maxAttempts fresh (fun _ => false) db db' :=
  jobsEvolve_leasedChange (fun _ => jobStep_extend _) (PostgresRunJobQueue.heartbeat_spec h).2

theorem jobsEvolve_complete {lease : RunJobLease} {worker : String} {now : Datetime} {b : Bool}
    {maxAttempts : ℕ} (h : PostgresRunJobQueue.complete db lease worker now = .ok (b, db')) :
    JobsEvolve maxAttempts fresh (fun _ => false) db db' :=
  jobsEvolve_leasedChange (fun _ => jobStep_release _ (by simp))
    (PostgresRunJobQueue.complete_spec h).2

theorem jobsEvolve_fail {lease : RunJobLease} {worker failureAlias : String} {retryable : Bool}
    {delay : ℤ} {now : Datetime} {b : Bool}
    (h : q.fail db lease worker failureAlias retryable delay now = .ok (b, db')) :
    JobsEvolve q.maxAttempts fresh (fun _ => false) db db' :=
  jobsEvolve_leasedChange (fun _ => jobStep_failWith _ _ _) (PostgresRunJobQueue.fail_spec h).2.2

theorem jobsEvolve_commitLeasedResult {run : StoredRun} {lease : RunJobLease} {worker : String}
    {now : Datetime} {b : Bool} {maxAttempts : ℕ}
    (h : PostgresRunRepository.commitLeasedResult db run lease worker now = .ok (b, db')) :
    JobsEvolve maxAttempts fresh (fun _ => false) db db' :=
  jobsEvolve_leasedChange (fun _ => jobStep_commitRow run)
    (PostgresRunRepository.commitLeasedResult_spec h).2.2.1

/-- Adding a fresh row moves no job. -/
theorem jobsEvolve_insert {maxAttempts : ℕ} {row : RunJobRow} (hfresh : row.Fresh)
    (hid : row.id ∉ db.jobs.rows.map RunJobRow.id)
    (hrows : db'.jobs.rows = db.jobs.rows ++ [row]) :
    JobsEvolve maxAttempts fresh (fun _ => false) db db' := by
  refine ⟨id, [row], by simpa using hrows, fun r _ => .stay r, ?_⟩
  intro r hr
  rw [List.mem_singleton.mp hr]
  exact ⟨hfresh, hid⟩

theorem jobsEvolve_enqueue {runId jobId : String} {now : Datetime} {newId : Uuid}
    {createdAt : Instant} {maxAttempts : ℕ}
    (h : PostgresRunJobQueue.enqueue db runId now newId createdAt = .ok (jobId, db')) :
    JobsEvolve maxAttempts fresh (fun _ => false) db db' := by
  obtain ⟨-, rfl | ⟨row, hid, hst, howner, htoken, hexp, hatt, hrows⟩⟩ :=
    PostgresRunJobQueue.enqueue_spec h
  · exact .refl maxAttempts fresh db'
  · exact jobsEvolve_insert ⟨hst, howner, htoken, hexp, hatt⟩ hid hrows

theorem jobsEvolve_saveQueuedRun {run : StoredRun} {jobId : String} {now : Datetime}
    {newId : Uuid} {createdAt : Instant} {maxAttempts : ℕ}
    (h : PostgresRunRepository.saveQueuedRun db run now newId createdAt = .ok (jobId, db')) :
    JobsEvolve maxAttempts fresh (fun _ => false) db db' := by
  obtain ⟨-, -, rfl | ⟨runUuid, row, -, -, -, -, hid, hst, howner, htoken, hexp, hatt, hrows⟩⟩ :=
    PostgresRunRepository.saveQueuedRun_spec h
  · exact .refl maxAttempts fresh db'
  · exact jobsEvolve_insert ⟨hst, howner, htoken, hexp, hatt⟩ hid hrows

end Refinement
end VoxBench.ControlPlane
