import VoxBench.ControlPlane.Fencing
import Mathlib.Data.Prod.Lex

/-!
# Progress of the job queue

A claim that looks past every waiting time and every lease finds a job unless all jobs have
ended. Each lease uses up an attempt of its job, so that workers that crash or fail use up
the queue, and no job is stuck.

## Main definitions

* `PastExpiries` — no job waits and no lease runs beyond the clock reading.
* `attemptsLeft` — the leases that the queue can still hand out on its jobs.

## Main results

* `claimStatement_first` — the selected row comes first among the claimable ones.
* `claim_none_iff` — nothing is leased exactly when all jobs have ended.
* `queue_progress` — both, over whole runs, with the bound on the leases.
-/

namespace VoxBench.ControlPlane

open VoxBench.Lib

/-! ## The order of claims -/

section Order

namespace RunJobRow

/-- The key that `claimsBefore` compares. -/
def claimKey (r : RunJobRow) : Instant ×ₗ Instant ×ₗ Uuid :=
  toLex (r.availableAt, toLex (r.createdAt, r.id))

theorem claimsBefore_iff {r r' : RunJobRow} : r.claimsBefore r' ↔ r.claimKey ≤ r'.claimKey := by
  simp [claimsBefore, claimKey, Prod.Lex.toLex_le_toLex]

instance : Std.Total claimsBefore :=
  ⟨fun r r' => by simpa only [claimsBefore_iff] using le_total r.claimKey r'.claimKey⟩

instance : IsTrans RunJobRow claimsBefore :=
  ⟨fun r r' r'' h h' => by
    rw [claimsBefore_iff] at h h' ⊢
    exact h.trans h'⟩

end RunJobRow

variable {rows : List RunJobRow} {now : Instant} {maxAttempts : ℕ} {locked : List Uuid}
  {row r : RunJobRow}

theorem claimStatement_first (h : claimStatement rows now maxAttempts locked = some row)
    (hr : r ∈ rows) (hclaim : r.claimable now maxAttempts = true) (hlocked : r.id ∉ locked) :
    row.claimsBefore r := by
  unfold claimStatement at h
  have hsorted := List.pairwise_insertionSort RunJobRow.claimsBefore
    (rows.filter fun r => r.claimable now maxAttempts && r.id ∉ locked)
  have hmem : r ∈ (rows.filter fun r => r.claimable now maxAttempts && r.id ∉ locked).insertionSort
      RunJobRow.claimsBefore := by
    rw [List.mem_insertionSort, List.mem_filter]
    exact ⟨hr, by simp [hclaim, hlocked]⟩
  obtain ⟨tail, htail⟩ := List.head?_eq_some_iff.mp h
  rw [htail] at hsorted hmem
  rcases List.mem_cons.mp hmem with rfl | hmem
  · exact RunJobRow.claimsBefore_iff.mpr (le_refl _)
  · exact (List.pairwise_cons.mp hsorted).1 r hmem

theorem claimStatement_eq_none : claimStatement rows now maxAttempts [] = none ↔
    ∀ r ∈ rows, r.claimable now maxAttempts = false := by
  unfold claimStatement
  rw [List.head?_eq_none_iff, ← List.length_eq_zero_iff, List.length_insertionSort,
    List.length_eq_zero_iff, List.filter_eq_nil_iff]
  simp

end Order

/-! ## What a claim leaves -/

/-- No job waits and no lease runs beyond the clock reading. -/
def RunDb.PastExpiries (db : RunDb) (now : Instant) : Prop :=
  ∀ r ∈ db.jobs.rows, r.availableAt ≤ now ∧ ∀ expiresAt ∈ r.leaseExpiresAt, expiresAt ≤ now

instance (db : RunDb) (now : Instant) : Decidable (db.PastExpiries now) :=
  inferInstanceAs (Decidable (∀ r ∈ db.jobs.rows, _))

def RunDb.AllEnded (db : RunDb) : Prop := ∀ r ∈ db.jobs.rows, r.state.terminal = true

section Claim

variable {q : PostgresRunJobQueue} {db db' : RunDb} {worker : String} {leaseSeconds : ℤ}
  {now : Datetime} {token : Uuid} {locked : List Uuid} {res : Option RunJobLease}
  {r : RunJobRow}

/-- Past its waiting time and its lease, a job is exhausted, can be leased, or has ended. -/
theorem claimable_or_exhausted {now : Instant} (hwf : r.LeaseWF) (havailable : r.availableAt ≤ now)
    (hexpired : ∀ expiresAt ∈ r.leaseExpiresAt, expiresAt ≤ now) (hr : r.state.terminal = false)
    (maxAttempts : ℕ) : r.claimable now maxAttempts = true ∨ r.exhausted now maxAttempts = true := by
  have hopen : r.state = .queued ∨ r.leaseExpired now = true := by
    cases hstate : r.state with
    | queued => exact .inl rfl
    | leased =>
        obtain ⟨expiresAt, hexpires⟩ := Option.isSome_iff_exists.mp (hwf.expiresAt.mpr hstate)
        refine .inr ?_
        simp [RunJobRow.leaseExpired, hstate, hexpires, hexpired expiresAt hexpires]
    | completed | failed => simp [hstate, RunJobState.terminal] at hr
  rcases Nat.lt_or_ge r.attempts maxAttempts with hlt | hge
  · left
    rcases hopen with hopen | hopen <;> simp [RunJobRow.claimable, hlt, hopen, havailable]
  · right
    rcases hopen with hopen | hopen <;> simp [RunJobRow.exhausted, hge, hopen]

/-- Nothing is leased exactly when all jobs have ended afterwards. -/
theorem claim_none_iff (hwf : ∀ r ∈ db.jobs.rows, r.LeaseWF) (hpast : db.PastExpiries now.instant)
    (h : q.claim db worker leaseSeconds now token [] = .ok (res, db')) :
    res = none ↔ db'.AllEnded := by
  simp only [PostgresRunJobQueue.claim, bind_eq_ok] at h
  obtain ⟨_, -, _, -, h⟩ := h
  split at h
  · rename_i hnone
    obtain ⟨rfl, rfl⟩ := return_eq_ok.mp h
    refine iff_of_true rfl fun r' hr' => ?_
    have hidle := claimStatement_eq_none.mp hnone r' hr'
    rw [PostgresRunJobQueue.rows_expireExhaustedJobs, List.mem_map] at hr'
    obtain ⟨r, hr, rfl⟩ := hr'
    split at hidle
    · rename_i hexhausted
      rw [if_pos hexhausted]
      rfl
    · rename_i hexhausted
      rw [if_neg hexhausted]
      by_contra hopen
      obtain ⟨havailable, hexpired⟩ := hpast r hr
      rcases claimable_or_exhausted (hwf r hr) havailable hexpired (by simpa using hopen)
        q.maxAttempts with hclaim | hexh
      · rw [hidle] at hclaim
        cases hclaim
      · exact hexhausted hexh
  · rename_i row hrow
    obtain ⟨hmem, -⟩ := PostgresRunJobQueue.mem_of_claimStatement hrow
    obtain ⟨rfl, rfl⟩ := return_eq_ok.mp h
    refine iff_of_false (by simp) fun hended => ?_
    have hleased := hended (row.lease worker token (now.instant + seconds leaseSeconds)) ?_
    · cases hleased
    · rw [RunDb.rows_updateJobs, List.mem_map]
      exact ⟨row, hmem, by simp⟩

/-- The leased job is the first claimable one. -/
theorem claim_first (h : q.claim db worker leaseSeconds now token [] = .ok (res, db'))
    {lease : RunJobLease} (hres : res = some lease) :
    ∃ row ∈ db.jobs.rows, lease.jobId = row.id.str ∧
      row.claimable now.instant q.maxAttempts = true ∧
      ∀ r ∈ db.jobs.rows, r.claimable now.instant q.maxAttempts = true → row.claimsBefore r := by
  simp only [PostgresRunJobQueue.claim, bind_eq_ok] at h
  obtain ⟨_, -, _, -, h⟩ := h
  split at h
  · obtain ⟨rfl, -⟩ := return_eq_ok.mp h
    cases hres
  · rename_i row hrow
    obtain ⟨hmem, hclaim⟩ := PostgresRunJobQueue.mem_of_claimStatement hrow
    obtain ⟨hlease, -⟩ := return_eq_ok.mp h
    obtain rfl := Option.some.inj (hlease.trans hres)
    -- the expiry passes claimable rows by
    have hkept : ∀ r ∈ db.jobs.rows, r.claimable now.instant q.maxAttempts = true →
        r ∈ (q.expireExhaustedJobs db now.instant).jobs.rows := by
      intro r hr hr'
      rw [PostgresRunJobQueue.rows_expireExhaustedJobs, List.mem_map]
      exact ⟨r, hr, by simp [not_exhausted_of_claimable hr']⟩
    rw [PostgresRunJobQueue.rows_expireExhaustedJobs, List.mem_map] at hmem
    obtain ⟨r₀, hr₀, heq⟩ := hmem
    have hsame : r₀ = row := by
      split at heq
      · rw [← heq, not_claimable_expire] at hclaim
        cases hclaim
      · exact heq
    subst hsame
    exact ⟨r₀, hr₀, rfl, hclaim, fun r hr hr' =>
      claimStatement_first hrow (hkept r hr hr') hr' (List.not_mem_nil)⟩

end Claim

/-! ## The attempts -/

/-- The leases handed out on the jobs. -/
def RunDb.attemptsMade (db : RunDb) : ℕ := (db.jobs.rows.map RunJobRow.attempts).sum

/-- The leases that the queue can still hand out on its jobs. -/
def PostgresRunJobQueue.attemptsLeft (q : PostgresRunJobQueue) (db : RunDb) : ℕ :=
  (db.jobs.rows.map fun r => q.maxAttempts - r.attempts).sum

section Attempts

variable {q : PostgresRunJobQueue} {s : QueueState} {db db' : RunDb}

theorem attemptsMade_add_attemptsLeft (h : ∀ r ∈ db.jobs.rows, r.attempts ≤ q.maxAttempts) :
    db.attemptsMade + q.attemptsLeft db = q.maxAttempts * db.jobs.rows.length := by
  unfold RunDb.attemptsMade PostgresRunJobQueue.attemptsLeft
  revert h
  induction db.jobs.rows with
  | nil => simp
  | cons r rows ih =>
      intro h
      have hrow := h r List.mem_cons_self
      have hrows := ih fun r hr => h r (List.mem_cons_of_mem _ hr)
      simp only [List.map_cons, List.sum_cons, List.length_cons, Nat.mul_succ]
      omega

/-- The leases of a transaction are the attempts that it adds. -/
theorem attemptsMade_jobsEvolve {fresh : Uuid → Prop} {leases : Uuid → Bool}
    (h : JobsEvolve q.maxAttempts fresh leases db db') :
    db'.attemptsMade = db.attemptsMade + db.jobs.rows.countP (fun r => leases r.id) ∧
      db.jobs.rows.length ≤ db'.jobs.rows.length := by
  obtain ⟨move, new, hrows, hmove, hnew⟩ := h
  have hnone : (new.map RunJobRow.attempts).sum = 0 :=
    List.sum_eq_zero_iff_forall_eq_nat.mpr fun n hn => by
      obtain ⟨r, hr, rfl⟩ := List.mem_map.mp hn
      exact (hnew r hr).1.attempts
  refine ⟨?_, by simp [hrows]⟩
  unfold RunDb.attemptsMade
  rw [hrows, List.map_append, List.sum_append, hnone, Nat.add_zero, List.map_map]
  clear hrows
  revert hmove
  induction db.jobs.rows with
  | nil => simp
  | cons r rows ih =>
      intro hmove
      have hrow := (hmove r List.mem_cons_self).attempts_eq
      have hrest := ih fun r hr => hmove r (List.mem_cons_of_mem _ hr)
      simp only [List.map_cons, List.sum_cons, Function.comp_apply, List.countP_cons, hrow] at hrest ⊢
      omega

/-- A lease is for one of the stored jobs. -/
theorem countP_leasedJob {res : Option RunJobLease}
    (h : ∀ lease ∈ res, ∃ r ∈ db.jobs.rows, lease.jobId = r.id.str) :
    db.jobs.rows.countP (fun r => leasedJob res r.id) = res.toList.length := by
  cases res with
  | none => simp [leasedJob]
  | some lease =>
      obtain ⟨r, hr, hjob⟩ := h lease rfl
      have hcount : db.jobs.rows.countP (fun row => leasedJob (some lease) row.id) =
          (db.jobs.rows.map RunJobRow.id).count r.id := by
        rw [List.count, List.countP_map]
        refine List.countP_congr fun row _ => ?_
        simp only [leasedJob, Option.any_some, hjob, decide_eq_true_eq, Function.comp_apply,
          beq_iff_eq]
        exact ⟨fun he => (Uuid.str_injective he).symm, fun he => by rw [he]⟩
      rw [hcount]
      exact List.count_eq_one_of_mem db.jobs.nodup (List.mem_map_of_mem hr)

/-- The number of claims of a run that lease a job. -/
def successfulClaims (q : PostgresRunJobQueue) : QueueState → List QueueOp → ℕ :=
  (queueMachine q).countSteps fun s op _ => (op.handsOut q s.db).isSome

theorem attemptsMade_next {op : QueueOp} (hen : (queueMachine q).enabled s op) :
    ((queueMachine q).next s op).db.attemptsMade =
        s.db.attemptsMade + (if (op.handsOut q s.db).isSome then 1 else 0) ∧
      s.db.jobs.rows.length ≤ ((queueMachine q).next s op).db.jobs.rows.length := by
  obtain ⟨res, hissued, hevolve, hreply, hres⟩ := next_spec hen
  obtain ⟨hmade, hlength⟩ := attemptsMade_jobsEvolve hevolve
  have hhands : op.handsOut q s.db = res := by
    unfold QueueOp.handsOut
    cases hrun : op.run q s.db with
    | error e =>
        have hstay : ((queueMachine q).next s op).issued = s.issued := by simp [queueMachine, hrun]
        cases res with
        | none => rfl
        | some lease => simpa using hissued.symm.trans hstay
    | ok out => exact (hreply out.1 out.2 hrun).symm
  refine ⟨?_, hlength⟩
  rw [hmade, countP_leasedJob fun lease hlease => ?_, hhands]
  · cases res <;> simp
  · obtain ⟨r, hr, hrow⟩ := (hres lease hlease).2.1
    exact ⟨r, hr, hrow.jobId⟩

/-- The claims of a run that lease a job are the attempts that it adds. -/
theorem attemptsMade_exec {ls : List QueueOp} (hls : (queueMachine q).Legal s ls) :
    ((queueMachine q).exec s ls).db.attemptsMade = s.db.attemptsMade + successfulClaims q s ls ∧
      s.db.jobs.rows.length ≤ ((queueMachine q).exec s ls).db.jobs.rows.length := by
  induction ls generalizing s with
  | nil => simp [successfulClaims, Machine.countSteps]
  | cons op ls ih =>
      obtain ⟨hmade, hlength⟩ := attemptsMade_next hls.1
      obtain ⟨hrest, hlength'⟩ := ih hls.2
      refine ⟨?_, hlength.trans hlength'⟩
      rw [Machine.exec_cons, hrest, hmade, Nat.add_assoc]
      rfl

/-- A run leases no more often than there are attempts left, those of the jobs that it adds
included. -/
theorem successfulClaims_le (hs : QueueInv q s) {ls : List QueueOp}
    (hls : (queueMachine q).Legal s ls) :
    successfulClaims q s ls ≤ q.attemptsLeft s.db + q.maxAttempts *
      (((queueMachine q).exec s ls).db.jobs.rows.length - s.db.jobs.rows.length) := by
  have hinv : QueueInv q ((queueMachine q).exec s ls) :=
    Machine.Along.invariant (fun t op hen ht => queueInv_next hen ht) hls hs
  obtain ⟨hmade, hlength⟩ := attemptsMade_exec hls
  have hbefore := attemptsMade_add_attemptsLeft hs.attempts
  have hafter := attemptsMade_add_attemptsLeft hinv.attempts
  have hgrown : q.maxAttempts * ((queueMachine q).exec s ls).db.jobs.rows.length =
      q.maxAttempts * s.db.jobs.rows.length + q.maxAttempts *
        (((queueMachine q).exec s ls).db.jobs.rows.length - s.db.jobs.rows.length) := by
    rw [← Nat.mul_add, Nat.add_sub_cancel' hlength]
  omega

end Attempts

/-! ## Repeated claims -/

/-- A valid claim of a worker that looks past every waiting time and every lease, with no row
locked by others. -/
def ClaimsPastExpiries (s : QueueState) (op : QueueOp) : Prop :=
  ∃ worker leaseSeconds now token, op = .claim worker leaseSeconds now token [] ∧
    isSafeAlias worker = true ∧ 5 ≤ leaseSeconds ∧ leaseSeconds ≤ 300 ∧
    s.db.PastExpiries now.instant

section Repeated

variable {q : PostgresRunJobQueue} {s : QueueState}

/-- Such a claim ends the last job, or uses up an attempt. -/
theorem claim_next (hs : QueueInv q s) {op : QueueOp} (hen : (queueMachine q).enabled s op)
    (hop : ClaimsPastExpiries s op) :
    ((queueMachine q).next s op).db.jobs.rows.length = s.db.jobs.rows.length ∧
      (((queueMachine q).next s op).db.AllEnded ∨ (op.handsOut q s.db).isSome) := by
  obtain ⟨worker, leaseSeconds, now, token, rfl, hworker, hmin, hmax, hpast⟩ := hop
  obtain ⟨res, db', hclaim⟩ := @PostgresRunJobQueue.exists_claim_eq_ok q s.db worker now
    leaseSeconds token [] hworker ⟨hmin, hmax⟩
  have hrun : (QueueOp.claim worker leaseSeconds now token []).run q s.db =
      .ok (.claimed res, db') := by
    simp [QueueOp.run, hclaim, Except.map]
  have hnext : ((queueMachine q).next s (.claim worker leaseSeconds now token [])).db = db' := by
    simp [queueMachine, hrun]
  rw [hnext]
  constructor
  · obtain ⟨-, ⟨-, rfl⟩ | ⟨row, -, -, -, hrows⟩⟩ := PostgresRunJobQueue.claim_spec hclaim
    · simp
    · simp [hrows]
  · cases res with
    | none => exact .inl ((claim_none_iff hs.leaseWF hpast hclaim).mp rfl)
    | some lease => exact .inr (by simp [QueueOp.handsOut, hrun, QueueReply.lease?])

/-- Once all jobs have ended, a claim finds none. -/
theorem allEnded_next {op : QueueOp} (hen : (queueMachine q).enabled s op)
    (hlength : ((queueMachine q).next s op).db.jobs.rows.length = s.db.jobs.rows.length)
    (h : s.db.AllEnded) : ((queueMachine q).next s op).db.AllEnded := by
  obtain ⟨res, -, ⟨move, new, hrows, hmove, -⟩, -, -⟩ := next_spec hen
  have hnone : new = [] := by
    rw [hrows, List.length_append, List.length_map] at hlength
    exact List.length_eq_zero_iff.mp (by omega)
  intro r' hr'
  rw [hrows, hnone, List.append_nil, List.mem_map] at hr'
  obtain ⟨r, hr, rfl⟩ := hr'
  rw [(hmove r hr).eq_of_terminal (h r hr)]
  exact h r hr

/-- More claims than there are attempts left bring every job to its end. -/
theorem allEnded_exec (hs : QueueInv q s) {ls : List QueueOp} (hls : (queueMachine q).Legal s ls)
    (hclaims : (queueMachine q).Along ClaimsPastExpiries s ls) (hmany : q.attemptsLeft s.db < ls.length) :
    ((queueMachine q).exec s ls).db.AllEnded := by
  induction ls generalizing s with
  | nil => simp at hmany
  | cons op ls ih =>
      have hnext := queueInv_next hls.1 hs
      obtain ⟨hlength, hended | hleased⟩ := claim_next hs hls.1 hclaims.1
      · -- nothing is left to do for the rest of the claims
        have hboth : (queueMachine q).Along (fun t op => (queueMachine q).enabled t op ∧
            ClaimsPastExpiries t op) ((queueMachine q).next s op) ls :=
          Machine.along_and.mpr ⟨hls.2, hclaims.2⟩
        exact (Machine.Along.invariant (I := fun t => QueueInv q t ∧ t.db.AllEnded)
          (fun t op h ht => ⟨queueInv_next h.1 ht.1,
            allEnded_next h.1 (claim_next ht.1 h.1 h.2).1 ht.2⟩) hboth ⟨hnext, hended⟩).2
      · refine ih hnext hls.2 hclaims.2 ?_
        have hmade := (attemptsMade_next hls.1).1
        rw [if_pos hleased] at hmade
        have hbefore := attemptsMade_add_attemptsLeft hs.attempts
        have hafter := attemptsMade_add_attemptsLeft hnext.attempts
        rw [hlength] at hafter
        rw [List.length_cons] at hmany
        omega

/-- From every reachable state: a claim past all waiting times and leases finds nothing
exactly when all jobs have ended afterwards, and leases the first claimable job otherwise; a
run leases at most as often as its jobs have attempts left, where jobs that are enqueued on
the way have made none; and repeated claims bring every job to its end. -/
theorem queue_progress (hs : (queueMachine q).Reachable s) :
    (∀ worker leaseSeconds now token, isSafeAlias worker = true → 5 ≤ leaseSeconds →
      leaseSeconds ≤ 300 → s.db.PastExpiries now.instant →
        ∃ res db', q.claim s.db worker leaseSeconds now token [] = .ok (res, db') ∧
          (res = none ↔ db'.AllEnded) ∧
          ∀ lease, res = some lease → ∃ row ∈ s.db.jobs.rows, lease.jobId = row.id.str ∧
            row.claimable now.instant q.maxAttempts = true ∧ ∀ r ∈ s.db.jobs.rows,
              r.claimable now.instant q.maxAttempts = true → row.claimsBefore r) ∧
    (∀ ls, (queueMachine q).Legal s ls → successfulClaims q s ls ≤ q.attemptsLeft s.db +
      q.maxAttempts *
        (((queueMachine q).exec s ls).db.jobs.rows.length - s.db.jobs.rows.length)) ∧
    (∀ ls, (queueMachine q).Legal s ls → (queueMachine q).Along ClaimsPastExpiries s ls →
      q.attemptsLeft s.db < ls.length → ((queueMachine q).exec s ls).db.AllEnded) := by
  have hinv := queueInv_of_reachable hs
  refine ⟨fun worker leaseSeconds now token hworker hmin hmax hpast => ?_,
    fun ls hls => successfulClaims_le hinv hls,
    fun ls hls hclaims hmany => allEnded_exec hinv hls hclaims hmany⟩
  obtain ⟨res, db', hclaim⟩ := @PostgresRunJobQueue.exists_claim_eq_ok q s.db worker now
    leaseSeconds token [] hworker ⟨hmin, hmax⟩
  exact ⟨res, db', hclaim, claim_none_iff hinv.leaseWF hpast hclaim,
    fun lease hlease => claim_first hclaim hlease⟩

/-- One attempt is left after two leases that ran out; the claim after the last lease ends
the job. -/
theorem queue_progress_reclaimed :
    let M := queueMachine ⟨3, by decide⟩
    let s := M.exec ⟨.empty, []⟩ reclaimedCalls
    let claims : List QueueOp := [.claim "worker-c" 5 (.utc (seconds 10)) (.ofNat 5) [],
      .claim "worker-d" 5 (.utc (seconds 15)) (.ofNat 6) []]
    ¬ s.db.AllEnded ∧ (M.exec s claims).db.AllEnded := by
  intro M s claims
  have hs : M.Reachable s :=
    ⟨⟨.empty, []⟩, reclaimedCalls, ⟨rfl, rfl⟩, by decide +kernel, rfl⟩
  have hopen : ¬ s.db.AllEnded := by
    unfold RunDb.AllEnded
    decide +kernel
  refine ⟨hopen, (queue_progress hs).2.2 claims (by decide +kernel) ?_ (by decide +kernel)⟩
  exact ⟨⟨"worker-c", 5, .utc (seconds 10), .ofNat 5, rfl, by decide, by decide, by decide,
      by decide +kernel⟩,
    ⟨"worker-d", 5, .utc (seconds 15), .ofNat 6, rfl, by decide, by decide, by decide,
      by decide +kernel⟩, trivial⟩

end Repeated
end VoxBench.ControlPlane
