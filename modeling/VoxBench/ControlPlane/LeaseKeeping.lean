import VoxBench.ControlPlane.WorkerOutcome
import Mathlib.Tactic.Linarith

/-!
# Keeping a lease

While the executor of a worker is busy, a heartbeat thread extends the lease of its job. Every
worker reads a clock of its own. When the heartbeats follow each other closely enough, for clocks
that are off by so much, nobody else ever sees the lease run out: the worker keeps it through the
whole of `run_one`, and its last transaction is accepted.

## Main definitions

* `Timely` — the heartbeats of a worker are in time.
* `KeptLease` — the row of the job, as it stays.

## Main results

* `timely_lease_kept` — the lease is held at every step, and it is not reported as lost.
-/

namespace VoxBench.ControlPlane

open VoxBench.Lib

/-- A step, and when it is taken. -/
structure TimedStep where
  time : Instant
  step : SystemStep

section Timing

variable (q : PostgresRunJobQueue) (workers : ℕ → RunJobWorker)

/-- The step sends a heartbeat of `w`. -/
def SystemState.Beats (s : SystemState) (w : ℕ) (l : SystemStep) : Prop :=
  (∃ now, l = .heartbeat w now) ∧ (s.call? workers l).isSome

instance (s : SystemState) (w : ℕ) (l : SystemStep) : Decidable (s.Beats workers w l) :=
  match l with
  | .heartbeat w' now =>
      if h : w' = w ∧ (s.call? workers (.heartbeat w' now)).isSome then
        isTrue ⟨⟨now, by rw [h.1]⟩, h.2⟩
      else isFalse fun ⟨⟨_, heq⟩, hcall⟩ => h ⟨(SystemStep.heartbeat.inj heq).1, hcall⟩
  | .submit .. | .claim .. | .load _ | .failMissing .. | .lateHeartbeat .. | .executed ..
  | .conclude .. | .crash _ => isFalse fun ⟨⟨_, heq⟩, _⟩ => nomatch heq

/-- Every step is taken at most `gap` after the latest heartbeat of `w`, the first ones after
`last`. -/
def BeatsInTime (w : ℕ) (gap : ℤ) : SystemState → Instant → List TimedStep → Prop
  | _, _, [] => True
  | s, last, t :: ts => t.time ≤ last + gap ∧
      BeatsInTime w gap ((systemMachine q workers).next s t.step)
        (if s.Beats workers w t.step then t.time else last) ts

instance decidableBeatsInTime (w : ℕ) (gap : ℤ) :
    ∀ s last ts, Decidable (BeatsInTime q workers w gap s last ts)
  | _, _, [] => isTrue trivial
  | s, last, t :: ts =>
      have := decidableBeatsInTime w gap ((systemMachine q workers).next s t.step)
        (if s.Beats workers w t.step then t.time else last) ts
      inferInstanceAs (Decidable (t.time ≤ last + gap ∧ _))

/-- The executor of `w` returns the run that it was given, and the heartbeat thread is joined. -/
def ReturnsRun (w : ℕ) (s : SystemState) : SystemStep → Prop
  | .executed w' run _ joined => w' = w → joined = true ∧
      ∀ lease ∈ (s.phase w).lease?, Uuid.parse run.runId = Uuid.parse lease.runId
  | _ => True

instance (w : ℕ) (s : SystemState) (l : SystemStep) : Decidable (ReturnsRun w s l) :=
  match l with
  | .executed w' _ _ _ => inferInstanceAs (Decidable (w' = w → _))
  | .submit .. | .claim .. | .load _ | .failMissing .. | .heartbeat .. | .lateHeartbeat ..
  | .conclude .. | .crash _ => isTrue trivial

/-- From `s`, the steps `ts` leave worker `w` its lease under `token`: no clock is off by more than
`skew`, heartbeats follow within `gap`, and no thread of another call uses the lease. -/
structure Timely (w : ℕ) (token : Uuid) (skew gap : ℤ) (s : SystemState) (last : Instant)
    (ts : List TimedStep) : Prop where
  clocks : ∀ t ∈ ts, ∀ reading ∈ t.step.clock?, |reading - t.time| ≤ skew
  beats : BeatsInTime q workers w gap s last ts
  late : ∀ t ∈ ts, ∀ w' lease now, t.step = .lateHeartbeat w' lease now →
    Uuid.parse lease.leaseToken ≠ some token
  returns : (systemMachine q workers).Along (ReturnsRun w) s (ts.map TimedStep.step)

end Timing

/-! ## The leases of the other workers -/

section System

variable {q : PostgresRunJobQueue} {workers : ℕ → RunJobWorker} {s : SystemState}
  {l : SystemStep} {w : ℕ}

/-- A lease that a worker has after a step it had before, or the step has drawn its token. -/
theorem lease_next (hen : (systemMachine q workers).enabled s l) {lease : RunJobLease}
    (h : lease ∈ (((systemMachine q workers).next s l).phase w).lease?) :
    lease ∈ (s.phase w).lease? ∨
      lease.leaseToken ∉ s.queue.issued.map RunJobLease.leaseToken := by
  cases hmove : s.phase? q workers l with
  | none =>
      left
      simpa [systemMachine, hmove] using h
  | some move =>
      obtain ⟨w', phase⟩ := move
      have hupdate : ((systemMachine q workers).next s l).phase =
          Function.update s.phase w' phase := by simp [systemMachine, hmove]
      rw [hupdate] at h
      by_cases hw : w = w'
      · subst hw
        rw [Function.update_self] at h
        cases l with
        | submit | lateHeartbeat => cases hmove
        | claim w' now token locked =>
            simp only [SystemState.phase?] at hmove
            split at hmove
            · rename_i op hcall
              split at hmove
              · rename_i lease' hlease
                cases hmove
                cases h
                exact Or.inr (hen op hcall lease hlease)
              · cases hmove
                cases h
            · cases hmove
        | load w' =>
            simp only [SystemState.phase?] at hmove
            split at hmove
            · rename_i hphase
              split at hmove
              · cases hmove
                exact Or.inl (by rwa [hphase])
              · cases hmove
                exact Or.inl (by rwa [hphase])
            · cases hmove
        | heartbeat w' now =>
            simp only [SystemState.phase?] at hmove
            split at hmove
            · rename_i hphase
              cases hmove
              exact Or.inl (by rwa [hphase])
            · cases hmove
        | executed w' run raised joined =>
            simp only [SystemState.phase?] at hmove
            split at hmove
            · rename_i hphase
              split at hmove
              · cases hmove
                cases h
              · cases hmove
                exact Or.inl (by rwa [hphase])
            · cases hmove
        | failMissing w' now | conclude w' now endedAt =>
            simp only [SystemState.phase?] at hmove
            split at hmove
            · cases hmove
              cases h
            · cases hmove
        | crash w' =>
            cases hmove
            cases h
      · rw [Function.update_of_ne hw] at h
        exact Or.inl h

/-! ## The steps of a worker -/

/-- A step that takes a busy worker on to another busy phase. -/
inductive PhaseStep (q : PostgresRunJobQueue) (workers : ℕ → RunJobWorker) (s : SystemState)
    (w : ℕ) : SystemStep → WorkerPhase → Prop
  | load {lease : RunJobLease} {run : StoredRun} (hphase : s.phase w = .claimed lease) :
      PhaseStep q workers s w (.load w) (.executing lease run false)
  | missing {lease : RunJobLease} (hphase : s.phase w = .claimed lease) :
      PhaseStep q workers s w (.load w) (.runMissing lease)
  | heartbeat {lease : RunJobLease} {run : StoredRun} {now : Datetime}
      (hphase : s.phase w = .executing lease run false) :
      PhaseStep q workers s w (.heartbeat w now) (.executing lease run
        (!QueueOp.succeeds q (.heartbeat lease (workers w).workerId (workers w).leaseSeconds now)
          s.queue.db))
  | executed {lease : RunJobLease} {run run' : StoredRun} {raised : Bool}
      (hphase : s.phase w = .executing lease run' false) :
      PhaseStep q workers s w (.executed w run raised true) (.concluding lease run raised)

theorem phaseStep_of_phase? {phase : WorkerPhase} (hbusy : s.phase w ≠ .idle)
    (h : s.phase? q workers l = some (w, phase)) (hnext : phase ≠ .idle) :
    PhaseStep q workers s w l phase := by
  cases l with
  | submit | lateHeartbeat => cases h
  | crash w' =>
      cases h
      exact absurd rfl hnext
  | claim w' now token locked =>
      simp only [SystemState.phase?] at h
      split at h
      · rename_i op hcall
        simp only [SystemState.call?] at hcall
        split at hcall
        · rename_i hidle
          split at h
          · cases h
            exact absurd hidle hbusy
          · cases h
            exact absurd hidle hbusy
        · cases hcall
      · cases h
  | load w' =>
      simp only [SystemState.phase?] at h
      split at h
      · rename_i lease hphase
        split at h
        · cases h
          exact .load hphase
        · cases h
          exact .missing hphase
      · cases h
  | failMissing w' now | conclude w' now endedAt =>
      simp only [SystemState.phase?] at h
      split at h
      · cases h
        exact absurd rfl hnext
      · cases h
  | heartbeat w' now =>
      simp only [SystemState.phase?] at h
      split at h
      · rename_i lease run hphase
        cases h
        exact .heartbeat hphase
      · cases h
  | executed w' run raised joined =>
      simp only [SystemState.phase?] at h
      split at h
      · rename_i lease run' lost hphase
        split at h
        · cases h
          exact absurd rfl hnext
        · rename_i hkept
          cases h
          obtain ⟨rfl, rfl⟩ : lost = false ∧ joined = true := by simpa using hkept
          exact .executed hphase
      · cases h

theorem phase_next_cases (hbusy : s.phase w ≠ .idle)
    (hnext : ((systemMachine q workers).next s l).phase w ≠ .idle) :
    ((systemMachine q workers).next s l).phase w = s.phase w ∨
      PhaseStep q workers s w l (((systemMachine q workers).next s l).phase w) := by
  cases hmove : s.phase? q workers l with
  | none =>
      left
      simp [systemMachine, hmove]
  | some move =>
      obtain ⟨w', phase⟩ := move
      have hupdate : ((systemMachine q workers).next s l).phase =
          Function.update s.phase w' phase := by simp [systemMachine, hmove]
      rw [hupdate] at hnext ⊢
      by_cases hw : w = w'
      · subst hw
        rw [Function.update_self] at hnext ⊢
        exact Or.inr (phaseStep_of_phase? hbusy hmove hnext)
      · rw [Function.update_of_ne hw]
        exact Or.inl rfl

/-! ## The row of the job -/

/-- Worker `w` works under a lease on the row `r`, which does not run out before `bound`, and
nobody else has its token. -/
structure KeptLease (workers : ℕ → RunJobWorker) (w : ℕ) (token : Uuid) (bound : Instant)
    (s : SystemState) (lease : RunJobLease) (r : RunJobRow) : Prop where
  phase : (s.phase w).lease? = some lease
  notLost : ∀ run, s.phase w ≠ .executing lease run true
  run : ∀ run raised, s.phase w = .concluding lease run raised → Uuid.parse run.runId = some r.runId
  row : r ∈ s.queue.db.jobs.rows
  job : lease.jobId = r.id.str
  runId : lease.runId = r.runId.str
  text : lease.leaseToken = token.str
  leased : r.state = .leased
  owner : r.leaseOwner = some (workers w).workerId
  rowToken : r.leaseToken = some token
  expires : ∃ e, r.leaseExpiresAt = some e ∧ bound ≤ e
  others : ∀ w' ≠ w, ∀ lease' ∈ (s.phase w').lease?, Uuid.parse lease'.leaseToken ≠ some token

namespace KeptLease

variable {token : Uuid} {bound : Instant} {lease : RunJobLease} {r : RunJobRow}

theorem parse (h : KeptLease workers w token bound s lease r) :
    Uuid.parse lease.jobId = some r.id ∧ Uuid.parse lease.leaseToken = some token := by
  rw [h.job, h.text, Uuid.parse_str, Uuid.parse_str]
  exact ⟨rfl, rfl⟩

/-- Before `bound` the row is held. -/
theorem heldBy (h : KeptLease workers w token bound s lease r) {now : Instant} (hnow : now < bound) :
    r.heldBy r.id (workers w).workerId token now = true := by
  obtain ⟨e, he, hbound⟩ := h.expires
  have hlt : now < e := hnow.trans_le hbound
  simp [RunJobRow.heldBy, h.leased, h.owner, h.rowToken, he, hlt]

theorem not_expired (h : KeptLease workers w token bound s lease r) {now : Instant}
    (hnow : now < bound) : r.leaseExpired now = false := by
  obtain ⟨e, he, hbound⟩ := h.expires
  have hlt : ¬ e ≤ now := not_le.mpr (hnow.trans_le hbound)
  simp [RunJobRow.leaseExpired, he, hlt]

theorem holdsLease (h : KeptLease workers w token bound s lease r) {now : Instant}
    (hnow : now < bound) : s.queue.db.HoldsLease lease (workers w).workerId now := by
  obtain ⟨e, he, hbound⟩ := h.expires
  exact ⟨r, h.row, h.parse.1, h.leased, h.owner, h.rowToken.trans h.parse.2.symm, e, he,
    hnow.trans_le hbound⟩

/-- A heartbeat under the lease is active. -/
theorem heartbeat_active (h : KeptLease workers w token bound s lease r) {now : Datetime}
    (hnow : now.instant < bound) :
    ∃ db', PostgresRunJobQueue.heartbeat s.queue.db lease (workers w).workerId (workers w).leaseSeconds
        now = .ok (true, db') ∧
      r.extend (now.instant + seconds (workers w).leaseSeconds) ∈ db'.jobs.rows := by
  have hactive : activeLeaseConditions lease (workers w).workerId now.instant =
      .ok fun r' => r'.heldBy r.id (workers w).workerId token now.instant := by
    simp only [activeLeaseConditions, bind_eq_ok, parseUuid_eq_ok]
    exact ⟨r.id, h.parse.1, token, h.parse.2, rfl⟩
  have hcount := Table.countP_eq_one_iff (t := s.queue.db.jobs) (k := r.id)
    (p := fun r' => r'.heldBy r.id (workers w).workerId token now.instant)
    fun r' hr' => RunJobRow.id_of_heldBy hr'
  have hone := hcount.mpr ⟨r, h.row, h.heldBy hnow⟩
  have hworker : validateAlias (workers w).workerId "run-job-worker-id-invalid" = .ok () :=
    if_pos (workers w).workerId_valid
  have hseconds : validateLeaseSeconds (workers w).leaseSeconds = .ok () :=
    if_pos (workers w).leaseSeconds_valid
  refine ⟨_, bind_eq_ok.mpr ⟨_, hworker, bind_eq_ok.mpr ⟨_, hseconds,
    bind_eq_ok.mpr ⟨_, hactive, by rw [hone]; rfl⟩⟩⟩, ?_⟩
  rw [RunDb.rows_updateJobs, List.mem_map]
  exact ⟨r, h.row, if_pos (h.heldBy hnow)⟩

theorem busy (h : KeptLease workers w token bound s lease r) : s.phase w ≠ .idle := by
  intro hidle
  have hphase := h.phase
  rw [hidle] at hphase
  cases hphase

theorem heartbeat_succeeds (h : KeptLease workers w token bound s lease r) {now : Datetime}
    (hnow : now.instant < bound) :
    QueueOp.succeeds q (.heartbeat lease (workers w).workerId (workers w).leaseSeconds now)
      s.queue.db = true := by
  obtain ⟨db', hactive, -⟩ := h.heartbeat_active hnow
  simp [QueueOp.succeeds, QueueOp.run, hactive, Except.map]

/-- The worker keeps its lease, and the run under it. -/
theorem phase_next (h : KeptLease workers w token bound s lease r)
    (hbeat : ∀ now, l = .heartbeat w now → now.instant < bound) (hreturns : ReturnsRun w s l)
    (hnext : ((systemMachine q workers).next s l).phase w ≠ .idle) :
    (((systemMachine q workers).next s l).phase w).lease? = some lease ∧
      (∀ run, ((systemMachine q workers).next s l).phase w ≠ .executing lease run true) ∧
      ∀ run raised, ((systemMachine q workers).next s l).phase w = .concluding lease run raised →
        Uuid.parse run.runId = some r.runId := by
  rcases phase_next_cases h.busy hnext with heq | hstep
  · rw [heq]
    exact ⟨h.phase, h.notLost, h.run⟩
  · have hphase := h.phase
    generalize ((systemMachine q workers).next s l).phase w = phase at hstep
    cases hstep with
    | load hclaimed | missing hclaimed =>
        rw [hclaimed] at hphase
        exact ⟨hphase, by simp, by simp⟩
    | heartbeat hexecuting =>
        rw [hexecuting] at hphase
        cases hphase
        rw [h.heartbeat_succeeds (hbeat _ rfl)]
        exact ⟨rfl, by simp, by simp⟩
    | executed hexecuting =>
        obtain ⟨-, hrun⟩ := hreturns rfl
        rw [hexecuting] at hphase
        cases hphase
        refine ⟨rfl, by simp, fun run'' raised'' hconcluding => ?_⟩
        cases hconcluding
        rw [hrun lease (by rw [hexecuting]; rfl), h.runId, Uuid.parse_str]

/-- The other workers keep away from the token: a fresh one is another. -/
theorem others_next (h : KeptLease workers w token bound s lease r) (hinv : SystemInv q s)
    (hen : (systemMachine q workers).enabled s l) :
    ∀ w' ≠ w, ∀ lease' ∈ (((systemMachine q workers).next s l).phase w').lease?,
      Uuid.parse lease'.leaseToken ≠ some token := by
  intro w' hw lease' hlease hparse
  rcases lease_next hen hlease with hbefore | hfresh
  · exact h.others w' hw lease' hbefore hparse
  · have hissued := (systemInv_next hen hinv).leases w' lease' hlease
    obtain ⟨-, token', htoken'⟩ := (systemInv_next hen hinv).queue.canonical lease' hissued
    rw [htoken', Uuid.parse_str, Option.some.injEq] at hparse
    rw [htoken', hparse, ← h.text] at hfresh
    exact hfresh (List.mem_map_of_mem (hinv.leases w lease h.phase))

/-- A step that is not of the worker leaves the row. -/
theorem row_of_others (h : KeptLease workers w token bound s lease r)
    (hclock : ∀ reading ∈ l.clock?, reading < bound)
    (hlate : ∀ w' lease' now, l = .lateHeartbeat w' lease' now →
      Uuid.parse lease'.leaseToken ≠ some token)
    (hother : l.worker? = some w → ∃ w' lease' now, l = .lateHeartbeat w' lease' now) :
    r ∈ ((systemMachine q workers).next s l).queue.db.jobs.rows := by
  cases hworker : l.worker? with
  | none =>
      cases l with
      | submit run now newId createdAt =>
          rw [db_next]
          simp only [SystemState.call?]
          cases hrun : (QueueOp.saveQueuedRun run now newId createdAt).run q s.queue.db with
          | error e => exact h.row
          | ok out =>
              obtain ⟨reply, db'⟩ := out
              obtain ⟨jobId, hsave, -⟩ := map_eq_ok hrun
              rcases (PostgresRunRepository.saveQueuedRun_spec hsave).2.2 with
                rfl | ⟨_, row, -, -, -, -, -, -, -, -, -, -, hrows⟩
              · exact h.row
              · rw [hrows]
                exact List.mem_append_left _ h.row
      | claim | load | failMissing | heartbeat | lateHeartbeat | executed | conclude | crash =>
          cases hworker
  | some w' =>
      refine keepsHeldJobs s l hworker r h.row h.leased
        (fun now hnow => h.not_expired (hclock now hnow)) ?_
      rw [h.rowToken]
      by_cases hlateStep : ∃ w' lease' now, l = .lateHeartbeat w' lease' now
      · obtain ⟨w'', lease', now, rfl⟩ := hlateStep
        exact fun heq => hlate w'' lease' now rfl heq.symm
      · have hw : w' ≠ w := by
          rintro rfl
          exact hlateStep (hother hworker)
        have hlease : s.lease? l = (s.phase w').lease? := by
          unfold SystemState.lease?
          split
          · exact absurd ⟨_, _, _, rfl⟩ hlateStep
          · rw [hworker]
            rfl
        rw [hlease]
        intro heq
        obtain ⟨lease', hlease', hparse⟩ := Option.bind_eq_some_iff.mp heq.symm
        exact h.others w' hw lease' hlease' hparse

/-- The transaction of a step of the worker that keeps it busy is a heartbeat. -/
theorem beats_of_call? (h : KeptLease workers w token bound s lease r) (hinv : SystemInv q s)
    (hworker : l.worker? = some w) (hlate : ∀ w' lease' now, l ≠ .lateHeartbeat w' lease' now)
    (hnext : ((systemMachine q workers).next s l).phase w ≠ .idle) {op : QueueOp}
    (hcall : s.call? workers l = some op) : s.Beats workers w l := by
  cases l with
  | submit => cases hworker
  | load | executed | crash => cases hcall
  | lateHeartbeat w' lease' now => exact absurd rfl (hlate w' lease' now)
  | heartbeat w' now =>
      cases hworker
      exact ⟨⟨now, rfl⟩, by rw [hcall]; rfl⟩
  | claim w' now token' locked =>
      cases hworker
      simp only [SystemState.call?] at hcall
      split at hcall
      · rename_i hidle
        exact absurd hidle h.busy
      · cases hcall
  | failMissing w' now =>
      cases hworker
      simp only [SystemState.call?] at hcall
      split at hcall
      · rename_i lease' hphase
        exact absurd hphase (hinv.found w lease')
      · cases hcall
  | conclude w' now endedAt =>
      cases hworker
      simp only [SystemState.call?] at hcall
      split at hcall
      · rename_i hphase
        exact absurd (by simp [systemMachine, SystemState.phase?, hphase]) hnext
      · cases hcall

/-- A step that is not a heartbeat of the worker leaves the row. -/
theorem row_next (h : KeptLease workers w token bound s lease r) (hinv : SystemInv q s)
    (hclock : ∀ reading ∈ l.clock?, reading < bound)
    (hlate : ∀ w' lease' now, l = .lateHeartbeat w' lease' now →
      Uuid.parse lease'.leaseToken ≠ some token)
    (hnext : ((systemMachine q workers).next s l).phase w ≠ .idle)
    (hnot : ¬ s.Beats workers w l) :
    r ∈ ((systemMachine q workers).next s l).queue.db.jobs.rows := by
  by_cases hother : l.worker? = some w → ∃ w' lease' now, l = .lateHeartbeat w' lease' now
  · exact h.row_of_others hclock hlate hother
  · push Not at hother
    obtain ⟨hworker, hown⟩ := hother
    rw [db_next]
    cases hcall : s.call? workers l with
    | none => exact h.row
    | some op => exact absurd (h.beats_of_call? hinv hworker hown hnext hcall) hnot

/-- A heartbeat of the worker extends its lease. -/
theorem extend_next (h : KeptLease workers w token bound s lease r) {now : Datetime}
    (hnow : now.instant < bound) (hcall : (s.call? workers (.heartbeat w now)).isSome) :
    r.extend (now.instant + seconds (workers w).leaseSeconds) ∈
      ((systemMachine q workers).next s (.heartbeat w now)).queue.db.jobs.rows := by
  obtain ⟨db', hactive, hrow⟩ := h.heartbeat_active hnow
  rw [db_next]
  simp only [SystemState.call?] at hcall ⊢
  split at hcall
  · rename_i lease' run hphase
    have hlease := h.phase
    rw [hphase] at hlease
    cases hlease
    simpa [hphase, QueueOp.run, hactive, Except.map] using hrow
  · cases hcall

/-- A step before the lease runs out keeps it, and a heartbeat moves its end on. -/
theorem next (h : KeptLease workers w token bound s lease r) (hinv : SystemInv q s)
    (hen : (systemMachine q workers).enabled s l)
    (hclock : ∀ reading ∈ l.clock?, reading < bound)
    (hlate : ∀ w' lease' now, l = .lateHeartbeat w' lease' now →
      Uuid.parse lease'.leaseToken ≠ some token)
    (hreturns : ReturnsRun w s l)
    (hnext : ((systemMachine q workers).next s l).phase w ≠ .idle) :
    ∃ bound' r', KeptLease workers w token bound' ((systemMachine q workers).next s l) lease r' ∧
      if s.Beats workers w l then
        ∃ reading ∈ l.clock?, bound' = reading + seconds (workers w).leaseSeconds
      else bound' = bound := by
  have hbeat : ∀ now, l = .heartbeat w now → now.instant < bound := by
    rintro now rfl
    exact hclock _ rfl
  obtain ⟨hphase, hnotLost, hrun⟩ := h.phase_next hbeat hreturns hnext
  have hothers := h.others_next hinv hen
  by_cases hbeats : s.Beats workers w l
  · obtain ⟨⟨now, rfl⟩, hcall⟩ := hbeats
    refine ⟨_, r.extend (now.instant + seconds (workers w).leaseSeconds),
      { h with
        phase := hphase
        notLost := hnotLost
        run := hrun
        row := h.extend_next (hbeat now rfl) hcall
        expires := ⟨_, rfl, le_refl _⟩
        others := hothers }, ?_⟩
    rw [if_pos ⟨⟨now, rfl⟩, hcall⟩]
    exact ⟨_, rfl, rfl⟩
  · refine ⟨bound, r,
      { h with
        phase := hphase
        notLost := hnotLost
        run := hrun
        row := h.row_next hinv hclock hlate hnext hbeats
        others := hothers }, ?_⟩
    rw [if_neg hbeats]

/-! ## The last transaction -/

theorem applied_fail (h : KeptLease workers w token bound s lease r) {now : Datetime}
    (hnow : now.instant < bound) {failureAlias : String} {retryable : Bool} {delay : ℤ} {b : Bool}
    {db' : RunDb} (hfail : q.fail s.queue.db lease (workers w).workerId failureAlias retryable delay
      now = .ok (b, db')) : b = true := by
  simp only [PostgresRunJobQueue.fail, bind_eq_ok] at hfail
  obtain ⟨_, _, _, _, hfail⟩ := hfail
  split at hfail
  · simp only [bind_eq_ok] at hfail
    obtain ⟨active, hactive, hfail⟩ := hfail
    obtain ⟨jobId, token', hjob, htoken, rfl⟩ := activeLeaseConditions_eq_ok hactive
    rw [h.parse.1] at hjob
    rw [h.parse.2] at htoken
    cases hjob
    cases htoken
    split at hfail
    · rename_i hnone
      exact absurd (h.heldBy hnow) (List.find?_eq_none.mp hnone r h.row)
    · cases hfail
      rfl
  · cases hfail

theorem applied_commitLeasedResult (h : KeptLease workers w token bound s lease r)
    {now : Datetime} (hnow : now.instant < bound) {run : StoredRun} {b : Bool} {db' : RunDb}
    (hrun : Uuid.parse run.runId = some r.runId)
    (hcommit : PostgresRunRepository.commitLeasedResult s.queue.db run lease (workers w).workerId
      now = .ok (b, db')) : b = true := by
  have hleaseRun : Uuid.parse lease.runId = some r.runId := by rw [h.runId, Uuid.parse_str]
  simp only [PostgresRunRepository.commitLeasedResult, hrun, hleaseRun, h.parse] at hcommit
  split at hcommit
  · cases hcommit
  · split at hcommit
    · contradiction
    · split at hcommit
      · rename_i hnone
        have hheld := List.find?_eq_none.mp hnone r h.row
        simp [h.heldBy hnow] at hheld
      · simp only [bind_eq_ok] at hcommit
        obtain ⟨saved, -, hcommit⟩ := hcommit
        cases hcommit
        rfl

theorem applied_recordFailure (h : KeptLease workers w token bound s lease r)
    {now endedAt : Datetime} (hnow : now.instant < bound) {run : StoredRun} {failureAlias : String}
    {b : Bool} (hrun : Uuid.parse run.runId = some r.runId)
    (happlied : ((workers w).recordFailure run lease failureAlias now endedAt).applied? q
      s.queue.db = some b) : b = true := by
  unfold RunJobWorker.recordFailure QueueOp.applied? at happlied
  split at happlied
  · rename_i db' hop
    cases happlied
    split at hop
    · obtain ⟨b', hcommit, hb⟩ := map_eq_ok hop
      cases hb
      exact h.applied_commitLeasedResult hnow (by exact hrun) hcommit
    · obtain ⟨b', hfail, hb⟩ := map_eq_ok hop
      cases hb
      exact h.applied_fail hnow hfail
  · cases happlied

theorem applied_conclude (h : KeptLease workers w token bound s lease r)
    {now endedAt : Datetime} (hnow : now.instant < bound) {run : StoredRun} {raised b : Bool}
    (hrun : Uuid.parse run.runId = some r.runId)
    (happlied : ((workers w).conclude run lease raised now endedAt).applied? q s.queue.db =
      some b) : b = true := by
  unfold RunJobWorker.conclude at happlied
  split at happlied
  · exact h.applied_recordFailure hnow hrun happlied
  · split at happlied
    · unfold QueueOp.applied? at happlied
      split at happlied
      · rename_i db' hop
        cases happlied
        obtain ⟨b', hcommit, hb⟩ := map_eq_ok hop
        cases hb
        exact h.applied_commitLeasedResult hnow hrun hcommit
      · cases happlied
    · exact h.applied_recordFailure hnow hrun happlied

/-- A step that returns does not report the lease as lost. -/
theorem result_ne_leaseLost (h : KeptLease workers w token bound s lease r) (hinv : SystemInv q s)
    (hclock : ∀ reading ∈ l.clock?, reading < bound) (hreturns : ReturnsRun w s l)
    {result : RunWorkerResult} (hresult : s.result? q workers l = some (w, result)) :
    result.outcome ≠ .leaseLost := by
  cases l with
  | submit | load | heartbeat | lateHeartbeat | crash => cases hresult
  | claim w' now token' locked =>
      simp only [SystemState.result?] at hresult
      split at hresult
      · split at hresult
        · cases hresult
          simp
        · cases hresult
      · cases hresult
  | failMissing w' now =>
      simp only [SystemState.result?] at hresult
      split at hresult
      · rename_i lease' hphase
        exact absurd hphase (hinv.found w' lease')
      · cases hresult
  | executed w' run raised joined =>
      simp only [SystemState.result?] at hresult
      split at hresult
      · rename_i lease' run' lost hphase
        split at hresult
        · rename_i hlost
          cases hresult
          obtain ⟨rfl, -⟩ := hreturns rfl
          obtain rfl : lost = true := by simpa using hlost
          have hlease := h.phase
          rw [hphase] at hlease
          cases hlease
          exact absurd hphase (h.notLost run')
        · cases hresult
      · cases hresult
  | conclude w' now endedAt =>
      simp only [SystemState.result?] at hresult
      split at hresult
      · rename_i lease' run raised hphase
        obtain ⟨applied, happlied, hpair⟩ := Option.map_eq_some_iff.mp hresult
        cases hpair
        have hlease := h.phase
        rw [hphase] at hlease
        cases hlease
        obtain rfl := h.applied_conclude (hclock _ rfl) (h.run run raised hphase) happlied
        simp only [RunJobLease.result, RunJobWorker.concludeOutcome,
          RunJobWorker.recordFailureOutcome, if_true]
        grind
      · cases hresult

end KeptLease

/-! ## The lease of a claim -/

/-- A claim starts out with a kept lease, if it hands one out. -/
theorem keptLease_of_claim (hinv : SystemInv q s) {now : Datetime} {token : Uuid}
    {locked : List Uuid} (hidle : s.phase w = .idle)
    (hen : (systemMachine q workers).enabled s (.claim w now token locked))
    (hnext : ((systemMachine q workers).next s (.claim w now token locked)).phase w ≠ .idle) :
    ∃ lease r, KeptLease workers w token (now.instant + seconds (workers w).leaseSeconds)
      ((systemMachine q workers).next s (.claim w now token locked)) lease r := by
  have hcall : s.call? workers (.claim w now token locked) =
      some (.claim (workers w).workerId (workers w).leaseSeconds now token locked) := by
    simp [SystemState.call?, hidle]
  cases hclaim : q.claim s.queue.db (workers w).workerId (workers w).leaseSeconds now token
      locked with
  | error e =>
      exact absurd (by simp [systemMachine, SystemState.phase?, hcall, QueueOp.handsOut, QueueOp.run,
        hclaim, Except.map]) hnext
  | ok out =>
      obtain ⟨res, db'⟩ := out
      have hout : QueueOp.handsOut q s.queue.db
          (.claim (workers w).workerId (workers w).leaseSeconds now token locked) = res := by
        simp [QueueOp.handsOut, QueueOp.run, hclaim, Except.map, QueueReply.lease?]
      obtain ⟨-, ⟨rfl, -⟩ | ⟨row, hrow, -, hres, hrows⟩⟩ := PostgresRunJobQueue.claim_spec hclaim
      · exact absurd (by simp [systemMachine, SystemState.phase?, hcall, hout]) hnext
      · obtain ⟨lease, rfl⟩ : ∃ lease, res = some lease := ⟨_, hres⟩
        have hlease := Option.some.inj hres
        have hphase : ((systemMachine q workers).next s (.claim w now token locked)).phase =
            Function.update s.phase w (.claimed lease) := by
          simp only [systemMachine, SystemState.phase?, hcall, hout]
        have hdb : ((systemMachine q workers).next s (.claim w now token locked)).queue.db = db' := by
          rw [db_next]
          simp [hcall, QueueOp.run, hclaim, Except.map]
        refine ⟨lease, row.lease (workers w).workerId token
          (now.instant + seconds (workers w).leaseSeconds),
          { phase := by rw [hphase, Function.update_self]; rfl
            notLost := by simp [hphase]
            run := by simp [hphase]
            row := ?_
            job := by rw [hlease]; rfl
            runId := by rw [hlease]; rfl
            text := by rw [hlease]
            leased := rfl
            owner := rfl
            rowToken := rfl
            expires := ⟨_, rfl, le_refl _⟩
            others := ?_ }⟩
        · rw [hdb, hrows, List.mem_map]
          exact ⟨row, hrow, if_pos rfl⟩
        · intro w' hw lease' hmem hparse
          rw [hphase, Function.update_of_ne hw] at hmem
          -- A lease that another worker has was handed out before, under another token.
          have hissued := hinv.leases w' lease' hmem
          obtain ⟨-, token', htoken'⟩ := hinv.queue.canonical lease' hissued
          rw [htoken', Uuid.parse_str, Option.some.injEq] at hparse
          refine hen _ hcall lease hout ?_
          have hsame : lease.leaseToken = lease'.leaseToken := by rw [hlease, htoken', hparse]
          rw [hsame]
          exact List.mem_map_of_mem hissued

/-! ## The run of an invocation -/

/-- The lease of worker `w` is held on the clock of the step. -/
def LeaseHeld (workers : ℕ → RunJobWorker) (w : ℕ) (s : SystemState) (l : SystemStep) : Prop :=
  ∀ lease ∈ (s.phase w).lease?, ∀ reading ∈ l.clock?,
    s.queue.db.HoldsLease lease (workers w).workerId reading

section Timely

variable {token : Uuid} {skew gap : ℤ} {last bound : Instant} {t : TimedStep} {ts : List TimedStep}

theorem Timely.tail (h : Timely q workers w token skew gap s last (t :: ts)) :
    Timely q workers w token skew gap ((systemMachine q workers).next s t.step)
      (if s.Beats workers w t.step then t.time else last) ts where
  clocks u hu := h.clocks u (List.mem_cons_of_mem t hu)
  beats := h.beats.2
  late u hu := h.late u (List.mem_cons_of_mem t hu)
  returns := h.returns.2

/-- No clock has passed the end of the lease. -/
theorem Timely.clock_lt (h : Timely q workers w token skew gap s last (t :: ts))
    (hgap : gap + 2 * skew < seconds (workers w).leaseSeconds)
    (hbound : last + seconds (workers w).leaseSeconds - skew ≤ bound) :
    ∀ reading ∈ t.step.clock?, reading < bound := by
  intro reading hreading
  have hclock := (abs_le.mp (h.clocks t List.mem_cons_self reading hreading)).2
  have hbeat := h.beats.1
  linarith

end Timely

/-- Timely heartbeats keep a lease that outlives the next of them. -/
theorem KeptLease.run_kept {token : Uuid} {skew gap : ℤ}
    (hgap : gap + 2 * skew < seconds (workers w).leaseSeconds) {result : RunWorkerResult}
    {ks : List SystemStep} {ts : List TimedStep} {s : SystemState} {last bound : Instant}
    {lease : RunJobLease} {r : RunJobRow} (h : KeptLease workers w token bound s lease r)
    (hbound : last + seconds (workers w).leaseSeconds - skew ≤ bound) (hinv : SystemInv q s)
    (hsteps : ts.map TimedStep.step = ks ++ [l])
    (hlegal : (systemMachine q workers).Legal s (ks ++ [l]))
    (htimely : Timely q workers w token skew gap s last ts)
    (hbusy : (systemMachine q workers).Along
      (fun s l => ((systemMachine q workers).next s l).phase w ≠ .idle) s ks)
    (hresult : ((systemMachine q workers).exec s ks).result? q workers l = some (w, result)) :
    result.outcome ≠ .leaseLost ∧
      (systemMachine q workers).Along (LeaseHeld workers w) s (ks ++ [l]) := by
  induction ks generalizing ts s last bound r with
  | nil =>
      obtain ⟨t, rfl, rfl⟩ := List.map_eq_singleton_iff.mp hsteps
      have hclock := htimely.clock_lt hgap hbound
      refine ⟨h.result_ne_leaseLost hinv hclock htimely.returns.1 hresult, ?_, Machine.along_nil⟩
      intro lease' hlease' reading hreading
      rw [h.phase] at hlease'
      cases hlease'
      exact h.holdsLease (hclock reading hreading)
  | cons k ks ih =>
      obtain ⟨t, ts, rfl, rfl, hrest⟩ := List.map_eq_cons_iff.mp hsteps
      have hclock := htimely.clock_lt hgap hbound
      obtain ⟨bound', r', hkept, hbound'⟩ := h.next hinv hlegal.1 hclock
        (htimely.late t List.mem_cons_self) htimely.returns.1 hbusy.1
      have hmoved : (if s.Beats workers w t.step then t.time else last) +
          seconds (workers w).leaseSeconds - skew ≤ bound' := by
        by_cases hbeats : s.Beats workers w t.step
        · rw [if_pos hbeats] at hbound' ⊢
          obtain ⟨reading, hreading, rfl⟩ := hbound'
          have hread := (abs_le.mp (htimely.clocks t List.mem_cons_self reading hreading)).1
          linarith
        · rw [if_neg hbeats] at hbound' ⊢
          rwa [hbound']
      obtain ⟨hne, hheld⟩ := ih hkept hmoved (systemInv_next hlegal.1 hinv) hrest hlegal.2
        htimely.tail hbusy.2 hresult
      refine ⟨hne, ?_, hheld⟩
      intro lease' hlease' reading hreading
      rw [h.phase] at hlease'
      cases hlease'
      exact h.holdsLease (hclock reading hreading)

/-- A worker whose heartbeats are in time holds its lease, on every clock that a step reads, from
the claim to the step that returns, and does not report it as lost. The steps are those of a worker
that joins its heartbeat thread before it commits, and whose executor keeps the id of the run. -/
theorem timely_lease_kept (hs : (systemMachine q workers).Reachable s) {ks : List SystemStep}
    {result : RunWorkerResult} (hlegal : (systemMachine q workers).Legal s (ks ++ [l]))
    (h : RunOne q workers s w ks l result) {token : Uuid} {skew gap : ℤ} {now : Datetime}
    {locked : List Uuid} {claimedAt : Instant} {ts : List TimedStep}
    (hsteps : ks ++ [l] = .claim w now token locked :: ts.map TimedStep.step)
    (hclock : |now.instant - claimedAt| ≤ skew)
    (hgap : gap + 2 * skew < seconds (workers w).leaseSeconds)
    (htimely : Timely q workers w token skew gap
      ((systemMachine q workers).next s (.claim w now token locked)) claimedAt ts) :
    result.outcome ≠ .leaseLost ∧
      (systemMachine q workers).Along (LeaseHeld workers w) s (ks ++ [l]) := by
  have hinv : SystemInv q s :=
    hs.invariant (fun s h₀ => (systemInv_init h₀).1) fun s l hen => systemInv_next hen
  have hhead : ∀ l, LeaseHeld workers w s l := by
    intro l lease hlease
    rw [h.idle] at hlease
    cases hlease
  cases ks with
  | nil =>
      obtain ⟨rfl, -⟩ := List.cons.inj hsteps
      refine ⟨?_, hhead _, Machine.along_nil⟩
      have hresult := h.returns
      simp only [Machine.exec_nil, SystemState.result?] at hresult
      split at hresult
      · split at hresult
        · cases hresult
          simp
        · cases hresult
      · cases hresult
  | cons k ks =>
      obtain ⟨rfl, hrest⟩ := List.cons.inj hsteps
      obtain ⟨lease, r, hkept⟩ := keptLease_of_claim hinv h.idle hlegal.1 h.busy.1
      have hbound : claimedAt + seconds (workers w).leaseSeconds - skew ≤
          now.instant + seconds (workers w).leaseSeconds := by
        have := (abs_le.mp hclock).1
        linarith
      obtain ⟨hne, hheld⟩ := hkept.run_kept hgap hbound (systemInv_next hlegal.1 hinv) hrest.symm
        hlegal.2 htimely h.busy.2 h.returns
      exact ⟨hne, hhead _, hheld⟩

end System

/-- An execution that goes on after the time for which its job was claimed. The clock of the other
worker, which asks for a job then, is a second ahead. -/
def longExecution : List TimedStep :=
  [⟨0, .load 0⟩, ⟨seconds 20, .heartbeat 0 (.utc (seconds 20))⟩,
    ⟨seconds 40, .heartbeat 0 (.utc (seconds 40))⟩,
    ⟨seconds 65, .claim 1 (.utc (seconds 66)) (.ofNat 4) []⟩,
    ⟨seconds 70, .executed 0
      { submittedRun with status := .completed, endedAt := some (.utc (seconds 70)) } false true⟩,
    ⟨seconds 70, .conclude 0 (.utc (seconds 70)) (.utc (seconds 70))⟩]

theorem timely_lease_kept_longExecution :
    let M := systemMachine ⟨1, by decide⟩ equalWorkers
    M.Along (LeaseHeld equalWorkers 0)
      (M.exec .start [.submit submittedRun (.utc 0) (.ofNat 2) 0])
      (.claim 0 (.utc 0) (.ofNat 3) [] :: longExecution.map TimedStep.step) := by
  intro M
  have hinit : M.init .start := ⟨⟨rfl, rfl⟩, fun _ => rfl⟩
  have hs : M.Reachable (M.exec .start [.submit submittedRun (.utc 0) (.ofNat 2) 0]) :=
    (Machine.Reachable.of_init hinit).run (by decide +kernel)
  have h : RunOne ⟨1, by decide⟩ equalWorkers
      (M.exec .start [.submit submittedRun (.utc 0) (.ofNat 2) 0]) 0
      (.claim 0 (.utc 0) (.ofNat 3) [] :: (longExecution.take 5).map TimedStep.step)
      (.conclude 0 (.utc (seconds 70)) (.utc (seconds 70)))
      { outcome := .completed, jobId := some (Uuid.ofNat 2).str,
        runId := some (Uuid.ofNat 1).str, attempt := some 1 } :=
    ⟨by decide +kernel, ⟨_, _, _, rfl⟩, by decide +kernel, by decide +kernel⟩
  have htimely : Timely ⟨1, by decide⟩ equalWorkers 0 (.ofNat 3) (seconds 1) (seconds 30)
      (M.next (M.exec .start [.submit submittedRun (.utc 0) (.ofNat 2) 0])
        (.claim 0 (.utc 0) (.ofNat 3) [])) 0 longExecution :=
    ⟨by decide +kernel, by decide +kernel, by simp [longExecution], by decide +kernel⟩
  have hclock : |(Datetime.utc 0).instant - 0| ≤ seconds 1 := by decide
  exact (timely_lease_kept hs (by decide +kernel) h rfl hclock (by decide) htimely).2

end VoxBench.ControlPlane
