import VoxBench.ControlPlane.WorkerOutcome

/-!
# The worker thread of a process

`RunWorkerSupervisor` keeps one thread that calls `run_one` over and over, counts what the calls
return, and waits after some of them. Any task of the process may start it, stop it, or read its
counters at any time. A step is what happens between two acquisitions of the lock, or one look at
the stop event.

## Main definitions

* `Supervisor`, `supervisorMachine` — the threads, the counters and the stops that are under way.
* `Supervisor.snapshot` — `RunWorkerTelemetry`.

## Main results

* `supervisor_accounts` — one thread at most is alive, and the counters are those of its calls.
* `supervisor_stops` — what a stop keeps the threads from doing, and what its return promises.
-/

namespace VoxBench.ControlPlane

open VoxBench.Lib

/-- How a call of `run_one` ends, by a result or by an `Exception`. -/
inductive CallEnd where
  | returned (result : RunWorkerResult)
  | raised
  deriving DecidableEq, Repr

namespace CallEnd

/-- Counted in `_processed_total`. -/
def processed : CallEnd → Bool
  | .returned result => result.outcome ≠ .idle
  | .raised => false

/-- Counted in `_error_total`. -/
def isError (e : CallEnd) : Bool := e = .raised

/-- Counted in `_lease_lost_total`. -/
def leaseLost : CallEnd → Bool
  | .returned result => result.outcome = .leaseLost
  | .raised => false

/-- Something to count, under the lock. -/
def counts (e : CallEnd) : Bool := e.processed || e.isError

/-- A wait comes before the next call. -/
def waits : CallEnd → Bool
  | .returned result => result.outcome = .idle ∨ result.outcome = .leaseLost
  | .raised => true

end CallEnd

/-- Where a thread stands in `_run`. -/
inductive ThreadPhase where
  | unborn
  /-- At the test of the loop. -/
  | checking
  /-- In `run_one`. -/
  | calling
  /-- Before the counters. -/
  | counting (callEnd : CallEnd)
  /-- In `_stop.wait`. -/
  | waiting
  | ended
  deriving DecidableEq, Repr

/-- `is_alive`. -/
def ThreadPhase.alive : ThreadPhase → Bool
  | .unborn | .ended => false
  | .checking | .calling | .counting _ | .waiting => true

/-- The phase after a call that is over, and counted. -/
def CallEnd.after (e : CallEnd) : ThreadPhase := if e.waits then .waiting else .checking

/-- Where a caller stands in `stop`. -/
inductive StopPhase where
  | idle
  /-- The event is set. -/
  | signalled
  /-- `_thread` was read. -/
  | joining (thread : ℕ)
  /-- The thread has ended. -/
  | closing (thread : ℕ)
  deriving DecidableEq, Repr

/-- A supervisor, with all threads that it ever had. -/
structure Supervisor where
  stop : Bool
  thread : Option ℕ
  processedTotal : ℕ
  errorTotal : ℕ
  leaseLostTotal : ℕ
  born : ℕ
  phase : ℕ → ThreadPhase
  stops : ℕ → StopPhase

/-- `RunWorkerTelemetry`. -/
structure RunWorkerTelemetry where
  running : Bool
  processedTotal : ℕ
  errorTotal : ℕ
  leaseLostTotal : ℕ
  deriving DecidableEq, Repr

namespace Supervisor

/-- `__init__`. -/
def fresh : Supervisor where
  stop := false
  thread := none
  processedTotal := 0
  errorTotal := 0
  leaseLostTotal := 0
  born := 0
  phase _ := .unborn
  stops _ := .idle

/-- `self._thread is not None and self._thread.is_alive()`. -/
def isRunning (s : Supervisor) : Bool :=
  match s.thread with
  | some t => (s.phase t).alive
  | none => false

def snapshot (s : Supervisor) : RunWorkerTelemetry :=
  ⟨s.isRunning, s.processedTotal, s.errorTotal, s.leaseLostTotal⟩

def setPhase (s : Supervisor) (t : ℕ) (phase : ThreadPhase) : Supervisor :=
  { s with phase := Function.update s.phase t phase }

def setStops (s : Supervisor) (c : ℕ) (stops : StopPhase) : Supervisor :=
  { s with stops := Function.update s.stops c stops }

@[simp] theorem phase_setPhase (s : Supervisor) (t : ℕ) (phase : ThreadPhase) :
    (s.setPhase t phase).phase = Function.update s.phase t phase := rfl

@[simp] theorem stops_setStops (s : Supervisor) (c : ℕ) (stops : StopPhase) :
    (s.setStops c stops).stops = Function.update s.stops c stops := rfl

/-- `start`, which reports by `isRunning` beforehand. -/
def start (s : Supervisor) : Supervisor :=
  if s.isRunning then s
  else
    { s with stop := false, thread := some s.born, born := s.born + 1 }.setPhase s.born .checking

/-- The counters after a call. -/
def count (s : Supervisor) (e : CallEnd) : Supervisor :=
  { s with
    processedTotal := s.processedTotal + if e.processed then 1 else 0
    errorTotal := s.errorTotal + if e.isError then 1 else 0
    leaseLostTotal := s.leaseLostTotal + if e.leaseLost then 1 else 0 }

end Supervisor

/-- A step of a caller `c` or of a thread `t`. -/
inductive SupervisorStep where
  | start
  | stopSet (c : ℕ)
  | stopRead (c : ℕ)
  /-- The end of `join`, with the thread or by the timeout. -/
  | stopJoin (c : ℕ)
  | stopClose (c : ℕ)
  | check (t : ℕ)
  /-- The end of `run_one`. Without an end the thread dies of an exception that it does not
  catch. -/
  | finish (t : ℕ) (callEnd : Option CallEnd)
  | count (t : ℕ)
  /-- The end of a wait, by the event or by the timeout. -/
  | wake (t : ℕ)
  deriving DecidableEq, Repr

namespace Supervisor

def step (s : Supervisor) : SupervisorStep → Supervisor
  | .start => s.start
  | .stopSet c => { s with stop := true }.setStops c .signalled
  | .stopRead c =>
      match s.thread with
      | none => s.setStops c .idle
      | some t => s.setStops c (.joining t)
  | .stopJoin c =>
      match s.stops c with
      | .joining t => s.setStops c (if (s.phase t).alive then .idle else .closing t)
      | _ => s
  | .stopClose c =>
      match s.stops c with
      | .closing t =>
          { s with thread := if s.thread = some t then none else s.thread }.setStops c .idle
      | _ => s
  | .check t => s.setPhase t (if s.stop then .ended else .calling)
  | .finish t none => s.setPhase t .ended
  | .finish t (some e) => s.setPhase t (if e.counts then .counting e else e.after)
  | .count t =>
      match s.phase t with
      | .counting e => (s.count e).setPhase t e.after
      | _ => s
  | .wake t => s.setPhase t (if s.stop then .ended else .checking)

/-- The point of the code that a step leaves. -/
def Ready (s : Supervisor) : SupervisorStep → Prop
  | .start => True
  | .stopSet c => s.stops c = .idle
  | .stopRead c => s.stops c = .signalled
  | .stopJoin c => ∃ t, s.stops c = .joining t
  | .stopClose c => ∃ t, s.stops c = .closing t
  | .check t => s.phase t = .checking
  | .finish t _ => s.phase t = .calling
  | .count t => ∃ e, s.phase t = .counting e
  | .wake t => s.phase t = .waiting

end Supervisor

def supervisorMachine : Machine Supervisor SupervisorStep where
  init s := s = .fresh
  enabled := Supervisor.Ready
  next := Supervisor.step

instance (s : Supervisor) (l : SupervisorStep) : Decidable (s.Ready l) :=
  match l with
  | .start => isTrue trivial
  | .stopSet c => inferInstanceAs (Decidable (s.stops c = .idle))
  | .stopRead c => inferInstanceAs (Decidable (s.stops c = .signalled))
  | .stopJoin c =>
      match h : s.stops c with
      | .joining t => isTrue ⟨t, h⟩
      | .idle | .signalled | .closing _ => isFalse fun ⟨_, ht⟩ => by rw [h] at ht; cases ht
  | .stopClose c =>
      match h : s.stops c with
      | .closing t => isTrue ⟨t, h⟩
      | .idle | .signalled | .joining _ => isFalse fun ⟨_, ht⟩ => by rw [h] at ht; cases ht
  | .check t => inferInstanceAs (Decidable (s.phase t = .checking))
  | .finish t _ => inferInstanceAs (Decidable (s.phase t = .calling))
  | .count t =>
      match h : s.phase t with
      | .counting e => isTrue ⟨e, h⟩
      | .unborn | .checking | .calling | .waiting | .ended =>
          isFalse fun ⟨_, ht⟩ => by rw [h] at ht; cases ht
  | .wake t => inferInstanceAs (Decidable (s.phase t = .waiting))

instance (s : Supervisor) (l : SupervisorStep) : Decidable (supervisorMachine.enabled s l) :=
  inferInstanceAs (Decidable (s.Ready l))

/-! ## One thread -/

namespace Supervisor

/-- The thread that is alive is the one that the supervisor holds. -/
structure Sound (s : Supervisor) : Prop where
  only : ∀ t, (s.phase t).alive = true → s.thread = some t
  held : ∀ t, s.thread = some t → t < s.born
  joined : ∀ c t, s.stops c = .joining t → t < s.born
  closed : ∀ c t, s.stops c = .closing t → t < s.born ∧ (s.phase t).alive = false

variable {s : Supervisor} {c t : ℕ}

theorem sound_fresh : fresh.Sound where
  only _ h := nomatch h
  held _ h := nomatch h
  joined _ _ h := nomatch h
  closed _ _ h := nomatch h

theorem isRunning_iff (h : s.Sound) : s.isRunning = true ↔ ∃ t, (s.phase t).alive = true := by
  unfold isRunning
  constructor
  · intro hrunning
    split at hrunning
    · exact ⟨_, hrunning⟩
    · cases hrunning
  · rintro ⟨t, ht⟩
    rw [h.only t ht]
    exact ht

/-- A living thread moves on. -/
theorem Sound.setPhase (h : s.Sound) (ht : (s.phase t).alive = true) (phase : ThreadPhase) :
    (s.setPhase t phase).Sound where
  only u hu := by
    by_cases hut : u = t
    · rw [hut]
      exact h.only t ht
    · rw [phase_setPhase, Function.update_of_ne hut] at hu
      exact h.only u hu
  held := h.held
  joined := h.joined
  closed d u hd := by
    obtain ⟨hborn, hdead⟩ := h.closed d u hd
    have hut : u ≠ t := by
      rintro rfl
      rw [hdead] at ht
      cases ht
    rw [phase_setPhase, Function.update_of_ne hut]
    exact ⟨hborn, hdead⟩

/-- A caller moves on. -/
theorem Sound.setStops (h : s.Sound) {stops : StopPhase}
    (hjoining : ∀ t, stops = .joining t → t < s.born)
    (hclosing : ∀ t, stops = .closing t → t < s.born ∧ (s.phase t).alive = false) :
    (s.setStops c stops).Sound where
  only := h.only
  held := h.held
  joined d u hd := by
    by_cases hdc : d = c
    · rw [hdc, stops_setStops, Function.update_self] at hd
      exact hjoining u hd
    · rw [stops_setStops, Function.update_of_ne hdc] at hd
      exact h.joined d u hd
  closed d u hd := by
    by_cases hdc : d = c
    · rw [hdc, stops_setStops, Function.update_self] at hd
      exact hclosing u hd
    · rw [stops_setStops, Function.update_of_ne hdc] at hd
      exact h.closed d u hd

theorem Sound.start (h : s.Sound) : s.start.Sound := by
  unfold Supervisor.start
  split_ifs with hrunning
  · exact h
  · have hdead : ∀ t, (s.phase t).alive = false := by
      intro t
      by_contra halive
      exact hrunning ((isRunning_iff h).mpr ⟨t, Bool.eq_true_of_not_eq_false halive⟩)
    constructor
    · intro t ht
      by_cases htb : t = s.born
      · rw [htb]
        rfl
      · rw [phase_setPhase, Function.update_of_ne htb, hdead t] at ht
        cases ht
    · rintro t ht
      obtain rfl := Option.some.inj ht
      exact Nat.lt_succ_self _
    · intro c t hc
      exact Nat.lt_succ_of_lt (h.joined c t hc)
    · intro c t hc
      obtain ⟨hborn, hended⟩ := h.closed c t hc
      rw [phase_setPhase, Function.update_of_ne hborn.ne]
      exact ⟨Nat.lt_succ_of_lt hborn, hended⟩

/-- Dropping a thread that has ended. -/
theorem Sound.drop (h : s.Sound) (hc : s.stops c = .closing t) :
    ({ s with thread := if s.thread = some t then none else s.thread } : Supervisor).Sound where
  only u hu := by
    have hthread := h.only u hu
    have hut : u ≠ t := by
      rintro rfl
      rw [(h.closed c u hc).2] at hu
      cases hu
    rw [if_neg (by rw [hthread]; exact fun heq => hut (Option.some.inj heq))]
    exact hthread
  held u hu := by
    refine h.held u ?_
    dsimp only at hu
    split_ifs at hu
    exact hu
  joined := h.joined
  closed := h.closed

theorem Sound.step {l : SupervisorStep} (h : s.Sound) (hl : s.Ready l) : (s.step l).Sound := by
  cases l with
  | start => exact h.start
  | stopSet c =>
      have hset : ({ s with stop := true } : Supervisor).Sound := ⟨h.only, h.held, h.joined, h.closed⟩
      exact hset.setStops nofun nofun
  | stopRead c =>
      simp only [Supervisor.step]
      split
      · exact h.setStops nofun nofun
      · rename_i t ht
        refine h.setStops ?_ nofun
        rintro u hu
        obtain rfl := StopPhase.joining.inj hu
        exact h.held t ht
  | stopJoin c =>
      obtain ⟨t, ht⟩ := hl
      simp only [Supervisor.step, ht]
      split_ifs with halive
      · exact h.setStops nofun nofun
      · refine h.setStops nofun ?_
        rintro u hu
        obtain rfl := StopPhase.closing.inj hu
        exact ⟨h.joined c t ht, Bool.eq_false_of_not_eq_true halive⟩
  | stopClose c =>
      obtain ⟨t, ht⟩ := hl
      simp only [Supervisor.step, ht]
      exact (h.drop ht).setStops nofun nofun
  | check t => exact h.setPhase (by rw [show s.phase t = .checking from hl]; rfl) _
  | finish t callEnd =>
      have halive : (s.phase t).alive = true := by
        rw [show s.phase t = .calling from hl]
        rfl
      cases callEnd with
      | none => exact h.setPhase halive _
      | some e => exact h.setPhase halive _
  | count t =>
      obtain ⟨e, he⟩ := hl
      simp only [Supervisor.step, he]
      have hcount : (s.count e).Sound := ⟨h.only, h.held, h.joined, h.closed⟩
      refine hcount.setPhase ?_ _
      change (s.phase t).alive = true
      rw [he]
      rfl
  | wake t => exact h.setPhase (by rw [show s.phase t = .waiting from hl]; rfl) _

/-! ## The counters -/

/-- What a thread still has to count. -/
def pending : ThreadPhase → List CallEnd
  | .counting e => [e]
  | .unborn | .checking | .calling | .waiting | .ended => []

/-- What the thread of the supervisor still has to count. -/
def uncounted (s : Supervisor) : List CallEnd :=
  match s.thread with
  | some t => pending (s.phase t)
  | none => []

/-- The counters are those of the calls that are over, but for one that is not counted yet. -/
def Accounts (calls : List CallEnd) (s : Supervisor) : Prop :=
  ∃ counted, calls = counted ++ s.uncounted ∧
    s.processedTotal = counted.countP CallEnd.processed ∧
    s.errorTotal = counted.countP CallEnd.isError ∧
    s.leaseLostTotal = counted.countP CallEnd.leaseLost

theorem pending_of_dead {phase : ThreadPhase} (h : phase.alive = false) : pending phase = [] := by
  cases phase with
  | unborn | checking | calling | waiting | ended => rfl
  | counting e => cases h

theorem uncounted_setPhase (h : s.Sound) (ht : (s.phase t).alive = true) (phase : ThreadPhase) :
    (s.setPhase t phase).uncounted = pending phase := by
  have hthread : (s.setPhase t phase).thread = some t := h.only t ht
  simp only [uncounted, hthread, phase_setPhase, Function.update_self]

theorem uncounted_of_alive (h : s.Sound) (ht : (s.phase t).alive = true) :
    s.uncounted = pending (s.phase t) := by
  simp only [uncounted, h.only t ht]

theorem uncounted_of_not_running (h : s.isRunning = false) : s.uncounted = [] := by
  unfold isRunning at h
  unfold uncounted
  split
  · rename_i t ht
    rw [ht] at h
    exact pending_of_dead h
  · rfl

theorem uncounted_start (h : s.isRunning = false) : s.start.uncounted = [] := by
  rw [start, if_neg (by rw [h]; exact Bool.false_ne_true)]
  simp only [uncounted, setPhase, Function.update_self, pending]

/-- Without a call that ends or is counted, nothing changes in the accounts. -/
theorem Accounts.of_eq {calls : List CallEnd} {s' : Supervisor} (h : Accounts calls s)
    (huncounted : s'.uncounted = s.uncounted) (hprocessed : s'.processedTotal = s.processedTotal)
    (herror : s'.errorTotal = s.errorTotal) (hlost : s'.leaseLostTotal = s.leaseLostTotal) :
    Accounts calls s' := by
  obtain ⟨counted, hcalls, hp, he, hl⟩ := h
  exact ⟨counted, huncounted ▸ hcalls, hprocessed.trans hp, herror.trans he, hlost.trans hl⟩

/-- A call that has nothing to count. -/
theorem not_counts {e : CallEnd} (h : e.counts = false) :
    e.processed = false ∧ e.isError = false ∧ e.leaseLost = false := by
  cases e with
  | raised => cases h
  | returned result =>
      have hidle : result.outcome = .idle := by
        by_contra hne
        simp [CallEnd.counts, CallEnd.processed, hne] at h
      simp [CallEnd.processed, CallEnd.isError, CallEnd.leaseLost, hidle]

end Supervisor

/-- The call that a step ends. -/
def SupervisorStep.callEnd? : SupervisorStep → Option CallEnd
  | .finish _ callEnd => callEnd
  | .start | .stopSet _ | .stopRead _ | .stopJoin _ | .stopClose _ | .check _ | .count _
  | .wake _ => none

/-- The calls that a run ends, in their order. -/
def callEnds (ls : List SupervisorStep) : List CallEnd := ls.filterMap SupervisorStep.callEnd?

namespace Supervisor

variable {s : Supervisor} {calls : List CallEnd}

theorem Accounts.finish {t : ℕ} {e : CallEnd} (hs : s.Sound) (h : Accounts calls s)
    (ht : s.phase t = .calling) : Accounts (calls ++ [e]) (s.step (.finish t (some e))) := by
  have halive : (s.phase t).alive = true := by
    rw [ht]
    rfl
  obtain ⟨counted, hcalls, hp, he, hl⟩ := h
  rw [uncounted_of_alive hs halive, ht, pending, List.append_nil] at hcalls
  subst hcalls
  simp only [step]
  cases hcounts : e.counts with
  | true =>
      refine ⟨calls, ?_, hp, he, hl⟩
      rw [if_pos rfl, uncounted_setPhase hs halive, pending]
  | false =>
      obtain ⟨hnp, hne, hnl⟩ := not_counts hcounts
      refine ⟨calls ++ [e], ?_, ?_, ?_, ?_⟩
      · rw [if_neg Bool.false_ne_true, uncounted_setPhase hs halive, CallEnd.after]
        split_ifs
        · exact (List.append_nil _).symm
        · exact (List.append_nil _).symm
      · exact hp.trans (by simp [List.countP_append, hnp])
      · exact he.trans (by simp [List.countP_append, hne])
      · exact hl.trans (by simp [List.countP_append, hnl])

theorem Accounts.count {t : ℕ} {e : CallEnd} (hs : s.Sound) (h : Accounts calls s)
    (ht : s.phase t = .counting e) : Accounts calls ((s.count e).setPhase t e.after) := by
  have halive : (s.phase t).alive = true := by
    rw [ht]
    rfl
  have hcount : (s.count e).Sound := ⟨hs.only, hs.held, hs.joined, hs.closed⟩
  obtain ⟨counted, hcalls, hp, he, hl⟩ := h
  rw [uncounted_of_alive hs halive, ht, pending] at hcalls
  have hpending : pending e.after = [] := by
    rw [CallEnd.after]
    split_ifs
    · rfl
    · rfl
  refine ⟨counted ++ [e], ?_, ?_, ?_, ?_⟩
  · rw [uncounted_setPhase hcount halive, hpending, List.append_nil]
    exact hcalls
  · rw [List.countP_append, ← hp, List.countP_singleton]
    rfl
  · rw [List.countP_append, ← he, List.countP_singleton]
    rfl
  · rw [List.countP_append, ← hl, List.countP_singleton]
    rfl

theorem Accounts.step {l : SupervisorStep} (hs : s.Sound) (h : Accounts calls s) (hl : s.Ready l) :
    Accounts (calls ++ l.callEnd?.toList) (s.step l) := by
  -- the phases in which a thread has nothing to count
  have hmove : ∀ t phase, (s.phase t).alive = true → pending (s.phase t) = [] →
      pending phase = [] → Accounts calls (s.setPhase t phase) := by
    intro t phase halive hbefore hafter
    refine h.of_eq ?_ rfl rfl rfl
    rw [uncounted_setPhase hs halive, uncounted_of_alive hs halive, hbefore, hafter]
  cases l with
  | start =>
      rw [SupervisorStep.callEnd?, Option.toList_none, List.append_nil, Supervisor.step]
      by_cases hrunning : s.isRunning = true
      · rw [start, if_pos hrunning]
        exact h
      · have hstill := Bool.eq_false_of_not_eq_true hrunning
        refine h.of_eq ?_ ?_ ?_ ?_
        · rw [uncounted_start hstill, uncounted_of_not_running hstill]
        · rw [start, if_neg hrunning]
          rfl
        · rw [start, if_neg hrunning]
          rfl
        · rw [start, if_neg hrunning]
          rfl
  | stopSet c =>
      rw [SupervisorStep.callEnd?, Option.toList_none, List.append_nil]
      exact h.of_eq rfl rfl rfl rfl
  | stopRead c =>
      rw [SupervisorStep.callEnd?, Option.toList_none, List.append_nil]
      simp only [Supervisor.step]
      split
      · exact h.of_eq rfl rfl rfl rfl
      · exact h.of_eq rfl rfl rfl rfl
  | stopJoin c =>
      obtain ⟨t, ht⟩ := hl
      rw [SupervisorStep.callEnd?, Option.toList_none, List.append_nil]
      simp only [Supervisor.step, ht]
      exact h.of_eq rfl rfl rfl rfl
  | stopClose c =>
      obtain ⟨t, ht⟩ := hl
      rw [SupervisorStep.callEnd?, Option.toList_none, List.append_nil]
      simp only [Supervisor.step, ht]
      refine h.of_eq ?_ rfl rfl rfl
      by_cases hthread : s.thread = some t
      · have hdead := pending_of_dead (hs.closed c t ht).2
        simp only [uncounted, setStops, hthread, if_true, hdead]
      · simp only [uncounted, setStops, if_neg hthread]
  | check t =>
      have hphase : s.phase t = .checking := hl
      rw [SupervisorStep.callEnd?, Option.toList_none, List.append_nil]
      refine hmove t _ (by rw [hphase]; rfl) (by rw [hphase]; rfl) ?_
      split_ifs
      · rfl
      · rfl
  | finish t callEnd =>
      cases callEnd with
      | none =>
          have hphase : s.phase t = .calling := hl
          rw [SupervisorStep.callEnd?, Option.toList_none, List.append_nil]
          exact hmove t _ (by rw [hphase]; rfl) (by rw [hphase]; rfl) rfl
      | some e => exact h.finish hs hl
  | count t =>
      obtain ⟨e, he⟩ := hl
      rw [SupervisorStep.callEnd?, Option.toList_none, List.append_nil]
      simp only [Supervisor.step, he]
      exact h.count hs he
  | wake t =>
      have hphase : s.phase t = .waiting := hl
      rw [SupervisorStep.callEnd?, Option.toList_none, List.append_nil]
      refine hmove t _ (by rw [hphase]; rfl) (by rw [hphase]; rfl) ?_
      split_ifs
      · rfl
      · rfl

/-- A run from a sound state with its accounts. -/
theorem sound_exec {ls : List SupervisorStep} (hls : supervisorMachine.Legal s ls)
    (hs : s.Sound) (h : Accounts calls s) :
    (supervisorMachine.exec s ls).Sound ∧
      Accounts (calls ++ callEnds ls) (supervisorMachine.exec s ls) := by
  induction ls generalizing s calls with
  | nil => exact ⟨hs, by rwa [callEnds, List.filterMap_nil, List.append_nil]⟩
  | cons l ls ih =>
      have hnext := ih hls.2 (hs.step hls.1) (h.step hs hls.1)
      have hends : callEnds (l :: ls) = l.callEnd?.toList ++ callEnds ls := by
        rw [callEnds, List.filterMap_cons]
        cases l.callEnd? with
        | none => rfl
        | some e => rfl
      rw [hends, ← List.append_assoc]
      exact hnext

theorem accounts_fresh : Accounts [] fresh := ⟨[], rfl, rfl, rfl, rfl⟩

end Supervisor

/-- **One thread, counted.** In every run at most one thread is alive, and `running` tells whether
one is. The counters are those of the calls that are over, but for the last one where its thread
is about to count it. -/
theorem supervisor_accounts (ls : List SupervisorStep) (hls : supervisorMachine.Legal .fresh ls) :
    let s := supervisorMachine.exec .fresh ls
    (∀ t u, (s.phase t).alive = true → (s.phase u).alive = true → t = u) ∧
      (s.snapshot.running = true ↔ ∃ t, (s.phase t).alive = true) ∧
      ∃ counted rest, callEnds ls = counted ++ rest ∧
        (rest ≠ [] → ∃ t e, s.phase t = .counting e ∧ rest = [e]) ∧
        s.snapshot.processedTotal = counted.countP CallEnd.processed ∧
        s.snapshot.errorTotal = counted.countP CallEnd.isError ∧
        s.snapshot.leaseLostTotal = counted.countP CallEnd.leaseLost := by
  intro s
  obtain ⟨hs, counted, hcalls, hp, he, hl⟩ :=
    Supervisor.sound_exec hls Supervisor.sound_fresh Supervisor.accounts_fresh
  refine ⟨?_, Supervisor.isRunning_iff hs, counted, s.uncounted, hcalls, ?_, hp, he, hl⟩
  · intro t u ht hu
    exact Option.some.inj ((hs.only t ht).symm.trans (hs.only u hu))
  · intro hne
    unfold Supervisor.uncounted at hne ⊢
    split at hne
    · rename_i t ht
      cases hphase : s.phase t with
      | counting e => exact ⟨t, e, hphase, rfl⟩
      | unborn | checking | calling | waiting | ended =>
          rw [hphase] at hne
          exact absurd rfl hne
    · exact absurd rfl hne

/-- A run with a completed job, and an exception that is not counted yet. -/
def oneJob : List SupervisorStep :=
  [.start, .check 0, .finish 0 (some (.returned ⟨.completed, some "job", some "run", some 1⟩)),
    .count 0, .check 0, .finish 0 (some .raised)]

theorem supervisor_accounts_oneJob :
    let s := supervisorMachine.exec .fresh oneJob
    (s.snapshot.running = true ↔ ∃ t, (s.phase t).alive = true) ∧
      ∃ counted rest, callEnds oneJob = counted ++ rest ∧
        s.snapshot.processedTotal = counted.countP CallEnd.processed ∧
        s.snapshot.errorTotal = counted.countP CallEnd.isError := by
  obtain ⟨-, hrunning, counted, rest, hcalls, -, hp, he, -⟩ :=
    supervisor_accounts oneJob (by decide)
  exact ⟨hrunning, counted, rest, hcalls, hp, he⟩

/-! ## Stopping -/

/-- A step of a thread. -/
def SupervisorStep.ofThread : SupervisorStep → Bool
  | .check _ | .finish .. | .count _ | .wake _ => true
  | .start | .stopSet _ | .stopRead _ | .stopJoin _ | .stopClose _ => false

namespace Supervisor

/-- The step starts a thread. -/
def Starts (s : Supervisor) (l : SupervisorStep) : Prop := l = .start ∧ s.isRunning = false

instance (s : Supervisor) (l : SupervisorStep) : Decidable (s.Starts l) :=
  inferInstanceAs (Decidable (_ ∧ _))

/-- The step begins a call of `run_one`. -/
def begins (s : Supervisor) : SupervisorStep → Bool
  | .check _ => !s.stop
  | _ => false

/-- The step is the one by which `stop` returns `True` to a caller. -/
def Stopped (s : Supervisor) (c : ℕ) (l : SupervisorStep) : Prop :=
  l = .stopRead c ∧ s.thread = none ∨ l = .stopClose c

/-- The steps that a thread has left once the event is set. -/
def phaseRank : ThreadPhase → ℕ
  | .unborn | .ended => 0
  | .checking | .waiting => 1
  | .counting _ => 2
  | .calling => 3

def rank (s : Supervisor) : ℕ :=
  match s.thread with
  | some t => phaseRank (s.phase t)
  | none => 0

variable {s : Supervisor}

theorem phaseRank_after (e : CallEnd) : phaseRank e.after = 1 := by
  rw [CallEnd.after]
  split_ifs
  · rfl
  · rfl

theorem rank_le (s : Supervisor) : s.rank ≤ 3 := by
  unfold rank
  split
  · rename_i t _
    cases s.phase t with
    | unborn | checking | calling | counting | waiting | ended => simp [phaseRank]
  · exact Nat.zero_le 3

theorem rank_setPhase (hs : s.Sound) {t : ℕ} (ht : (s.phase t).alive = true)
    {phase : ThreadPhase} (h : phaseRank phase < phaseRank (s.phase t)) :
    (s.setPhase t phase).rank < s.rank := by
  have hthread := hs.only t ht
  have hthread' : (s.setPhase t phase).thread = some t := hthread
  simpa only [rank, hthread, hthread', phase_setPhase, Function.update_self] using h

/-- While the event is set and nobody starts a thread, the event stays set. -/
theorem stop_step {l : SupervisorStep} (hstop : s.stop = true) (hstart : ¬ s.Starts l) :
    (s.step l).stop = true := by
  cases l with
  | start =>
      have hrunning : s.isRunning = true := by
        by_contra hne
        exact hstart ⟨rfl, Bool.eq_false_of_not_eq_true hne⟩
      rw [step, start, if_pos hrunning]
      exact hstop
  | stopSet c => rfl
  | check t | wake t => exact hstop
  | finish t callEnd => cases callEnd <;> exact hstop
  | stopRead c | stopJoin c | stopClose c | count t =>
      simp only [step]
      split <;> exact hstop

/-- While the event is set, a step of a thread is one of the few that it has left, and no other
step adds any. -/
theorem rank_step {l : SupervisorStep} (hs : s.Sound) (hstop : s.stop = true) (hl : s.Ready l)
    (hstart : ¬ s.Starts l) :
    (s.step l).rank + (if l.ofThread then 1 else 0) ≤ s.rank := by
  cases l with
  | start =>
      have hrunning : s.isRunning = true := by
        by_contra hne
        exact hstart ⟨rfl, Bool.eq_false_of_not_eq_true hne⟩
      rw [step, start, if_pos hrunning]
      exact le_rfl
  | stopSet c => exact le_rfl
  | stopRead c =>
      simp only [step]
      split
      · exact le_rfl
      · exact le_rfl
  | stopJoin c =>
      obtain ⟨t, ht⟩ := hl
      simp only [step, ht]
      exact le_rfl
  | stopClose c =>
      obtain ⟨t, ht⟩ := hl
      simp only [step, ht]
      by_cases hthread : s.thread = some t
      · simp only [rank, setStops, hthread, if_true]
        exact Nat.zero_le _
      · simp only [rank, setStops, if_neg hthread]
        exact le_rfl
  | check t =>
      have hphase : s.phase t = .checking := hl
      simp only [step, if_pos hstop]
      exact rank_setPhase hs (by rw [hphase]; rfl) (by rw [hphase]; decide)
  | finish t callEnd =>
      have hphase : s.phase t = .calling := hl
      have halive : (s.phase t).alive = true := by
        rw [hphase]
        rfl
      cases callEnd with
      | none => exact rank_setPhase hs halive (by rw [hphase]; decide)
      | some e =>
          refine rank_setPhase hs halive ?_
          rw [hphase]
          split_ifs
          · exact Nat.lt_succ_self 2
          · rw [phaseRank_after]
            exact Nat.lt_of_sub_eq_succ rfl
  | count t =>
      obtain ⟨e, he⟩ := hl
      simp only [step, he]
      have hcount : (s.count e).Sound := ⟨hs.only, hs.held, hs.joined, hs.closed⟩
      have halive : ((s.count e).phase t).alive = true := by
        change (s.phase t).alive = true
        rw [he]
        rfl
      refine rank_setPhase hcount halive ?_
      change phaseRank e.after < phaseRank (s.phase t)
      rw [he, phaseRank_after]
      exact Nat.lt_succ_self 1
  | wake t =>
      have hphase : s.phase t = .waiting := hl
      simp only [step, if_pos hstop]
      exact rank_setPhase hs (by rw [hphase]; rfl) (by rw [hphase]; decide)

/-- While the event is set and nobody starts a thread, no call begins and few steps are left. -/
theorem stopped_exec {ls : List SupervisorStep} (hs : s.Sound) (hstop : s.stop = true)
    (hls : supervisorMachine.Legal s ls)
    (hstart : supervisorMachine.Along (fun s l => ¬ s.Starts l) s ls) :
    supervisorMachine.countSteps (fun s l _ => s.begins l) s ls = 0 ∧
      supervisorMachine.countSteps (fun _ l _ => l.ofThread) s ls ≤ s.rank := by
  induction ls generalizing s with
  | nil => exact ⟨rfl, Nat.zero_le _⟩
  | cons l ls ih =>
      obtain ⟨hbegins, hthread⟩ :=
        ih (hs.step hls.1) (stop_step hstop hstart.1) hls.2 hstart.2
      have hrank := rank_step hs hstop hls.1 hstart.1
      have hnone : s.begins l = false := by
        cases l with
        | check t => simp [begins, hstop]
        | start | stopSet _ | stopRead _ | stopJoin _ | stopClose _ | finish _ _ | count _
        | wake _ => rfl
      have hnext : supervisorMachine.next s l = s.step l := rfl
      constructor
      · simp only [Machine.countSteps, hnext, hnone, hbegins]
        rfl
      · simp only [Machine.countSteps, hnext]
        omega

/-- A caller of `stop` has set the event, and waits for the only thread there is. -/
structure Stopping (s : Supervisor) (c : ℕ) : Prop where
  sound : s.Sound
  stop : s.stop = true
  waits : ∀ t u, s.stops c = .joining t ∨ s.stops c = .closing t → s.thread = some u → u = t

theorem Stopping.step {c : ℕ} {l : SupervisorStep} (h : s.Stopping c) (hl : s.Ready l)
    (hstart : ¬ s.Starts l) : (s.step l).Stopping c where
  sound := h.sound.step hl
  stop := stop_step h.stop hstart
  waits := by
    intro t u hc hu
    cases l with
    | start =>
        have hrunning : s.isRunning = true := by
          by_contra hne
          exact hstart ⟨rfl, Bool.eq_false_of_not_eq_true hne⟩
        rw [Supervisor.step, start, if_pos hrunning] at hc hu
        exact h.waits t u hc hu
    | check v | wake v => exact h.waits t u hc hu
    | finish v callEnd => cases callEnd <;> exact h.waits t u hc hu
    | count v =>
        obtain ⟨e, he⟩ := hl
        simp only [Supervisor.step, he] at hc hu
        exact h.waits t u hc hu
    | stopSet d =>
        by_cases hdc : c = d
        · subst hdc
          simp [Supervisor.step] at hc
        · simp only [Supervisor.step, stops_setStops, Function.update_of_ne hdc] at hc
          exact h.waits t u hc hu
    | stopRead d =>
        cases hthread : s.thread with
        | none =>
            simp only [Supervisor.step, hthread, setStops] at hu
            cases hu
        | some v =>
            simp only [Supervisor.step, hthread] at hc hu
            by_cases hdc : c = d
            · subst hdc
              simp only [stops_setStops, Function.update_self, StopPhase.joining.injEq,
                reduceCtorEq, or_false] at hc
              exact hc ▸ (Option.some.inj (hthread.symm.trans hu)).symm
            · simp only [stops_setStops, Function.update_of_ne hdc] at hc
              exact h.waits t u hc hu
    | stopJoin d =>
        obtain ⟨v, hv⟩ := hl
        simp only [Supervisor.step, hv] at hc hu
        by_cases hdc : c = d
        · subst hdc
          refine h.waits t u (Or.inl ?_) hu
          rw [stops_setStops, Function.update_self] at hc
          split_ifs at hc
          · simp at hc
          · simp only [StopPhase.closing.injEq, false_or] at hc
            exact hc ▸ hv
        · simp only [stops_setStops, Function.update_of_ne hdc] at hc
          exact h.waits t u hc hu
    | stopClose d =>
        obtain ⟨v, hv⟩ := hl
        simp only [Supervisor.step, hv] at hc hu
        have hu' : s.thread = some u := by
          simp only [setStops] at hu
          split_ifs at hu
          exact hu
        by_cases hdc : c = d
        · subst hdc
          simp at hc
        · simp only [stops_setStops, Function.update_of_ne hdc] at hc
          exact h.waits t u hc hu'

/-- When `stop` returns `True`, no thread is alive. -/
theorem Stopping.not_running {c : ℕ} {l : SupervisorStep} (h : s.Stopping c) (hl : s.Ready l)
    (hstopped : s.Stopped c l) : (s.step l).isRunning = false := by
  rcases hstopped with ⟨rfl, hnone⟩ | rfl
  · simp only [Supervisor.step, hnone, isRunning, setStops]
  · obtain ⟨t, ht⟩ := hl
    simp only [Supervisor.step, ht, isRunning, setStops]
    cases hthread : s.thread with
    | none => simp
    | some u =>
        obtain rfl := h.waits t u (Or.inr ht) hthread
        simp

end Supervisor

/-- **Stopping.** Once the event is set, and as long as nobody starts a thread, no call of
`run_one` begins, and the thread that is alive takes at most three more steps. When `stop` returns
`True` and nobody started a thread since it set the event, no thread is alive. -/
theorem supervisor_stops (ls : List SupervisorStep) (hls : supervisorMachine.Legal .fresh ls) :
    let s := supervisorMachine.exec .fresh ls
    (s.stop = true → ∀ ks, supervisorMachine.Legal s ks →
      supervisorMachine.Along (fun s l => ¬ s.Starts l) s ks →
        supervisorMachine.countSteps (fun s l _ => s.begins l) s ks = 0 ∧
          supervisorMachine.countSteps (fun _ l _ => l.ofThread) s ks ≤ 3) ∧
    ∀ c ks l, supervisorMachine.Legal s (.stopSet c :: ks ++ [l]) →
      supervisorMachine.Along (fun s l => ¬ s.Starts l) s (.stopSet c :: ks) →
      (supervisorMachine.exec s (.stopSet c :: ks)).Stopped c l →
        (supervisorMachine.exec s (.stopSet c :: ks ++ [l])).isRunning = false := by
  intro s
  have hs : s.Sound :=
    (Supervisor.sound_exec hls Supervisor.sound_fresh Supervisor.accounts_fresh).1
  constructor
  · intro hstop ks hks hstart
    obtain ⟨hbegins, hthread⟩ := Supervisor.stopped_exec hs hstop hks hstart
    exact ⟨hbegins, hthread.trans s.rank_le⟩
  · intro c ks l hlegal hstart hstopped
    obtain ⟨hbefore, hl, -⟩ := Machine.along_append.mp hlegal
    have hset : (s.step (.stopSet c)).Stopping c := by
      refine ⟨hs.step hbefore.1, rfl, ?_⟩
      intro t u hc
      simp [Supervisor.step] at hc
    have hstopping : (supervisorMachine.exec s (.stopSet c :: ks)).Stopping c :=
      Machine.Along.invariant (I := fun s => s.Stopping c)
        (fun s l hC hI => hI.step hC.1 hC.2) (Machine.along_and.mpr ⟨hbefore.2, hstart.2⟩) hset
    rw [Machine.exec_append]
    exact hstopping.not_running hl hstopped

/-- A stop during that run, which sees its thread end. -/
theorem supervisor_stops_oneJob :
    (supervisorMachine.exec (supervisorMachine.exec .fresh oneJob)
      [.stopSet 7, .count 0, .stopRead 7, .wake 0, .stopJoin 7, .stopClose 7]).isRunning = false :=
  (supervisor_stops oneJob (by decide)).2 7 [.count 0, .stopRead 7, .wake 0, .stopJoin 7]
    (.stopClose 7) (by decide) (by decide) (Or.inr rfl)

end VoxBench.ControlPlane
