import VoxBench.Observability.Flush
import Mathlib.Data.Rat.Defs

/-!
# Closing a call

A call session observes through a `VoxBenchObserver` and flushes it periodically in a
background task; `close` awaits the flush task it holds, flushes once more and reports
the end of the call to the control plane. `RealtimeCallSession` and
`LoopbackCallSession` share the flush schedule and differ in what else they close.

Everything outside the session is an argument of `close`: whether the provider closes,
which sends of the held flush get through, what is observed meanwhile. The final flush
and the last request get through, as a reachable control plane lets them.

## Main results

* `close_meets_contract_iff` — closing a call of either kind meets its contract exactly
  when the held flush task does not fail.
* `close_after_failed_flush` — one failed periodic flush, and the run is never ended.
-/

namespace VoxBench.Telephony

open VoxBench.Lib VoxBench.Observability

variable {Item : ObservationKind → Type}

/-! ## The flush schedule -/

/-- `_flush_task`. -/
inductive FlushTask where
  | none
  /-- Created, its thread not yet running. -/
  | created
  /-- Running, or done, as the flush `f` of the observer. -/
  | started (f : ℕ)
  deriving DecidableEq, Repr

/-- What both kinds of sessions keep for their periodic flushes. -/
structure FlushSchedule (Item : ObservationKind → Type) where
  observer : ObserverState Item
  flushTask : FlushTask
  nextFlushAt : ℚ
  flushIntervalSeconds : ℚ

namespace FlushSchedule

/-- The items appended by an `observe_*` call. -/
def observe (s : FlushSchedule Item) (items : ∀ k, List (Item k)) : FlushSchedule Item :=
  { s with observer := (flushMachine Item).next s.observer (.observe items) }

/-- `_flush_task.done()`. -/
def taskDone (s : FlushSchedule Item) : Bool :=
  match s.flushTask with
  | .none | .created => false
  | .started f => (s.observer.flushes[f]?).any FlushPhase.ended

/-- `_schedule_flush_if_due`, at the monotonic clock reading `now`. -/
def scheduleFlushIfDue (s : FlushSchedule Item) (now : ℚ) : FlushSchedule Item :=
  if now < s.nextFlushAt then s
  else
    let s := { s with nextFlushAt := now + s.flushIntervalSeconds }
    if s.flushTask = .none ∨ s.taskDone then { s with flushTask := .created } else s

/-- The thread of a created task calls `observer.flush`, which takes its snapshot. -/
def startTask (s : FlushSchedule Item) : FlushSchedule Item :=
  match s.flushTask with
  | .created =>
      { s with
        observer := (flushMachine Item).next s.observer .flush
        flushTask := .started s.observer.flushes.length }
  | .none | .started _ => s

end FlushSchedule

/-- A step of a call in progress. -/
inductive CallStep (Item : ObservationKind → Type) where
  | observe (items : ∀ k, List (Item k))
  | scheduleFlush (now : ℚ)
  | startTask
  | send (delivers : Bool)
  | restore

/-- A call in progress: observations, and the held flush task at work. -/
def callMachine (Item : ObservationKind → Type) : Machine (FlushSchedule Item) (CallStep Item) where
  init s := (∃ runId, s.observer = .new runId) ∧ s.flushTask = .none
  enabled _ _ := True
  next s
    | .observe items => s.observe items
    | .scheduleFlush now => s.scheduleFlushIfDue now
    | .startTask => s.startTask
    | .send delivers =>
        match s.flushTask with
        | .started f => { s with observer := (flushMachine Item).next s.observer (.send f delivers) }
        | .none | .created => s
    | .restore =>
        match s.flushTask with
        | .started f => { s with observer := (flushMachine Item).next s.observer (.restore f) }
        | .none | .created => s

/-! ## Closing -/

/-- Run the flush `f` to its end, `lands i` telling whether its `i`-th send from here
gets through. -/
def settleFlush (f : ℕ) (lands : ℕ → Bool) (o : ObserverState Item) : ObserverState Item :=
  let batches := ((o.flushes[f]?).map fun p => p.batches.length).getD 0
  (flushMachine Item).exec o
    ((List.range batches).map (fun i => .send f (lands i)) ++ [.restore f])

/-- A flush from its snapshot to its end, as `asyncio.to_thread(observer.flush)` awaits it. -/
def runFlush (lands : ℕ → Bool) (o : ObserverState Item) : ObserverState Item :=
  settleFlush o.flushes.length lands ((flushMachine Item).next o .flush)

/-- `await self._flush_task`: the schedule afterwards, and whether the await raised the
task's exception. `items` are observed by others meanwhile. -/
def awaitFlushTask (s : FlushSchedule Item) (lands : ℕ → Bool) (items : ∀ k, List (Item k)) :
    FlushSchedule Item × Bool :=
  let s := s.startTask.observe items
  match s.flushTask with
  | .none | .created => (s, false)
  | .started f =>
      let o := settleFlush f lands s.observer
      ({ s with observer := o }, (o.flushes[f]?).any fun p => p matches .raised)

/-- A request that ends the run at the control plane. -/
inductive FinishRequest where
  | completeRun
  | failRun (failureAlias : String)
  deriving DecidableEq, Repr

/-- How a call of `close` ended: the session it leaves, the requests it made, and whether
it raised. -/
structure CloseOutcome (σ : Type) where
  session : σ
  requests : List FinishRequest
  raised : Bool

/-- What happens around a `close`. -/
structure CloseEnv (Item : ObservationKind → Type) where
  /-- `provider_session.close()` returns. -/
  providerCloses : Bool
  /-- Observed by others until the provider has closed. -/
  duringProviderClose : ∀ k, List (Item k)
  /-- The events of `_end_caller_speech` and `mark_output_ended`. -/
  endedEvents : List (Item .timelineEvents)
  /-- Whether the `i`-th send left to the held flush gets through. -/
  lands : ℕ → Bool
  /-- Observed by others until the held flush task is done. -/
  duringFlush : ∀ k, List (Item k)
  /-- Observed by the background tasks until they are done. -/
  duringCancel : ∀ k, List (Item k)

/-- Items of one kind. -/
def only {k : ObservationKind} (items : List (Item k)) : ∀ k', List (Item k') := fun k' =>
  if h : k = k' then h ▸ items else []

inductive TaskState where
  | running
  | done
  deriving DecidableEq, Repr

structure RealtimeCallSession (Item : ObservationKind → Type) extends FlushSchedule Item where
  /-- The BYE event of the call. -/
  bye : Item .sipEvents
  /-- `fail_run` is configured. -/
  hasFailRun : Bool
  backgroundTasks : List TaskState
  closed : Bool

/-- The failure alias after the provider's close, `failure_alias or "provider-close-error"`
when that failed. -/
def closeAlias (failureAlias : Option String) (providerCloses : Bool) : Option String :=
  if providerCloses then failureAlias
  else
    match failureAlias with
    | some a => if a = "" then some "provider-close-error" else some a
    | none => some "provider-close-error"

namespace RealtimeCallSession

/-- The session as `close` reaches the flush task: closed, with the end of the call
observed. -/
def beginClose (s : RealtimeCallSession Item) (env : CloseEnv Item) : RealtimeCallSession Item :=
  { s with
    closed := true
    toFlushSchedule := ((s.toFlushSchedule.observe (only [s.bye])).observe
      env.duringProviderClose).observe (only env.endedEvents) }

/-- The requests at the end of `close`. -/
def finish (s : RealtimeCallSession Item) (failureAlias : Option String) : FinishRequest :=
  match failureAlias with
  | some a => if s.hasFailRun then .failRun a else .completeRun
  | none => .completeRun

/-- `RealtimeCallSession.close`. -/
def close (s : RealtimeCallSession Item) (failureAlias : Option String) (env : CloseEnv Item) :
    CloseOutcome (RealtimeCallSession Item) :=
  if s.closed then ⟨s, [], false⟩
  else
    let s := s.beginClose env
    let failureAlias := closeAlias failureAlias env.providerCloses
    match awaitFlushTask s.toFlushSchedule env.lands env.duringFlush with
    | (schedule, true) => ⟨{ s with toFlushSchedule := schedule }, [], true⟩
    | (schedule, false) =>
        -- The tasks that still run are cancelled, and `gather` waits for all of them.
        let tasks := s.backgroundTasks.map fun _ => TaskState.done
        let schedule := schedule.observe env.duringCancel
        let observer := runFlush (fun _ => true) schedule.observer
        ⟨{ s with
            toFlushSchedule := { schedule with observer := observer }, backgroundTasks := tasks },
          [s.finish failureAlias], false⟩

end RealtimeCallSession

structure LoopbackCallSession (Item : ObservationKind → Type) extends FlushSchedule Item where
  bye : Item .sipEvents

/-- `LoopbackCallSession.close`. -/
def LoopbackCallSession.close (s : LoopbackCallSession Item) (lands : ℕ → Bool)
    (duringFlush : ∀ k, List (Item k)) : CloseOutcome (LoopbackCallSession Item) :=
  let s := { s with toFlushSchedule := s.toFlushSchedule.observe (only [s.bye]) }
  match awaitFlushTask s.toFlushSchedule lands duringFlush with
  | (schedule, true) => ⟨{ s with toFlushSchedule := schedule }, [], true⟩
  | (schedule, false) =>
      let observer := runFlush (fun _ => true) schedule.observer
      ⟨{ s with toFlushSchedule := { schedule with observer := observer } }, [.completeRun], false⟩

/-! ## Running a flush to its end -/

/-- The flush in phase `p` ends by an exception when `lands` tells which of its sends get
through. -/
def FlushFails (p : FlushPhase Item) (lands : ℕ → Bool) : Prop :=
  match p with
  | .sending _ rest _ => ∃ i ≤ rest.length, lands i = false
  | .restoring _ | .raised => True
  | .returned _ => False

section Settle

variable {o : ObserverState Item} {f : ℕ}

theorem set_same {p : FlushPhase Item} (h : o.flushes[f]? = some p) :
    o.flushes.set f p = o.flushes := by
  obtain ⟨hlt, rfl⟩ := List.getElem?_eq_some_iff.mp h
  exact List.set_getElem_self hlt

theorem next_send_of_not_sending {p : FlushPhase Item} (h : o.flushes[f]? = some p)
    (hp : p.batches = []) (b : Bool) : (flushMachine Item).next o (.send f b) = o := by
  cases p with
  | sending next rest n => simp [FlushPhase.batches] at hp
  | restoring unsent => simp [flushMachine, h]
  | returned n => simp [flushMachine, h]
  | raised => simp [flushMachine, h]

theorem exec_send_of_not_sending {p : FlushPhase Item} (h : o.flushes[f]? = some p)
    (hp : p.batches = []) (outs : List Bool) :
    (flushMachine Item).exec o (outs.map (.send f)) = o := by
  induction outs with
  | nil => rfl
  | cons b outs ih => rw [List.map_cons, Machine.exec_cons, next_send_of_not_sending h hp, ih]

/-- Sends that all get through bring the flush to its return. -/
theorem exec_send_land {batches : List (ObservationBatch Item)} {n : ℕ} {outs : List Bool}
    (h : o.flushes[f]? = some (.loop batches n)) (hlen : outs.length = batches.length)
    (hland : ∀ b ∈ outs, b = true) :
    let o' := (flushMachine Item).exec o (outs.map (.send f))
    (∃ n', o'.flushes = o.flushes.set f (.returned n')) ∧ o'.pending = o.pending ∧
      o'.observed = o.observed := by
  induction batches generalizing o n outs with
  | nil =>
      obtain rfl : outs = [] := List.length_eq_zero_iff.mp hlen
      refine ⟨⟨n, ?_⟩, rfl, rfl⟩
      exact (set_same h).symm
  | cons b rest ih =>
      obtain ⟨out, outs, rfl⟩ := List.exists_cons_of_length_eq_add_one hlen
      obtain rfl : out = true := hland out List.mem_cons_self
      set o₁ := (flushMachine Item).next o (.send f true) with ho₁
      have hflushes : o₁.flushes = o.flushes.set f (.loop rest (n + b.itemCount)) := by
        simp [ho₁, flushMachine, h, FlushPhase.loop]
      have hsame : o₁.pending = o.pending ∧ o₁.observed = o.observed := by
        simp [ho₁, flushMachine, h, FlushPhase.loop]
      have hlt : f < o.flushes.length := (List.getElem?_eq_some_iff.mp h).1
      have h₁ : o₁.flushes[f]? = some (.loop rest (n + b.itemCount)) := by
        rw [hflushes, List.getElem?_set_self hlt]
      obtain ⟨⟨n', hend⟩, hpending, hobserved⟩ := ih h₁ (by simpa using hlen)
        fun b' hb' => hland b' (List.mem_cons_of_mem _ hb')
      refine ⟨⟨n', ?_⟩, hpending.trans hsame.1, hobserved.trans hsame.2⟩
      rw [List.map_cons, Machine.exec_cons, hend, hflushes, List.set_set]

/-- A send that does not get through brings the flush to its restore. -/
theorem exec_send_fail {batches : List (ObservationBatch Item)} {n : ℕ} {outs : List Bool}
    (h : o.flushes[f]? = some (.loop batches n)) (hlen : outs.length = batches.length)
    (hfail : false ∈ outs) :
    ∃ unsent, ((flushMachine Item).exec o (outs.map (.send f))).flushes =
      o.flushes.set f (.restoring unsent) := by
  induction batches generalizing o n outs with
  | nil =>
      rw [List.length_eq_zero_iff.mp hlen] at hfail
      cases hfail
  | cons b rest ih =>
      obtain ⟨out, outs, rfl⟩ := List.exists_cons_of_length_eq_add_one hlen
      have hlt : f < o.flushes.length := (List.getElem?_eq_some_iff.mp h).1
      set o₁ := (flushMachine Item).next o (.send f out) with ho₁
      rw [List.map_cons, Machine.exec_cons, ← ho₁]
      cases out with
      | false =>
          have hflushes : o₁.flushes = o.flushes.set f
              (.restoring (mergeObservationBatches o.runId (b :: rest))) := by
            simp [ho₁, flushMachine, h, FlushPhase.loop]
          have h₁ : o₁.flushes[f]? =
              some (.restoring (mergeObservationBatches o.runId (b :: rest))) := by
            rw [hflushes, List.getElem?_set_self hlt]
          rw [exec_send_of_not_sending h₁ rfl]
          exact ⟨_, hflushes⟩
      | true =>
          have hflushes : o₁.flushes = o.flushes.set f (.loop rest (n + b.itemCount)) := by
            simp [ho₁, flushMachine, h, FlushPhase.loop]
          have h₁ : o₁.flushes[f]? = some (.loop rest (n + b.itemCount)) := by
            rw [hflushes, List.getElem?_set_self hlt]
          have hrest : false ∈ outs := by simpa using hfail
          obtain ⟨unsent, hend⟩ := ih h₁ (by simpa using hlen) hrest
          exact ⟨unsent, by rw [hend, hflushes, List.set_set]⟩

theorem next_restore {unsent : ObservationBatch Item}
    (h : o.flushes[f]? = some (.restoring unsent)) :
    ((flushMachine Item).next o (.restore f)).flushes = o.flushes.set f .raised := by
  simp [flushMachine, h]

theorem next_restore_of_ended {p : FlushPhase Item} (h : o.flushes[f]? = some p)
    (hp : p.ended = true) : (flushMachine Item).next o (.restore f) = o := by
  cases p <;> simp_all [flushMachine, FlushPhase.ended]

theorem settleFlush_eq {p : FlushPhase Item} (h : o.flushes[f]? = some p) (lands : ℕ → Bool) :
    settleFlush f lands o = (flushMachine Item).next
      ((flushMachine Item).exec o
        (((List.range p.batches.length).map lands).map (.send f))) (.restore f) := by
  simp [settleFlush, h, Function.comp_def]

/-- A flush that does not fail returns, and leaves the pending items alone. -/
theorem settleFlush_returns {p : FlushPhase Item} (h : o.flushes[f]? = some p)
    {lands : ℕ → Bool} (hp : ¬ FlushFails p lands) :
    (∃ n, (settleFlush f lands o).flushes = o.flushes.set f (.returned n)) ∧
      (settleFlush f lands o).pending = o.pending ∧
      (settleFlush f lands o).observed = o.observed := by
  have hlt : f < o.flushes.length := (List.getElem?_eq_some_iff.mp h).1
  rw [settleFlush_eq h]
  cases p with
  | restoring | raised => exact absurd trivial hp
  | returned n =>
      have hend := next_restore_of_ended h rfl
      simp only [FlushPhase.batches, List.length_nil, List.range_zero, List.map_nil,
        Machine.exec_nil, hend, and_self, and_true]
      exact ⟨n, (set_same h).symm⟩
  | sending b rest n =>
      have hland : ∀ out ∈ (List.range (rest.length + 1)).map lands, out = true := by
        intro out hout
        obtain ⟨i, hi, rfl⟩ := List.mem_map.mp hout
        rw [List.mem_range] at hi
        by_contra hne
        exact hp ⟨i, by omega, by simpa using hne⟩
      obtain ⟨⟨n', hend⟩, hpending, hobserved⟩ :=
        @exec_send_land _ _ _ (b :: rest) _ _ h (by simp) hland
      simp only [FlushPhase.batches, List.length_cons]
      have hret : ((flushMachine Item).exec o
          (((List.range (rest.length + 1)).map lands).map (.send f))).flushes[f]? =
            some (.returned n') := by rw [hend, List.getElem?_set_self hlt]
      rw [next_restore_of_ended hret rfl]
      exact ⟨⟨n', hend⟩, hpending, hobserved⟩

/-- A flush that fails raises. -/
theorem settleFlush_raises {p : FlushPhase Item} (h : o.flushes[f]? = some p)
    {lands : ℕ → Bool} (hp : FlushFails p lands) :
    (settleFlush f lands o).flushes = o.flushes.set f .raised := by
  have hlt : f < o.flushes.length := (List.getElem?_eq_some_iff.mp h).1
  rw [settleFlush_eq h]
  cases p with
  | returned n => exact hp.elim
  | restoring unsent =>
      simp only [FlushPhase.batches, List.length_nil, List.range_zero, List.map_nil,
        Machine.exec_nil]
      exact next_restore h
  | raised =>
      simp only [FlushPhase.batches, List.length_nil, List.range_zero, List.map_nil,
        Machine.exec_nil, next_restore_of_ended h rfl]
      exact (set_same h).symm
  | sending b rest n =>
      obtain ⟨i, hi, hfail⟩ := hp
      have hmem : false ∈ (List.range (rest.length + 1)).map lands :=
        List.mem_map.mpr ⟨i, by rw [List.mem_range]; omega, hfail⟩
      obtain ⟨unsent, hend⟩ := @exec_send_fail _ _ _ (b :: rest) _ _ h (by simp) hmem
      simp only [FlushPhase.batches, List.length_cons]
      have hrest : ((flushMachine Item).exec o
          (((List.range (rest.length + 1)).map lands).map (.send f))).flushes[f]? =
            some (.restoring unsent) := by rw [hend, List.getElem?_set_self hlt]
      rw [next_restore hrest, hend, List.set_set]

theorem ordered_settleFlush (h : o.Ordered) (lands : ℕ → Bool) :
    (settleFlush f lands o).Ordered := by
  refine Machine.Along.invariant (C := NoOverlap) (fun t l hl ht => ordered_next hl ht) ?_ h
  have hall : ∀ (ls : List (ObserverStep Item)), (∀ l ∈ ls, l ≠ .flush) →
      ∀ t, (flushMachine Item).Along NoOverlap t ls := by
    intro ls
    induction ls with
    | nil => exact fun _ _ => Machine.along_nil
    | cons l ls ih =>
        intro hne t
        refine ⟨?_, ih (fun l' hl' => hne l' (List.mem_cons_of_mem _ hl')) _⟩
        cases l with
        | flush => exact absurd rfl (hne _ List.mem_cons_self)
        | _ => trivial
  refine hall _ (fun l hl => ?_) o
  rw [List.mem_append, List.mem_map, List.mem_singleton] at hl
  rcases hl with ⟨i, -, rfl⟩ | rfl <;> simp

end Settle

/-! ## A call in progress -/

/-- At most the held flush is running, and the items are in order. -/
structure ScheduleInv (s : FlushSchedule Item) : Prop where
  ordered : s.observer.Ordered
  idle : (∀ f, s.flushTask ≠ .started f) → ∀ p ∈ s.observer.flushes, p.ended = true
  held : ∀ f, s.flushTask = .started f → f + 1 = s.observer.flushes.length

section Schedule

variable {s : FlushSchedule Item}

/-- Once the last flush has ended, all of them have. -/
theorem all_ended {o : ObserverState Item} (h : o.Ordered) {f : ℕ} {p : FlushPhase Item}
    (hlast : f + 1 = o.flushes.length) (hf : o.flushes[f]? = some p) (hp : p.ended = true) :
    ∀ p ∈ o.flushes, p.ended = true := by
  intro x hx
  obtain ⟨before, after, hsplit, hlen, -⟩ := exists_split hf
  have hnil : after = [] := by
    rw [hsplit, List.length_append, List.length_cons, hlen] at hlast
    exact List.length_eq_zero_iff.mp (by omega)
  subst hnil
  rw [hsplit, List.mem_append, List.mem_singleton] at hx
  rcases hx with hx | rfl
  · exact h.1 x (by rw [hsplit, List.dropLast_concat]; exact hx)
  · exact hp

theorem scheduleInv_observe (h : ScheduleInv s) (items : ∀ k, List (Item k)) :
    ScheduleInv (s.observe items) :=
  ⟨ordered_next (l := .observe items) trivial h.ordered, h.idle, h.held⟩

theorem scheduleInv_startTask (h : ScheduleInv s) : ScheduleInv s.startTask := by
  unfold FlushSchedule.startTask
  split
  · rename_i hcreated
    have hended := h.idle fun f => by simp [hcreated]
    refine ⟨ordered_next (l := .flush) hended h.ordered, fun hne => ?_, fun f hf => ?_⟩
    · exact absurd rfl (hne _)
    · cases hf
      simp [flushMachine]
  · exact h
  · exact h

/-- A step of the held flush changes its phase only. -/
theorem scheduleInv_progress {f : ℕ} {l : ObserverStep Item} (h : ScheduleInv s)
    (hf : s.flushTask = .started f) (hl : NoOverlap s.observer l)
    (hlen : ((flushMachine Item).next s.observer l).flushes.length = s.observer.flushes.length) :
    ScheduleInv { s with observer := (flushMachine Item).next s.observer l } := by
  refine ⟨ordered_next hl h.ordered, fun hne => absurd hf (hne f), fun g hg => ?_⟩
  rw [hlen]
  exact h.held g hg

theorem length_next_send (o : ObserverState Item) (f : ℕ) (b : Bool) :
    ((flushMachine Item).next o (.send f b)).flushes.length = o.flushes.length := by
  simp only [flushMachine]
  split
  · split <;> simp
  · rfl

theorem length_next_restore (o : ObserverState Item) (f : ℕ) :
    ((flushMachine Item).next o (.restore f)).flushes.length = o.flushes.length := by
  simp only [flushMachine]
  split <;> simp

theorem scheduleInv_scheduleFlushIfDue (h : ScheduleInv s) (now : ℚ) :
    ScheduleInv (s.scheduleFlushIfDue now) := by
  unfold FlushSchedule.scheduleFlushIfDue
  split
  · exact h
  · dsimp only
    split
    · rename_i hdue
      refine ⟨h.ordered, fun _ => ?_, fun f hf => by cases hf⟩
      cases htask : s.flushTask with
      | none => exact h.idle fun f => by simp [htask]
      | created => exact h.idle fun f => by simp [htask]
      | started f =>
          simp only [htask, reduceCtorEq, FlushSchedule.taskDone, Option.any_eq_true,
            false_or] at hdue
          obtain ⟨p, hp, hended⟩ := hdue
          exact all_ended h.ordered (h.held f htask) hp hended
    · exact ⟨h.ordered, h.idle, h.held⟩

theorem scheduleInv_of_reachable (hs : (callMachine Item).Reachable s) : ScheduleInv s := by
  refine Machine.Reachable.invariant (I := ScheduleInv) (fun s₀ h₀ => ?_) (fun t l _ ht => ?_) hs
  · obtain ⟨⟨runId, ho⟩, htask⟩ := h₀
    constructor
    · rw [ho]
      simp [ObserverState.Ordered, ObserverState.new, ObserverState.delivered,
        ObserverState.inFlight]
    · simp [ho, ObserverState.new]
    · simp [htask]
  · cases l with
    | observe items => exact scheduleInv_observe ht items
    | scheduleFlush now => exact scheduleInv_scheduleFlushIfDue ht now
    | startTask => exact scheduleInv_startTask ht
    | send delivers =>
        simp only [callMachine]
        split
        · exact scheduleInv_progress ht ‹_› trivial (length_next_send _ _ _)
        · exact ht
        · exact ht
    | restore =>
        simp only [callMachine]
        split
        · exact scheduleInv_progress ht ‹_› trivial (length_next_restore _ _)
        · exact ht
        · exact ht

end Schedule

/-! ## The contract of closing -/

/-- The flush task held by the session ends by an exception: it has failed already, or
one of the sends left to it does not get through. -/
def FlushSchedule.TaskFails (s : FlushSchedule Item) (lands : ℕ → Bool) : Prop :=
  ∃ f p, s.startTask.flushTask = .started f ∧ s.startTask.observer.flushes[f]? = some p ∧
    FlushFails p lands

section Close

variable {s : FlushSchedule Item}

/-- Awaiting the flush task raises exactly when the task fails; else it leaves no flush
running. -/
theorem awaitFlushTask_spec (hs : ScheduleInv s) (lands : ℕ → Bool)
    (items : ∀ k, List (Item k)) :
    let out := awaitFlushTask s lands items
    (out.2 = true ↔ s.TaskFails lands) ∧ (out.2 = false →
      out.1.observer.Ordered ∧ (∀ p ∈ out.1.observer.flushes, p.ended = true) ∧
      ∀ k, s.observer.observed k <+: out.1.observer.observed k) := by
  intro out
  have hstart := scheduleInv_startTask hs
  have hobs := scheduleInv_observe hstart items
  have hgrow : ∀ k, s.observer.observed k <+: (s.startTask.observe items).observer.observed k := by
    intro k
    have hsame : s.startTask.observer.observed k = s.observer.observed k := by
      unfold FlushSchedule.startTask
      split <;> simp [flushMachine]
    exact ⟨items k, by rw [← hsame]; rfl⟩
  have htask : (s.startTask.observe items).flushTask = s.startTask.flushTask := rfl
  cases hheld : s.startTask.flushTask with
  | none | created =>
      have hout : out = (s.startTask.observe items, false) := by
        simp [out, awaitFlushTask, htask, hheld]
      rw [hout]
      refine ⟨by simp [FlushSchedule.TaskFails, hheld], fun _ => ⟨hobs.ordered, ?_, hgrow⟩⟩
      exact hobs.idle fun f => by simp [htask, hheld]
  | started f =>
      have hlast := hstart.held f hheld
      obtain ⟨p, hp⟩ : ∃ p, s.startTask.observer.flushes[f]? = some p :=
        ⟨_, List.getElem?_eq_getElem (by omega)⟩
      have hp' : (s.startTask.observe items).observer.flushes[f]? = some p := hp
      have hlt : f < (s.startTask.observe items).observer.flushes.length :=
        (List.getElem?_eq_some_iff.mp hp').1
      have hout : out = ({ s.startTask.observe items with
          observer := settleFlush f lands (s.startTask.observe items).observer },
          ((settleFlush f lands (s.startTask.observe items).observer).flushes[f]?).any
            fun p => p matches .raised) := by
        simp [out, awaitFlushTask, htask, hheld]
      have hfails : s.TaskFails lands ↔ FlushFails p lands := by
        constructor
        · rintro ⟨f', p', hf', hp₁, hfail⟩
          rw [hheld, FlushTask.started.injEq] at hf'
          subst hf'
          rw [hp, Option.some.injEq] at hp₁
          rwa [hp₁]
        · exact fun hfail => ⟨f, p, hheld, hp, hfail⟩
      rw [hout, hfails]
      by_cases hfail : FlushFails p lands
      · have hend := settleFlush_raises hp' hfail
        simp [hend, hlt, hfail]
      · obtain ⟨⟨n, hend⟩, -, hobserved⟩ := settleFlush_returns hp' hfail
        have hret : (settleFlush f lands (s.startTask.observe items).observer).flushes[f]? =
            some (.returned n) := by rw [hend, List.getElem?_set_self hlt]
        refine ⟨by simp [hret, hfail], fun _ => ⟨ordered_settleFlush hobs.ordered lands, ?_, ?_⟩⟩
        · refine all_ended (ordered_settleFlush hobs.ordered lands) ?_ hret rfl
          rw [hend, List.length_set]
          exact hobs.held f hheld
        · intro k
          dsimp only
          rw [hobserved]
          exact hgrow k

/-- A flush with a reachable control plane, started when no other is running, delivers
everything observed. -/
theorem delivered_runFlush {o : ObserverState Item} (ho : o.Ordered)
    (hended : ∀ p ∈ o.flushes, p.ended = true) (k : ObservationKind) :
    (runFlush (fun _ => true) o).delivered k = o.observed k := by
  set o₁ := (flushMachine Item).next o .flush with ho₁
  have hordered : o₁.Ordered := ordered_next (l := .flush) hended ho
  have hlen : o₁.flushes.length = o.flushes.length + 1 := by simp [ho₁, flushMachine]
  obtain ⟨p, hp⟩ : ∃ p, o₁.flushes[o.flushes.length]? = some p :=
    ⟨_, List.getElem?_eq_getElem (by omega)⟩
  have hlands : ¬ FlushFails p fun _ => true := by
    have hphase : p = if o.snapshot.itemCount = 0 then .returned 0
        else .loop (boundedObservationBatches o.snapshot) 0 := by
      simp only [ho₁, flushMachine, List.getElem?_concat_length, Option.some.injEq] at hp
      exact hp.symm
    rw [hphase]
    split
    · exact id
    · cases boundedObservationBatches o.snapshot with
      | nil => exact id
      | cons b rest => simp [FlushPhase.loop, FlushFails]
  obtain ⟨⟨n, hend⟩, hpending, hobserved⟩ := settleFlush_returns hp hlands
  have hfinal : (runFlush (fun _ => true) o) = settleFlush o.flushes.length (fun _ => true) o₁ := rfl
  have hret : (settleFlush o.flushes.length (fun _ => true) o₁).flushes[o.flushes.length]? =
      some (.returned n) := by rw [hend, List.getElem?_set_self (by omega)]
  have hord := ordered_settleFlush (f := o.flushes.length) hordered fun _ => true
  have hall := all_ended hord (by rw [hend, List.length_set, hlen]) hret rfl
  have hk := hord.2 k
  rw [ObserverState.inFlight, flatMap_ended hall, hpending, hobserved] at hk
  rw [hfinal]
  simpa [ho₁, flushMachine] using hk

end Close

/-- What closing a realtime call has to do: return, having made exactly one request, to
fail the run when a failure is known and can be reported and else to complete it, with
everything observed before delivered and every background task done. -/
def RealtimeCallSession.CloseContract (s : RealtimeCallSession Item)
    (failureAlias : Option String) (env : CloseEnv Item)
    (out : CloseOutcome (RealtimeCallSession Item)) : Prop :=
  out.raised = false ∧
  (if s.hasFailRun ∧ (failureAlias.isSome ∨ env.providerCloses = false) then
    ∃ a, out.requests = [.failRun a] else out.requests = [.completeRun]) ∧
  (∀ k, s.observer.observed k <+: out.session.observer.delivered k) ∧
  ∀ t ∈ out.session.backgroundTasks, t = .done

/-- The same for a loopback call, which has no provider, no tasks and no failure. -/
def LoopbackCallSession.CloseContract (s : LoopbackCallSession Item)
    (out : CloseOutcome (LoopbackCallSession Item)) : Prop :=
  out.raised = false ∧ out.requests = [.completeRun] ∧
  ∀ k, s.observer.observed k <+: out.session.observer.delivered k

section Contract

theorem finish_spec (s : RealtimeCallSession Item) (failureAlias : Option String)
    (providerCloses : Bool) :
    if s.hasFailRun ∧ (failureAlias.isSome ∨ providerCloses = false) then
      ∃ a, s.finish (closeAlias failureAlias providerCloses) = .failRun a
    else s.finish (closeAlias failureAlias providerCloses) = .completeRun := by
  cases failureAlias with
  | none =>
      cases providerCloses <;> cases h : s.hasFailRun <;>
        simp [RealtimeCallSession.finish, closeAlias, h]
  | some a =>
      by_cases ha : a = "" <;> cases providerCloses <;> cases h : s.hasFailRun <;>
        simp [RealtimeCallSession.finish, closeAlias, h, ha]

theorem prefix_observe (s : FlushSchedule Item) (items : ∀ k, List (Item k))
    (k : ObservationKind) : s.observer.observed k <+: (s.observe items).observer.observed k :=
  ⟨items k, rfl⟩

theorem realtime_close_iff {s : RealtimeCallSession Item}
    (hs : (callMachine Item).Reachable s.toFlushSchedule) (hopen : s.closed = false)
    (failureAlias : Option String) (env : CloseEnv Item) :
    s.CloseContract failureAlias env (s.close failureAlias env) ↔
      ¬ (s.beginClose env).TaskFails env.lands := by
  have hbegin : ScheduleInv (s.beginClose env).toFlushSchedule :=
    scheduleInv_observe (scheduleInv_observe
      (scheduleInv_observe (scheduleInv_of_reachable hs) _) _) _
  have hgrow : ∀ k, s.observer.observed k <+: (s.beginClose env).observer.observed k := fun k =>
    ((prefix_observe _ _ k).trans (prefix_observe _ _ k)).trans (prefix_observe _ _ k)
  obtain ⟨hiff, hgood⟩ := awaitFlushTask_spec hbegin env.lands env.duringFlush
  cases hawait : awaitFlushTask (s.beginClose env).toFlushSchedule env.lands env.duringFlush with
  | mk schedule raised =>
      rw [hawait] at hiff hgood
      cases raised with
      | true =>
          have hfails := hiff.mp rfl
          simp [RealtimeCallSession.CloseContract, RealtimeCallSession.close, hopen, hawait, hfails]
      | false =>
          have hnot : ¬ (s.beginClose env).TaskFails env.lands := by
            intro hfails
            cases hiff.mpr hfails
          obtain ⟨hordered, hended, hobserved⟩ := hgood rfl
          have hclose : s.close failureAlias env =
              ⟨{ s.beginClose env with
                  toFlushSchedule := { schedule.observe env.duringCancel with
                    observer := runFlush (fun _ => true)
                      (schedule.observe env.duringCancel).observer }
                  backgroundTasks := s.backgroundTasks.map fun _ => .done },
                [s.finish (closeAlias failureAlias env.providerCloses)], false⟩ := by
            simp only [RealtimeCallSession.close, hopen, hawait]
            rfl
          rw [hclose]
          refine ⟨fun _ => hnot, fun _ => ⟨rfl, ?_, fun k => ?_, ?_⟩⟩
          · have hfinish := finish_spec s failureAlias env.providerCloses
            split
            · rename_i hcond
              rw [if_pos hcond] at hfinish
              obtain ⟨a, ha⟩ := hfinish
              exact ⟨a, by rw [ha]⟩
            · rename_i hcond
              rw [if_neg hcond] at hfinish
              rw [hfinish]
          · have hlast := delivered_runFlush
              (o := (schedule.observe env.duringCancel).observer)
              (ordered_next (l := .observe env.duringCancel) trivial hordered) hended k
            dsimp only
            rw [hlast]
            exact ((hgrow k).trans (hobserved k)).trans (prefix_observe schedule _ k)
          · intro t ht
            obtain ⟨_, -, rfl⟩ := List.mem_map.mp ht
            rfl

theorem loopback_close_iff {s : LoopbackCallSession Item}
    (hs : (callMachine Item).Reachable s.toFlushSchedule) (lands : ℕ → Bool)
    (items : ∀ k, List (Item k)) :
    s.CloseContract (s.close lands items) ↔
      ¬ (s.toFlushSchedule.observe (only [s.bye])).TaskFails lands := by
  have hbegin : ScheduleInv (s.toFlushSchedule.observe (only [s.bye])) :=
    scheduleInv_observe (scheduleInv_of_reachable hs) _
  obtain ⟨hiff, hgood⟩ := awaitFlushTask_spec hbegin lands items
  cases hawait : awaitFlushTask (s.toFlushSchedule.observe (only [s.bye])) lands items with
  | mk schedule raised =>
      rw [hawait] at hiff hgood
      cases raised with
      | true =>
          have hfails := hiff.mp rfl
          simp [LoopbackCallSession.CloseContract, LoopbackCallSession.close, hawait, hfails]
      | false =>
          have hnot : ¬ (s.toFlushSchedule.observe (only [s.bye])).TaskFails lands := by
            intro hfails
            cases hiff.mpr hfails
          obtain ⟨hordered, hended, hobserved⟩ := hgood rfl
          have hclose : s.close lands items =
              ⟨{ s with toFlushSchedule := { schedule with
                  observer := runFlush (fun _ => true) schedule.observer } },
                [.completeRun], false⟩ := by
            simp [LoopbackCallSession.close, hawait]
          rw [hclose]
          refine ⟨fun _ => hnot, fun _ => ⟨rfl, rfl, fun k => ?_⟩⟩
          dsimp only
          rw [delivered_runFlush hordered hended k]
          exact (prefix_observe _ _ k).trans (hobserved k)

/-- Closing a call, of either kind and from any state of it, meets its contract exactly
when the flush task that the session holds does not fail. -/
theorem close_meets_contract_iff :
    (∀ (s : RealtimeCallSession Item) (failureAlias : Option String) (env : CloseEnv Item),
      (callMachine Item).Reachable s.toFlushSchedule → s.closed = false →
      (s.CloseContract failureAlias env (s.close failureAlias env) ↔
        ¬ (s.beginClose env).TaskFails env.lands)) ∧
    ∀ (s : LoopbackCallSession Item) (lands : ℕ → Bool) (items : ∀ k, List (Item k)),
      (callMachine Item).Reachable s.toFlushSchedule →
      (s.CloseContract (s.close lands items) ↔
        ¬ (s.toFlushSchedule.observe (only [s.bye])).TaskFails lands) :=
  ⟨fun _ failureAlias env hs hopen => realtime_close_iff hs hopen failureAlias env,
    fun _ lands items hs => loopback_close_iff hs lands items⟩

end Contract

/-! ## One failed periodic flush -/

/-- A call that has just been set up. -/
def newCall : FlushSchedule fun _ => Unit :=
  { observer := .new "run", flushTask := .none, nextFlushAt := 0, flushIntervalSeconds := 1 / 10 }

/-- A metric is observed, and the flush that is due fails and restores it. -/
def failedFlush : List (CallStep fun _ => Unit) :=
  [.observe (only (k := .metrics) [()]), .scheduleFlush 1, .startTask, .send false, .restore]

/-- The call as its end finds it. -/
def callToClose (steps : List (CallStep fun _ => Unit)) : RealtimeCallSession fun _ => Unit :=
  { toFlushSchedule := (callMachine _).exec newCall steps
    bye := (), hasFailRun := true, backgroundTasks := [.running], closed := false }

/-- A healthy provider and control plane. -/
def healthy : CloseEnv fun _ => Unit :=
  { providerCloses := true, duringProviderClose := fun _ => [], endedEvents := [],
    lands := fun _ => true, duringFlush := fun _ => [], duringCancel := fun _ => [] }

theorem reachable_callToClose (steps : List (CallStep fun _ => Unit)) :
    (callMachine fun _ => Unit).Reachable (callToClose steps).toFlushSchedule :=
  ⟨newCall, steps, ⟨⟨"run", rfl⟩, rfl⟩, Machine.along_true _ _, rfl⟩

/-- With everything healthy at the end of the call, a periodic flush that failed earlier
makes `close` raise: no request is made, the restored metric is not delivered, the
background task keeps running, and closing again does nothing. -/
theorem close_after_failed_flush :
    let s := callToClose failedFlush
    let out := s.close none healthy
    (callMachine fun _ => Unit).Reachable s.toFlushSchedule ∧ s.closed = false ∧
      ¬ s.CloseContract none healthy out ∧ out.raised = true ∧ out.requests = [] ∧
      out.session.observer.pending .metrics = [()] ∧
      out.session.backgroundTasks = [.running] ∧
      (out.session.close none healthy).requests = [] := by
  intro s out
  have hraised : out.raised = true := by decide +kernel
  refine ⟨reachable_callToClose failedFlush, rfl, fun hmeets => ?_, hraised, ?_⟩
  · rw [hmeets.1] at hraised
    cases hraised
  · decide +kernel

/-- Without a failed flush the same call is closed as it should. -/
theorem close_after_observation :
    let s := callToClose [.observe (only (k := .metrics) [()])]
    s.CloseContract none healthy (s.close none healthy) := by
  intro s
  refine (close_meets_contract_iff.1 s none healthy (reachable_callToClose _) rfl).mpr ?_
  rintro ⟨f, p, hf, -⟩
  have hnone : (s.beginClose healthy).startTask.flushTask = .none := by decide +kernel
  rw [hnone] at hf
  cases hf

end VoxBench.Telephony
