import VoxBench.Lib.Machine
import VoxBench.Observability.Observer

/-!
# Capture health of a tap

Calls of several threads on one `RtpPacketTapAdapter`. A packet is queued in the observer and
counted in two critical sections, and a report takes the counters in one and emits them in
another, so that calls are between their sections when others are made. Whatever the order,
each count ends up in one window.

## Main definitions

* `tapMachine` — the sections of the calls, in any order.
* `Window`, `Tiles` — the reported windows.

## Main results

* `tap_health_conserved` — what the reported windows and the counters add up to.
-/

namespace VoxBench.Observability

open VoxBench.Lib VoxBench.ControlPlane

/-! ## Snapshots that are checked -/

namespace RtpPacketTapAdapter

/-- The length of the window in milliseconds, or zero when it would end before it starts. -/
def windowMs (startedAt reportedAt : Datetime) : ℚ :=
  max 0 (totalMs (reportedAt.instant - startedAt.instant))

/-- `_snapshot`. -/
def takeSnapshot (tap : RtpPacketTapAdapter) (reportedAt : Datetime) :
    Except ObserverError RtpCaptureHealthSnapshot :=
  let continuity : CaptureContinuity :=
    if tap.captureDropCount ≠ 0 ∨ tap.decodeErrorCount ≠ 0 then .compromised
    else if tap.captureDropCounterSupported then .verified
    else .notIndependentlyVerified
  RtpCaptureHealthSnapshot.make tap.format.streamAlias tap.format.direction tap.observedPacketCount tap.captureDropCount
    tap.decodeErrorCount tap.captureDropCounterSupported continuity
    (.finite (windowMs tap.windowStartedAt reportedAt)) tap.format.clockDomain
    (tap.format.alignmentUncertaintyMs.map .finite) reportedAt

theorem checkUncertainty_map_finite {o : Option ℚ} (h : ∀ q ∈ o, 0 ≤ q) :
    checkUncertainty (o.map .finite) = some ⟨o, h⟩ := by
  cases o with
  | none => rfl
  | some q => simp [checkUncertainty, h q rfl]

/-- The checks of a snapshot never fail. -/
theorem takeSnapshot_eq_ok (tap : RtpPacketTapAdapter) (reportedAt : Datetime) :
    tap.takeSnapshot reportedAt = .ok (tap.snapshot reportedAt) := by
  have hcount : ∀ n : ℕ, ¬ (n : ℤ) < 0 := by
    intro n
    omega
  simp [takeSnapshot, RtpCaptureHealthSnapshot.make, snapshot, expectedContinuity, windowMs, hcount,
    tap.format.alias_safe, tap.format.domain_safe,
    checkUncertainty_map_finite tap.format.uncertainty_nonneg]

/-- The counters: observed packets, capture drops and decode errors. -/
def figures (tap : RtpPacketTapAdapter) : ℕ × ℕ × ℕ :=
  (tap.observedPacketCount, tap.captureDropCount, tap.decodeErrorCount)

theorem of_make {streamAlias : String} {direction : RtpDirection} {clockRateHz : ℤ}
    {clockDomain : String} {alignmentUncertaintyMs : Option PyFloat} {supported : Bool}
    {startedAt : Datetime} {tap : RtpPacketTapAdapter}
    (h : make streamAlias direction clockRateHz clockDomain alignmentUncertaintyMs supported
      startedAt = .ok tap) : tap.windowStartedAt = startedAt ∧ tap.figures = 0 := by
  simp only [make] at h
  cases hformat : RtpPacket.make streamAlias direction 0 0 0 clockRateHz false clockDomain
      alignmentUncertaintyMs startedAt with
  | error e => simp [hformat, Except.map] at h
  | ok format =>
      rw [hformat] at h
      cases h
      exact ⟨rfl, rfl⟩

end RtpPacketTapAdapter

def RtpCaptureHealthSnapshot.figures (snapshot : RtpCaptureHealthSnapshot) : ℕ × ℕ × ℕ :=
  (snapshot.observedPacketCount, snapshot.captureDropCount, snapshot.decodeErrorCount)

/-! ## The calls -/

/-- A call between two of its critical sections. -/
inductive TapCall where
  /-- `observe_datagram` on bytes that are no packet, before the error is counted. -/
  | rejected
  /-- `observe_datagram`, before the packet is queued. -/
  | decoded (packet : RtpPacket)
  /-- `observe_datagram`, before the queued packet is counted. -/
  | queued
  /-- `report_health`, before the counters are taken. -/
  | reporting (reportedAt : Datetime)
  /-- `report_health`, before the snapshot is emitted. -/
  | taken (snapshot : RtpCaptureHealthSnapshot)

/-- What was queued in the observer, by the tap or by others. -/
inductive Queued where
  | packet (packet : RtpPacket)
  | health (snapshot : RtpCaptureHealthSnapshot)
  | other (event : TimelineEvent)

/-- What is counted at a time. -/
inductive Counted where
  | packet
  | drops (count : ℕ)
  | decodeError

/-- A window that was taken, with what was counted in it. -/
structure Window where
  startedAt : Datetime
  snapshot : RtpCaptureHealthSnapshot
  counted : List Counted

/-- A tap with its calls in progress and what was queued in its observer. The other fields
record what happened: everything that was counted, the part of it since the last report, the
windows, and what was dropped and rejected. -/
structure TapSystem where
  tap : RtpPacketTapAdapter
  calls : List TapCall := []
  observer : List Queued := []
  counted : List Counted := []
  current : List Counted := []
  windows : List Window := []
  dropsRecorded : ℕ := 0
  datagramsRejected : ℕ := 0

inductive TapStep where
  /-- A call of `observe_datagram`, up to its first critical section. -/
  | observeDatagram (datagram : List UInt8) (ts : Datetime)
  | recordCaptureDrop (count : ℤ)
  | snapshot (ts : Datetime)
  /-- A call of `report_health`, up to its first critical section. -/
  | reportHealth (ts : Datetime)
  /-- The next section of a call in progress. -/
  | advance (k : ℕ)
  /-- Another user of the observer. -/
  | other (event : TimelineEvent)

namespace TapSystem

/-- Count something in the current window. -/
def count (s : TapSystem) (tap : RtpPacketTapAdapter) (c : Counted) : TapSystem :=
  { s with tap, counted := s.counted ++ [c], current := s.current ++ [c] }

/-- The next section of a call, which is no longer among the calls in progress. -/
def perform (s : TapSystem) : TapCall → TapSystem
  | .rejected =>
      s.count { s.tap with decodeErrorCount := s.tap.decodeErrorCount + 1 } .decodeError
  | .decoded packet =>
      { s with observer := s.observer ++ [.packet packet], calls := .queued :: s.calls }
  | .queued =>
      s.count { s.tap with observedPacketCount := s.tap.observedPacketCount + 1 } .packet
  | .reporting reportedAt =>
      match s.tap.takeSnapshot reportedAt with
      | .error _ => s
      | .ok snapshot =>
          { s with
            tap := (s.tap.reportHealth reportedAt).2
            calls := .taken snapshot :: s.calls
            current := []
            windows := s.windows ++ [⟨s.tap.windowStartedAt, snapshot, s.current⟩] }
  | .taken snapshot => { s with observer := s.observer ++ [.health snapshot] }

def next (s : TapSystem) : TapStep → TapSystem
  | .observeDatagram datagram ts =>
      match rtpPacketFromDatagram s.tap.format datagram ts with
      | .error _ =>
          { s with calls := .rejected :: s.calls, datagramsRejected := s.datagramsRejected + 1 }
      | .ok packet => { s with calls := .decoded packet :: s.calls }
  | .recordCaptureDrop count =>
      match s.tap.recordCaptureDrop count with
      | .error _ => s
      | .ok tap =>
          { s.count tap (.drops count.toNat) with
            dropsRecorded := s.dropsRecorded + count.toNat }
  | .snapshot _ => s
  | .reportHealth ts => { s with calls := .reporting ts :: s.calls }
  | .advance k =>
      match s.calls[k]? with
      | none => s
      | some call => { s with calls := s.calls.eraseIdx k }.perform call
  | .other event => { s with observer := s.observer ++ [.other event] }

/-- No call is in progress. -/
def Quiescent (s : TapSystem) : Prop := s.calls = []

/-- The packets that the tap queued in the observer. -/
def packetsQueued (s : TapSystem) : ℕ :=
  s.observer.countP fun q => match q with | .packet _ => true | _ => false

/-- The snapshots that the tap emitted. -/
def emitted (s : TapSystem) : List RtpCaptureHealthSnapshot :=
  s.observer.filterMap fun q => match q with | .health snapshot => some snapshot | _ => none

/-- What there was to count. -/
def totals (s : TapSystem) : ℕ × ℕ × ℕ := (s.packetsQueued, s.dropsRecorded, s.datagramsRejected)

end TapSystem

/-- A new tap and the calls on it. -/
def tapMachine (startedAt : Datetime) : Machine TapSystem TapStep where
  init s := ∃ streamAlias direction clockRateHz clockDomain alignmentUncertaintyMs
    captureDropCounterSupported tap,
      RtpPacketTapAdapter.make streamAlias direction clockRateHz clockDomain
        alignmentUncertaintyMs captureDropCounterSupported startedAt = .ok tap ∧ s = { tap }
  enabled s l :=
    match l with
    | .advance k => k < s.calls.length
    | _ => True
  next := TapSystem.next

instance (startedAt : Datetime) : ∀ s l, Decidable ((tapMachine startedAt).enabled s l)
  | s, .advance k => inferInstanceAs (Decidable (k < s.calls.length))
  | _, .observeDatagram _ _ | _, .recordCaptureDrop _ | _, .snapshot _ | _, .reportHealth _
  | _, .other _ => isTrue trivial

/-! ## What is preserved -/

def Counted.figures : Counted → ℕ × ℕ × ℕ
  | .packet => (1, 0, 0)
  | .drops count => (0, count, 0)
  | .decodeError => (0, 0, 1)

/-- What was counted, summed up. -/
def figuresOf (log : List Counted) : ℕ × ℕ × ℕ := (log.map Counted.figures).sum

/-- What a call in progress has yet to count. -/
def TapCall.pending : TapCall → ℕ × ℕ × ℕ
  | .rejected => (0, 0, 1)
  | .queued => (1, 0, 0)
  | _ => 0

/-- The snapshot that a call in progress has yet to emit. -/
def TapCall.snapshot? : TapCall → Option RtpCaptureHealthSnapshot
  | .taken snapshot => some snapshot
  | _ => none

/-- The windows follow each other from one time to another, and each has its length. -/
def Tiles : Datetime → List Window → Datetime → Prop
  | start, [], stop => start = stop
  | start, w :: ws, stop =>
      w.startedAt = start ∧
        w.snapshot.windowDurationMs = RtpPacketTapAdapter.windowMs start w.snapshot.ts ∧
        Tiles w.snapshot.ts ws stop

/-- The accounts of a tap. -/
structure Accounted (startedAt : Datetime) (s : TapSystem) : Prop where
  /-- What there is to count is counted, or about to be. -/
  totals : s.totals = figuresOf s.counted + (s.calls.map TapCall.pending).sum
  /-- Everything counted is in one window, or in the current one. -/
  parts : s.counted = (s.windows.map (·.counted)).flatten ++ s.current
  reported : ∀ w ∈ s.windows, w.snapshot.figures = figuresOf w.counted
  counters : s.tap.figures = figuresOf s.current
  /-- Each snapshot that was taken is emitted once, or about to be. -/
  emitted : (s.windows.map (·.snapshot)).Perm (s.emitted ++ s.calls.filterMap TapCall.snapshot?)
  tiles : Tiles startedAt s.windows s.tap.windowStartedAt

theorem figuresOf_append (log log' : List Counted) :
    figuresOf (log ++ log') = figuresOf log + figuresOf log' := by
  simp [figuresOf]

theorem figuresOf_singleton (c : Counted) : figuresOf [c] = c.figures := by
  simp [figuresOf]

theorem figuresOf_flatten (logs : List (List Counted)) :
    figuresOf logs.flatten = (logs.map figuresOf).sum := by
  induction logs with
  | nil => rfl
  | cons log logs ih => rw [List.flatten_cons, figuresOf_append, ih, List.map_cons, List.sum_cons]

/-- A window that starts where the others end goes on with them. -/
theorem Tiles.snoc {start : Datetime} {ws : List Window} {w : Window}
    (h : Tiles start ws w.startedAt)
    (hw : w.snapshot.windowDurationMs =
      RtpPacketTapAdapter.windowMs w.startedAt w.snapshot.ts) :
    Tiles start (ws ++ [w]) w.snapshot.ts := by
  induction ws generalizing start with
  | nil =>
      obtain rfl : start = w.startedAt := h
      exact ⟨rfl, hw, rfl⟩
  | cons v ws ih => exact ⟨h.1, h.2.1, ih h.2.2⟩

section Steps

variable {startedAt : Datetime} {s : TapSystem}

/-- Counting something that a call in progress had yet to count. -/
theorem Accounted.count (h : Accounted startedAt s) {call : TapCall} {rest : List TapCall}
    {c : Counted} {tap : RtpPacketTapAdapter} (hcalls : s.calls.Perm (call :: rest))
    (hpending : call.pending = c.figures) (hsnapshot : call.snapshot? = none)
    (htap : tap.figures = s.tap.figures + c.figures)
    (hstart : tap.windowStartedAt = s.tap.windowStartedAt) :
    Accounted startedAt ({ s with calls := rest }.count tap c) where
  totals := by
    have htotals := h.totals
    rw [(hcalls.map _).sum_eq, List.map_cons, List.sum_cons, hpending] at htotals
    change s.totals = figuresOf (s.counted ++ [c]) + _
    rw [htotals, figuresOf_append, figuresOf_singleton]
    abel
  parts := by
    change s.counted ++ [c] = _ ++ (s.current ++ [c])
    rw [h.parts, List.append_assoc]
    rfl
  reported := h.reported
  counters := by
    change tap.figures = figuresOf (s.current ++ [c])
    rw [htap, h.counters, figuresOf_append, figuresOf_singleton]
  emitted := by
    have hemitted := h.emitted.trans ((hcalls.filterMap TapCall.snapshot?).append_left _)
    rwa [List.filterMap_cons_none hsnapshot] at hemitted
  tiles := by
    change Tiles startedAt s.windows tap.windowStartedAt
    rw [hstart]
    exact h.tiles

/-- Queueing a packet leaves it to be counted. -/
theorem Accounted.queue (h : Accounted startedAt s) {packet : RtpPacket} {rest : List TapCall}
    (hcalls : s.calls.Perm (.decoded packet :: rest)) :
    Accounted startedAt ({ s with calls := rest }.perform (.decoded packet)) where
  totals := by
    have htotals := h.totals
    rw [(hcalls.map _).sum_eq, List.map_cons, List.sum_cons] at htotals
    have hqueued : ({ s with calls := rest }.perform (.decoded packet)).totals =
        s.totals + (1, 0, 0) := by
      simp [TapSystem.totals, TapSystem.perform, TapSystem.packetsQueued]
    change _ = figuresOf s.counted + ((1, 0, 0) + (rest.map TapCall.pending).sum)
    rw [hqueued, htotals]
    simp only [TapCall.pending, zero_add]
    abel
  parts := h.parts
  reported := h.reported
  counters := h.counters
  emitted := by
    have hemitted := h.emitted.trans ((hcalls.filterMap TapCall.snapshot?).append_left _)
    have hsame : ({ s with calls := rest }.perform (.decoded packet)).emitted = s.emitted := by
      simp [TapSystem.perform, TapSystem.emitted]
    rw [hsame]
    exact hemitted
  tiles := h.tiles

/-- A report closes the current window. -/
theorem Accounted.report (h : Accounted startedAt s) {reportedAt : Datetime}
    {rest : List TapCall} (hcalls : s.calls.Perm (.reporting reportedAt :: rest)) :
    Accounted startedAt ({ s with calls := rest }.perform (.reporting reportedAt)) := by
  have hstate : { s with calls := rest }.perform (.reporting reportedAt) =
      { s with
        tap := (s.tap.reportHealth reportedAt).2
        calls := .taken (s.tap.snapshot reportedAt) :: rest
        current := []
        windows := s.windows ++
          [⟨s.tap.windowStartedAt, s.tap.snapshot reportedAt, s.current⟩] } := by
    simp only [TapSystem.perform, RtpPacketTapAdapter.takeSnapshot_eq_ok]
  rw [hstate]
  exact {
    totals := by
      have htotals := h.totals
      rw [(hcalls.map _).sum_eq] at htotals
      exact htotals
    parts := by
      simpa using h.parts
    reported := by
      intro w hw
      rcases List.mem_append.mp hw with hw | hw
      · exact h.reported w hw
      · obtain rfl := List.mem_singleton.mp hw
        exact h.counters
    counters := rfl
    emitted := by
      have hemitted := h.emitted.trans ((hcalls.filterMap TapCall.snapshot?).append_left _)
      rw [List.filterMap_cons_none rfl] at hemitted
      rw [List.map_append]
      change List.Perm _ (s.emitted ++
        (s.tap.snapshot reportedAt :: rest.filterMap TapCall.snapshot?))
      refine (hemitted.append_right _).trans ?_
      rw [List.append_assoc]
      exact (List.perm_append_comm).append_left _
    tiles := Tiles.snoc h.tiles (by
      simp [RtpPacketTapAdapter.snapshot, RtpPacketTapAdapter.windowMs]) }

/-- A snapshot that was taken is emitted. -/
theorem Accounted.emit (h : Accounted startedAt s) {snapshot : RtpCaptureHealthSnapshot}
    {rest : List TapCall} (hcalls : s.calls.Perm (.taken snapshot :: rest)) :
    Accounted startedAt ({ s with calls := rest }.perform (.taken snapshot)) where
  totals := by
    have htotals := h.totals
    rw [(hcalls.map _).sum_eq, List.map_cons, List.sum_cons] at htotals
    simpa [TapSystem.perform, TapSystem.totals, TapSystem.packetsQueued, TapCall.pending]
      using htotals
  parts := h.parts
  reported := h.reported
  counters := h.counters
  emitted := by
    have hemitted := h.emitted.trans ((hcalls.filterMap TapCall.snapshot?).append_left _)
    simpa [TapSystem.perform, TapSystem.emitted, TapCall.snapshot?] using hemitted
  tiles := h.tiles

theorem Accounted.perform (h : Accounted startedAt s) {call : TapCall} {rest : List TapCall}
    (hcalls : s.calls.Perm (call :: rest)) :
    Accounted startedAt ({ s with calls := rest }.perform call) := by
  cases call with
  | rejected => exact h.count hcalls rfl rfl rfl rfl
  | queued => exact h.count hcalls rfl rfl rfl rfl
  | decoded packet => exact h.queue hcalls
  | reporting reportedAt => exact h.report hcalls
  | taken snapshot => exact h.emit hcalls

theorem Accounted.recordCaptureDrop (h : Accounted startedAt s) (count : ℤ) :
    Accounted startedAt (s.next (.recordCaptureDrop count)) := by
  by_cases hcount : count ≤ 0
  · simpa [TapSystem.next, RtpPacketTapAdapter.recordCaptureDrop, hcount] using h
  · simp only [TapSystem.next, RtpPacketTapAdapter.recordCaptureDrop, hcount, if_false]
    exact {
      totals := by
        have htotals := h.totals
        change (s.packetsQueued, s.dropsRecorded + count.toNat, s.datagramsRejected) =
          figuresOf (s.counted ++ [.drops count.toNat]) + (s.calls.map TapCall.pending).sum
        have hmore : (s.packetsQueued, s.dropsRecorded + count.toNat, s.datagramsRejected) =
            s.totals + (0, count.toNat, 0) := rfl
        rw [hmore, htotals, figuresOf_append, figuresOf_singleton, Counted.figures]
        abel
      parts := by
        change s.counted ++ [_] = _ ++ (s.current ++ [_])
        rw [h.parts, List.append_assoc]
        rfl
      reported := h.reported
      counters := by
        change s.tap.figures + (0, count.toNat, 0) = figuresOf (s.current ++ [_])
        rw [h.counters, figuresOf_append, figuresOf_singleton, Counted.figures]
      emitted := h.emitted
      tiles := h.tiles }

theorem Accounted.observeDatagram (h : Accounted startedAt s) (datagram : List UInt8)
    (ts : Datetime) : Accounted startedAt (s.next (.observeDatagram datagram ts)) := by
  simp only [TapSystem.next]
  cases rtpPacketFromDatagram s.tap.format datagram ts with
  | error e =>
      exact { h with
        totals := by
          change (s.packetsQueued, s.dropsRecorded, s.datagramsRejected + 1) =
            figuresOf s.counted + ((0, 0, 1) + (s.calls.map TapCall.pending).sum)
          have hmore : (s.packetsQueued, s.dropsRecorded, s.datagramsRejected + 1) =
              s.totals + (0, 0, 1) := rfl
          rw [hmore, h.totals]
          abel }
  | ok packet =>
      exact { h with
        totals := by
          change s.totals = figuresOf s.counted + (0 + (s.calls.map TapCall.pending).sum)
          rw [h.totals, zero_add] }

theorem Accounted.next (h : Accounted startedAt s) (l : TapStep) :
    Accounted startedAt (s.next l) := by
  cases l with
  | observeDatagram datagram ts => exact h.observeDatagram datagram ts
  | recordCaptureDrop count => exact h.recordCaptureDrop count
  | snapshot ts => exact h
  | reportHealth ts =>
      exact { h with
        totals := by
          change s.totals = figuresOf s.counted + (0 + (s.calls.map TapCall.pending).sum)
          rw [h.totals, zero_add] }
  | advance k =>
      simp only [TapSystem.next]
      cases hcall : s.calls[k]? with
      | none => exact h
      | some call =>
          obtain ⟨hk, rfl⟩ := List.getElem?_eq_some_iff.mp hcall
          exact h.perform (List.getElem_cons_eraseIdx_perm hk).symm
  | other event =>
      have hsame : (s.next (.other event)).totals = s.totals ∧
          (s.next (.other event)).emitted = s.emitted := by
        simp [TapSystem.next, TapSystem.totals, TapSystem.packetsQueued, TapSystem.emitted]
      exact { h with
        totals := hsame.1.trans h.totals
        emitted := by
          rw [hsame.2]
          exact h.emitted }

theorem accounted_reachable (h : (tapMachine startedAt).Reachable s) : Accounted startedAt s := by
  apply Machine.Reachable.invariant ?_ (fun s l _ hs => hs.next l) h
  rintro s ⟨streamAlias, direction, rate, domain, uncertainty, supported, tap, htap, rfl⟩
  obtain ⟨hstart, hfigures⟩ := RtpPacketTapAdapter.of_make htap
  exact ⟨rfl, rfl, by simp, hfigures, List.Perm.refl _, hstart.symm⟩

end Steps

/-! ## The windows in time -/

/-- A window that ends where it starts or later has the length of the time between, as a
float. -/
theorem windowMs_of_le {start stop : Datetime} (h : start.instant ≤ stop.instant) :
    RtpPacketTapAdapter.windowMs start stop = totalMs (stop.instant - start.instant) :=
  max_eq_right (totalMs_nonneg (sub_nonneg.mpr h))

/-- The length of a window as a `timedelta`, to the microsecond. -/
def Window.microseconds (w : Window) : ℤ := roundHalfEven (w.snapshot.windowDurationMs * 1000)

/-- The end of a window is not before its start, nor some 35 years after it. -/
def Window.Readable (w : Window) : Prop :=
  w.startedAt.instant ≤ w.snapshot.ts.instant ∧
    w.snapshot.ts.instant - w.startedAt.instant < 2 ^ 50

theorem Tiles.duration {start stop : Datetime} {ws : List Window} (h : Tiles start ws stop) :
    ∀ w ∈ ws, w.startedAt.instant ≤ w.snapshot.ts.instant →
      w.snapshot.windowDurationMs = totalMs (w.snapshot.ts.instant - w.startedAt.instant) := by
  induction ws generalizing start with
  | nil => simp
  | cons v ws ih =>
      obtain ⟨hstart, hduration, hrest⟩ := h
      intro w hw hle
      rcases List.mem_cons.mp hw with rfl | hw
      · rw [hduration, ← hstart, windowMs_of_le hle]
      · exact ih hrest w hw hle

/-- The float is near enough to the length of the window to tell its microseconds. -/
theorem Tiles.microseconds {start stop : Datetime} {ws : List Window} (h : Tiles start ws stop)
    {w : Window} (hw : w ∈ ws) (hr : w.Readable) :
    w.microseconds = w.snapshot.ts.instant - w.startedAt.instant := by
  unfold Window.microseconds
  rw [h.duration w hw hr.1]
  apply roundHalfEven_totalMs
  rw [abs_of_nonneg (sub_nonneg.mpr hr.1)]
  exact hr.2

/-- Windows that follow each other in time fill it. -/
theorem Tiles.sum {start stop : Datetime} {ws : List Window} (h : Tiles start ws stop)
    (hr : ∀ w ∈ ws, w.Readable) :
    (ws.map Window.microseconds).sum = stop.instant - start.instant := by
  induction ws generalizing start with
  | nil =>
      obtain rfl : start = stop := h
      simp
  | cons w ws ih =>
      have hlength := h.microseconds List.mem_cons_self (hr w List.mem_cons_self)
      obtain ⟨hstart, -, hrest⟩ := h
      rw [List.map_cons, List.sum_cons, hlength, hstart,
        ih hrest fun v hv => hr v (List.mem_cons_of_mem w hv)]
      ring

/-- **Conservation of capture health.** In any interleaving of calls on a tap: once no call is
in progress, the windows that were emitted and the counters add up to the packets queued, the
drops recorded and the datagrams rejected. What was counted is counted in one window, or in the
current one; every window that was taken is emitted once, or about to be; no snapshot fails its
checks; and the windows follow each other from the start of the tap. Unless the clock went back,
the length that a window tells is the time between its ends as a float, and to the microsecond
it is that time and the lengths add up. -/
theorem tap_health_conserved {startedAt : Datetime} {s : TapSystem}
    (h : (tapMachine startedAt).Reachable s) :
    (s.Quiescent → (s.emitted.map (·.figures)).sum + s.tap.figures = s.totals ∧
      (s.windows.map (·.snapshot)).Perm s.emitted) ∧
    (s.counted = (s.windows.map (·.counted)).flatten ++ s.current ∧
      (∀ w ∈ s.windows, w.snapshot.figures = figuresOf w.counted) ∧
      s.tap.figures = figuresOf s.current ∧
      s.totals = figuresOf s.counted + (s.calls.map TapCall.pending).sum ∧
      (s.windows.map (·.snapshot)).Perm (s.emitted ++ s.calls.filterMap TapCall.snapshot?)) ∧
    (∀ reportedAt, s.tap.takeSnapshot reportedAt = .ok (s.tap.snapshot reportedAt)) ∧
    (∀ snapshot ∈ s.emitted, snapshot.continuity = expectedContinuity snapshot.captureDropCount
      snapshot.decodeErrorCount snapshot.captureDropCounterSupported) ∧
    Tiles startedAt s.windows s.tap.windowStartedAt ∧
    (∀ w ∈ s.windows, w.startedAt.instant ≤ w.snapshot.ts.instant →
      w.snapshot.windowDurationMs = totalMs (w.snapshot.ts.instant - w.startedAt.instant)) ∧
    (∀ w ∈ s.windows, w.Readable →
      w.microseconds = w.snapshot.ts.instant - w.startedAt.instant) ∧
    ((∀ w ∈ s.windows, w.Readable) →
      (s.windows.map Window.microseconds).sum =
        s.tap.windowStartedAt.instant - startedAt.instant) := by
  have haccounted := accounted_reachable h
  refine ⟨fun hquiet => ?_, ⟨haccounted.parts, haccounted.reported, haccounted.counters,
    haccounted.totals, haccounted.emitted⟩, s.tap.takeSnapshot_eq_ok,
    fun snapshot _ => snapshot.continuity_expected, haccounted.tiles, haccounted.tiles.duration,
    fun w hw hr => haccounted.tiles.microseconds hw hr, haccounted.tiles.sum⟩
  have hcalls : s.calls = [] := hquiet
  have hemitted := haccounted.emitted
  have htotals := haccounted.totals
  rw [hcalls, List.filterMap_nil, List.append_nil] at hemitted
  rw [hcalls, List.map_nil, List.sum_nil, add_zero] at htotals
  refine ⟨?_, hemitted⟩
  have hwindows : (s.windows.map (·.counted)).map figuresOf =
      (s.windows.map (·.snapshot)).map (·.figures) := by
    rw [List.map_map, List.map_map]
    exact List.map_congr_left fun w hw => (haccounted.reported w hw).symm
  rw [htotals, haccounted.parts, figuresOf_append, figuresOf_flatten, hwindows,
    (hemitted.map _).sum_eq, haccounted.counters]

/-! ## A report between two sections of another call -/

theorem safe_caller_tap : SafeReference "caller" 128 ∧ SafeReference "tap" 64 := by decide +kernel

theorem safe_caller : SafeReference "caller" 128 := safe_caller_tap.1

theorem safe_tap : SafeReference "tap" 64 := safe_caller_tap.2

theorem pcmu_fits : 0 ≤ 127 ∧ 0 < 8000 ∧ 8000 ≤ 384000 := by decide

theorem pcmu_payload_fits : 0 ≤ 127 := pcmu_fits.1

theorem pcmu_clock_fits : 0 < 8000 ∧ 8000 ≤ 384000 := pcmu_fits.2

/-- A tap on the audio of a caller, made at time zero. -/
def callerTap : RtpPacketTapAdapter where
  format :=
    { streamAlias := "caller", direction := .received, sequenceNumber := 0, rtpTimestamp := 0
      payloadType := 0, clockRateHz := 8000, marker := false, clockDomain := "tap"
      alignmentUncertaintyMs := none, ts := .utc 0
      alias_safe := safe_caller
      sequence_fits := by decide
      timestamp_fits := by decide
      payload_fits := pcmu_payload_fits
      clock_fits := pcmu_clock_fits
      domain_safe := safe_tap
      uncertainty_nonneg := nonneg_of_mem_none }
  captureDropCounterSupported := false
  windowStartedAt := .utc 0

theorem make_callerTap :
    RtpPacketTapAdapter.make "caller" .received 8000 "tap" none false (.utc 0) = .ok callerTap := by
  simp [RtpPacketTapAdapter.make, RtpPacket.make, safe_caller, safe_tap, checkUncertainty, callerTap,
    Except.map]

/-- A packet is queued, but counted only after the report of another thread. -/
def lateCount : List TapStep :=
  [.observeDatagram [128, 0, 0, 1, 0, 0, 0, 0, 0, 0, 0, 0] (.utc 5), .advance 0,
    .reportHealth (.utc 1000), .advance 0, .advance 1, .observeDatagram [] (.utc 6), .advance 1,
    .recordCaptureDrop 2, .advance 0, .reportHealth (.utc 3000), .advance 0, .advance 0]

/-- The state after it. -/
def lateState : TapSystem := (tapMachine (.utc 0)).exec { tap := callerTap } lateCount

theorem tap_health_conserved_lateCount :
    ((lateState.emitted.map (·.figures)).sum + lateState.tap.figures = lateState.totals ∧
      (lateState.windows.map (·.snapshot)).Perm lateState.emitted) ∧
    lateState.windows.map (·.snapshot.figures) = [(0, 0, 0), (1, 2, 1)] :=
  ⟨(@tap_health_conserved (.utc 0) lateState ⟨{ tap := callerTap }, lateCount,
    ⟨_, _, _, _, _, _, callerTap, make_callerTap, rfl⟩, by decide +kernel, rfl⟩).1
      (List.eq_nil_of_length_eq_zero (by decide +kernel)),
    by decide +kernel⟩

end VoxBench.Observability
