import VoxBench.ControlPlane.Clock
import VoxBench.Lib.Elapsed
import VoxBench.Lib.Grouping
import VoxBench.Lib.Traverse
import VoxBench.Verification.Core
import Mathlib.Data.Prod.Lex
import Mathlib.Data.String.Basic

/-!
# Times and numbers of a timeline

The timeline of a run shows every time in milliseconds since the start of the run. The
functions that read times and numbers raise: a `TypeError` where a naive time meets an aware
one, and an `OverflowError` where an integer does not fit a float. Times are floats: each
subtraction, product and quotient of them is rounded, and comparisons are exact.

## Main definitions

* `relativeMs` — `_relative_seconds(ts, run.started_at) * 1000`.
* `sortedByTs` — a sort by a time and a second key.
* `numericAttribute`, `boundedIntAttribute`, `plainNumber` — the readers of numbers.
* `runTimelineDurationMs` — the length of the timeline.
-/

namespace VoxBench.ControlPlane

open VoxBench.Lib

inductive TimelineError where
  | clock (e : ClockError)
  /-- `OverflowError`: the number is too large for a float. -/
  | overflowError
  deriving DecidableEq, Repr

/-! ## Numbers -/

/-- The number rounds to a finite double. -/
def FitsFloat (q : ℚ) : Prop := |q| < 2 ^ 1024 - 2 ^ 970

instance (q : ℚ) : Decidable (FitsFloat q) := inferInstanceAs (Decidable (_ < _))

/-- `float(n)` on an integer, and the quotient of two integers. -/
def toFloat (q : ℚ) : Except TimelineError ℚ :=
  if FitsFloat q then .ok (nearest q) else .error .overflowError

/-- `_numeric_attribute`. -/
def numericAttribute (attributes : List (String × AttrValue)) (name : String) :
    Except TimelineError (Option ℚ) :=
  match Dict.get? attributes name with
  | some (.int n) => (toFloat n).map some
  | some (.float q) => .ok (some q)
  | _ => .ok none

/-- `_bounded_int_attribute`. -/
def boundedIntAttribute (attributes : List (String × AttrValue)) (name : String)
    (minimum maximum : ℤ) : Option ℤ :=
  match Dict.get? attributes name with
  | some (.int n) => if minimum ≤ n ∧ n ≤ maximum then some n else none
  | _ => none

/-- An attribute that is a `bool`. -/
def boolAttribute (attributes : List (String × AttrValue)) (name : String) : Option Bool :=
  match Dict.get? attributes name with
  | some (.bool b) => some b
  | _ => none

/-- `_plain_number`. -/
def plainNumber : Option Json → Except TimelineError (Option ℚ)
  | some (.int n) => (toFloat n).map some
  | some (.float q) => .ok (some q)
  | _ => .ok none

/-- The numbers under the given names fit a float. -/
def AttributesFit (attributes : List (String × AttrValue)) (names : List String) : Prop :=
  ∀ name ∈ names, ∀ n, Dict.get? attributes name = some (.int n) → FitsFloat n

/-! ## Times -/

section Times

variable {run : StoredRun} {ts ts' : Datetime} {t t' : ℚ}

/-- `a - b`, in microseconds. -/
def Datetime.subtract (a b : Datetime) : Except TimelineError ℤ :=
  if a.isAware = b.isAware then .ok (a.instant - b.instant) else .error (.clock .typeError)

/-- `_relative_seconds`. -/
def relativeSeconds (ts t0 : Datetime) : Except TimelineError ℚ := do
  let delta ← ts.subtract t0
  return max 0 (totalSeconds delta)

def relativeMs (run : StoredRun) (ts : Datetime) : Except TimelineError ℚ := do
  let seconds ← relativeSeconds ts run.startedAt
  return nearest (seconds * 1000)

/-- The time of an instant on the time line of the run. -/
def StoredRun.offsetMs (run : StoredRun) (t : Instant) : ℚ :=
  max 0 (totalMs (t - run.startedAt.instant))

theorem StoredRun.offsetMs_nonneg (run : StoredRun) (t : Instant) : 0 ≤ run.offsetMs t :=
  le_max_left _ _

theorem StoredRun.offsetMs_mono (run : StoredRun) {t t' : Instant} (h : t ≤ t') :
    run.offsetMs t ≤ run.offsetMs t' :=
  max_le_max_left 0 (totalMs_mono (Int.sub_le_sub_right h _))

theorem StoredRun.offsetMs_of_le {t : Instant} (h : run.startedAt.instant ≤ t) :
    run.offsetMs t = totalMs (t - run.startedAt.instant) :=
  max_eq_right (totalMs_nonneg (Int.sub_nonneg_of_le h))

/-- In the first 35 years of the run, times that differ are shown apart. -/
theorem StoredRun.offsetMs_injOn {t t' : Instant} (ht : run.startedAt.instant ≤ t)
    (ht' : run.startedAt.instant ≤ t') (hnear : t - run.startedAt.instant < 2 ^ 50)
    (hnear' : t' - run.startedAt.instant < 2 ^ 50) (h : run.offsetMs t = run.offsetMs t') :
    t = t' := by
  rw [StoredRun.offsetMs_of_le ht, StoredRun.offsetMs_of_le ht'] at h
  have hsub := totalMs_injOn (by rwa [abs_of_nonneg (Int.sub_nonneg_of_le ht)])
    (by rwa [abs_of_nonneg (Int.sub_nonneg_of_le ht')]) h
  exact sub_left_inj.mp hsub

/-- The clamp of the seconds is that of the milliseconds. -/
theorem nearest_max_totalSeconds (us : ℤ) :
    nearest (max 0 (totalSeconds us) * 1000) = max 0 (totalMs us) := by
  rcases le_total 0 us with h | h
  · rw [max_eq_right (totalSeconds_nonneg h), max_eq_right (totalMs_nonneg h), totalMs]
  · rw [max_eq_left (totalSeconds_nonpos h), max_eq_left (totalMs_nonpos h), zero_mul, nearest_zero]

theorem relativeMs_eq_ok_iff : relativeMs run ts = .ok t ↔
    ts.isAware = run.startedAt.isAware ∧ run.offsetMs ts.instant = t := by
  unfold relativeMs relativeSeconds Datetime.subtract StoredRun.offsetMs
  split <;> simp_all [bind, Except.bind, pure, Except.pure, nearest_max_totalSeconds]

theorem exists_relativeMs_iff :
    (∃ t, relativeMs run ts = .ok t) ↔ ts.isAware = run.startedAt.isAware := by
  simp [relativeMs_eq_ok_iff]

theorem relativeMs_nonneg (h : relativeMs run ts = .ok t) : 0 ≤ t := by
  obtain ⟨-, rfl⟩ := relativeMs_eq_ok_iff.mp h
  exact run.offsetMs_nonneg _

theorem relativeMs_isFloat (h : relativeMs run ts = .ok t) : nearest t = t := by
  obtain ⟨-, rfl⟩ := relativeMs_eq_ok_iff.mp h
  rw [StoredRun.offsetMs, ← nearest_max_totalSeconds, nearest_nearest]

theorem relativeMs_mono (h : relativeMs run ts = .ok t) (h' : relativeMs run ts' = .ok t')
    (hle : ts.instant ≤ ts'.instant) : t ≤ t' := by
  obtain ⟨-, rfl⟩ := relativeMs_eq_ok_iff.mp h
  obtain ⟨-, rfl⟩ := relativeMs_eq_ok_iff.mp h'
  exact run.offsetMs_mono hle

def endedDurationMs (run : StoredRun) : Except TimelineError ℚ :=
  match run.endedAt with
  | none => .ok 0
  | some endedAt => relativeMs run endedAt

/-- `_run_timeline_duration_ms`. -/
def runTimelineDurationMs (run : StoredRun) : Except TimelineError ℚ := do
  let endedDuration ← endedDurationMs run
  return max ((run.recordings.map RecordingArtifact.durationMs).max?.getD 0) endedDuration

theorem endedDurationMs_nonneg (h : endedDurationMs run = .ok t) : 0 ≤ t := by
  unfold endedDurationMs at h
  split at h
  · cases h
    rfl
  · exact relativeMs_nonneg h

theorem runTimelineDurationMs_nonneg (h : runTimelineDurationMs run = .ok t) : 0 ≤ t := by
  obtain ⟨ended, hended, h⟩ := bind_eq_ok.mp h
  cases h
  exact le_max_of_le_right (endedDurationMs_nonneg hended)

end Times

/-! ## Sorting by time -/

section Sorting

variable {α κ : Type} [LinearOrder κ] {time : α → Datetime} {key : α → κ} {items sorted : List α}

/-- `sorted` by a time and a second key. -/
def sortedByTs (time : α → Datetime) (key : α → κ) (items : List α) :
    Except TimelineError (List α) :=
  (sortedBy time (fun a b => toLex ((time a).instant, key a) ≤ toLex ((time b).instant, key b))
    items).mapError .clock

theorem sortedByTs_eq_ok_iff : sortedByTs time key items = .ok sorted ↔
    Comparable (items.map time) ∧ sortOn (fun a => toLex ((time a).instant, key a)) items = sorted := by
  unfold sortedByTs sortedBy sortOn
  split <;> simp_all [Except.mapError]

theorem perm_of_sortedByTs (h : sortedByTs time key items = .ok sorted) : sorted.Perm items := by
  obtain ⟨-, rfl⟩ := sortedByTs_eq_ok_iff.mp h
  exact perm_sortOn _ items

theorem mem_sortedByTs (h : sortedByTs time key items = .ok sorted) {a : α} :
    a ∈ sorted ↔ a ∈ items :=
  (perm_of_sortedByTs h).mem_iff

end Sorting

/-! ## The pipeline of a run -/

/-- `_pipeline_stage_names`. The config of a run was validated when it was resolved. -/
def pipelineStageNames (run : StoredRun) : List String :=
  (Verification.pipeline run.resolvedConfig).map Verification.stageType

/-- A resolved config with stages of the given types. -/
def configOf (stageTypes : List String) : Json :=
  .obj [("spec", .obj [("media", .obj [("pipeline",
    .arr (stageTypes.map fun stageType => .obj [("type", .str stageType)]))])])]

end VoxBench.ControlPlane
