import VoxBench.Lib.Traverse
import VoxBench.Verification.Core
import Mathlib.Analysis.SpecialFunctions.Log.Base

/-!
# What verification decides

A stage that declares an invariant asks for one result: passed when the loss is declared or
the output stays within the tolerance of the recording before it.

## Main definitions

* `WithinTolerance` — the duration ratio, or the change of the RMS in decibels.
* `RoundedAlike` — the ratio of the floats is within the tolerance when that of the durations is.
* `Decided` — exactly one result for a stage and an invariant, with a given verdict.
* `Evidence.CaughtFrom` — no recording that is read raises an exception that is not caught.
* `Evidence.PtimeFits` — the frame interval of the config is a float where one is asked for.

## Main results

* `withinDb_iff` — the comparison of squares is the one in decibels.
* `Evidence.exists_verifyStages_iff` — when the walk returns.
* `decided_iff` — when a declared invariant between two readable recordings is decided.
-/

namespace VoxBench.Verification

open VoxBench.Lib VoxBench.ControlPlane VoxBench.Observability

/-! ## Level in decibels -/

theorem pow_le_iff_logb_le {x : ℝ} (hx : 0 < x) {n : ℕ} (hn : 0 < n) (k : ℤ) :
    x ^ (10 * n) ≤ (10 : ℝ) ^ k ↔ 10 * Real.logb 10 x ≤ k / n := by
  have hpos : (0 : ℝ) < n := by exact_mod_cast hn
  rw [← Real.rpow_intCast 10 k, ← Real.logb_le_iff_le_rpow (by norm_num) (pow_pos hx _),
    Real.logb_pow, le_div_iff₀ hpos]
  push_cast
  constructor <;> intro h <;> linarith

theorem le_pow_iff_le_logb {x : ℝ} (hx : 0 < x) {n : ℕ} (hn : 0 < n) (k : ℤ) :
    (10 : ℝ) ^ (-k) ≤ x ^ (10 * n) ↔ -(k / n : ℝ) ≤ 10 * Real.logb 10 x := by
  have hpos : (0 : ℝ) < n := by exact_mod_cast hn
  rw [← Real.rpow_intCast 10 (-k), ← Real.le_logb_iff_rpow_le (by norm_num) (pow_pos hx _),
    Real.logb_pow, ← neg_div, div_le_iff₀ hpos]
  push_cast
  constructor <;> intro h <;> linarith

/-- The comparison of powers is the one of the logarithm with the tolerance. -/
theorem withinDb_iff {square : ℚ} (h : 0 < square) (tolerance : ℚ) :
    withinDb square tolerance = true ↔ |10 * Real.logb 10 square| ≤ tolerance := by
  have hx : (0 : ℝ) < square := by exact_mod_cast h
  have htolerance : (tolerance : ℝ) = tolerance.num / tolerance.den := Rat.cast_def tolerance
  have hle := pow_le_iff_logb_le hx tolerance.den_pos tolerance.num
  have hge := le_pow_iff_le_logb hx tolerance.den_pos tolerance.num
  have hle' : square ^ (10 * tolerance.den) ≤ (10 : ℚ) ^ tolerance.num ↔
      (square : ℝ) ^ (10 * tolerance.den) ≤ (10 : ℝ) ^ tolerance.num := by
    rw [← Rat.cast_le (K := ℝ)]
    push_cast
    exact Iff.rfl
  have hge' : (10 : ℚ) ^ (-tolerance.num) ≤ square ^ (10 * tolerance.den) ↔
      (10 : ℝ) ^ (-tolerance.num) ≤ (square : ℝ) ^ (10 * tolerance.den) := by
    rw [← Rat.cast_le (K := ℝ)]
    push_cast
    exact Iff.rfl
  rw [abs_le, htolerance, ← hle, ← hge, withinDb, decide_eq_true_eq, hle', hge', and_comm]

/-! ## What a declared invariant asks for -/

inductive SignalInvariant where
  | durationPreserving
  | levelPreserving
  deriving DecidableEq, Repr

def SignalInvariant.name : SignalInvariant → String
  | .durationPreserving => "duration_preserving"
  | .levelPreserving => "level_preserving"

/-- The square of the RMS; an empty recording has none. -/
def WavStats.power (stats : WavStats) : ℚ := stats.meanSquare.getD 0

/-- The figure that the check of the invariant looks at. -/
def WavStats.measureOf (stats : WavStats) : SignalInvariant → ℚ
  | .durationPreserving => stats.durationMs
  | .levelPreserving => stats.power

/-- What the invariant compares: the duration, or the power. -/
def measure (wav : WavFile) (stats : WavStats) : SignalInvariant → ℚ
  | .durationPreserving => wav.exactMs
  | .levelPreserving => stats.power

/-- The duration ratio, or the change of the RMS, within the tolerance. No change of the RMS
leads to silence. -/
def WithinTolerance (tolerances : Tolerances) (before after : WavFile) (previous current : WavStats) :
    SignalInvariant → Prop
  | .durationPreserving =>
      1 - tolerances.durationToleranceRatio ≤ after.exactMs / before.exactMs ∧
        after.exactMs / before.exactMs ≤ 1 + tolerances.durationToleranceRatio
  | .levelPreserving =>
      0 < current.power ∧
        |20 * Real.logb 10 (√(current.power : ℝ) / √(previous.power : ℝ))| ≤
          tolerances.levelToleranceDb

/-- The quotient of the floats is within the tolerance exactly when that of the durations is. -/
def RoundedAlike (tolerances : Tolerances) (before after : WavFile) (previous current : WavStats) :
    SignalInvariant → Prop
  | .durationPreserving =>
      nearest (1 - tolerances.durationToleranceRatio) ≤
            nearest (current.durationMs / previous.durationMs) ∧
          nearest (current.durationMs / previous.durationMs) ≤
            nearest (1 + tolerances.durationToleranceRatio) ↔
        1 - tolerances.durationToleranceRatio ≤ after.exactMs / before.exactMs ∧
          after.exactMs / before.exactMs ≤ 1 + tolerances.durationToleranceRatio
  | .levelPreserving => True

/-- Tolerances as the callers set them. -/
structure Tolerances.Proper (tolerances : Tolerances) : Prop where
  ratio_pos : 0 < tolerances.durationToleranceRatio
  ratio_lt_one : tolerances.durationToleranceRatio < 1
  level_pos : 0 < tolerances.levelToleranceDb

/-- A recording that is a 16-bit WAV file with these statistics. The header has 32 bits for the
rate. -/
structure Readable (files : WavFiles) (recording : RecordingArtifact) (wav : WavFile)
    (stats : WavStats) : Prop where
  opened : files recording.uri = .ok wav
  width : wav.sampwidth = 2
  rate_lt : wav.framerate < 2 ^ 32
  stats : readWavStats files recording = .ok stats

/-- The results hold exactly one for the stage and the invariant, and it passes when the
verdict says so. -/
def Decided (outcome : Except ReadError (List VerificationResult)) (stage invariant : String)
    (verdict : Prop) : Prop :=
  ∃ results result, outcome = .ok results ∧
    results.filter (fun r => r.stage = stage ∧ r.invariant = invariant) = [result] ∧
    (result.passed = true ↔ verdict)

/-- An output without any duration, or any sample other than zero, is out of tolerance. -/
theorem not_withinTolerance {tolerances : Tolerances} (h : tolerances.Proper)
    {before after : WavFile} {previous current : WavStats} {invariant : SignalInvariant}
    (hprevious : 0 < measure before previous invariant)
    (hcurrent : measure after current invariant ≤ 0) :
    ¬ WithinTolerance tolerances before after previous current invariant := by
  cases invariant with
  | durationPreserving =>
      intro hwithin
      have hratio : after.exactMs / before.exactMs ≤ 0 :=
        div_nonpos_of_nonpos_of_nonneg hcurrent hprevious.le
      have hlower := hwithin.1.trans hratio
      linarith [h.ratio_lt_one]
  | levelPreserving =>
      intro hwithin
      exact absurd hwithin.1 (not_lt.mpr hcurrent)

/-- The duration that is read is the one of the header, rounded twice. -/
theorem durationMs_of_readWavStats {files : WavFiles} {recording : RecordingArtifact} {wav : WavFile}
    {stats : WavStats} (hopened : files recording.uri = .ok wav)
    (h : readWavStats files recording = .ok stats) :
    stats.durationMs =
      if wav.framerate > 0 then nearest (nearest (wav.nframes / wav.framerate) * 1000) else 0 := by
  simp only [readWavStats, hopened, bind, Except.bind] at h
  generalize (if wav.framerate > 0 then
    nearest (nearest ((wav.nframes : ℚ) / wav.framerate) * 1000) else 0) = durationMs at h ⊢
  split_ifs at h <;> cases h <;> rfl

/-- There is a duration where the header has one. -/
theorem Readable.durationMs_pos_iff {files : WavFiles} {recording : RecordingArtifact} {wav : WavFile}
    {stats : WavStats} (h : Readable files recording wav stats) :
    0 < stats.durationMs ↔ 0 < wav.exactMs := by
  rw [durationMs_of_readWavStats h.opened h.stats, WavFile.exactMs]
  by_cases hrate : wav.framerate > 0
  · rw [if_pos hrate, if_pos hrate]
    constructor
    · intro hpos
      have hproduct := pos_of_nearest_pos hpos
      have hquotient := pos_of_nearest_pos (pos_of_mul_pos_left hproduct (by norm_num))
      positivity
    · intro hpos
      have hquotient : (0 : ℚ) < wav.nframes / wav.framerate :=
        pos_of_mul_pos_left hpos (by norm_num)
      have hframes : 0 < wav.nframes := by
        by_contra hnone
        rw [Nat.eq_zero_of_not_pos hnone, Nat.cast_zero, zero_div] at hquotient
        exact lt_irrefl _ hquotient
      -- the quotient is at least one part of the largest rate, which is a float
      have hfloat : nearest ((2 : ℚ) ^ (-32 : ℤ)) = 2 ^ (-32 : ℤ) := by
        have hone := @nearest_intCast_mul 1 (-32) (by norm_num) (by norm_num)
        simpa using hone
      have hle : (2 : ℚ) ^ (-32 : ℤ) ≤ wav.nframes / wav.framerate := by
        have hrateQ : (0 : ℚ) < wav.framerate := by exact_mod_cast hrate
        have hframesQ : (1 : ℚ) ≤ wav.nframes := by exact_mod_cast hframes
        have hlt : (wav.framerate : ℚ) ≤ 2 ^ 32 := by exact_mod_cast h.rate_lt.le
        rw [le_div_iff₀ hrateQ, zpow_neg, ← div_eq_inv_mul, div_le_iff₀ (by positivity)]
        exact hlt.trans (le_mul_of_one_le_left (by positivity) hframesQ)
      have hfirst := nearest_mono hle
      rw [hfloat] at hfirst
      have hsecond : (2 : ℚ) ^ (-32 : ℤ) ≤ nearest (wav.nframes / wav.framerate) * 1000 := by
        have hunit : (0 : ℚ) < 2 ^ (-32 : ℤ) := by positivity
        linarith
      have hlast := nearest_mono hsecond
      rw [hfloat] at hlast
      exact lt_of_lt_of_le (by positivity) hlast
  · rw [if_neg hrate, if_neg hrate]

theorem logb_sqrt_div {a b : ℝ} (ha : 0 ≤ a) (hb : 0 ≤ b) :
    20 * Real.logb 10 (√a / √b) = 10 * Real.logb 10 (a / b) := by
  rw [← Real.sqrt_div ha, Real.logb, Real.logb, Real.log_sqrt (div_nonneg ha hb)]
  ring

namespace Evidence

variable {e : Evidence} {stage : Json} {name : String} {previous current : WavStats}
  {before after : WavFile}

theorem verifyDuration_none {tolerance : ℚ} (h : current.durationMs ≤ 0) :
    verifyDuration name previous current tolerance = none := by
  rw [verifyDuration, if_pos (Or.inr h)]

theorem verifyDuration_some {tolerances : Tolerances} (hprevious : 0 < previous.durationMs)
    (hcurrent : 0 < current.durationMs) :
    ∃ result, verifyDuration name previous current tolerances.durationToleranceRatio = some result ∧
      ((result.passed = true ↔
          WithinTolerance tolerances before after previous current .durationPreserving) ↔
        RoundedAlike tolerances before after previous current .durationPreserving) := by
  rw [verifyDuration, if_neg (by simp [hprevious, hcurrent])]
  refine ⟨_, rfl, ?_⟩
  rw [decide_eq_true_iff]
  exact Iff.rfl

theorem verifyLevel_none {math : FloatMath} {tolerance : ℚ} (h : current.power ≤ 0) :
    verifyLevel math name previous current tolerance = none := by
  unfold verifyLevel
  split
  · rename_i before after hbefore hafter
    rw [WavStats.power, hafter, Option.getD_some] at h
    rw [if_pos (Or.inr h)]
  · rfl

theorem verifyLevel_some {math : FloatMath} {tolerances : Tolerances}
    (hprevious : 0 < previous.power) (hcurrent : 0 < current.power) :
    ∃ result, verifyLevel math name previous current tolerances.levelToleranceDb = some result ∧
      (result.passed = true ↔
        WithinTolerance tolerances before after previous current .levelPreserving) := by
  cases hbefore : previous.meanSquare with
  | none => simp [WavStats.power, hbefore] at hprevious
  | some before =>
      cases hafter : current.meanSquare with
      | none => simp [WavStats.power, hafter] at hcurrent
      | some after =>
          simp only [WavStats.power, hbefore, hafter, Option.getD_some] at hprevious hcurrent
          have hb : (0 : ℝ) ≤ before := by exact_mod_cast hprevious.le
          have ha : (0 : ℝ) ≤ after := by exact_mod_cast hcurrent.le
          simp only [verifyLevel, hbefore, hafter]
          rw [if_neg (by simp [hprevious, hcurrent])]
          refine ⟨_, rfl, ?_⟩
          simp only [WithinTolerance, WavStats.power, hbefore, hafter, Option.getD_some, hcurrent,
            true_and, logb_sqrt_div ha hb]
          rw [withinDb_iff (div_pos hcurrent hprevious)]
          push_cast
          exact Iff.rfl

/-- A declared loss decides the invariant. -/
theorem signalResult_of_lossy {invariant : String}
    (h : lossyExpectedReasons stage invariant ≠ []) :
    ∃ result, e.signalResult stage name previous current invariant = some result ∧
      result.passed = true := by
  rw [signalResult, if_pos h]
  exact ⟨_, rfl, rfl⟩

/-- Without a declared loss an output without duration, or a silent one, has no result. -/
theorem signalResult_of_not_pos {invariant : SignalInvariant}
    (h : lossyExpectedReasons stage invariant.name = [])
    (hcurrent : current.measureOf invariant ≤ 0) :
    e.signalResult stage name previous current invariant.name = none := by
  cases invariant with
  | durationPreserving =>
      rw [signalResult, if_neg (by simp [h]), if_pos (by decide)]
      exact verifyDuration_none hcurrent
  | levelPreserving =>
      rw [signalResult, if_neg (by simp [h]), if_neg (by decide)]
      exact verifyLevel_none hcurrent

theorem signalResult_of_pos {invariant : SignalInvariant}
    (h : lossyExpectedReasons stage invariant.name = []) (hprevious : 0 < previous.durationMs ↔
      0 < before.exactMs) (hcurrent : 0 < current.durationMs ↔ 0 < after.exactMs)
    (hbefore : 0 < measure before previous invariant)
    (hafter : 0 < measure after current invariant) :
    ∃ result, e.signalResult stage name previous current invariant.name = some result ∧
      ((result.passed = true ↔
          WithinTolerance e.tolerances before after previous current invariant) ↔
        RoundedAlike e.tolerances before after previous current invariant) := by
  cases invariant with
  | durationPreserving =>
      rw [signalResult, if_neg (by simp [h]), if_pos (by decide)]
      exact verifyDuration_some (hprevious.mpr hbefore) (hcurrent.mpr hafter)
  | levelPreserving =>
      rw [signalResult, if_neg (by simp [h]), if_neg (by decide)]
      obtain ⟨result, hresult, hpassed⟩ := verifyLevel_some hbefore hafter
      exact ⟨result, hresult, iff_of_true hpassed trivial⟩

/-- One invariant is decided when its loss is declared, or there is an output to compare and the
rounding does not change the comparison. -/
theorem signalResult_iff {invariant : SignalInvariant} (hprevious : 0 < previous.durationMs ↔
      0 < before.exactMs) (hcurrent : 0 < current.durationMs ↔ 0 < after.exactMs)
    (hbefore : 0 < measure before previous invariant) :
    (∃ result, e.signalResult stage name previous current invariant.name = some result ∧
      (result.passed = true ↔ lossyExpectedReasons stage invariant.name ≠ [] ∨
        WithinTolerance e.tolerances before after previous current invariant)) ↔
    (lossyExpectedReasons stage invariant.name ≠ [] ∨ 0 < measure after current invariant ∧
      RoundedAlike e.tolerances before after previous current invariant) := by
  by_cases hlossy : lossyExpectedReasons stage invariant.name = []
  · by_cases hafter : 0 < measure after current invariant
    · obtain ⟨result, hresult, hpassed⟩ := @signalResult_of_pos e stage name _ _ _ _ _ hlossy
        hprevious hcurrent hbefore hafter
      simp only [hresult, Option.some.injEq, exists_eq_left', hlossy, ne_eq, not_true_eq_false,
        false_or, hafter, true_and]
      exact hpassed
    · have hnone : current.measureOf invariant ≤ 0 := by
        cases invariant with
        | durationPreserving => exact not_lt.mp (mt hcurrent.mp hafter)
        | levelPreserving => exact not_lt.mp hafter
      simp [signalResult_of_not_pos hlossy hnone, hlossy, hafter]
  · obtain ⟨result, hresult, hpassed⟩ := @signalResult_of_lossy e _ name previous current _ hlossy
    simp [hresult, hpassed, hlossy]

/-! ## The walk -/

theorem stage_of_recording {recording : RecordingArtifact}
    (h : e.recording stage = some recording) : recording.stage = stageType stage := by
  simpa using List.find?_some h

/-- The recording of the last stage that has one. -/
def nearest (e : Evidence) (stages : List Json) : Option RecordingArtifact :=
  (stages.filterMap e.recording).getLast?

theorem nearest_cons (stages : List Json) (previous : Option RecordingArtifact) :
    (e.nearest (stage :: stages)).or previous =
      (e.nearest stages).or ((e.recording stage).or previous) := by
  cases hstage : e.recording stage with
  | none => simp [nearest, hstage]
  | some recording =>
      cases hrest : (stages.filterMap e.recording).getLast? <;>
        simp [nearest, hstage, List.getLast?_cons, hrest]

theorem verifyStages_append (previous : Option RecordingArtifact) (before after : List Json) :
    e.verifyStages previous (before ++ after) = (do
      let xs ← e.verifyStages previous before
      let ys ← e.verifyStages ((e.nearest before).or previous) after
      return xs ++ ys) := by
  induction before generalizing previous with
  | nil =>
      cases h : e.verifyStages previous after <;>
        simp [verifyStages, nearest, h, bind, Except.bind, pure, Except.pure]
  | cons stage before ih =>
      rw [List.cons_append, verifyStages, verifyStages, ih, nearest_cons]
      simp only [bind_assoc, pure_bind, List.append_assoc]

/-- Each result of a stage carries the name of the stage. -/
theorem of_compareCadence {metrics : String → Option ℚ} {intervalMs : Option ℚ}
    {tolerances : Tolerances} {result : VerificationResult}
    (h : compareCadence name metrics intervalMs tolerances = some result) :
    result.stage = name ∧ result.invariant = "isochronous" := by
  unfold compareCadence at h
  split at h
  · split at h
    · cases h
    · obtain rfl := Option.some.inj h
      exact ⟨rfl, rfl⟩
  · cases h

theorem stage_of_mem_isochronousResults {results : List VerificationResult}
    (h : e.isochronousResults stage = .ok results) {result : VerificationResult}
    (hr : result ∈ results) : result.stage = stageType stage ∧ result.invariant = "isochronous" := by
  obtain ⟨-, rfl⟩ | ⟨-, intervalMs, -, rfl⟩ := isochronousResults_eq_ok_iff.mp h
  · simp at hr
  · exact of_compareCadence (Option.mem_toList.mp hr)

theorem of_verifyDuration {tolerance : ℚ} {result : VerificationResult}
    (h : verifyDuration name previous current tolerance = some result) :
    result.stage = name ∧ result.invariant = "duration_preserving" := by
  unfold verifyDuration at h
  split at h
  · cases h
  · obtain rfl := Option.some.inj h
    exact ⟨rfl, rfl⟩

theorem of_verifyLevel {math : FloatMath} {tolerance : ℚ} {result : VerificationResult}
    (h : verifyLevel math name previous current tolerance = some result) :
    result.stage = name ∧ result.invariant = "level_preserving" := by
  unfold verifyLevel at h
  split at h
  · split at h
    · cases h
    · obtain rfl := Option.some.inj h
      exact ⟨rfl, rfl⟩
  · cases h

theorem of_signalResult {invariant : String} {result : VerificationResult}
    (hinvariant : invariant ∈ signalInvariants stage)
    (h : e.signalResult stage name previous current invariant = some result) :
    result.stage = name ∧ result.invariant = invariant := by
  have hcases : invariant = "duration_preserving" ∨ invariant = "level_preserving" := by
    simpa using (List.mem_filter.mp hinvariant).2
  rw [signalResult] at h
  split at h
  · obtain rfl := Option.some.inj h
    exact ⟨rfl, rfl⟩
  · split at h
    · rename_i heq
      rw [heq]
      exact of_verifyDuration h
    · rename_i hne
      rw [hcases.resolve_left hne]
      exact of_verifyLevel h

/-- When the two recordings are read without an exception, the results are those of the
invariants, one by one. -/
theorem mem_signalResults {earlier later : RecordingArtifact} {results : List VerificationResult}
    (h : e.signalResults stage earlier later = .ok results) {result : VerificationResult}
    (hr : result ∈ results) : result.stage = later.stage := by
  unfold signalResults at h
  split at h
  · cases h
    simp at hr
  · obtain ⟨before, -, h⟩ := bind_eq_ok.mp h
    obtain ⟨after, -, h⟩ := bind_eq_ok.mp h
    cases before with
    | none =>
        cases h
        simp at hr
    | some before =>
        cases after with
        | none =>
            cases h
            simp at hr
        | some after =>
            cases h
            obtain ⟨invariant, hmem, hresult⟩ := List.mem_filterMap.mp hr
            exact (of_signalResult hmem hresult).1

theorem mem_stageResults {earlier : Option RecordingArtifact} {results : List VerificationResult}
    (h : e.stageResults earlier stage = .ok results) {result : VerificationResult}
    (hr : result ∈ results) : result.stage = stageType stage := by
  obtain ⟨cadence, hcadence, h⟩ := bind_eq_ok.mp h
  split at h
  · rename_i later earlier hlater _
    obtain ⟨signal, hsignal, h⟩ := bind_eq_ok.mp h
    cases h
    rcases List.mem_append.mp hr with hr | hr
    · exact (stage_of_mem_isochronousResults hcadence hr).1
    · rw [mem_signalResults hsignal hr]
      exact stage_of_recording hlater
  · cases h
    exact (stage_of_mem_isochronousResults hcadence hr).1

theorem mem_verifyStages {earlier : Option RecordingArtifact} {stages : List Json}
    {results : List VerificationResult} (h : e.verifyStages earlier stages = .ok results)
    {result : VerificationResult} (hr : result ∈ results) :
    result.stage ∈ stages.map stageType := by
  induction stages generalizing earlier results with
  | nil =>
      cases h
      simp at hr
  | cons stage stages ih =>
      obtain ⟨xs, hxs, h⟩ := bind_eq_ok.mp h
      obtain ⟨ys, hys, h⟩ := bind_eq_ok.mp h
      cases h
      rw [List.map_cons, List.mem_cons]
      rcases List.mem_append.mp hr with hr | hr
      · exact .inl (mem_stageResults hxs hr)
      · exact .inr (ih hys hr)

/-! ## Exceptions that nothing catches -/

/-- Reading the recording raises nothing but what `_try_read_wav_stats` catches. -/
def Caught (e : Evidence) (recording : RecordingArtifact) : Prop :=
  readWavStats e.files recording ≠ .error .raised

/-- The recordings that are compared, from a given `previous` on, can be read or fail in a way
that is caught. -/
def CaughtFrom (e : Evidence) (earlier : Option RecordingArtifact) (stages : List Json) : Prop :=
  ∀ before stage after previous current, stages = before ++ stage :: after →
    (e.nearest before).or earlier = some previous → e.recording stage = some current →
    signalInvariants stage ≠ [] → e.Caught previous ∧ e.Caught current

/-- Where a declared cadence has no interval among the metrics, `float(config_ptime_ms)` does not
overflow. -/
def PtimeFits (e : Evidence) (stages : List Json) : Prop :=
  ∀ stage ∈ stages, "isochronous" ∈ invariants stage →
    e.metric stage "expected_frame_interval_ms" = none →
      ∀ ptimeMs ∈ e.configPtimeMs, (roundDouble ptimeMs).isSome

theorem exists_isochronousResults_iff :
    (∃ results, e.isochronousResults stage = .ok results) ↔ e.PtimeFits [stage] := by
  rw [PtimeFits, List.forall_mem_singleton]
  unfold isochronousResults verifyIsochronous expectedIntervalMs
  by_cases hdeclared : "isochronous" ∈ invariants stage
  · rw [if_pos hdeclared]
    cases e.metric stage "expected_frame_interval_ms" with
    | some intervalMs => simp [Except.map]
    | none =>
        cases e.configPtimeMs with
        | none => simp [Except.map]
        | some ptimeMs => cases hround : roundDouble ptimeMs <;> simp [Except.map, hdeclared, hround]
  · rw [if_neg hdeclared]
    simp [hdeclared]

theorem exists_tryReadWavStats_iff {recording : RecordingArtifact} :
    (∃ stats, tryReadWavStats e.files recording = .ok stats) ↔ e.Caught recording := by
  unfold tryReadWavStats Caught
  split <;> simp_all

theorem exists_signalResults_iff {earlier later : RecordingArtifact} :
    (∃ results, e.signalResults stage earlier later = .ok results) ↔
      (signalInvariants stage ≠ [] → e.Caught earlier ∧ e.Caught later) := by
  by_cases hnone : signalInvariants stage = []
  · simp [signalResults, hnone]
  · rw [signalResults, if_neg hnone, ← exists_tryReadWavStats_iff, ← exists_tryReadWavStats_iff]
    constructor
    · rintro ⟨results, h⟩ -
      obtain ⟨before, hbefore, h⟩ := bind_eq_ok.mp h
      obtain ⟨after, hafter, -⟩ := bind_eq_ok.mp h
      exact ⟨⟨before, hbefore⟩, after, hafter⟩
    · intro h
      obtain ⟨⟨before, hbefore⟩, after, hafter⟩ := h hnone
      rw [hbefore, hafter]
      cases before <;> cases after <;> exact ⟨_, rfl⟩

theorem exists_stageResults_iff {earlier : Option RecordingArtifact} :
    (∃ results, e.stageResults earlier stage = .ok results) ↔ e.PtimeFits [stage] ∧
      ∀ previous current, earlier = some previous → e.recording stage = some current →
        signalInvariants stage ≠ [] → e.Caught previous ∧ e.Caught current := by
  rw [← exists_isochronousResults_iff]
  have hbind : (∃ results, e.stageResults earlier stage = .ok results) ↔
      (∃ results, e.isochronousResults stage = .ok results) ∧
        ∀ previous current, earlier = some previous → e.recording stage = some current →
          ∃ results, e.signalResults stage previous current = .ok results := by
    unfold stageResults
    cases e.isochronousResults stage with
    | error err => simp [bind, Except.bind]
    | ok cadence =>
        cases e.recording stage with
        | none => simp [bind, Except.bind, pure, Except.pure]
        | some current =>
            cases earlier with
            | none => simp [bind, Except.bind, pure, Except.pure]
            | some previous =>
                cases hsignal : e.signalResults stage previous current <;>
                  simp [hsignal, bind, Except.bind, pure, Except.pure]
  rw [hbind]
  simp only [exists_signalResults_iff]

theorem caughtFrom_cons {earlier : Option RecordingArtifact} {stages : List Json} :
    e.CaughtFrom earlier (stage :: stages) ↔
      (∀ previous current, earlier = some previous → e.recording stage = some current →
        signalInvariants stage ≠ [] → e.Caught previous ∧ e.Caught current) ∧
      e.CaughtFrom ((e.recording stage).or earlier) stages := by
  constructor
  · intro h
    constructor
    · intro previous current hprevious hcurrent hsignal
      exact h [] stage stages previous current rfl (by simpa [nearest] using hprevious) hcurrent
        hsignal
    · intro before stage' after previous current hsplit hprevious hcurrent hsignal
      rw [← nearest_cons] at hprevious
      exact h (stage :: before) stage' after previous current (by rw [hsplit]; rfl) hprevious
        hcurrent hsignal
  · rintro ⟨hfirst, hrest⟩ before stage' after previous current hsplit hprevious hcurrent hsignal
    cases before with
    | nil =>
        obtain ⟨rfl, -⟩ := List.cons.inj hsplit
        exact hfirst previous current (by simpa [nearest] using hprevious) hcurrent hsignal
    | cons first before =>
        obtain ⟨rfl, htail⟩ := List.cons.inj hsplit
        rw [nearest_cons] at hprevious
        exact hrest before stage' after previous current htail hprevious hcurrent hsignal

/-- The walk returns exactly when nothing that it reads raises. -/
theorem exists_verifyStages_iff {earlier : Option RecordingArtifact} {stages : List Json} :
    (∃ results, e.verifyStages earlier stages = .ok results) ↔
      e.PtimeFits stages ∧ e.CaughtFrom earlier stages := by
  induction stages generalizing earlier with
  | nil => simp [verifyStages, CaughtFrom, PtimeFits]
  | cons stage stages ih =>
      have hptime : e.PtimeFits (stage :: stages) ↔ e.PtimeFits [stage] ∧ e.PtimeFits stages := by
        simp only [PtimeFits, List.forall_mem_cons, List.not_mem_nil, false_implies, implies_true,
          and_true]
      have hwalk : (∃ results, e.verifyStages earlier (stage :: stages) = .ok results) ↔
          (∃ results, e.stageResults earlier stage = .ok results) ∧
            ∃ results, e.verifyStages ((e.recording stage).or earlier) stages = .ok results := by
        constructor
        · rintro ⟨results, h⟩
          obtain ⟨xs, hxs, h⟩ := bind_eq_ok.mp h
          obtain ⟨ys, hys, -⟩ := bind_eq_ok.mp h
          exact ⟨⟨xs, hxs⟩, ys, hys⟩
        · rintro ⟨⟨xs, hxs⟩, ys, hys⟩
          exact ⟨xs ++ ys, bind_eq_ok.mpr ⟨xs, hxs, bind_eq_ok.mpr ⟨ys, hys, rfl⟩⟩⟩
      rw [hwalk, caughtFrom_cons, hptime, exists_stageResults_iff, ih]
      tauto

/-! ## One stage among the others -/

section Stage

variable {before after : List Json} {earlier later : RecordingArtifact}
  (hearlier : e.nearest before = some earlier) (hlater : e.recording stage = some later)
  (hprevious : readWavStats e.files earlier = .ok previous)
  (hcurrent : readWavStats e.files later = .ok current)

include hlater hprevious hcurrent

/-- The turn of a stage whose recording and the one before it can be read. -/
theorem stageResults_eq (hsignal : signalInvariants stage ≠ []) :
    e.stageResults (some earlier) stage = (e.isochronousResults stage).map
      (· ++ (signalInvariants stage).filterMap
        (e.signalResult stage (stageType stage) previous current)) := by
  have hread : e.signalResults stage earlier later = .ok ((signalInvariants stage).filterMap
      (e.signalResult stage (stageType stage) previous current)) := by
    rw [signalResults, if_neg hsignal, ← stage_of_recording hlater]
    simp only [tryReadWavStats, hprevious, hcurrent, bind, Except.bind, pure, Except.pure]
  simp only [stageResults, hlater, hread]
  cases e.isochronousResults stage <;> rfl

/-- Among the results of its stage, those of one invariant are what its check returns. -/
theorem filter_stageResults {invariant : String} (hinvariant : invariant ∈ signalInvariants stage)
    (hnodup : (signalInvariants stage).Nodup) {results : List VerificationResult}
    (h : e.stageResults (some earlier) stage = .ok results) :
    results.filter (fun r => r.stage = stageType stage ∧ r.invariant = invariant) =
      (e.signalResult stage (stageType stage) previous current invariant).toList := by
  rw [stageResults_eq hlater hprevious hcurrent (List.ne_nil_of_mem hinvariant)] at h
  cases hcadence : e.isochronousResults stage with
  | error err => simp [hcadence, Except.map] at h
  | ok cadence =>
      rw [hcadence] at h
      cases h
      have hiso : cadence.filter
          (fun r => r.stage = stageType stage ∧ r.invariant = invariant) = [] := by
        rw [List.filter_eq_nil_iff]
        intro r hr
        have hname := (stage_of_mem_isochronousResults hcadence hr).2
        have hne : "isochronous" ≠ invariant := by
          rintro rfl
          simp [signalInvariants] at hinvariant
        simp [hname, hne]
      rw [List.filter_append, hiso, List.nil_append,
        ← filter_filterMap_of_nodup hnodup (fun a ha b hb => (of_signalResult ha hb).2) hinvariant]
      apply List.filter_congr
      intro r hr
      obtain ⟨a, ha, hra⟩ := List.mem_filterMap.mp hr
      simp [(of_signalResult ha hra).1]

include hearlier

/-- In the results of a whole pipeline with different stages, those of one invariant of one
stage are what its check returns. -/
theorem filter_verifyStages {results : List VerificationResult}
    (htypes : ((before ++ stage :: after).map stageType).Nodup)
    (h : e.verifyStages none (before ++ stage :: after) = .ok results)
    {invariant : String} (hinvariant : invariant ∈ signalInvariants stage)
    (hnodup : (signalInvariants stage).Nodup) :
    results.filter (fun r => r.stage = stageType stage ∧ r.invariant = invariant) =
      (e.signalResult stage (stageType stage) previous current invariant).toList := by
  rw [verifyStages_append, hearlier, Option.some_or] at h
  obtain ⟨xs, hxs, h⟩ := bind_eq_ok.mp h
  obtain ⟨zs, hzs, h⟩ := bind_eq_ok.mp h
  obtain ⟨ys, hys, hzs⟩ := bind_eq_ok.mp hzs
  obtain ⟨rest, hrest, hzs⟩ := bind_eq_ok.mp hzs
  cases h
  cases hzs
  have hfilter := filter_stageResults hlater hprevious hcurrent hinvariant hnodup hys
  rw [List.map_append, List.map_cons, List.nodup_append, List.nodup_cons] at htypes
  obtain ⟨-, ⟨hafter, -⟩, hdisjoint⟩ := htypes
  have hother : ∀ l : List VerificationResult, (∀ r ∈ l, r.stage ≠ stageType stage) →
      l.filter (fun r => r.stage = stageType stage ∧ r.invariant = invariant) = [] := by
    intro l hl
    rw [List.filter_eq_nil_iff]
    intro r hr
    simp [hl r hr]
  have hxs' := hother xs fun r hr => hdisjoint _ (mem_verifyStages hxs hr) _ List.mem_cons_self
  have hrest' := hother rest fun r hr heq => hafter (heq ▸ mem_verifyStages hrest hr)
  rw [List.filter_append, List.filter_append, hxs', hrest', hfilter, List.append_nil,
    List.nil_append]

end Stage

end Evidence

section Decided

variable {files : WavFiles} {math : FloatMath} {tolerances : Tolerances} {resolvedConfig : Json}
  {recordings : List RecordingArtifact} {metrics : List MetricArtifact}

/-- Take a stage with a declared invariant whose recording and the nearest one before it are
readable 16-bit WAV files, the earlier one with a positive duration or level. An output
without duration, or a silent one, is out of tolerance. The results hold exactly one for the
stage and the invariant, with the verdict of the tolerance unless the loss is declared,
exactly when nothing that the walk reads raises, and the loss is declared or the output has a
positive duration or level and the rounding does not change the comparison. -/
theorem decided_iff (htolerances : tolerances.Proper)
    (htypes : ((pipeline resolvedConfig).map stageType).Nodup)
    {before after : List Json} {stage : Json}
    (hstage : pipeline resolvedConfig = before ++ stage :: after)
    (hdistinct : ((stage.field ["invariants_applicable"]).texts).Nodup)
    {invariant : SignalInvariant}
    (happlicable : invariant.name ∈ (stage.field ["invariants_applicable"]).texts)
    {earlier later : RecordingArtifact} {input output : WavFile} {previous current : WavStats}
    (hearlier : (evidence files math tolerances resolvedConfig recordings metrics).nearest before =
      some earlier)
    (hlater : (evidence files math tolerances resolvedConfig recordings metrics).recording stage =
      some later)
    (hprevious : Readable files earlier input previous)
    (hcurrent : Readable files later output current)
    (hpositive : 0 < measure input previous invariant) :
    (measure output current invariant ≤ 0 →
      ¬ WithinTolerance tolerances input output previous current invariant) ∧
    (Decided (verifyRecordings files math tolerances resolvedConfig recordings metrics)
        (stageType stage) invariant.name
        (lossyExpectedReasons stage invariant.name ≠ [] ∨
          WithinTolerance tolerances input output previous current invariant) ↔
      ((evidence files math tolerances resolvedConfig recordings metrics).PtimeFits
          (pipeline resolvedConfig) ∧
        (evidence files math tolerances resolvedConfig recordings metrics).CaughtFrom none
          (pipeline resolvedConfig)) ∧
        (lossyExpectedReasons stage invariant.name ≠ [] ∨
          0 < measure output current invariant ∧
            RoundedAlike tolerances input output previous current invariant)) := by
  refine ⟨fun h => not_withinTolerance htolerances hpositive h, ?_⟩
  set e := evidence files math tolerances resolvedConfig recordings metrics with he
  have hcall : verifyRecordings files math tolerances resolvedConfig recordings metrics =
      e.verifyStages none (pipeline resolvedConfig) := rfl
  have hinvariant : invariant.name ∈ signalInvariants stage := by
    have hname : invariant.name = "duration_preserving" ∨ invariant.name = "level_preserving" := by
      cases invariant <;> simp [SignalInvariant.name]
    rcases hname with hname | hname <;>
      simpa [signalInvariants, invariants, supportedInvariants, hname] using happlicable
  have hnodup : (signalInvariants stage).Nodup := (hdistinct.filter _).filter _
  rw [hcall, ← Evidence.exists_verifyStages_iff,
    show tolerances = e.tolerances from rfl,
    ← @Evidence.signalResult_iff e stage (stageType stage) previous current input output invariant
      hprevious.durationMs_pos_iff hcurrent.durationMs_pos_iff hpositive]
  rw [hstage] at htypes ⊢
  have hfilter : ∀ results, e.verifyStages none (before ++ stage :: after) = .ok results →
      results.filter (fun r => r.stage = stageType stage ∧ r.invariant = invariant.name) =
        (e.signalResult stage (stageType stage) previous current invariant.name).toList :=
    fun results h => Evidence.filter_verifyStages hearlier hlater hprevious.stats hcurrent.stats
      htypes h hinvariant hnodup
  constructor
  · rintro ⟨results, result, hok, hone, hverdict⟩
    rw [hfilter results hok] at hone
    have hsome : e.signalResult stage (stageType stage) previous current invariant.name =
        some result := by
      simpa [Option.toList_eq_singleton_iff] using hone
    exact ⟨⟨results, hok⟩, result, hsome, hverdict⟩
  · rintro ⟨⟨results, hok⟩, result, hsome, hverdict⟩
    refine ⟨results, result, hok, ?_, hverdict⟩
    rw [hfilter results hok, hsome]
    rfl

end Decided

/-! A pipeline of two stages, the second of which declares both invariants. -/

def agcStage : Json := .obj [("type", .str "agc"), ("invariants_applicable", .arr [])]

def limiterStage : Json :=
  .obj [("type", .str "limiter"),
    ("invariants_applicable", .arr [.str "duration_preserving", .str "level_preserving"])]

def twoStageConfig : Json :=
  .obj [("spec", .obj [("media", .obj [("pipeline", .arr [agcStage, limiterStage])])])]

def agcRecording : RecordingArtifact := ⟨"agc", "file:///agc.wav", .obj [], 1 / 4⟩

def limiterRecording : RecordingArtifact := ⟨"limiter", "file:///limiter.wav", .obj [], 1 / 4⟩

/-- Two samples of one channel at 8 kHz. -/
def tone : WavFile := ⟨1, 2, 2, 8000, [0, 16, 0, 240]⟩

def toneStats : WavStats := ⟨1 / 4, some (4096 * 4096), 2⟩

def noMath : FloatMath := ⟨id, id⟩

theorem readable_tone {files : WavFiles} {recording : RecordingArtifact}
    (h : files recording.uri = .ok tone) : Readable files recording tone toneStats where
  opened := h
  width := rfl
  rate_lt := by decide
  stats := by
    rw [readWavStats, h]
    decide +kernel

theorem proper_default : ({} : Tolerances).Proper :=
  ⟨by norm_num, by norm_num, by norm_num⟩

/-- The config has no frame interval. -/
theorem ptimeFits_twoStageConfig {files : WavFiles} {recordings : List RecordingArtifact} :
    (evidence files noMath {} twoStageConfig recordings []).PtimeFits (pipeline twoStageConfig) := by
  rintro stage - - - ptimeMs ⟨⟩

theorem decided_same_tone :
    Decided (verifyRecordings (fun _ => .ok tone) noMath {} twoStageConfig
        [agcRecording, limiterRecording] []) "limiter" "level_preserving"
      (lossyExpectedReasons limiterStage "level_preserving" ≠ [] ∨
        WithinTolerance {} tone tone toneStats toneStats .levelPreserving) := by
  have hread : ∀ recording, Readable (fun _ => .ok tone) recording tone toneStats :=
    fun recording => readable_tone rfl
  have hcaught : (evidence (fun _ => .ok tone) noMath {} twoStageConfig
      [agcRecording, limiterRecording] []).CaughtFrom none (pipeline twoStageConfig) := by
    intro before stage after previous current hsplit hprevious hcurrent hsignal
    have hcaught : ∀ recording, readWavStats (fun _ => .ok tone) recording ≠ .error .raised := by
      intro recording
      rw [(hread recording).stats]
      nofun
    exact ⟨hcaught previous, hcaught current⟩
  have hiff := @decided_iff (fun _ => .ok tone) noMath {} twoStageConfig
    [agcRecording, limiterRecording] [] proper_default (by decide +kernel) [agcStage] [] limiterStage
    rfl (by decide +kernel) .levelPreserving (by decide +kernel) agcRecording limiterRecording
    tone tone toneStats toneStats rfl rfl (hread _) (hread _) (by decide +kernel)
  exact hiff.2.mpr ⟨⟨ptimeFits_twoStageConfig, hcaught⟩, .inr ⟨by decide +kernel, trivial⟩⟩

/-- An empty output after a tone has no result, under neither invariant. -/
theorem empty_output_undecided :
    let files : WavFiles := fun uri =>
      .ok (if uri = "file:///agc.wav" then tone else ⟨1, 2, 0, 8000, []⟩)
    let e := evidence files noMath {} twoStageConfig [agcRecording, limiterRecording] []
    ({} : Tolerances).Proper ∧ pipeline twoStageConfig = [agcStage, limiterStage] ∧
    ((pipeline twoStageConfig).map stageType).Nodup ∧
    (limiterStage.field ["invariants_applicable"]).texts =
      ["duration_preserving", "level_preserving"] ∧
    e.nearest [agcStage] = some agcRecording ∧ e.recording limiterStage = some limiterRecording ∧
    Readable files agcRecording tone toneStats ∧
    Readable files limiterRecording ⟨1, 2, 0, 8000, []⟩ ⟨0, none, 0⟩ ∧
    ∀ invariant : SignalInvariant, 0 < measure tone toneStats invariant ∧
      ∀ verdict, ¬ Decided (verifyRecordings files noMath {} twoStageConfig
        [agcRecording, limiterRecording] []) (stageType limiterStage) invariant.name verdict := by
  intro files e
  have hnone : (verifyRecordings files noMath {} twoStageConfig
      [agcRecording, limiterRecording] []).toOption.map List.length = some 0 := by
    decide +kernel
  refine ⟨proper_default, rfl, by decide +kernel, by decide +kernel, rfl, rfl, readable_tone rfl,
    ⟨rfl, rfl, by decide, by decide +kernel⟩, fun invariant => ⟨?_, ?_⟩⟩
  · cases invariant <;> decide +kernel
  · rintro verdict ⟨results, result, hok, hone, -⟩
    rw [hok] at hnone
    obtain rfl : results = [] := by simpa [Except.toOption] using hnone
    simp at hone

end VoxBench.Verification
