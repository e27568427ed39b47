import VoxBench.Verification.Aggregation

/-!
# The file of a treatment report

`write_full_reference_treatment_report` writes an aggregate as JSON,
`load_full_reference_treatment_report` reads it back with checks of its own. Texts and
numbers are taken to survive the JSON file as they are, infinities and NaNs included, which
Python writes and reads as `Infinity` and `NaN`.

## Main definitions

* `FullReferenceTreatmentReport.safePayload` — what is written.
* `loadFullReferenceTreatmentReport` — the loader.
* `Loadable` — the stages that the loader returns as they were.

## Main results

* `loadStage_fields_iff` — `Loadable` is what the loader checks of a stage.
* `treatment_report_round_trip_iff` — when a report of the aggregation is read back.
-/

namespace VoxBench.Verification

open VoxBench.Lib VoxBench.ControlPlane VoxBench.Observability

/-! ## The document -/

/-- What `json.load` returns. -/
inductive Payload where
  | null
  | bool (b : Bool)
  | int (n : ℤ)
  | float (x : PyFloat)
  | str (s : String)
  | arr (items : List Payload)
  | obj (fields : List (String × Payload))

/-- `payload.get(name)`. -/
def getField (fields : List (String × Payload)) (name : String) : Payload :=
  (Dict.get? fields name).getD .null

def optionalFloat : Option PyFloat → Payload
  | some x => .float x
  | none => .null

def FullReferenceAggregateState.text : FullReferenceAggregateState → String
  | .aggregated => "aggregated"
  | .insufficient => "insufficient"
  | .partialScores => "partial"
  | .incomparable => "incomparable"

def FullReferenceStageAggregate.fields (stage : FullReferenceStageAggregate) :
    List (String × Payload) :=
  [ ("blocked_count", .int stage.blockedCount),
    ("failed_count", .int stage.failedCount),
    ("maximum", optionalFloat stage.maximum),
    ("mean", optionalFloat stage.mean),
    ("median", optionalFloat stage.median),
    ("minimum", optionalFloat stage.minimum),
    ("missing_count", .int stage.missingCount),
    ("population_stddev", optionalFloat stage.populationStddev),
    ("samples_total", .int stage.samplesTotal),
    ("scored_count", .int stage.scoredCount),
    ("stage", .str stage.stage),
    ("state", .str stage.state.text),
    ("transformations", .arr (stage.transformations.map .str)),
    ("unavailable_count", .int stage.unavailableCount)]

def FullReferenceTreatmentReport.fields (report : FullReferenceTreatmentReport) :
    List (String × Payload) :=
  [ ("metric_name", .str report.contract.metricName),
    ("minimum_samples", .int report.minimumSamples),
    ("score_range", .obj [
      ("maximum", .float (.finite report.contract.maximumScore)),
      ("minimum", .float (.finite report.contract.minimumScore))]),
    ("scorer", .str report.contract.scorer),
    ("stages", .arr (report.stages.map fun stage => .obj stage.fields)),
    ("treatment", .str report.treatment)]

/-- `safe_payload`, which `write_full_reference_treatment_report` dumps. -/
def FullReferenceTreatmentReport.safePayload (report : FullReferenceTreatmentReport) : Payload :=
  .obj report.fields

/-! ## The loader -/

inductive LoadError where
  | valueError (reason : String)
  | typeError
  | overflowError
  deriving DecidableEq, Repr

/-- `_MAX_REPORT_BYTES`. -/
def maxReportBytes : ℕ := 1000000

/-- `_non_negative_int`, with the number. -/
def nonNegativeInt? : Payload → Option ℕ
  | .int n => if 0 ≤ n then some n.toNat else none
  | _ => none

/-- `_finite_number`. An integer that is too large for a float raises in `math.isfinite`. -/
def finiteNumber (value : Payload) (field : String) : Except LoadError ℚ :=
  match value with
  | .int n =>
      match roundDouble n with
      | some q => .ok q
      | none => .error .overflowError
  | .float (.finite q) => .ok q
  | _ => .error (.valueError ("treatment report has invalid " ++ field))

/-- `_optional_finite_number`. -/
def optionalFiniteNumber (value : Payload) (field : String) :
    Except LoadError (Option PyFloat) :=
  match value with
  | .null => .ok none
  | value => (finiteNumber value field).map fun q => some (.finite q)

/-- `FullReferenceScorerContract(...)`; a pattern does not match what is no text. -/
def loadContract (scorer metricName : Payload) (minimumScore maximumScore : ℚ) :
    Except LoadError FullReferenceScorerContract :=
  match scorer with
  | .str scorer =>
      if hscorer : safeName scorer = true then
        match metricName with
        | .str metricName =>
            if hmetric : safeName metricName = true then
              if hrange : minimumScore < maximumScore then
                .ok ⟨scorer, metricName, minimumScore, maximumScore, hscorer, hmetric, hrange⟩
              else .error (.valueError "minimum_score must be less than maximum_score")
            else .error (.valueError "metric_name must be a safe lowercase alias")
        | _ => .error .typeError
      else .error (.valueError "scorer must be a safe lowercase alias")
  | _ => .error .typeError

/-- The alias of a stage. -/
def loadAlias (value : Payload) (reason : String) : Except LoadError String :=
  match value with
  | .str s => if safeName s then .ok s else .error (.valueError reason)
  | _ => .error (.valueError reason)

/-- The state of a stage; lists and objects cannot be looked up in a set. -/
def loadState : Payload → Except LoadError FullReferenceAggregateState
  | .str "aggregated" => .ok .aggregated
  | .str "insufficient" => .ok .insufficient
  | .str "partial" => .ok .partialScores
  | .str "incomparable" => .ok .incomparable
  | .arr _ => .error .typeError
  | .obj _ => .error .typeError
  | _ => .error (.valueError "treatment report has an invalid aggregate state")

structure StageCounts where
  samplesTotal : ℕ
  scoredCount : ℕ
  unavailableCount : ℕ
  blockedCount : ℕ
  failedCount : ℕ
  missingCount : ℕ

def loadCounts (fields : List (String × Payload)) : Except LoadError StageCounts :=
  match nonNegativeInt? (getField fields "samples_total"),
    nonNegativeInt? (getField fields "scored_count"),
    nonNegativeInt? (getField fields "unavailable_count"),
    nonNegativeInt? (getField fields "blocked_count"),
    nonNegativeInt? (getField fields "failed_count"),
    nonNegativeInt? (getField fields "missing_count") with
  | some total, some scored, some unavailable, some blocked, some failed, some missing =>
      if scored + unavailable + blocked + failed + missing ≠ total then
        .error (.valueError "treatment report sample counts are inconsistent")
      else .ok ⟨total, scored, unavailable, blocked, failed, missing⟩
  | _, _, _, _, _, _ => .error (.valueError "treatment report has an invalid sample count")

def loadTransformation : Payload → Except LoadError String
  | .str s =>
      if safeTransformationText s then .ok s
      else .error (.valueError "treatment report has invalid transformations")
  | _ => .error (.valueError "treatment report has invalid transformations")

def loadTransformations : Payload → Except LoadError (List String)
  | .arr items => items.mapM loadTransformation
  | _ => .error (.valueError "treatment report has invalid transformations")

/-- `payload.get(name, value) != value`. -/
def differs (fields : List (String × Payload)) (name value : String) : Bool :=
  match Dict.get? fields name with
  | none => false
  | some (.str s) => s ≠ value
  | some _ => true

structure OptionalStatistics where
  mean : Option PyFloat
  median : Option PyFloat
  minimum : Option PyFloat
  maximum : Option PyFloat
  populationStddev : Option PyFloat

def OptionalStatistics.values (stats : OptionalStatistics) : List (Option PyFloat) :=
  [stats.mean, stats.median, stats.minimum, stats.maximum, stats.populationStddev]

def loadStatistics (fields : List (String × Payload)) : Except LoadError OptionalStatistics := do
  let mean ← optionalFiniteNumber (getField fields "mean") "mean"
  let median ← optionalFiniteNumber (getField fields "median") "median"
  let minimum ← optionalFiniteNumber (getField fields "minimum") "minimum"
  let maximum ← optionalFiniteNumber (getField fields "maximum") "maximum"
  let populationStddev ←
    optionalFiniteNumber (getField fields "population_stddev") "population_stddev"
  return ⟨mean, median, minimum, maximum, populationStddev⟩

/-- `_load_stage` on the fields of an object. -/
def loadStageFields (treatment : String) (contract : FullReferenceScorerContract)
    (fields : List (String × Payload)) : Except LoadError FullReferenceStageAggregate := do
  let stage ← loadAlias (getField fields "stage") "treatment report has an invalid stage alias"
  let state ← loadState (getField fields "state")
  let counts ← loadCounts fields
  let transformations ← loadTransformations (getField fields "transformations")
  let stats ← loadStatistics fields
  if state = .aggregated ∧ stats.values.any Option.isNone then
    .error (.valueError "aggregated stage must contain complete statistics")
  else if differs fields "scorer" contract.scorer ||
      differs fields "metric_name" contract.metricName then
    .error (.valueError "stage scorer metadata does not match report contract")
  else
    return {
      treatment := treatment
      stage := stage
      scorer := contract.scorer
      metricName := contract.metricName
      state := state
      samplesTotal := counts.samplesTotal
      scoredCount := counts.scoredCount
      unavailableCount := counts.unavailableCount
      blockedCount := counts.blockedCount
      failedCount := counts.failedCount
      missingCount := counts.missingCount
      mean := stats.mean
      median := stats.median
      minimum := stats.minimum
      maximum := stats.maximum
      populationStddev := stats.populationStddev
      transformations := transformations }

/-- `_load_stage`. -/
def loadStage (treatment : String) (contract : FullReferenceScorerContract) :
    Payload → Except LoadError FullReferenceStageAggregate
  | .obj fields => loadStageFields treatment contract fields
  | _ => .error (.valueError "treatment stage must be an object")

def loadMinimumSamples (value : Payload) : Except LoadError ℤ :=
  match nonNegativeInt? value with
  | some n =>
      if n < 2 then .error (.valueError "treatment report has invalid minimum_samples") else .ok n
  | none => .error (.valueError "treatment report has invalid minimum_samples")

/-- The report from the fields of the aggregate. -/
def loadReportFields (fields : List (String × Payload)) :
    Except LoadError FullReferenceTreatmentReport := do
  let treatment ← loadAlias (getField fields "treatment")
    "treatment report has an invalid treatment alias"
  let minimumSamples ← loadMinimumSamples (getField fields "minimum_samples")
  let scoreRange ← match getField fields "score_range" with
    | .obj scoreRange => .ok scoreRange
    | _ => .error (.valueError "treatment report has invalid score_range")
  let minimumScore ← finiteNumber (getField scoreRange "minimum") "score minimum"
  let maximumScore ← finiteNumber (getField scoreRange "maximum") "score maximum"
  let contract ← loadContract (getField fields "scorer") (getField fields "metric_name")
    minimumScore maximumScore
  let rawStages ← match getField fields "stages" with
    | .arr rawStages => .ok rawStages
    | _ => .error (.valueError "treatment report stages must be an array")
  let stages ← rawStages.mapM (loadStage treatment contract)
  if (stages.map (·.stage)).dedup.length ≠ stages.length then
    .error (.valueError "treatment report contains duplicate stages")
  else return ⟨treatment, minimumSamples, contract, stages⟩

/-- `load_full_reference_treatment_report` on a file of `size` bytes. -/
def loadFullReferenceTreatmentReport (size : ℕ) (document : Payload) :
    Except LoadError FullReferenceTreatmentReport :=
  if size > maxReportBytes then .error (.valueError "treatment report exceeds size limit")
  else
    match document with
    | .obj fields =>
        match Dict.get? fields "aggregate" with
        | none => loadReportFields fields
        | some (.obj aggregate) => loadReportFields aggregate
        | some _ => .error (.valueError "treatment report aggregate must be an object")
    | _ => .error (.valueError "treatment report root must be an object")

/-! ## What the loader checks of a stage -/

def FullReferenceStageAggregate.statistics (stage : FullReferenceStageAggregate) :
    OptionalStatistics :=
  ⟨stage.mean, stage.median, stage.minimum, stage.maximum, stage.populationStddev⟩

/-- The loader returns the stage as it was written. -/
structure Loadable (stage : FullReferenceStageAggregate) : Prop where
  stage_safe : safeName stage.stage = true
  counts : stage.scoredCount + stage.unavailableCount + stage.blockedCount + stage.failedCount +
    stage.missingCount = stage.samplesTotal
  transformations_safe : ∀ t ∈ stage.transformations, safeTransformationText t = true
  finite : ∀ x ∈ stage.statistics.values, ∀ y ∈ x, ∃ q, y = .finite q
  complete : stage.state = .aggregated → ∀ x ∈ stage.statistics.values, x.isSome

section Fields

theorem loadAlias_str_iff {s t reason : String} :
    loadAlias (.str s) reason = .ok t ↔ safeName s = true ∧ s = t := by
  unfold loadAlias
  dsimp only
  split_ifs with hsafe
  · simp [hsafe]
  · simp [hsafe]

theorem loadState_text (state : FullReferenceAggregateState) :
    loadState (.str state.text) = .ok state := by
  cases state <;> rfl

theorem optionalFiniteNumber_optionalFloat_iff {x y : Option PyFloat} {field : String} :
    optionalFiniteNumber (optionalFloat x) field = .ok y ↔ (∀ v ∈ x, ∃ q, v = .finite q) ∧ x = y := by
  cases x with
  | none => simp [optionalFloat, optionalFiniteNumber]
  | some v =>
      have hspecial : ∀ v : PyFloat, (∀ q, v ≠ .finite q) →
          optionalFiniteNumber (.float v) field =
            .error (.valueError ("treatment report has invalid " ++ field)) := by
        intro v hv
        cases v with
        | finite q => exact absurd rfl (hv q)
        | inf => rfl
        | negInf => rfl
        | nan => rfl
      by_cases hv : ∃ q, v = .finite q
      · obtain ⟨q, rfl⟩ := hv
        have hload : optionalFiniteNumber (optionalFloat (some (.finite q))) field =
          .ok (some (.finite q)) := rfl
        rw [hload]
        simp
      · rw [optionalFloat, hspecial v fun q hq => hv ⟨q, hq⟩]
        simp only [reduceCtorEq, false_iff, not_and]
        exact fun hall => absurd (hall v rfl) hv

theorem loadTransformation_str_iff {s t : String} :
    loadTransformation (.str s) = .ok t ↔ safeTransformationText s = true ∧ s = t := by
  unfold loadTransformation
  dsimp only
  split_ifs with hsafe
  · simp [hsafe]
  · simp [hsafe]

theorem loadTransformations_iff {ts ts' : List String} :
    loadTransformations (.arr (ts.map .str)) = .ok ts' ↔
      (∀ t ∈ ts, safeTransformationText t = true) ∧ ts = ts' := by
  unfold loadTransformations
  dsimp only
  rw [List.mapM_map]
  have hone : ∀ s t, (loadTransformation ∘ Payload.str) s = .ok t ↔
      safeTransformationText s = true ∧ id s = t := fun s t => loadTransformation_str_iff
  rw [mapM_eq_ok_iff_map hone, List.map_id]

theorem nonNegativeInt?_natCast (n : ℕ) : nonNegativeInt? (.int n) = some n := by
  simp [nonNegativeInt?]

end Fields

theorem loadCounts_fields_iff {stage : FullReferenceStageAggregate} {counts : StageCounts} :
    loadCounts stage.fields = .ok counts ↔
      stage.scoredCount + stage.unavailableCount + stage.blockedCount + stage.failedCount +
          stage.missingCount = stage.samplesTotal ∧
        counts = ⟨stage.samplesTotal, stage.scoredCount, stage.unavailableCount,
          stage.blockedCount, stage.failedCount, stage.missingCount⟩ := by
  have htotal : getField stage.fields "samples_total" = .int stage.samplesTotal := rfl
  have hscored : getField stage.fields "scored_count" = .int stage.scoredCount := rfl
  have hunavailable : getField stage.fields "unavailable_count" = .int stage.unavailableCount := rfl
  have hblocked : getField stage.fields "blocked_count" = .int stage.blockedCount := rfl
  have hfailed : getField stage.fields "failed_count" = .int stage.failedCount := rfl
  have hmissing : getField stage.fields "missing_count" = .int stage.missingCount := rfl
  unfold loadCounts
  rw [htotal, hscored, hunavailable, hblocked, hfailed, hmissing]
  simp only [nonNegativeInt?_natCast]
  split_ifs with hsum
  · simp [hsum]
  · rw [not_not] at hsum
    simp [hsum, eq_comm]

theorem loadStatistics_fields_iff {stage : FullReferenceStageAggregate}
    {stats : OptionalStatistics} :
    loadStatistics stage.fields = .ok stats ↔
      (∀ x ∈ stage.statistics.values, ∀ y ∈ x, ∃ q, y = .finite q) ∧ stage.statistics = stats := by
  unfold loadStatistics OptionalStatistics.values
  simp only [List.forall_mem_cons, List.not_mem_nil, false_implies, implies_true, and_true]
  constructor
  · intro h
    obtain ⟨mean, hload, h⟩ := bind_eq_ok.mp h
    obtain ⟨hmean, rfl⟩ := optionalFiniteNumber_optionalFloat_iff.mp hload
    obtain ⟨median, hload, h⟩ := bind_eq_ok.mp h
    obtain ⟨hmedian, rfl⟩ := optionalFiniteNumber_optionalFloat_iff.mp hload
    obtain ⟨minimum, hload, h⟩ := bind_eq_ok.mp h
    obtain ⟨hminimum, rfl⟩ := optionalFiniteNumber_optionalFloat_iff.mp hload
    obtain ⟨maximum, hload, h⟩ := bind_eq_ok.mp h
    obtain ⟨hmaximum, rfl⟩ := optionalFiniteNumber_optionalFloat_iff.mp hload
    obtain ⟨deviation, hload, h⟩ := bind_eq_ok.mp h
    obtain ⟨hdeviation, rfl⟩ := optionalFiniteNumber_optionalFloat_iff.mp hload
    cases h
    exact ⟨⟨hmean, hmedian, hminimum, hmaximum, hdeviation⟩, rfl⟩
  · rintro ⟨⟨hmean, hmedian, hminimum, hmaximum, hdeviation⟩, rfl⟩
    refine bind_eq_ok.mpr ⟨_, optionalFiniteNumber_optionalFloat_iff.mpr ⟨hmean, rfl⟩, ?_⟩
    refine bind_eq_ok.mpr ⟨_, optionalFiniteNumber_optionalFloat_iff.mpr ⟨hmedian, rfl⟩, ?_⟩
    refine bind_eq_ok.mpr ⟨_, optionalFiniteNumber_optionalFloat_iff.mpr ⟨hminimum, rfl⟩, ?_⟩
    refine bind_eq_ok.mpr ⟨_, optionalFiniteNumber_optionalFloat_iff.mpr ⟨hmaximum, rfl⟩, ?_⟩
    exact bind_eq_ok.mpr ⟨_, optionalFiniteNumber_optionalFloat_iff.mpr ⟨hdeviation, rfl⟩, rfl⟩

/-- The loader reads a stage back as it was, and only when `Loadable` says so. -/
theorem loadStage_fields_iff {stage stage' : FullReferenceStageAggregate} {treatment : String}
    {contract : FullReferenceScorerContract} (htreatment : stage.treatment = treatment)
    (hscorer : stage.scorer = contract.scorer) (hmetric : stage.metricName = contract.metricName) :
    loadStage treatment contract (.obj stage.fields) = .ok stage' ↔
      Loadable stage ∧ stage = stage' := by
  subst htreatment
  have hload : loadStage stage.treatment contract (.obj stage.fields) =
      loadStageFields stage.treatment contract stage.fields := rfl
  have hdiffers : ¬ (differs stage.fields "scorer" contract.scorer ||
      differs stage.fields "metric_name" contract.metricName) = true := by
    have hs : differs stage.fields "scorer" contract.scorer = false := rfl
    have hm : differs stage.fields "metric_name" contract.metricName = false := rfl
    simp [hs, hm]
  rw [hload]
  unfold loadStageFields
  constructor
  · intro h
    obtain ⟨name, hname, h⟩ := bind_eq_ok.mp h
    obtain ⟨hsafe, rfl⟩ := loadAlias_str_iff.mp hname
    obtain ⟨state, hstate, h⟩ := bind_eq_ok.mp h
    obtain rfl : stage.state = state := Except.ok.inj ((loadState_text _).symm.trans hstate)
    obtain ⟨counts, hcounts, h⟩ := bind_eq_ok.mp h
    obtain ⟨hsum, rfl⟩ := loadCounts_fields_iff.mp hcounts
    obtain ⟨transformations, htransformations, h⟩ := bind_eq_ok.mp h
    obtain ⟨htexts, rfl⟩ := loadTransformations_iff.mp htransformations
    obtain ⟨stats, hstats, h⟩ := bind_eq_ok.mp h
    obtain ⟨hfinite, rfl⟩ := loadStatistics_fields_iff.mp hstats
    split_ifs at h with hcomplete
    cases h
    refine ⟨⟨hsafe, hsum, htexts, hfinite, ?_⟩, ?_⟩
    · intro hstate x hx
      by_contra hnone
      exact hcomplete ⟨hstate, List.any_eq_true.mpr ⟨x, hx, by simpa using hnone⟩⟩
    · rw [← hscorer, ← hmetric]
      rfl
  · rintro ⟨hload, rfl⟩
    have hcomplete : ¬ (stage.state = .aggregated ∧
        stage.statistics.values.any Option.isNone = true) := by
      rintro ⟨hstate, hany⟩
      obtain ⟨x, hx, hnone⟩ := List.any_eq_true.mp hany
      have hsome := hload.complete hstate x hx
      rw [Option.isNone_iff_eq_none.mp hnone] at hsome
      cases hsome
    refine bind_eq_ok.mpr ⟨_, loadAlias_str_iff.mpr ⟨hload.stage_safe, rfl⟩, ?_⟩
    refine bind_eq_ok.mpr ⟨_, loadState_text _, ?_⟩
    refine bind_eq_ok.mpr ⟨_, loadCounts_fields_iff.mpr ⟨hload.counts, rfl⟩, ?_⟩
    refine bind_eq_ok.mpr ⟨_, loadTransformations_iff.mpr ⟨hload.transformations_safe, rfl⟩, ?_⟩
    refine bind_eq_ok.mpr ⟨_, loadStatistics_fields_iff.mpr ⟨hload.finite, rfl⟩, ?_⟩
    rw [if_neg hcomplete, if_neg hdiffers, ← hscorer, ← hmetric]
    rfl

/-! ## What the loader checks of a report -/

theorem loadContract_of_contract (contract : FullReferenceScorerContract) :
    loadContract (.str contract.scorer) (.str contract.metricName) contract.minimumScore
      contract.maximumScore = .ok contract := by
  simp [loadContract, contract.scorer_safe, contract.metricName_safe, contract.range]

theorem loadMinimumSamples_int {n : ℤ} (h : 2 ≤ n) : loadMinimumSamples (.int n) = .ok n := by
  have hnat : nonNegativeInt? (.int n) = some n.toNat := if_pos (by omega)
  unfold loadMinimumSamples
  rw [hnat]
  have hlt : ¬ n.toNat < 2 := by omega
  have hcast : ((n.toNat : ℕ) : ℤ) = n := Int.toNat_of_nonneg (by omega)
  simp [hlt, hcast]

/-- A report of pairwise different stages is read back when each stage is. -/
theorem load_safePayload_iff_loadable {report : FullReferenceTreatmentReport} {size : ℕ}
    (hsize : size ≤ maxReportBytes) (htreatment : safeName report.treatment = true)
    (hminimum : 2 ≤ report.minimumSamples) (hnodup : (report.stages.map (·.stage)).Nodup)
    (hstages : ∀ stage ∈ report.stages, stage.treatment = report.treatment ∧
      stage.scorer = report.contract.scorer ∧ stage.metricName = report.contract.metricName) :
    loadFullReferenceTreatmentReport size report.safePayload = .ok report ↔
      ∀ stage ∈ report.stages, Loadable stage := by
  have hload : loadFullReferenceTreatmentReport size report.safePayload =
      loadReportFields report.fields := if_neg (not_lt.mpr hsize)
  have hone : ∀ stage ∈ report.stages, ∀ stage',
      loadStage report.treatment report.contract (.obj stage.fields) = .ok stage' ↔
        Loadable stage ∧ stage = stage' := fun stage hstage stage' =>
    loadStage_fields_iff (hstages stage hstage).1 (hstages stage hstage).2.1
      (hstages stage hstage).2.2
  rw [hload]
  unfold loadReportFields
  constructor
  · intro h
    obtain ⟨_, htext, h⟩ := bind_eq_ok.mp h
    obtain ⟨-, rfl⟩ := loadAlias_str_iff.mp htext
    obtain ⟨_, -, h⟩ := bind_eq_ok.mp h
    obtain ⟨_, hrange, h⟩ := bind_eq_ok.mp h
    cases hrange
    obtain ⟨_, hlow, h⟩ := bind_eq_ok.mp h
    cases hlow
    obtain ⟨_, hhigh, h⟩ := bind_eq_ok.mp h
    cases hhigh
    obtain ⟨contract, hcontract, h⟩ := bind_eq_ok.mp h
    obtain rfl : report.contract = contract :=
      Except.ok.inj ((loadContract_of_contract _).symm.trans hcontract)
    obtain ⟨_, hraw, h⟩ := bind_eq_ok.mp h
    cases hraw
    obtain ⟨stages, hread, -⟩ := bind_eq_ok.mp h
    intro stage hstage
    obtain ⟨stage', -, hstage'⟩ := exists_mem_mapM hread (List.mem_map_of_mem hstage)
    exact ((hone stage hstage stage').mp hstage').1
  · intro hall
    have hread : (report.stages.map fun stage => Payload.obj stage.fields).mapM
        (loadStage report.treatment report.contract) = .ok report.stages := by
      rw [mapM_eq_ok_iff, List.forall₂_map_left_iff, List.forall₂_same]
      exact fun stage hstage => (hone stage hstage stage).mpr ⟨hall stage hstage, rfl⟩
    have hdistinct : (report.stages.map (·.stage)).dedup.length = report.stages.length := by
      rw [hnodup.dedup, List.length_map]
    refine bind_eq_ok.mpr ⟨_, loadAlias_str_iff.mpr ⟨htreatment, rfl⟩, ?_⟩
    refine bind_eq_ok.mpr ⟨_, loadMinimumSamples_int hminimum, ?_⟩
    refine bind_eq_ok.mpr ⟨_, rfl, bind_eq_ok.mpr ⟨_, rfl, bind_eq_ok.mpr ⟨_, rfl, ?_⟩⟩⟩
    refine bind_eq_ok.mpr ⟨_, loadContract_of_contract report.contract, ?_⟩
    refine bind_eq_ok.mpr ⟨_, rfl, bind_eq_ok.mpr ⟨_, hread, ?_⟩⟩
    rw [if_neg (not_not.mpr hdistinct)]
    rfl

/-! ## What the aggregation writes -/

/-- The median of the numbers is a finite float: there is one number in the middle, or the
sum of the two there is not too large. -/
def MedianFits (data : List ℚ) : Prop :=
  data.length % 2 = 1 ∨ (roundDouble ((middle data).1 + (middle data).2)).isSome

/-- Half of a float has a nearest float. -/
theorem isSome_roundDouble_half {q sum : ℚ} (h : roundDouble q = some sum) :
    (roundDouble (sum / 2)).isSome := by
  refine isSome_roundDouble ?_
  have hlt := abs_lt_of_roundDouble h
  rw [abs_div, abs_two, div_le_iff₀ two_pos, ← pow_succ]
  exact hlt.le

theorem exists_median_finite_iff {data : List ℚ} :
    (∃ q, median data = .finite q) ↔ MedianFits data := by
  unfold median MedianFits
  by_cases hodd : data.length % 2 = 1
  · simp [hodd]
  · rw [if_neg hodd, or_iff_right hodd]
    unfold toFloat
    cases hsum : roundDouble ((middle data).1 + (middle data).2) with
    | none => split_ifs <;> simp
    | some sum =>
        obtain ⟨half, hhalf⟩ := Option.isSome_iff_exists.mp (isSome_roundDouble_half hsum)
        simp [hhalf]

example : (fmean [2 ^ 1023, -(3 * 2 ^ 1022), 2 ^ 1023, 2 ^ 1023]).isSome ∧
    median [2 ^ 1023, -(3 * 2 ^ 1022), 2 ^ 1023, 2 ^ 1023] = .inf := by decide +kernel

section Results

variable {contract : FullReferenceScorerContract} {results : List FullReferenceScoreResult}

theorem length_numericScores (hok : ∀ result ∈ results, ScoreResultOk contract result) :
    (numericScores results).length = countState results .scored := by
  unfold numericScores scoredResults countState
  rw [List.length_filterMap_eq_countP, List.countP_filter]
  refine List.countP_congr fun result hresult => ?_
  have hscore := (hok result hresult).isSome_score_iff
  simp [hscore]

/-- Each result has one of the four states. -/
theorem countState_add (results : List FullReferenceScoreResult) :
    countState results .scored + countState results .unavailable + countState results .blocked +
      countState results .failed = results.length := by
  unfold countState
  induction results with
  | nil => rfl
  | cons result results ih =>
      simp only [List.countP_cons, List.length_cons]
      cases hstate : result.state <;> simp only [decide_eq_true_eq, reduceCtorEq, if_true, if_false] <;>
        omega

theorem safe_of_mem_stageRecord (hok : ∀ result ∈ results, ScoreResultOk contract result)
    {treatment stage t : String} {total : ℕ} {minimumSamples : ℤ}
    {statistics : Option StageStatistics}
    (ht : t ∈ (stageRecord treatment stage contract total results minimumSamples
      statistics).transformations) : safeTransformationText t = true := by
  unfold stageRecord at ht
  dsimp only at ht
  split at ht
  · rename_i transformations hsets
    have hmem : transformations ∈ ((scoredResults results).map (·.transformations)).dedup := by
      rw [hsets]
      exact List.mem_singleton_self _
    obtain ⟨result, hresult, rfl⟩ := List.mem_map.mp (List.mem_dedup.mp hmem)
    exact (hok result (List.mem_filter.mp hresult).1).transformations_safe t ht
  · cases ht

theorem publishStatistics_cases {scores : List PyFloat} {minimumSamples : ℤ}
    {statistics : Option StageStatistics} (h : publishStatistics minimumSamples scores = .ok statistics) :
    (scores.length < minimumSamples ∧ statistics = none) ∨
      minimumSamples ≤ scores.length ∧
        ∃ found, statistics = some found ∧ stageStatistics scores = .ok found := by
  unfold publishStatistics at h
  split_ifs at h with henough
  · cases hfound : stageStatistics scores with
    | error e => simp [hfound, Except.map] at h
    | ok found =>
        rw [hfound] at h
        cases h
        exact .inr ⟨henough, found, rfl, rfl⟩
  · cases h
    exact .inl ⟨not_le.mp henough, rfl⟩

/-- All statistics of a stage but the median are finite. -/
theorem forall_values_iff {scores : List PyFloat} {found : StageStatistics}
    (hfinite : ∀ score ∈ scores, ∃ q, score = .finite q) (h : stageStatistics scores = .ok found) :
    (∀ x ∈ [found.mean, found.median, found.minimum, found.maximum, found.populationStddev],
        ∃ q, x = .finite q) ↔ MedianFits (scores.filterMap finite?) := by
  obtain ⟨data, rfl⟩ := exists_eq_map_finite hfinite
  obtain ⟨mean, deviation, minimum, maximum, -, -, -, -, rfl⟩ := stageStatistics_eq_ok_iff.mp h
  rw [filterMap_finite?, ← exists_median_finite_iff]
  simp

/-- A stage of the aggregation is read back when its name is safe and its median is finite. -/
theorem loadable_stageRecord_iff (hok : ∀ result ∈ results, ScoreResultOk contract result)
    {treatment stage : String} {total : ℕ} {minimumSamples : ℤ}
    {statistics : Option StageStatistics} (htotal : results.length ≤ total)
    (hpublish : publishStatistics minimumSamples (numericScores results) = .ok statistics) :
    Loadable (stageRecord treatment stage contract total results minimumSamples statistics) ↔
      safeName stage = true ∧ (minimumSamples ≤ (numericScores results).length →
        MedianFits ((numericScores results).filterMap finite?)) := by
  have hcounts := countState_add results
  rw [← length_numericScores hok] at hcounts
  have hsum : (numericScores results).length + countState results .unavailable +
      countState results .blocked + countState results .failed + (total - results.length) = total := by
    omega
  have hfinite := finite_of_mem_numericScores hok
  rcases publishStatistics_cases hpublish with ⟨hfew, rfl⟩ | ⟨henough, found, rfl, hfound⟩
  · refine ⟨fun h => ⟨h.stage_safe, fun henough => absurd henough (not_le.mpr hfew)⟩, ?_⟩
    rintro ⟨hsafe, -⟩
    refine ⟨hsafe, hsum, fun t ht => safe_of_mem_stageRecord hok ht, ?_, ?_⟩
    · simp [stageRecord, FullReferenceStageAggregate.statistics, OptionalStatistics.values]
    · intro hstate
      have hstate' : aggregateState ((scoredResults results).map (·.transformations)).dedup _
        (numericScores results).length minimumSamples = .aggregated := hstate
      unfold aggregateState at hstate'
      split_ifs at hstate'
  · have hvalues := forall_values_iff hfinite hfound
    constructor
    · intro h
      refine ⟨h.stage_safe, fun _ => hvalues.mp ?_⟩
      have hall := h.finite
      simpa [stageRecord, FullReferenceStageAggregate.statistics, OptionalStatistics.values]
        using hall
    · rintro ⟨hsafe, hmedian⟩
      have hall := hvalues.mpr (hmedian henough)
      refine ⟨hsafe, hsum, fun t ht => safe_of_mem_stageRecord hok ht, ?_, ?_⟩
      · simpa [stageRecord, FullReferenceStageAggregate.statistics, OptionalStatistics.values]
          using hall
      · simp [stageRecord, FullReferenceStageAggregate.statistics, OptionalStatistics.values]

end Results

/-! ## The round trip -/

section Runs

variable {runs : List ScoringRun} {treatment : String} {minimumSamples : ℤ}
  {r : FullReferenceTreatmentReport}

theorem mem_stageOrder_report {stage : String} :
    stage ∈ stageOrder (runs.map ScoringRun.report) ↔
      ∃ run ∈ runs, ∃ reference ∈ run.references, reference.stage = stage := by
  rw [mem_stageOrder]
  simp only [List.mem_map, exists_exists_and_eq_and]
  refine exists_congr fun run => and_congr_right fun _ => ?_
  rw [← List.mem_map, ← List.mem_map]
  exact (ScoringRun.perm_stages run).mem_iff

theorem exists_of_aggregateResults {stage : String} {contract : FullReferenceScorerContract}
    {total : ℕ} {results : List FullReferenceScoreResult} {a : FullReferenceStageAggregate}
    (h : aggregateResults treatment stage contract total results minimumSamples = .ok a) :
    ∃ statistics, publishStatistics minimumSamples (numericScores results) = .ok statistics ∧
      a = stageRecord treatment stage contract total results minimumSamples statistics := by
  unfold aggregateResults at h
  split_ifs at h
  cases hpublish : publishStatistics minimumSamples (numericScores results) with
  | error e => simp [hpublish, Except.map] at h
  | ok statistics =>
      rw [hpublish] at h
      cases h
      exact ⟨statistics, rfl, rfl⟩

/-- An accepted report is read back exactly when every reference names a stage with a safe
alias and no median that it publishes is too large for a float. -/
theorem treatment_report_round_trip_iff {size : ℕ}
    (h : aggregateFullReferenceReports treatment (runs.map ScoringRun.report) minimumSamples =
      .ok r) (hsize : size ≤ maxReportBytes) :
    loadFullReferenceTreatmentReport size r.safePayload = .ok r ↔
      (∀ run ∈ runs, ∀ reference ∈ run.references, safeName reference.stage = true) ∧
        ∀ stage, minimumSamples ≤ (scoresOf (runs.map ScoringRun.report) stage).length →
          MedianFits ((scoresOf (runs.map ScoringRun.report) stage).filterMap finite?) := by
  obtain ⟨⟨htreatment, hminimum, -⟩, hreports, hstages, rfl, rfl⟩ :=
    aggregateFullReferenceReports_eq_ok_iff.mp h
  have hcontract : ∀ run ∈ runs, run.scorer.contract = r.contract := fun run hrun =>
    (hreports run.report (List.mem_map_of_mem hrun)).1
  have hrecord : ∀ stage a, aggregateResults r.treatment stage r.contract
      (runs.map ScoringRun.report).length (resultsOf (runs.map ScoringRun.report) stage)
        r.minimumSamples = .ok a →
      (a.stage = stage ∧ a.treatment = r.treatment ∧ a.scorer = r.contract.scorer ∧
        a.metricName = r.contract.metricName) ∧
      (Loadable a ↔ safeName stage = true ∧
        (r.minimumSamples ≤ (scoresOf (runs.map ScoringRun.report) stage).length →
          MedianFits ((scoresOf (runs.map ScoringRun.report) stage).filterMap finite?))) := by
    intro stage a ha
    obtain ⟨statistics, hpublish, rfl⟩ := exists_of_aggregateResults ha
    exact ⟨⟨rfl, rfl, rfl, rfl⟩, loadable_stageRecord_iff
      (fun _ hresult => scoreResultOk_of_mem_resultsOf hcontract hresult)
      (List.length_filterMap_le _ _) hpublish⟩
  have hnames : r.stages.map (·.stage) = stageOrder (runs.map ScoringRun.report) := by
    rw [map_eq_of_mapM hstages fun stage a ha => (hrecord stage a ha).1.1, List.map_id']
  have hnodup : (r.stages.map (·.stage)).Nodup := hnames ▸ nodup_stageOrder _
  rw [load_safePayload_iff_loadable hsize htreatment hminimum hnodup fun a ha => by
    obtain ⟨stage, -, hstage⟩ := exists_of_mem_mapM hstages ha
    exact (hrecord stage a hstage).1.2]
  constructor
  · intro hall
    have hstage : ∀ stage ∈ stageOrder (runs.map ScoringRun.report), safeName stage = true ∧
        (r.minimumSamples ≤ (scoresOf (runs.map ScoringRun.report) stage).length →
          MedianFits ((scoresOf (runs.map ScoringRun.report) stage).filterMap finite?)) := by
      intro stage hmem
      obtain ⟨a, ha, hread⟩ := exists_mem_mapM hstages hmem
      exact (hrecord stage a hread).2.mp (hall a ha)
    refine ⟨fun run hrun reference hreference => ?_, fun stage henough => ?_⟩
    · exact (hstage _ (mem_stageOrder_report.mpr ⟨run, hrun, reference, hreference, rfl⟩)).1
    · by_cases hmem : stage ∈ stageOrder (runs.map ScoringRun.report)
      · exact (hstage stage hmem).2 henough
      · rw [scoresOf_eq_nil hmem, List.length_nil] at henough
        omega
  · rintro ⟨hsafe, hmedian⟩ a ha
    obtain ⟨stage, hmem, hread⟩ := exists_of_mem_mapM hstages ha
    obtain ⟨run, hrun, reference, hreference, rfl⟩ := mem_stageOrder_report.mp hmem
    exact (hrecord _ a hread).2.mpr ⟨hsafe run hrun reference hreference, hmedian _⟩

end Runs

/-- Three runs of one stage, with the scores of the calibration. -/
def threeRuns (stage : String) : List ScoringRun :=
  [3, 4, 5].map fun score => stagesRun [stage] visqolContract (.finite score)

theorem treatment_report_round_trip_serializer :
    ∃ r, aggregateFullReferenceReports "baseline-speech"
        ((threeRuns "serializer").map ScoringRun.report) 3 = .ok r ∧
      loadFullReferenceTreatmentReport 1000 r.safePayload = .ok r := by
  have haccept : (aggregateFullReferenceReports "baseline-speech"
      ((threeRuns "serializer").map ScoringRun.report) 3).isOk = true := by decide +kernel
  cases h : aggregateFullReferenceReports "baseline-speech"
      ((threeRuns "serializer").map ScoringRun.report) 3 with
  | error e =>
      rw [h] at haccept
      cases haccept
  | ok r =>
      refine ⟨r, rfl, (treatment_report_round_trip_iff h (by decide)).mpr
        ⟨by decide +kernel, fun stage henough => ?_⟩⟩
      by_cases hstage : stage = "serializer"
      · subst hstage
        exact .inl (by decide +kernel)
      · have hmem : stage ∉ stageOrder ((threeRuns "serializer").map ScoringRun.report) := by
          have horder : stageOrder ((threeRuns "serializer").map ScoringRun.report) =
            ["serializer"] := by decide +kernel
          simpa [horder] using hstage
        rw [scoresOf_eq_nil hmem] at henough
        exact absurd henough (by decide)

/-- A stage with a capital in its name is aggregated, and not read back. -/
theorem capital_stage_not_read_back :
    ¬ ∀ (runs : List ScoringRun) (treatment : String) (minimumSamples : ℤ)
      (r : FullReferenceTreatmentReport) (size : ℕ),
      aggregateFullReferenceReports treatment (runs.map ScoringRun.report) minimumSamples = .ok r →
      size ≤ maxReportBytes → loadFullReferenceTreatmentReport size r.safePayload = .ok r := by
  intro h
  have hrejected : (match aggregateFullReferenceReports "baseline-speech"
      ((threeRuns "Serializer").map ScoringRun.report) 3 with
    | .ok r => (loadFullReferenceTreatmentReport 1000 r.safePayload).isOk
    | .error _ => true) = false := by decide +kernel
  cases hr : aggregateFullReferenceReports "baseline-speech"
      ((threeRuns "Serializer").map ScoringRun.report) 3 with
  | error e =>
      rw [hr] at hrejected
      cases hrejected
  | ok r =>
      have hload := h _ _ _ r 1000 hr (by decide)
      rw [hr] at hrejected
      dsimp only at hrejected
      rw [hload] at hrejected
      cases hrejected

end VoxBench.Verification
