import VoxBench.Verification.ExactAggregation
import VoxBench.Verification.Regression

/-!
# Treatment reports from a file

The loader checks the fields of a stage one by one, and of the relations between them only
that the counts add up and that an aggregated stage has all statistics. What the aggregation
keeps besides is up to the file.

## Main definitions

* `AggregationInvariants` — what the aggregation keeps of a stage.
* `AggregatedDocument` — the files whose stages an aggregation wrote.

## Main results

* `aggregated_invariants` — the aggregation keeps it, when its averages are rounded once.
* `loaded_invariants` — so do the loaded reports of these files.
-/

namespace VoxBench.Verification

open VoxBench.Lib VoxBench.ControlPlane VoxBench.Observability

/-! ## What the aggregation keeps -/

/-- What the aggregation keeps of a stage. -/
structure AggregationInvariants (minimumSamples : ℤ) (contract : FullReferenceScorerContract)
    (a : FullReferenceStageAggregate) : Prop where
  aggregated : a.state = .aggregated →
    a.scoredCount = a.samplesTotal ∧ minimumSamples ≤ a.samplesTotal
  published : ∀ x ∈ a.statistics.values, x.isSome ↔ minimumSamples ≤ a.scoredCount
  ordered : ∀ minimum mean median maximum deviation : ℚ,
    a.minimum = some (.finite minimum) → a.mean = some (.finite mean) →
    a.median = some (.finite median) → a.maximum = some (.finite maximum) →
    a.populationStddev = some (.finite deviation) →
      (contract.minimumScore ≤ minimum ∧ maximum ≤ contract.maximumScore) ∧
        (minimum ≤ mean ∧ mean ≤ maximum) ∧ (minimum ≤ median ∧ median ≤ maximum) ∧ 0 ≤ deviation

/-- What the aggregation calls a stage with these counts, when all its scores were made in the
same way. -/
def stateOfCounts (minimumSamples : ℤ) (a : FullReferenceStageAggregate) :
    FullReferenceAggregateState :=
  aggregateState [a.transformations]
    ([a.unavailableCount, a.blockedCount, a.failedCount, a.missingCount].any fun count => count ≠ 0)
    a.scoredCount minimumSamples

/-- The comparison with another report has a verdict only on stages that the aggregation calls
aggregated. -/
def VerdictsFounded (r : FullReferenceTreatmentReport) : Prop :=
  ∀ (rounding : Rounding) (other : FullReferenceTreatmentReport)
    (policy : FullReferenceRegressionPolicy) (record : FullReferenceStageRegression),
    record ∈ (compareFullReferenceTreatments rounding r other policy).stages ∨
        record ∈ (compareFullReferenceTreatments rounding other r policy).stages →
      record.state ≠ .indeterminate → ∀ a ∈ r.stages, a.stage = record.stage →
        stateOfCounts r.minimumSamples a = .aggregated

/-! ## Stages that an aggregation wrote -/

def nearestFloat : PyFloat → PyFloat
  | .finite q => .finite (nearest q)
  | special => special

/-- The statistics, with the floats nearest to the mean and to the median. `statistics.fmean`
rounds the sum and the quotient. -/
def roundedStatistics (scores : List PyFloat) : Except AggregateError StageStatistics :=
  (exactStatistics scores).map fun statistics =>
    { statistics with
      mean := nearestFloat statistics.mean, median := nearestFloat statistics.median }

/-- Three scores of 1.4 have a smaller mean. -/
example : (fmean (List.replicate 3 (nearest (7 / 5)))).any (· < nearest (7 / 5)) = true := by
  decide +kernel

/-- The scores of the reports are floats in the range of the contract. -/
def FloatScores (contract : FullReferenceScorerContract) (reports : List FullReferenceScoringReport) :
    Prop :=
  ∀ report ∈ reports, ∀ result ∈ report.results, ScoreResultOk contract result ∧
    ∀ q, result.score = some (.finite q) → nearest q = q

/-- The fields of the aggregate in a file. -/
def aggregateFields : Payload → List (String × Payload)
  | .obj fields =>
      match Dict.get? fields "aggregate" with
      | some (.obj aggregate) => aggregate
      | _ => fields
  | _ => []

/-- The fields of an object. -/
def objectFields : Payload → List (String × Payload)
  | .obj fields => fields
  | _ => []

/-- The elements of an array. -/
def elements : Payload → List Payload
  | .arr items => items
  | _ => []

/-- The finite number of a field. -/
def payloadNumber : Payload → Option ℚ
  | .int n => roundDouble n
  | .float (.finite q) => some q
  | _ => none

/-- The fields are those that `safe_payload` writes of a stage, which some reports are
aggregated to. -/
def AggregatedStage (minimumSamples : ℕ) (lowest highest : ℚ) (fields : List (String × Payload)) :
    Prop :=
  ∃ treatment reports r, aggregateReportsWith roundedStatistics treatment reports minimumSamples =
      .ok r ∧ r.contract.minimumScore = lowest ∧ r.contract.maximumScore = highest ∧
    FloatScores r.contract reports ∧
    ∃ a ∈ r.stages, ∀ entry ∈ a.fields, getField fields entry.1 = entry.2

/-- All stages of the file are written by an aggregation with the number of samples and the
range of scores that the file declares. -/
def AggregatedDocument (document : Payload) : Prop :=
  ∀ (minimumSamples : ℕ) (lowest highest : ℚ),
    getField (aggregateFields document) "minimum_samples" = .int minimumSamples →
    payloadNumber (getField (objectFields (getField (aggregateFields document) "score_range"))
      "minimum") = some lowest →
    payloadNumber (getField (objectFields (getField (aggregateFields document) "score_range"))
      "maximum") = some highest →
    ∀ stage ∈ elements (getField (aggregateFields document) "stages"),
      AggregatedStage minimumSamples lowest highest (objectFields stage)

/-! ## What the aggregation keeps of its stages -/

section Aggregated

variable {treatment stage : String} {reports : List FullReferenceScoringReport}
  {contract : FullReferenceScorerContract} {minimumSamples : ℤ} {a : FullReferenceStageAggregate}

/-- The statistics are finite and in order, also when they are rounded. -/
theorem roundedStatistics_bounds {scores : List PyFloat} {statistics : StageStatistics}
    (hfloats : ∀ q, PyFloat.finite q ∈ scores → nearest q = q)
    (h : roundedStatistics scores = .ok statistics) :
    ∃ minimum mean median maximum deviation, statistics = ⟨.finite mean, .finite median,
        .finite minimum, .finite maximum, .finite deviation⟩ ∧
      (minimum ≤ mean ∧ mean ≤ maximum) ∧ (minimum ≤ median ∧ median ≤ maximum) ∧
      0 ≤ deviation ∧ .finite minimum ∈ scores ∧ .finite maximum ∈ scores := by
  cases hexact : exactStatistics scores with
  | error e => simp [roundedStatistics, hexact, Except.map] at h
  | ok exact =>
      rw [roundedStatistics, hexact] at h
      cases h
      obtain ⟨data, deviation, _, _, -, hdeviation, -, -, hfound⟩ :=
        exactStatistics_eq_ok_iff.mp hexact
      obtain ⟨minimum, mean, median, maximum, deviation', heq, hmean, hmedian, hmin, hmax⟩ :=
        exactStatistics_bounds hexact
      rw [heq] at hfound ⊢
      obtain rfl : deviation' = deviation := by
        simp only [StageStatistics.mk.injEq, PyFloat.finite.injEq] at hfound
        exact hfound.2.2.2.2
      have hbetween : ∀ {q}, minimum ≤ q ∧ q ≤ maximum →
          minimum ≤ nearest q ∧ nearest q ≤ maximum := by
        rintro q ⟨hlo, hhi⟩
        have hlo := nearest_mono hlo
        have hhi := nearest_mono hhi
        rw [hfloats _ hmin] at hlo
        rw [hfloats _ hmax] at hhi
        exact ⟨hlo, hhi⟩
      exact ⟨minimum, _, _, maximum, deviation', rfl, hbetween hmean, hbetween hmedian,
        pstdev_nonneg hdeviation, hmin, hmax⟩

/-- A stage of accepted reports keeps what the aggregation keeps. -/
theorem aggregated_invariants (hscores : FloatScores contract reports)
    (h : aggregateResultsWith roundedStatistics treatment stage contract reports.length
      (resultsOf reports stage) minimumSamples = .ok a) :
    AggregationInvariants minimumSamples contract a := by
  obtain ⟨hall, published, hpublished, rfl⟩ := aggregateResultsWith_eq_ok_iff.mp h
  have hrange : ∀ q, PyFloat.finite q ∈ numericScores (resultsOf reports stage) →
      nearest q = q ∧ contract.minimumScore ≤ q ∧ q ≤ contract.maximumScore := by
    intro q hq
    obtain ⟨result, hresult, hscore⟩ := List.mem_filterMap.mp hq
    obtain ⟨report, hreport, hfound⟩ := List.mem_filterMap.mp (List.mem_filter.mp hresult).1
    obtain ⟨hok, hfloat⟩ := hscores report hreport result (List.mem_of_find?_eq_some hfound)
    obtain ⟨q', hq', hrange⟩ := hok.range _ hscore
    cases hq'
    exact ⟨hfloat q hscore, hrange⟩
  have hcount : (stageRecord treatment stage contract reports.length (resultsOf reports stage)
    minimumSamples published).scoredCount = (numericScores (resultsOf reports stage)).length := rfl
  refine ⟨fun hstate => ?_, ?_, ?_⟩
  · obtain ⟨⟨hlength, hscored, -⟩, henough⟩ :=
      (state_stageRecord_iff hall length_resultsOf_le published).mp hstate
    have hcountScored : countState (resultsOf reports stage) .scored = reports.length := by
      rw [← hlength, countState, List.countP_eq_length]
      exact fun result hresult => decide_eq_true (hscored result hresult)
    rw [hcount, length_numericScores_of_isSome hall, hcountScored]
    exact ⟨rfl, henough⟩
  · rw [hcount]
    obtain ⟨hfew, rfl⟩ | ⟨henough, found, rfl, -⟩ := publishWith_cases hpublished
    · intro x hx
      simp only [FullReferenceStageAggregate.statistics, OptionalStatistics.values, stageRecord,
        Option.map_none, List.mem_cons, List.not_mem_nil, or_false, or_self] at hx
      simp [hx, hfew]
    · intro x hx
      simp only [FullReferenceStageAggregate.statistics, OptionalStatistics.values, stageRecord,
        Option.map_some, List.mem_cons, List.not_mem_nil, or_false] at hx
      obtain rfl | rfl | rfl | rfl | rfl := hx <;> simp [henough]
  · intro minimum mean median maximum deviation h₁ h₂ h₃ h₄ h₅
    obtain ⟨-, rfl⟩ | ⟨-, found, rfl, hfound⟩ := publishWith_cases hpublished
    · cases h₁
    · obtain ⟨_, _, _, _, _, rfl, hmean, hmedian, hdeviation, hmin, hmax⟩ :=
        roundedStatistics_bounds (fun q hq => (hrange q hq).1) hfound
      cases h₁
      cases h₂
      cases h₃
      cases h₄
      cases h₅
      exact ⟨⟨(hrange _ hmin).2.1, (hrange _ hmax).2.2⟩, hmean, hmedian, hdeviation⟩

end Aggregated

/-! ## What the loader checks -/

section Fields

variable {fields : List (String × Payload)} {treatment : String}
  {contract : FullReferenceScorerContract} {a : FullReferenceStageAggregate}

theorem nonNegativeInt?_eq_some_iff {value : Payload} {n : ℕ} :
    nonNegativeInt? value = some n ↔ value = .int n := by
  cases value with
  | int m =>
      simp only [nonNegativeInt?, Payload.int.injEq]
      by_cases hm : 0 ≤ m
      · rw [if_pos hm, Option.some.injEq]
        omega
      · rw [if_neg hm]
        simp only [reduceCtorEq, false_iff]
        omega
  | null | bool | float | str | arr | obj => simp [nonNegativeInt?]

theorem payloadNumber_of_finiteNumber {value : Payload} {field : String} {q : ℚ}
    (h : finiteNumber value field = .ok q) : payloadNumber value = some q := by
  cases value with
  | int n =>
      unfold finiteNumber at h
      cases hround : roundDouble n with
      | none =>
          simp only [hround] at h
          cases h
      | some p =>
          simp only [hround] at h
          cases h
          exact hround
  | float x =>
      cases x with
      | finite p =>
          cases h
          rfl
      | inf | negInf | nan => cases h
  | null | bool | str | arr | obj => cases h

/-- The counts of a stage, which add up. -/
theorem loadCounts_eq_ok {counts : StageCounts} (h : loadCounts fields = .ok counts) :
    getField fields "samples_total" = .int counts.samplesTotal ∧
      getField fields "scored_count" = .int counts.scoredCount ∧
      counts.scoredCount + counts.unavailableCount + counts.blockedCount + counts.failedCount +
        counts.missingCount = counts.samplesTotal := by
  simp only [loadCounts] at h
  split at h
  · rename_i total scored _ _ _ _ htotal hscored _ _ _ _
    split_ifs at h with hsum
    cases h
    rw [nonNegativeInt?_eq_some_iff] at htotal hscored
    exact ⟨htotal, hscored, not_not.mp hsum⟩
  · cases h

/-- Everything that a loaded stage tells about its fields. -/
theorem loadStageFields_eq_ok (h : loadStageFields treatment contract fields = .ok a) :
    loadState (getField fields "state") = .ok a.state ∧
      loadCounts fields = .ok ⟨a.samplesTotal, a.scoredCount, a.unavailableCount, a.blockedCount,
        a.failedCount, a.missingCount⟩ ∧
      loadStatistics fields = .ok a.statistics := by
  obtain ⟨stage, -, h⟩ := bind_eq_ok.mp h
  obtain ⟨state, hstate, h⟩ := bind_eq_ok.mp h
  obtain ⟨counts, hcounts, h⟩ := bind_eq_ok.mp h
  obtain ⟨transformations, -, h⟩ := bind_eq_ok.mp h
  obtain ⟨stats, hstats, h⟩ := bind_eq_ok.mp h
  split_ifs at h with hmissing hdiffers
  cases h
  exact ⟨hstate, hcounts, hstats⟩

section Written

variable {b : FullReferenceStageAggregate}
  (hwritten : ∀ entry ∈ b.fields, getField fields entry.1 = entry.2)

include hwritten

/-- Statistics are read as they were written. -/
theorem loadStatistics_of_written {stats : OptionalStatistics}
    (h : loadStatistics fields = .ok stats) : stats = b.statistics := by
  have hread : ∀ {name : String} {x y : Option PyFloat}, (name, optionalFloat x) ∈ b.fields →
      optionalFiniteNumber (getField fields name) name = .ok y → y = x := by
    intro name x y hmem hy
    rw [hwritten _ hmem, optionalFiniteNumber_optionalFloat_iff] at hy
    exact hy.2.symm
  obtain ⟨mean, hmean, h⟩ := bind_eq_ok.mp h
  obtain ⟨median, hmedian, h⟩ := bind_eq_ok.mp h
  obtain ⟨minimum, hminimum, h⟩ := bind_eq_ok.mp h
  obtain ⟨maximum, hmaximum, h⟩ := bind_eq_ok.mp h
  obtain ⟨deviation, hdeviation, h⟩ := bind_eq_ok.mp h
  cases h
  rw [@hread _ b.mean _ (by simp [FullReferenceStageAggregate.fields]) hmean,
    @hread _ b.median _ (by simp [FullReferenceStageAggregate.fields]) hmedian,
    @hread _ b.minimum _ (by simp [FullReferenceStageAggregate.fields]) hminimum,
    @hread _ b.maximum _ (by simp [FullReferenceStageAggregate.fields]) hmaximum,
    @hread _ b.populationStddev _ (by simp [FullReferenceStageAggregate.fields]) hdeviation]
  rfl

/-- What the aggregation keeps of a stage is kept of the stage that is read back. -/
theorem aggregationInvariants_of_written {minimumSamples : ℤ}
    {contract' : FullReferenceScorerContract} (hb : AggregationInvariants minimumSamples contract' b)
    (hmin : contract'.minimumScore = contract.minimumScore)
    (hmax : contract'.maximumScore = contract.maximumScore)
    (h : loadStageFields treatment contract fields = .ok a) :
    AggregationInvariants minimumSamples contract a := by
  obtain ⟨hstate, hcounts, hstats⟩ := loadStageFields_eq_ok h
  obtain ⟨htotal, hscored, -⟩ := loadCounts_eq_ok hcounts
  dsimp only at htotal hscored
  rw [hwritten ("state", .str b.state.text) (by simp [FullReferenceStageAggregate.fields]),
    loadState_text] at hstate
  rw [hwritten ("samples_total", .int b.samplesTotal)
    (by simp [FullReferenceStageAggregate.fields])] at htotal
  rw [hwritten ("scored_count", .int b.scoredCount)
    (by simp [FullReferenceStageAggregate.fields])] at hscored
  have hstate : b.state = a.state := Except.ok.inj hstate
  have htotal : b.samplesTotal = a.samplesTotal := Int.ofNat.inj (Payload.int.inj htotal)
  have hscored : b.scoredCount = a.scoredCount := Int.ofNat.inj (Payload.int.inj hscored)
  have hstats := loadStatistics_of_written hwritten hstats
  simp only [FullReferenceStageAggregate.statistics, OptionalStatistics.mk.injEq] at hstats
  obtain ⟨hmean, hmedian, hminimum, hmaximum, hdeviation⟩ := hstats
  constructor
  · rw [← hstate, ← htotal, ← hscored]
    exact hb.aggregated
  · have hvalues : a.statistics = b.statistics := by
      simp only [FullReferenceStageAggregate.statistics, hmean, hmedian, hminimum, hmaximum,
        hdeviation]
    rw [hvalues, ← hscored]
    exact hb.published
  · rw [hmean, hmedian, hminimum, hmaximum, hdeviation, ← hmin, ← hmax]
    exact hb.ordered

end Written

end Fields

/-! ## Loaded reports -/

section Reports

variable {fields : List (String × Payload)} {document : Payload} {size : ℕ}
  {r : FullReferenceTreatmentReport}

theorem loadContract_eq_ok {scorer metricName : Payload} {lowest highest : ℚ}
    {contract : FullReferenceScorerContract}
    (h : loadContract scorer metricName lowest highest = .ok contract) :
    contract.minimumScore = lowest ∧ contract.maximumScore = highest := by
  simp only [loadContract] at h
  split at h
  · by_cases hrange : lowest < highest
    · simp only [dif_pos hrange] at h
      split_ifs at h
      split at h
      · split_ifs at h
        cases h
        exact ⟨rfl, rfl⟩
      · cases h
    · simp only [dif_neg hrange] at h
      split_ifs at h
      split at h
      · split_ifs at h
      · cases h
  · cases h

/-- What a loaded report tells about the fields of its file. -/
theorem loadReportFields_eq_ok (h : loadReportFields fields = .ok r) :
    ∃ (minimumSamples : ℕ) (scoreRange : List (String × Payload)) (stages : List Payload),
      getField fields "minimum_samples" = .int minimumSamples ∧
        r.minimumSamples = minimumSamples ∧
        getField fields "score_range" = .obj scoreRange ∧
        payloadNumber (getField scoreRange "minimum") = some r.contract.minimumScore ∧
        payloadNumber (getField scoreRange "maximum") = some r.contract.maximumScore ∧
        getField fields "stages" = .arr stages ∧
        List.Forall₂ (fun stage a => loadStage r.treatment r.contract stage = .ok a) stages r.stages ∧
        (r.stages.map (·.stage)).Nodup := by
  obtain ⟨treatment, -, h⟩ := bind_eq_ok.mp h
  obtain ⟨minimumSamples, hminimum, h⟩ := bind_eq_ok.mp h
  dsimp only at h
  split at h
  case h_2 => cases h
  rename_i scoreRange hrange
  obtain ⟨_, ⟨⟩, h⟩ := bind_eq_ok.mp h
  obtain ⟨lowest, hlowest, h⟩ := bind_eq_ok.mp h
  obtain ⟨highest, hhighest, h⟩ := bind_eq_ok.mp h
  obtain ⟨contract, hcontract, h⟩ := bind_eq_ok.mp h
  split at h
  case h_2 => cases h
  rename_i rawStages hraw
  obtain ⟨_, ⟨⟩, h⟩ := bind_eq_ok.mp h
  obtain ⟨stages, hstages, h⟩ := bind_eq_ok.mp h
  split_ifs at h with hdistinct
  cases h
  obtain ⟨rfl, rfl⟩ := loadContract_eq_ok hcontract
  have hminimum' : ∃ n : ℕ, getField fields "minimum_samples" = .int n ∧ minimumSamples = n := by
    simp only [loadMinimumSamples] at hminimum
    cases hread : nonNegativeInt? (getField fields "minimum_samples") with
    | none => simp [hread] at hminimum
    | some n =>
        simp only [hread] at hminimum
        split_ifs at hminimum
        cases hminimum
        exact ⟨n, nonNegativeInt?_eq_some_iff.mp hread, rfl⟩
  obtain ⟨n, hfield, rfl⟩ := hminimum'
  refine ⟨n, scoreRange, rawStages, hfield, rfl, hrange, payloadNumber_of_finiteNumber hlowest,
    payloadNumber_of_finiteNumber hhighest, hraw, mapM_eq_ok_iff.mp hstages, ?_⟩
  have hlength : (stages.map (·.stage)).dedup.length = (stages.map (·.stage)).length := by
    rw [List.length_map]
    exact not_not.mp hdistinct
  rw [← List.dedup_eq_self]
  exact (List.dedup_sublist _).eq_of_length hlength

theorem loadReportFields_of_load (h : loadFullReferenceTreatmentReport size document = .ok r) :
    loadReportFields (aggregateFields document) = .ok r := by
  simp only [loadFullReferenceTreatmentReport] at h
  split_ifs at h
  cases document with
  | obj fields =>
      simp only [aggregateFields]
      cases haggregate : Dict.get? fields "aggregate" with
      | none => simpa [haggregate] using h
      | some value =>
          cases value with
          | obj aggregate => simpa [haggregate] using h
          | null | bool | int | float | str | arr => simp [haggregate] at h
  | null | bool | int | float | str | arr => cases h

/-- A verdict on a loaded stage is about an aggregated one with a safe count. -/
theorem verdictsFounded_of_invariants (hnodup : (r.stages.map (·.stage)).Nodup)
    (hcounts : ∀ a ∈ r.stages, a.scoredCount + a.unavailableCount + a.blockedCount +
      a.failedCount + a.missingCount = a.samplesTotal)
    (hkept : ∀ a ∈ r.stages, AggregationInvariants r.minimumSamples r.contract a) :
    VerdictsFounded r := by
  intro rounding other policy record hrecord hverdict a ha hstage
  have hget : Dict.get? (stagesByName r.stages) record.stage = some a :=
    (get?_stagesByName_iff hnodup).mpr ⟨ha, hstage⟩
  have haggregated : a.state = .aggregated := by
    obtain hrecord | hrecord := hrecord
    · rw [eq_compareStage_of_mem hrecord, compareStage_ne_indeterminate_iff] at hverdict
      obtain ⟨-, b, c, hb, -, hmatched⟩ := hverdict
      rw [hget] at hb
      cases hb
      exact hmatched.baseline_aggregated
    · rw [eq_compareStage_of_mem hrecord, compareStage_ne_indeterminate_iff] at hverdict
      obtain ⟨-, b, c, -, hc, hmatched⟩ := hverdict
      rw [hget] at hc
      cases hc
      exact hmatched.current_aggregated
  obtain ⟨hall, henough⟩ := (hkept a ha).aggregated haggregated
  have hsum := hcounts a ha
  rw [← hall] at henough
  simp only [stateOfCounts, aggregateState, List.length_singleton, List.any_cons, List.any_nil,
    Bool.or_false, Bool.or_eq_true, decide_eq_true_eq]
  rw [if_neg (by omega), if_neg (by omega), if_neg (by omega)]

end Reports

/-- A loaded report keeps what the aggregation keeps, and has only founded verdicts in
comparisons, when the stages of its file are written by aggregations. -/
theorem loaded_invariants {size : ℕ} {document : Payload} {r : FullReferenceTreatmentReport}
    (h : loadFullReferenceTreatmentReport size document = .ok r)
    (hdocument : AggregatedDocument document) :
    (∀ a ∈ r.stages, AggregationInvariants r.minimumSamples r.contract a) ∧ VerdictsFounded r := by
  obtain ⟨minimumSamples, scoreRange, stages, hminimum, hminimum', hrange, hlowest, hhighest,
    hraw, hstages, hnodup⟩ := loadReportFields_eq_ok (loadReportFields_of_load h)
  have hone : ∀ {stage a}, loadStage r.treatment r.contract stage = .ok a →
      loadStageFields r.treatment r.contract (objectFields stage) = .ok a := by
    intro stage a hread
    cases stage with
    | obj fields => exact hread
    | null | bool | int | float | str | arr => cases hread
  have hkept : ∀ a ∈ r.stages, AggregationInvariants r.minimumSamples r.contract a := by
    intro a ha
    obtain ⟨stage, hstage, hread⟩ := exists_mem_of_forall₂ hstages ha
    obtain ⟨treatment, reports, written, haccepted, hlow, hhigh, hscores, b, hb, hfields⟩ :=
      hdocument minimumSamples _ _ hminimum (by rwa [hrange]) (by rwa [hrange]) stage (by rwa [hraw])
    obtain ⟨-, -, haggregated, -, -⟩ := aggregateReportsWith_eq_ok_iff.mp haccepted
    obtain ⟨name, -, hresult⟩ := exists_of_mem_mapM haggregated hb
    rw [hminimum']
    exact aggregationInvariants_of_written hfields (aggregated_invariants hscores hresult) hlow hhigh
      (hone hread)
  refine ⟨hkept, verdictsFounded_of_invariants hnodup (fun a ha => ?_) hkept⟩
  obtain ⟨stage, -, hread⟩ := exists_mem_of_forall₂ hstages ha
  exact (loadCounts_eq_ok (loadStageFields_eq_ok (hone hread)).2.1).2.2

/-- A file with one aggregated stage, with this many scores and other samples missing; 439 bytes
when the counts have one digit. -/
def oneStageDocument (scored missing : ℕ) : Payload :=
  .obj [("treatment", .str "baseline-speech"), ("minimum_samples", .int 3),
    ("score_range", .obj [("minimum", .float (.finite 1)), ("maximum", .float (.finite 5))]),
    ("scorer", .str "visqol"), ("metric_name", .str "visqol_moslqo"),
    ("stages", .arr [.obj [("stage", .str "stt"), ("state", .str "aggregated"),
      ("samples_total", .int (scored + missing)), ("scored_count", .int scored),
      ("unavailable_count", .int 0), ("blocked_count", .int 0), ("failed_count", .int 0),
      ("missing_count", .int missing), ("transformations", .arr []),
      ("mean", .float (.finite 4)), ("median", .float (.finite 4)),
      ("minimum", .float (.finite 4)), ("maximum", .float (.finite 4)),
      ("population_stddev", .float (.finite 0))]])]

/-- What is loaded from this file. -/
def oneStageReport (scored missing : ℕ) : FullReferenceTreatmentReport where
  treatment := "baseline-speech"
  minimumSamples := 3
  contract := visqolContract
  stages := [⟨"baseline-speech", "stt", "visqol", "visqol_moslqo", .aggregated, scored + missing,
    scored, 0, 0, 0, missing, some (.finite 4), some (.finite 4), some (.finite 4),
    some (.finite 4), some (.finite 0), []⟩]

/-- Three reports in which the stage has the score 4. -/
def fourReports : List FullReferenceScoringReport :=
  List.replicate 3 ⟨visqolContract, [⟨"stt", "visqol", "visqol_moslqo", .scored, some (.finite 4),
    none, []⟩]⟩

theorem floatScores_fourReports : FloatScores visqolContract fourReports := by
  intro report hreport result hresult
  obtain rfl := List.eq_of_mem_replicate hreport
  obtain rfl := List.mem_singleton.mp hresult
  refine ⟨⟨by decide, ?_, by simp⟩, ?_⟩
  · rintro score ⟨⟩
    exact ⟨4, rfl, by decide, by decide⟩
  · rintro q ⟨⟩
    decide +kernel

theorem aggregated_oneStageDocument : AggregatedDocument (oneStageDocument 3 0) := by
  intro n lowest highest hn hlow hhigh stage hstage
  cases (show Payload.int 3 = .int n from hn)
  cases (show some (1 : ℚ) = some lowest from hlow)
  cases (show some (5 : ℚ) = some highest from hhigh)
  obtain rfl := List.mem_singleton.mp hstage
  refine ⟨"baseline-speech", fourReports, oneStageReport 3 0, by decide +kernel, rfl, rfl,
    floatScores_fourReports, _, List.mem_singleton_self _, fun entry hentry => ?_⟩
  simp only [FullReferenceStageAggregate.fields, List.mem_cons, List.not_mem_nil, or_false]
    at hentry
  obtain rfl | rfl | rfl | rfl | rfl | rfl | rfl | rfl | rfl | rfl | rfl | rfl | rfl | rfl :=
    hentry <;> rfl

theorem loaded_invariants_oneStage :
    (∀ a ∈ (oneStageReport 3 0).stages, AggregationInvariants (oneStageReport 3 0).minimumSamples
      (oneStageReport 3 0).contract a) ∧ VerdictsFounded (oneStageReport 3 0) :=
  loaded_invariants (show loadFullReferenceTreatmentReport 439 (oneStageDocument 3 0) =
    .ok (oneStageReport 3 0) by decide +kernel) aggregated_oneStageDocument

/-- An aggregated stage without a single score is accepted, and is found stable. -/
theorem exists_unfounded_verdict :
    ∃ r, loadFullReferenceTreatmentReport 439 (oneStageDocument 0 3) = .ok r ∧
      (∃ a ∈ r.stages, ¬ AggregationInvariants r.minimumSamples r.contract a) ∧
      ¬ VerdictsFounded r := by
  refine ⟨oneStageReport 0 3, by decide +kernel, ⟨_, List.mem_singleton_self _, ?_⟩, ?_⟩
  · intro hkept
    exact absurd (hkept.aggregated rfl).1 (by decide)
  · intro hfounded
    have hstate := hfounded .exact (oneStageReport 0 3) tenthPolicy
      ⟨"stt", .stable, some (.finite 4), some (.finite 4), some (.finite 0), 1 / 10, none⟩
      (.inl (by decide +kernel)) (by decide) _ (List.mem_singleton_self _) rfl
    exact absurd hstate (by decide)

end VoxBench.Verification
