import VoxBench.Lib.Double
import VoxBench.Lib.Grouping
import VoxBench.Lib.Traverse
import VoxBench.Verification.FullReference

/-!
# Scores of a treatment

`aggregateFullReferenceReports` takes the reports of the runs of one treatment together,
stage by stage: how many results each state has, and statistics of the scores when there
are enough of them. A stage may have one result in each report.

## Main definitions

* `aggregateFullReferenceReports` — the aggregation.
* `scoresOf` — the scores of a stage.

## Main results

* `aggregateFullReferenceReports_eq_ok_iff` — what is accepted, and with what result.
* `select_score_aggregate` — the reports of the scoring are accepted.
-/

namespace VoxBench.Verification

open VoxBench.Lib VoxBench.ControlPlane VoxBench.Observability

/-! ## Statistics of the scores -/

inductive AggregateError where
  | valueError (reason : String)
  /-- What a function of `statistics` raises. -/
  | raised
  deriving DecidableEq, Repr

/-- `math.isfinite`, with the number. -/
def finite? : PyFloat → Option ℚ
  | .finite q => some q
  | _ => none

/-- The float nearest to a number, an infinity where that is too large. -/
def toFloat (q : ℚ) : PyFloat :=
  match roundDouble q with
  | some r => .finite r
  | none => if 0 < q then .inf else .negInf

/-- The two numbers in the middle of an even number of them. -/
def middle (data : List ℚ) : ℚ × ℚ :=
  let sorted := sortOn id data
  (sorted.getD (data.length / 2 - 1) 0, sorted.getD (data.length / 2) 0)

/-- `statistics.median`. The sum of two floats can be too large for a float. -/
def median (data : List ℚ) : PyFloat :=
  if data.length % 2 = 1 then .finite (middle data).2
  else
    match toFloat ((middle data).1 + (middle data).2) with
    | .finite sum => toFloat (sum / 2)
    | special => special

structure StageStatistics where
  mean : PyFloat
  median : PyFloat
  minimum : PyFloat
  maximum : PyFloat
  populationStddev : PyFloat
  deriving DecidableEq, Repr

/-- The statistics of a stage; `pstdev` raises on an infinity and on a NaN. -/
def stageStatistics (scores : List PyFloat) : Except AggregateError StageStatistics :=
  match scores.mapM finite? with
  | none => .error .raised
  | some data =>
      match fmean data, pstdev data, data.min?, data.max? with
      | some mean, some deviation, some minimum, some maximum =>
          .ok ⟨.finite mean, median data, .finite minimum, .finite maximum, .finite deviation⟩
      | _, _, _, _ => .error .raised

/-! ## The aggregation -/

inductive FullReferenceAggregateState where
  | aggregated
  | insufficient
  /-- The state `"partial"`. -/
  | partialScores
  | incomparable
  deriving DecidableEq, Repr

structure FullReferenceStageAggregate where
  treatment : String
  stage : String
  scorer : String
  metricName : String
  state : FullReferenceAggregateState
  samplesTotal : ℕ
  scoredCount : ℕ
  unavailableCount : ℕ
  blockedCount : ℕ
  failedCount : ℕ
  missingCount : ℕ
  mean : Option PyFloat
  median : Option PyFloat
  minimum : Option PyFloat
  maximum : Option PyFloat
  populationStddev : Option PyFloat
  transformations : List String
  deriving DecidableEq, Repr

structure FullReferenceTreatmentReport where
  treatment : String
  minimumSamples : ℤ
  contract : FullReferenceScorerContract
  stages : List FullReferenceStageAggregate
  deriving DecidableEq

/-- The state of a stage with these sets of transformations and counts. -/
def aggregateState (transformationSets : List (List String)) (hasPartialSamples : Bool)
    (scoredCount : ℕ) (minimumSamples : ℤ) : FullReferenceAggregateState :=
  if transformationSets.length > 1 then .incomparable
  else if hasPartialSamples then .partialScores
  else if scoredCount < minimumSamples then .insufficient
  else .aggregated

def scoredResults (results : List FullReferenceScoreResult) : List FullReferenceScoreResult :=
  results.filter fun result => result.state = .scored

def numericScores (results : List FullReferenceScoreResult) : List PyFloat :=
  (scoredResults results).filterMap (·.score)

def countState (results : List FullReferenceScoreResult) (state : FullReferenceScoreState) : ℕ :=
  results.countP fun result => result.state = state

/-- There are no statistics of fewer than `minimumSamples` scores. -/
def publishStatistics (minimumSamples : ℤ) (scores : List PyFloat) :
    Except AggregateError (Option StageStatistics) :=
  if minimumSamples ≤ scores.length then (stageStatistics scores).map some else .ok none

/-- What `_aggregate_stage` returns with these statistics. -/
def stageRecord (treatment stage : String) (contract : FullReferenceScorerContract)
    (total : ℕ) (results : List FullReferenceScoreResult) (minimumSamples : ℤ)
    (statistics : Option StageStatistics) : FullReferenceStageAggregate :=
  let transformationSets := ((scoredResults results).map (·.transformations)).dedup
  let missingCount := total - results.length
  let hasPartialSamples := [countState results .unavailable, countState results .blocked,
    countState results .failed, missingCount].any fun count => count ≠ 0
  { treatment := treatment
    stage := stage
    scorer := contract.scorer
    metricName := contract.metricName
    state := aggregateState transformationSets hasPartialSamples (numericScores results).length
      minimumSamples
    samplesTotal := total
    scoredCount := (numericScores results).length
    unavailableCount := countState results .unavailable
    blockedCount := countState results .blocked
    failedCount := countState results .failed
    missingCount := missingCount
    mean := statistics.map (·.mean)
    median := statistics.map (·.median)
    minimum := statistics.map (·.minimum)
    maximum := statistics.map (·.maximum)
    populationStddev := statistics.map (·.populationStddev)
    transformations := match transformationSets with
      | [transformations] => transformations
      | _ => [] }

/-- `_aggregate_stage`, on the results of the stage among `total` reports. -/
def aggregateResults (treatment stage : String) (contract : FullReferenceScorerContract)
    (total : ℕ) (results : List FullReferenceScoreResult) (minimumSamples : ℤ) :
    Except AggregateError FullReferenceStageAggregate :=
  if (scoredResults results).any fun result => result.score.isNone then
    .error (.valueError "scored results must contain a numeric score")
  else
    (publishStatistics minimumSamples (numericScores results)).map
      (stageRecord treatment stage contract total results minimumSamples)

abbrev IndexedReport := List (String × FullReferenceScoreResult)

/-- `_aggregate_stage`. -/
def aggregateStage (treatment : String) (contract : FullReferenceScorerContract)
    (indexedReports : List IndexedReport) (minimumSamples : ℤ) (stage : String) :
    Except AggregateError FullReferenceStageAggregate :=
  aggregateResults treatment stage contract indexedReports.length
    (indexedReports.filterMap fun indexed => Dict.get? indexed stage) minimumSamples

/-- The results of one report by their stages, after the stages of the reports before. -/
def indexResults : List FullReferenceScoreResult → List String → IndexedReport →
    Except AggregateError (List String × IndexedReport)
  | [], stageOrder, indexed => .ok (stageOrder, indexed)
  | result :: results, stageOrder, indexed =>
      if (Dict.get? indexed result.stage).isSome then
        .error (.valueError "a report must contain at most one result per stage")
      else
        indexResults results (addStage stageOrder result.stage)
          (Dict.set indexed result.stage result)

def indexReports (contract : FullReferenceScorerContract) :
    List FullReferenceScoringReport → List String →
      Except AggregateError (List String × List IndexedReport)
  | [], stageOrder => .ok (stageOrder, [])
  | report :: reports, stageOrder =>
      if report.contract ≠ contract then
        .error (.valueError "all reports must use the same scorer contract")
      else do
        let (stageOrder, indexed) ← indexResults report.results stageOrder []
        let (stageOrder, indexedReports) ← indexReports contract reports stageOrder
        return (stageOrder, indexed :: indexedReports)

def aggregateFullReferenceReports (treatment : String)
    (reports : List FullReferenceScoringReport) (minimumSamples : ℤ) :
    Except AggregateError FullReferenceTreatmentReport :=
  if !safeName treatment then .error (.valueError "treatment must be a safe lowercase alias")
  else if minimumSamples < 2 then .error (.valueError "minimum_samples must be at least 2")
  else
    match reports with
    | [] => .error (.valueError "at least one scoring report is required")
    | first :: _ => do
        let (stageOrder, indexedReports) ← indexReports first.contract reports []
        let stages ← stageOrder.mapM
          (aggregateStage treatment first.contract indexedReports minimumSamples)
        return ⟨treatment, minimumSamples, first.contract, stages⟩

/-! ## Indexed reports -/

theorem mem_addStage {stages : List String} {stage stage' : String} :
    stage' ∈ addStage stages stage ↔ stage' ∈ stages ∨ stage' = stage := by
  unfold addStage
  split_ifs with hmem
  · simp only [iff_self_or]
    rintro rfl
    exact hmem
  · simp

theorem nodup_addStage {stages : List String} (stage : String) (h : stages.Nodup) :
    (addStage stages stage).Nodup := by
  unfold addStage
  split_ifs with hmem
  · exact h
  · exact List.nodup_append.mpr ⟨h, List.nodup_singleton stage, by
      rintro a ha b hb rfl
      exact hmem (List.mem_singleton.mp hb ▸ ha)⟩

/-- The stages in the order in which they first occur. -/
def stageOrder (reports : List FullReferenceScoringReport) : List String :=
  (reports.flatMap fun report => report.results.map (·.stage)).foldl addStage []

theorem mem_foldl_addStage {stages added : List String} {stage : String} :
    stage ∈ added.foldl addStage stages ↔ stage ∈ stages ∨ stage ∈ added := by
  induction added generalizing stages with
  | nil => simp
  | cons first added ih => rw [List.foldl_cons, ih, mem_addStage, List.mem_cons, or_assoc]

theorem nodup_foldl_addStage {stages : List String} (added : List String) (h : stages.Nodup) :
    (added.foldl addStage stages).Nodup := by
  induction added generalizing stages with
  | nil => exact h
  | cons first added ih => exact ih (nodup_addStage first h)

theorem nodup_stageOrder (reports : List FullReferenceScoringReport) :
    (stageOrder reports).Nodup :=
  nodup_foldl_addStage _ List.nodup_nil

theorem mem_stageOrder {reports : List FullReferenceScoringReport} {stage : String} :
    stage ∈ stageOrder reports ↔
      ∃ report ∈ reports, ∃ result ∈ report.results, result.stage = stage := by
  unfold stageOrder
  rw [mem_foldl_addStage]
  simp

/-- The results of a report under their stages. -/
def FullReferenceScoringReport.indexed (report : FullReferenceScoringReport) : IndexedReport :=
  report.results.map fun result => (result.stage, result)

section Index

variable {results : List FullReferenceScoreResult} {order : List String} {indexed : IndexedReport}

/-- The loop over the results accepts pairwise different stages. -/
theorem indexResults_eq_ok_iff {out : List String × IndexedReport}
    (hkeys : (Dict.keys indexed).Nodup) :
    indexResults results order indexed = .ok out ↔
      (Dict.keys indexed ++ results.map (·.stage)).Nodup ∧
        out = ((results.map (·.stage)).foldl addStage order,
          indexed ++ results.map fun result => (result.stage, result)) := by
  induction results generalizing order indexed with
  | nil => simp [indexResults, hkeys, eq_comm]
  | cons result results ih =>
      unfold indexResults
      by_cases hmem : result.stage ∈ Dict.keys indexed
      · rw [if_pos (Dict.isSome_get?_iff.mpr hmem)]
        simp only [reduceCtorEq, List.map_cons, false_iff, not_and]
        intro hnodup
        exact absurd rfl ((List.nodup_append.mp hnodup).2.2 _ hmem _ List.mem_cons_self)
      · have hset : Dict.set indexed result.stage result = indexed ++ [(result.stage, result)] :=
          Dict.set_of_not_mem hmem
        rw [if_neg (by rwa [Dict.isSome_get?_iff]), ih (Dict.nodup_keys_set hkeys _ _), hset]
        simp [Dict.keys]

end Index

/-- The reports have one contract and one result a stage. -/
theorem indexReports_eq_ok_iff {contract : FullReferenceScorerContract}
    {reports : List FullReferenceScoringReport} {order : List String}
    {out : List String × List IndexedReport} :
    indexReports contract reports order = .ok out ↔
      (∀ report ∈ reports, report.contract = contract ∧ (report.results.map (·.stage)).Nodup) ∧
        out = ((reports.flatMap fun report => report.results.map (·.stage)).foldl addStage order,
          reports.map (·.indexed)) := by
  induction reports generalizing order out with
  | nil => simp [indexReports, eq_comm]
  | cons report reports ih =>
      unfold indexReports
      rw [List.forall_mem_cons]
      by_cases hcontract : report.contract = contract
      · rw [if_neg (not_not.mpr hcontract), List.flatMap_cons, List.foldl_append]
        have hindex : ∀ index, indexResults report.results order [] = .ok index ↔
            (report.results.map (·.stage)).Nodup ∧
              index = ((report.results.map (·.stage)).foldl addStage order, report.indexed) :=
          fun index => @indexResults_eq_ok_iff _ _ [] index List.nodup_nil
        constructor
        · intro h
          obtain ⟨_, hresults, h⟩ := bind_eq_ok.mp h
          obtain ⟨hnodup, rfl⟩ := (hindex _).mp hresults
          obtain ⟨_, hreports, h⟩ := bind_eq_ok.mp h
          obtain ⟨hrest, rfl⟩ := ih.mp hreports
          cases h
          exact ⟨⟨⟨hcontract, hnodup⟩, hrest⟩, rfl⟩
        · rintro ⟨⟨⟨-, hnodup⟩, hrest⟩, rfl⟩
          exact bind_eq_ok.mpr ⟨_, (hindex _).mpr ⟨hnodup, rfl⟩,
            bind_eq_ok.mpr ⟨_, ih.mpr ⟨hrest, rfl⟩, rfl⟩⟩
      · rw [if_pos hcontract]
        simp [hcontract]

/-! ## What is accepted -/

/-- The results of a stage, one from each report that has the stage. -/
def resultsOf (reports : List FullReferenceScoringReport) (stage : String) :
    List FullReferenceScoreResult :=
  reports.filterMap fun report => report.results.find? fun result => result.stage = stage

def scoresOf (reports : List FullReferenceScoringReport) (stage : String) : List PyFloat :=
  numericScores (resultsOf reports stage)

theorem filterMap_indexed (reports : List FullReferenceScoringReport) (stage : String) :
    ((reports.map (·.indexed)).filterMap fun indexed => Dict.get? indexed stage) =
      resultsOf reports stage := by
  unfold resultsOf
  rw [List.filterMap_map]
  congr 1
  funext report
  unfold FullReferenceScoringReport.indexed Dict.get?
  simp [List.find?_map, Function.comp_def]

theorem mem_of_mem_resultsOf {reports : List FullReferenceScoringReport} {stage : String}
    {result : FullReferenceScoreResult} (h : result ∈ resultsOf reports stage) :
    ∃ report ∈ reports, result ∈ report.results := by
  obtain ⟨report, hreport, hfind⟩ := List.mem_filterMap.mp h
  exact ⟨report, hreport, List.mem_of_find?_eq_some hfind⟩

/-! ## Other statistics -/

/-- `publishStatistics` with other statistics. -/
def publishWith (statistics : List PyFloat → Except AggregateError StageStatistics)
    (minimumSamples : ℤ) (scores : List PyFloat) : Except AggregateError (Option StageStatistics) :=
  if minimumSamples ≤ scores.length then (statistics scores).map some else .ok none

/-- `aggregateResults` with other statistics. -/
def aggregateResultsWith (statistics : List PyFloat → Except AggregateError StageStatistics)
    (treatment stage : String) (contract : FullReferenceScorerContract) (total : ℕ)
    (results : List FullReferenceScoreResult) (minimumSamples : ℤ) :
    Except AggregateError FullReferenceStageAggregate :=
  if (scoredResults results).any fun result => result.score.isNone then
    .error (.valueError "scored results must contain a numeric score")
  else
    (publishWith statistics minimumSamples (numericScores results)).map
      (stageRecord treatment stage contract total results minimumSamples)

/-- The aggregation with other statistics. -/
def aggregateReportsWith (statistics : List PyFloat → Except AggregateError StageStatistics)
    (treatment : String) (reports : List FullReferenceScoringReport) (minimumSamples : ℤ) :
    Except AggregateError FullReferenceTreatmentReport :=
  if !safeName treatment then .error (.valueError "treatment must be a safe lowercase alias")
  else if minimumSamples < 2 then .error (.valueError "minimum_samples must be at least 2")
  else
    match reports with
    | [] => .error (.valueError "at least one scoring report is required")
    | first :: _ => do
        let (stageOrder, indexedReports) ← indexReports first.contract reports []
        let stages ← stageOrder.mapM fun stage =>
          aggregateResultsWith statistics treatment stage first.contract indexedReports.length
            (indexedReports.filterMap fun indexed => Dict.get? indexed stage) minimumSamples
        return ⟨treatment, minimumSamples, first.contract, stages⟩

theorem aggregateReportsWith_stageStatistics :
    aggregateReportsWith stageStatistics = aggregateFullReferenceReports := rfl

/-- What is accepted, and with what result. -/
theorem aggregateReportsWith_eq_ok_iff
    {statistics : List PyFloat → Except AggregateError StageStatistics} {treatment : String}
    {reports : List FullReferenceScoringReport} {minimumSamples : ℤ}
    {r : FullReferenceTreatmentReport} :
    aggregateReportsWith statistics treatment reports minimumSamples = .ok r ↔
      (safeName treatment = true ∧ 2 ≤ minimumSamples ∧ reports ≠ []) ∧
        (∀ report ∈ reports,
          report.contract = r.contract ∧ (report.results.map (·.stage)).Nodup) ∧
        (stageOrder reports).mapM (fun stage => aggregateResultsWith statistics treatment stage
          r.contract reports.length (resultsOf reports stage) minimumSamples) = .ok r.stages ∧
        r.treatment = treatment ∧ r.minimumSamples = minimumSamples := by
  have hstage : ∀ contract, (fun stage => aggregateResultsWith statistics treatment stage contract
      (reports.map (·.indexed)).length
      ((reports.map (·.indexed)).filterMap fun indexed => Dict.get? indexed stage)
        minimumSamples) =
      fun stage => aggregateResultsWith statistics treatment stage contract reports.length
        (resultsOf reports stage) minimumSamples := by
    intro contract
    funext stage
    rw [filterMap_indexed, List.length_map]
  unfold aggregateReportsWith
  constructor
  · intro h
    split_ifs at h with hunsafe hfew
    cases reports with
    | nil => cases h
    | cons first rest =>
        obtain ⟨_, hindex, h⟩ := bind_eq_ok.mp h
        obtain ⟨hreports, rfl⟩ := indexReports_eq_ok_iff.mp hindex
        obtain ⟨stages, hstages, h⟩ := bind_eq_ok.mp h
        cases h
        rw [hstage] at hstages
        exact ⟨⟨by simpa using hunsafe, not_lt.mp hfew, by simp⟩, hreports, hstages, rfl, rfl⟩
  · obtain ⟨_, _, contract, stages⟩ := r
    rintro ⟨⟨htreatment, hminimum, hne⟩, hreports, hstages, rfl, rfl⟩
    rw [if_neg (by simp [htreatment]), if_neg (not_lt.mpr hminimum)]
    cases reports with
    | nil => exact absurd rfl hne
    | cons first rest =>
        obtain rfl : first.contract = contract := (hreports first List.mem_cons_self).1
        refine bind_eq_ok.mpr ⟨_, indexReports_eq_ok_iff.mpr ⟨hreports, rfl⟩, ?_⟩
        refine bind_eq_ok.mpr ⟨stages, ?_, rfl⟩
        rw [hstage]
        exact hstages

theorem aggregateFullReferenceReports_eq_ok_iff {treatment : String}
    {reports : List FullReferenceScoringReport} {minimumSamples : ℤ}
    {r : FullReferenceTreatmentReport} :
    aggregateFullReferenceReports treatment reports minimumSamples = .ok r ↔
      (safeName treatment = true ∧ 2 ≤ minimumSamples ∧ reports ≠ []) ∧
        (∀ report ∈ reports,
          report.contract = r.contract ∧ (report.results.map (·.stage)).Nodup) ∧
        (stageOrder reports).mapM (fun stage => aggregateResults treatment stage r.contract
          reports.length (resultsOf reports stage) minimumSamples) = .ok r.stages ∧
        r.treatment = treatment ∧ r.minimumSamples = minimumSamples := by
  rw [← aggregateReportsWith_stageStatistics]
  exact aggregateReportsWith_eq_ok_iff

/-! ## Statistics that can be published -/

/-- Neither the sum nor the deviation of the scores is too large for a float. -/
def StatisticsFit (scores : List PyFloat) : Prop :=
  (fsum (scores.filterMap finite?)).isSome ∧ (pstdev (scores.filterMap finite?)).isSome

section Publish

variable {scores : List PyFloat} {data : List ℚ} {minimumSamples : ℤ}

theorem exists_eq_map_finite (h : ∀ score ∈ scores, ∃ q, score = .finite q) :
    ∃ data : List ℚ, scores = data.map .finite := by
  induction scores with
  | nil => exact ⟨[], rfl⟩
  | cons score scores ih =>
      rw [List.forall_mem_cons] at h
      obtain ⟨⟨q, rfl⟩, h⟩ := h
      obtain ⟨data, rfl⟩ := ih h
      exact ⟨q :: data, rfl⟩

@[simp] theorem mapM_finite? (data : List ℚ) : (data.map PyFloat.finite).mapM finite? = some data := by
  induction data with
  | nil => rfl
  | cons q data ih => simp [finite?, ih]

@[simp] theorem filterMap_finite? (data : List ℚ) :
    (data.map PyFloat.finite).filterMap finite? = data := by
  induction data with
  | nil => rfl
  | cons q data ih => simp [finite?, ih]

/-- The statistics of finite scores. -/
theorem stageStatistics_eq_ok_iff {statistics : StageStatistics} :
    stageStatistics (data.map .finite) = .ok statistics ↔
      ∃ mean deviation minimum maximum, fmean data = some mean ∧ pstdev data = some deviation ∧
        data.min? = some minimum ∧ data.max? = some maximum ∧
        statistics = ⟨.finite mean, median data, .finite minimum, .finite maximum,
          .finite deviation⟩ := by
  unfold stageStatistics
  rw [mapM_finite?]
  dsimp only
  cases fmean data <;> cases pstdev data <;> cases data.min? <;> cases data.max? <;>
    simp [eq_comm]

theorem exists_stageStatistics_iff (hlength : 2 ≤ data.length) :
    (∃ statistics, stageStatistics (data.map .finite) = .ok statistics) ↔
      StatisticsFit (data.map .finite) := by
  unfold StatisticsFit
  rw [filterMap_finite?, ← isSome_fmean_iff hlength]
  have hne : data ≠ [] := by
    rintro rfl
    simp at hlength
  constructor
  · rintro ⟨statistics, h⟩
    obtain ⟨mean, deviation, -, -, hmean, hdeviation, -⟩ := stageStatistics_eq_ok_iff.mp h
    simp [hmean, hdeviation]
  · rintro ⟨hmean, hdeviation⟩
    obtain ⟨mean, hmean⟩ := Option.isSome_iff_exists.mp hmean
    obtain ⟨deviation, hdeviation⟩ := Option.isSome_iff_exists.mp hdeviation
    obtain ⟨minimum, hmin⟩ := Option.isSome_iff_exists.mp (List.isSome_min?_of_ne_nil hne)
    obtain ⟨maximum, hmax⟩ := Option.isSome_iff_exists.mp (List.isSome_max?_of_ne_nil hne)
    exact ⟨_, stageStatistics_eq_ok_iff.mpr
      ⟨mean, deviation, minimum, maximum, hmean, hdeviation, hmin, hmax, rfl⟩⟩

theorem exists_publishStatistics_iff (hfinite : ∀ score ∈ scores, ∃ q, score = .finite q)
    (hminimum : 2 ≤ minimumSamples) :
    (∃ statistics, publishStatistics minimumSamples scores = .ok statistics) ↔
      (minimumSamples ≤ scores.length → StatisticsFit scores) := by
  obtain ⟨data, rfl⟩ := exists_eq_map_finite hfinite
  unfold publishStatistics
  by_cases henough : minimumSamples ≤ (data.map PyFloat.finite).length
  · have hlength : 2 ≤ data.length := by
      rw [List.length_map] at henough
      omega
    rw [if_pos henough, ← exists_stageStatistics_iff hlength, imp_iff_right henough]
    cases stageStatistics (data.map PyFloat.finite) with
    | error e => simp [Except.map]
    | ok statistics => simp [Except.map]
  · rw [if_neg henough]
    exact iff_of_true ⟨none, rfl⟩ fun h => absurd h henough

end Publish

theorem finite_of_mem_numericScores {contract : FullReferenceScorerContract}
    {results : List FullReferenceScoreResult}
    (hok : ∀ result ∈ results, ScoreResultOk contract result) :
    ∀ score ∈ numericScores results, ∃ q, score = .finite q := by
  intro score hscore
  obtain ⟨result, hmem, hscore⟩ := List.mem_filterMap.mp hscore
  obtain ⟨q, hq, -⟩ := (hok result (List.mem_filter.mp hmem).1).range score hscore
  exact ⟨q, hq⟩

theorem not_any_isNone_score {contract : FullReferenceScorerContract}
    {results : List FullReferenceScoreResult}
    (hok : ∀ result ∈ results, ScoreResultOk contract result) :
    ¬ ((scoredResults results).any fun result => result.score.isNone) = true := by
  rw [List.any_eq_true]
  rintro ⟨result, hmem, hnone⟩
  obtain ⟨hmem, hscored⟩ := List.mem_filter.mp hmem
  have hscore := (hok result hmem).isSome_score_iff.mpr (of_decide_eq_true hscored)
  rw [Option.isNone_iff_eq_none] at hnone
  simp [hnone] at hscore

/-- Results that keep what a report promises are aggregated when their statistics fit. -/
theorem exists_aggregateResults_iff {treatment stage : String}
    {contract : FullReferenceScorerContract} {total : ℕ} {results : List FullReferenceScoreResult}
    {minimumSamples : ℤ} (hok : ∀ result ∈ results, ScoreResultOk contract result)
    (hminimum : 2 ≤ minimumSamples) :
    (∃ a, aggregateResults treatment stage contract total results minimumSamples = .ok a) ↔
      (minimumSamples ≤ (numericScores results).length → StatisticsFit (numericScores results)) := by
  rw [← exists_publishStatistics_iff (finite_of_mem_numericScores hok) hminimum]
  unfold aggregateResults
  rw [if_neg (not_any_isNone_score hok)]
  cases publishStatistics minimumSamples (numericScores results) with
  | error e => simp [Except.map]
  | ok statistics => simp [Except.map]

/-! ## Reports of the scoring -/

section Runs

variable {runs : List ScoringRun} {contract : FullReferenceScorerContract} {treatment : String}
  {minimumSamples : ℤ}

theorem scoreResultOk_of_mem_resultsOf (hcontract : ∀ run ∈ runs, run.scorer.contract = contract)
    {stage : String} {result : FullReferenceScoreResult}
    (h : result ∈ resultsOf (runs.map ScoringRun.report) stage) : ScoreResultOk contract result := by
  obtain ⟨report, hreport, hresult⟩ := mem_of_mem_resultsOf h
  obtain ⟨run, hrun, rfl⟩ := List.mem_map.mp hreport
  rw [← hcontract run hrun]
  exact ScoringRun.scoreResultOk_report hresult

/-- A stage that no report has is not aggregated, and has no scores. -/
theorem scoresOf_eq_nil {reports : List FullReferenceScoringReport} {stage : String}
    (h : stage ∉ stageOrder reports) : scoresOf reports stage = [] := by
  have hresults : resultsOf reports stage = [] := by
    unfold resultsOf
    rw [List.filterMap_eq_nil_iff]
    intro report hreport
    rw [List.find?_eq_none]
    intro result hresult hstage
    exact h (mem_stageOrder.mpr ⟨report, hreport, result, hresult, of_decide_eq_true hstage⟩)
  unfold scoresOf
  rw [hresults]
  rfl

/-- Reports of the scoring are accepted when each names its stages once and the statistics of
every stage with enough scores fit. -/
theorem exists_aggregate_iff (hne : runs ≠ [])
    (hcontract : ∀ run ∈ runs, run.scorer.contract = contract)
    (htreatment : safeName treatment = true) (hminimum : 2 ≤ minimumSamples) :
    (∃ r, aggregateFullReferenceReports treatment (runs.map ScoringRun.report) minimumSamples =
        .ok r) ↔
      (∀ run ∈ runs, (run.references.map (·.stage)).Nodup) ∧
        ∀ stage, minimumSamples ≤ (scoresOf (runs.map ScoringRun.report) stage).length →
          StatisticsFit (scoresOf (runs.map ScoringRun.report) stage) := by
  have hstage : ∀ stage, (∃ a, aggregateResults treatment stage contract
      (runs.map ScoringRun.report).length (resultsOf (runs.map ScoringRun.report) stage)
        minimumSamples = .ok a) ↔
      (minimumSamples ≤ (scoresOf (runs.map ScoringRun.report) stage).length →
        StatisticsFit (scoresOf (runs.map ScoringRun.report) stage)) :=
    fun stage => exists_aggregateResults_iff
      (fun _ hresult => scoreResultOk_of_mem_resultsOf hcontract hresult) hminimum
  constructor
  · rintro ⟨r, hr⟩
    obtain ⟨-, hreports, hstages, -⟩ := aggregateFullReferenceReports_eq_ok_iff.mp hr
    rw [List.forall_mem_map] at hreports
    refine ⟨fun run hrun => (ScoringRun.perm_stages run).nodup_iff.mp (hreports run hrun).2,
      fun stage => (hstage stage).mp ?_⟩
    obtain rfl : contract = r.contract := by
      obtain ⟨run, hrun⟩ := List.exists_mem_of_ne_nil runs hne
      rw [← hcontract run hrun]
      exact (hreports run hrun).1
    by_cases hmem : stage ∈ stageOrder (runs.map ScoringRun.report)
    · obtain ⟨a, -, ha⟩ := exists_mem_mapM hstages hmem
      exact ⟨a, ha⟩
    · refine (hstage stage).mpr fun henough => ?_
      rw [scoresOf_eq_nil hmem, List.length_nil] at henough
      omega
  · rintro ⟨hdistinct, hfit⟩
    obtain ⟨stages, hstages⟩ := exists_mapM (l := stageOrder (runs.map ScoringRun.report))
      fun stage _ => (hstage stage).mpr (hfit stage)
    refine ⟨⟨treatment, minimumSamples, contract, stages⟩,
      aggregateFullReferenceReports_eq_ok_iff.mpr
        ⟨⟨htreatment, hminimum, by simpa using hne⟩, ?_, hstages, rfl, rfl⟩⟩
    rw [List.forall_mem_map]
    exact fun run hrun =>
      ⟨hcontract run hrun, (ScoringRun.perm_stages run).nodup_iff.mpr (hdistinct run hrun)⟩

end Runs

/-- The report of a selection and its scoring has one result for each reference, with a
score exactly when the result is scored, and then a finite one in the range of the contract.
Such reports of one contract are aggregated exactly when each was made from references of
pairwise different stages and the sum and the deviation of the published scores fit. -/
theorem select_score_aggregate :
    (∀ run : ScoringRun,
      (run.report.results.map (·.stage)).Perm (run.references.map (·.stage)) ∧
        ∀ result ∈ run.report.results, (result.score.isSome ↔ result.state = .scored) ∧
          ∀ score ∈ result.score, ∃ q, score = .finite q ∧
            run.scorer.contract.minimumScore ≤ q ∧ q ≤ run.scorer.contract.maximumScore) ∧
      ∀ (runs : List ScoringRun) (contract : FullReferenceScorerContract) (treatment : String)
        (minimumSamples : ℤ), runs ≠ [] → (∀ run ∈ runs, run.scorer.contract = contract) →
        safeName treatment = true → 2 ≤ minimumSamples →
        ((∃ r, aggregateFullReferenceReports treatment (runs.map ScoringRun.report)
            minimumSamples = .ok r) ↔
          (∀ run ∈ runs, (run.references.map (·.stage)).Nodup) ∧
            ∀ stage, minimumSamples ≤ (scoresOf (runs.map ScoringRun.report) stage).length →
              StatisticsFit (scoresOf (runs.map ScoringRun.report) stage)) := by
  constructor
  · intro run
    refine ⟨ScoringRun.perm_stages run, fun result hresult => ?_⟩
    have hok := ScoringRun.scoreResultOk_report hresult
    exact ⟨hok.isSome_score_iff, hok.range⟩
  · intro runs contract treatment minimumSamples hne hcontract htreatment hminimum
    exact exists_aggregate_iff hne hcontract htreatment hminimum

/-! ## Two references of one stage -/

def visqolContract : FullReferenceScorerContract where
  scorer := "visqol"
  metricName := "visqol_moslqo"
  minimumScore := 1
  maximumScore := 5
  scorer_safe := by decide +kernel
  metricName_safe := by decide +kernel
  range := by norm_num

/-- A reference for a stage that is ready, in the format of `stageRecording`. -/
def stageReference (stage : String) : StageReference where
  stage := stage
  uri := "file:///references/" ++ stage ++ ".wav"
  comparisonFormat := .obj [("encoding", .str "pcm_s16le"), ("rate", .int 16000),
    ("channels", .int 1)]
  transformations := ["resample:8000->16000"]
  comparisonReady := true
  blockedReason := none

def stageRecording (stage : String) : RecordingArtifact where
  stage := stage
  uri := "file:///recordings/" ++ stage ++ ".wav"
  format := .obj [("encoding", .str "pcm_s16le"), ("rate", .int 16000), ("channels", .int 1)]
  durationMs := 1000

/-- References for stages that all have recordings, and a scorer with the contract. -/
def stagesRun (stages : List String) (contract : FullReferenceScorerContract)
    (score : PyFloat) : ScoringRun where
  references := stages.map stageReference
  recordings := stages.map stageRecording
  scorer := ⟨contract, some ⟨true, none⟩, fun _ => .number score⟩

theorem select_score_aggregate_serializer :
    ∃ r, aggregateFullReferenceReports "baseline-speech"
      ([stagesRun ["serializer", "stt"] visqolContract (.finite 4)].map ScoringRun.report) 2 =
        .ok r := by
  refine (select_score_aggregate.2 [stagesRun ["serializer", "stt"] visqolContract (.finite 4)]
    visqolContract "baseline-speech" 2 (by simp) ?_ (by decide +kernel) le_rfl).mpr ⟨?_, ?_⟩
  · simp [stagesRun]
  · simp [stagesRun, stageReference]
  · intro stage henough
    have hle : (scoresOf ([stagesRun ["serializer", "stt"] visqolContract (.finite 4)].map
        ScoringRun.report) stage).length ≤ 1 :=
      (List.length_filterMap_le _ _).trans
        ((List.length_filter_le _ _).trans (List.length_filterMap_le _ _))
    omega

/-- A second reference of a stage gives a second result for it, which is rejected. -/
theorem duplicate_reference_rejected :
    ¬ ∀ (runs : List ScoringRun) (contract : FullReferenceScorerContract) (treatment : String)
      (minimumSamples : ℤ), runs ≠ [] → (∀ run ∈ runs, run.scorer.contract = contract) →
      safeName treatment = true → 2 ≤ minimumSamples →
      ∃ r, aggregateFullReferenceReports treatment (runs.map ScoringRun.report) minimumSamples =
        .ok r := by
  intro h
  have hok := h [stagesRun ["serializer", "serializer"] visqolContract (.finite 4)] visqolContract
    "baseline-speech" 3 (by simp) (by simp [stagesRun]) (by decide +kernel) (by norm_num)
  have hdistinct := ((@exists_aggregate_iff _ visqolContract _ _ (by simp) (by simp [stagesRun])
    (by decide +kernel) (by norm_num)).mp hok).1
  have hnodup := hdistinct _ List.mem_cons_self
  simp [stagesRun, stageReference] at hnodup

end VoxBench.Verification
