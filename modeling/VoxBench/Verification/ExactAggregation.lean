import VoxBench.Lib.Average
import VoxBench.Verification.TreatmentReport

/-!
# The order of the reports

The statistics of a stage depend on its scores and not on their order, so the aggregation of a
treatment does not depend on the order of its reports. This is about exact means and medians:
the sum of floats can be too large in one order and not in another.

## Main definitions

* `exactStatistics`, `aggregateExactly` — the aggregation with exact means and medians.

## Main results

* `aggregateExactly_of_aggregate` — what the code accepts, with the same stages up to rounding.
* `aggregateExactly_spec` — permutations, counts, states and bounds.
-/

namespace VoxBench.Verification

open VoxBench.Lib VoxBench.ControlPlane VoxBench.Observability

/-! ## Exact statistics -/

/-- `stageStatistics` with the mean and the median as exact rationals. -/
def exactStatistics (scores : List PyFloat) : Except AggregateError StageStatistics :=
  match scores.mapM finite? with
  | none => .error .raised
  | some data =>
      match pstdev data, data.min?, data.max? with
      | some deviation, some minimum, some maximum =>
          .ok ⟨.finite (Average.mean data), .finite (Average.median data), .finite minimum,
            .finite maximum, .finite deviation⟩
      | _, _, _ => .error .raised

def aggregateExactly (treatment : String) (reports : List FullReferenceScoringReport)
    (minimumSamples : ℤ) : Except AggregateError FullReferenceTreatmentReport :=
  aggregateReportsWith exactStatistics treatment reports minimumSamples

/-- The numbers among finite scores. -/
theorem exists_data_of_mapM {scores : List PyFloat} {data : List ℚ}
    (h : scores.mapM finite? = some data) : scores = data.map .finite := by
  rw [mapM_eq_some_iff] at h
  induction h with
  | nil => rfl
  | @cons score q scores data hq _ ih =>
      cases score with
      | finite p =>
          cases hq
          rw [List.map_cons, ih]
      | inf => cases hq
      | negInf => cases hq
      | nan => cases hq

theorem exactStatistics_eq_ok_iff {scores : List PyFloat} {statistics : StageStatistics} :
    exactStatistics scores = .ok statistics ↔
      ∃ data deviation minimum maximum, scores = data.map .finite ∧ pstdev data = some deviation ∧
        data.min? = some minimum ∧ data.max? = some maximum ∧
        statistics = ⟨.finite (Average.mean data), .finite (Average.median data),
          .finite minimum, .finite maximum, .finite deviation⟩ := by
  constructor
  · intro h
    cases hdata : scores.mapM finite? with
    | none => simp [exactStatistics, hdata] at h
    | some data =>
        simp only [exactStatistics, hdata] at h
        cases hdeviation : pstdev data with
        | none => simp [hdeviation] at h
        | some deviation =>
            cases hmin : data.min? with
            | none => simp [hdeviation, hmin] at h
            | some minimum =>
                cases hmax : data.max? with
                | none => simp [hdeviation, hmin, hmax] at h
                | some maximum =>
                    simp only [hdeviation, hmin, hmax] at h
                    cases h
                    exact ⟨data, deviation, minimum, maximum, exists_data_of_mapM hdata, hdeviation,
                      hmin, hmax, rfl⟩
  · rintro ⟨data, deviation, minimum, maximum, rfl, hdeviation, hmin, hmax, rfl⟩
    simp only [exactStatistics, mapM_finite?, hdeviation, hmin, hmax]

theorem pstdev_eq_of_perm {data data' : List ℚ} (h : data.Perm data') :
    pstdev data = pstdev data' := by
  have hsquares : (data.map fun x => x * x).sum = (data'.map fun x => x * x).sum :=
    (h.map _).sum_eq
  simp only [pstdev, h.length_eq, h.sum_eq, hsquares]

/-- Finite scores in another order are the numbers in another order. -/
theorem exists_perm_data {scores : List PyFloat} {data : List ℚ}
    (h : (data.map PyFloat.finite).Perm scores) :
    ∃ data', scores = data'.map .finite ∧ data.Perm data' := by
  have hfinite : ∀ score ∈ scores, ∃ q, score = .finite q := by
    intro score hscore
    obtain ⟨q, -, rfl⟩ := List.mem_map.mp (h.mem_iff.mpr hscore)
    exact ⟨q, rfl⟩
  obtain ⟨data', rfl⟩ := exists_eq_map_finite hfinite
  have hperm := h.filterMap finite?
  rw [filterMap_finite?, filterMap_finite?] at hperm
  exact ⟨data', rfl, hperm⟩

theorem exactStatistics_of_perm {scores scores' : List PyFloat} {statistics : StageStatistics}
    (h : scores.Perm scores') (hstatistics : exactStatistics scores = .ok statistics) :
    exactStatistics scores' = .ok statistics := by
  obtain ⟨data, deviation, minimum, maximum, rfl, hdeviation, hmin, hmax, rfl⟩ :=
    exactStatistics_eq_ok_iff.mp hstatistics
  obtain ⟨data', rfl, hperm⟩ := exists_perm_data h
  rw [exactStatistics_eq_ok_iff]
  refine ⟨data', deviation, minimum, maximum, rfl, ?_, ?_, ?_, ?_⟩
  · rw [← pstdev_eq_of_perm hperm, hdeviation]
  · rw [← Average.min?_eq_of_perm hperm, hmin]
  · rw [← Average.max?_eq_of_perm hperm, hmax]
  · rw [Average.mean_eq_of_perm hperm, Average.median_eq_of_perm hperm]

/-- The statistics lie between the extremes of the scores. -/
theorem exactStatistics_bounds {scores : List PyFloat} {statistics : StageStatistics}
    (h : exactStatistics scores = .ok statistics) :
    ∃ minimum mean median maximum deviation, statistics = ⟨.finite mean, .finite median,
        .finite minimum, .finite maximum, .finite deviation⟩ ∧
      (minimum ≤ mean ∧ mean ≤ maximum) ∧ (minimum ≤ median ∧ median ≤ maximum) ∧
      .finite minimum ∈ scores ∧ .finite maximum ∈ scores := by
  obtain ⟨data, deviation, minimum, maximum, rfl, -, hmin, hmax, rfl⟩ :=
    exactStatistics_eq_ok_iff.mp h
  obtain ⟨hminmem, hlo⟩ := List.min?_eq_some_iff.mp hmin
  obtain ⟨hmaxmem, hhi⟩ := List.max?_eq_some_iff.mp hmax
  have hne : data ≠ [] := List.ne_nil_of_mem hminmem
  exact ⟨minimum, _, _, maximum, deviation, rfl, Average.mean_mem_Icc hne hlo hhi,
    Average.median_mem_Icc hne hlo hhi, List.mem_map_of_mem hminmem, List.mem_map_of_mem hmaxmem⟩

/-! ## One stage -/

section Stage

variable {statistics : List PyFloat → Except AggregateError StageStatistics}
  {treatment stage : String} {contract : FullReferenceScorerContract} {total : ℕ}
  {results results' : List FullReferenceScoreResult} {minimumSamples : ℤ}
  {a a' : FullReferenceStageAggregate}

/-- The statistics of the same scores in another order are the same where there are any. -/
def OrderFree (statistics : List PyFloat → Except AggregateError StageStatistics) : Prop :=
  ∀ scores scores' found found', scores.Perm scores' → statistics scores = .ok found →
    statistics scores' = .ok found' → found = found'

theorem publishWith_cases {scores : List PyFloat} {published : Option StageStatistics}
    (h : publishWith statistics minimumSamples scores = .ok published) :
    (scores.length < minimumSamples ∧ published = none) ∨
      minimumSamples ≤ scores.length ∧
        ∃ found, published = some found ∧ statistics scores = .ok found := by
  simp only [publishWith] at h
  by_cases henough : minimumSamples ≤ scores.length
  · rw [if_pos henough] at h
    cases hfound : statistics scores with
    | error e => simp [hfound, Except.map] at h
    | ok found =>
        rw [hfound] at h
        cases h
        exact .inr ⟨henough, found, rfl, rfl⟩
  · rw [if_neg henough] at h
    cases h
    exact .inl ⟨not_le.mp henough, rfl⟩

theorem aggregateResultsWith_eq_ok_iff :
    aggregateResultsWith statistics treatment stage contract total results minimumSamples = .ok a ↔
      (∀ result ∈ scoredResults results, result.score.isSome) ∧
        ∃ published, publishWith statistics minimumSamples (numericScores results) = .ok published ∧
          a = stageRecord treatment stage contract total results minimumSamples published := by
  have hall : ((scoredResults results).any fun result => result.score.isNone) = false ↔
      ∀ result ∈ scoredResults results, result.score.isSome := by
    simp only [List.any_eq_false, Option.isNone_iff_eq_none, ← Option.isSome_iff_ne_none]
  rw [← hall, aggregateResultsWith]
  cases (scoredResults results).any fun result => result.score.isNone with
  | true => simp
  | false =>
      cases publishWith statistics minimumSamples (numericScores results) with
      | error e => simp [Except.map]
      | ok published => simp [Except.map, eq_comm]

/-- The transformations of a record are those of its results, if these are all the same. -/
theorem transformations_of_perm {published published' : Option StageStatistics}
    (h : results.Perm results') :
    (stageRecord treatment stage contract total results minimumSamples published).transformations =
      (stageRecord treatment stage contract total results' minimumSamples
        published').transformations := by
  have hsets := ((h.filter fun result => result.state = .scored).map (·.transformations)).dedup
  simp only [stageRecord, scoredResults]
  generalize ((results.filter fun result => result.state = .scored).map
    (·.transformations)).dedup = sets at hsets
  generalize ((results'.filter fun result => result.state = .scored).map
    (·.transformations)).dedup = sets' at hsets
  cases sets with
  | nil =>
      cases List.nil_perm.mp hsets
      rfl
  | cons x rest =>
      cases rest with
      | nil =>
          cases List.singleton_perm.mp hsets
          rfl
      | cons y rest =>
          have hlength := hsets.length_eq
          cases sets' with
          | nil => rfl
          | cons x' rest' =>
              cases rest' with
              | nil => simp at hlength
              | cons y' rest' => rfl

/-- The record of a stage does not depend on the order of its results. -/
theorem stageRecord_of_perm (h : results.Perm results') (published : Option StageStatistics) :
    stageRecord treatment stage contract total results minimumSamples published =
      stageRecord treatment stage contract total results' minimumSamples published := by
  have hscored : (scoredResults results).Perm (scoredResults results') := h.filter _
  have hsets := (hscored.map (·.transformations)).dedup
  have hcount : ∀ state, countState results state = countState results' state :=
    fun state => h.countP_eq _
  have hscores : (numericScores results).length = (numericScores results').length :=
    (hscored.filterMap _).length_eq
  have htransformations := @transformations_of_perm treatment stage contract total _ _
    minimumSamples published published h
  simp only [stageRecord] at htransformations
  simp only [stageRecord, aggregateState, hsets.length_eq, hcount, hscores, h.length_eq,
    htransformations]

theorem aggregateResultsWith_agree (hfree : OrderFree statistics) (hperm : results.Perm results')
    (h : aggregateResultsWith statistics treatment stage contract total results minimumSamples =
      .ok a)
    (h' : aggregateResultsWith statistics treatment stage contract total results' minimumSamples =
      .ok a') : a = a' := by
  obtain ⟨-, published, hpublished, rfl⟩ := aggregateResultsWith_eq_ok_iff.mp h
  obtain ⟨-, published', hpublished', rfl⟩ := aggregateResultsWith_eq_ok_iff.mp h'
  rw [stageRecord_of_perm hperm]
  have hscores : (numericScores results).Perm (numericScores results') :=
    (hperm.filter _).filterMap _
  have hlength := hscores.length_eq
  obtain ⟨hfew, rfl⟩ | ⟨henough, found, rfl, hfound⟩ := publishWith_cases hpublished
  · obtain ⟨-, rfl⟩ | ⟨henough', -⟩ := publishWith_cases hpublished'
    · rfl
    · omega
  · obtain ⟨hfew', -⟩ | ⟨-, found', rfl, hfound'⟩ := publishWith_cases hpublished'
    · omega
    · rw [hfree _ _ _ _ hscores hfound hfound']

/-- The same results in another order have statistics when they have them in one order. -/
theorem exists_aggregateResultsWith_of_perm
    (hstatistics : ∀ scores scores' found, scores.Perm scores' →
      statistics scores = .ok found → ∃ found', statistics scores' = .ok found')
    (hperm : results.Perm results')
    (h : aggregateResultsWith statistics treatment stage contract total results minimumSamples =
      .ok a) :
    ∃ a', aggregateResultsWith statistics treatment stage contract total results' minimumSamples =
      .ok a' := by
  obtain ⟨hall, published, hpublished, -⟩ := aggregateResultsWith_eq_ok_iff.mp h
  have hscored : (scoredResults results).Perm (scoredResults results') := hperm.filter _
  have hscores : (numericScores results).Perm (numericScores results') := hscored.filterMap _
  have hpublished' : ∃ published', publishWith statistics minimumSamples (numericScores results') =
      .ok published' := by
    obtain ⟨hfew, -⟩ | ⟨henough, found, -, hfound⟩ := publishWith_cases hpublished
    · rw [hscores.length_eq] at hfew
      exact ⟨none, by simp only [publishWith, not_le.mpr hfew, if_false]⟩
    · obtain ⟨found', hfound'⟩ := hstatistics _ _ _ hscores hfound
      rw [hscores.length_eq] at henough
      exact ⟨some found', by simp only [publishWith, henough, if_true, hfound', Except.map]⟩
  obtain ⟨published', hpublished'⟩ := hpublished'
  refine ⟨_, aggregateResultsWith_eq_ok_iff.mpr ⟨fun result hresult => ?_, published',
    hpublished', rfl⟩⟩
  exact hall result (hscored.mem_iff.mpr hresult)

theorem length_numericScores_of_isSome
    (hall : ∀ result ∈ scoredResults results, result.score.isSome) :
    (numericScores results).length = countState results .scored := by
  rw [numericScores, List.filterMap_length_eq_length.mpr hall, scoredResults, countState,
    List.countP_eq_length_filter]

/-- A list has at most one different element exactly when all its elements are one. -/
theorem length_dedup_le_one_iff {α : Type} [DecidableEq α] {l : List α} (d : α) :
    l.dedup.length ≤ 1 ↔ ∃ x, ∀ y ∈ l, y = x := by
  constructor
  · intro h
    cases l with
    | nil => exact ⟨d, by simp⟩
    | cons x l =>
        refine ⟨x, fun y hy => ?_⟩
        have hx : x ∈ (x :: l).dedup := List.mem_dedup.mpr List.mem_cons_self
        have hy' : y ∈ (x :: l).dedup := List.mem_dedup.mpr hy
        obtain ⟨z, hz⟩ := List.length_eq_one_iff.mp
          (le_antisymm h (List.length_pos_of_mem hx))
        rw [hz, List.mem_singleton] at hx hy'
        rw [hx, hy']
  · rintro ⟨x, hx⟩
    have hsub : l.dedup ⊆ [x] := by
      intro y hy
      rw [List.mem_singleton]
      exact hx y (List.mem_dedup.mp hy)
    exact ((List.nodup_dedup l).subperm hsub).length_le

/-- A stage is aggregated when all reports have it scored in the same way, and are enough. -/
theorem state_stageRecord_iff (hall : ∀ result ∈ scoredResults results, result.score.isSome)
    (htotal : results.length ≤ total) (published : Option StageStatistics) :
    (stageRecord treatment stage contract total results minimumSamples published).state =
        .aggregated ↔
      (results.length = total ∧ (∀ result ∈ results, result.state = .scored) ∧
        ∃ transformations, ∀ result ∈ results, result.transformations = transformations) ∧
        minimumSamples ≤ total := by
  have hcounts := countState_add results
  have hscores := length_numericScores_of_isSome hall
  have hscored : countState results .scored = results.length ↔
      ∀ result ∈ results, result.state = .scored := by
    simp only [countState, List.countP_eq_length, decide_eq_true_eq]
  have hsets : ∀ hscored : ∀ result ∈ results, result.state = .scored,
      ((scoredResults results).map (·.transformations)).dedup.length ≤ 1 ↔
        ∃ transformations, ∀ result ∈ results, result.transformations = transformations := by
    intro hscored
    have hfilter : scoredResults results = results :=
      List.filter_eq_self.mpr fun result hresult => by simp [hscored result hresult]
    rw [length_dedup_le_one_iff [], hfilter]
    simp
  simp only [stageRecord, aggregateState, List.any_cons, List.any_nil, Bool.or_false,
    Bool.or_eq_true, decide_eq_true_eq]
  constructor
  · intro h
    split_ifs at h with hone hpartial hfew
    have hlength : countState results .scored = results.length := by omega
    exact ⟨⟨by omega, hscored.mp hlength, (hsets (hscored.mp hlength)).mp (by omega)⟩, by omega⟩
  · rintro ⟨⟨hlength, hstates, hsame⟩, henough⟩
    have hone := (hsets hstates).mpr hsame
    have hcount := hscored.mpr hstates
    rw [if_neg (by omega), if_neg (by omega), if_neg (by omega)]

end Stage

/-! ## The reports of a stage -/

section Reports

variable {reports reports' : List FullReferenceScoringReport} {stage : String}

theorem resultsOf_perm (h : reports.Perm reports') (stage : String) :
    (resultsOf reports stage).Perm (resultsOf reports' stage) :=
  h.filterMap _

theorem stageOrder_perm (h : reports.Perm reports') :
    (stageOrder reports).Perm (stageOrder reports') := by
  apply (List.perm_ext_iff_of_nodup (nodup_stageOrder reports) (nodup_stageOrder reports')).mpr
  intro stage
  simp only [mem_stageOrder, h.mem_iff]

theorem length_resultsOf_le : (resultsOf reports stage).length ≤ reports.length :=
  List.length_filterMap_le _ _

/-- The result of a stage in a report that names each stage once. -/
theorem find?_stage_iff {results : List FullReferenceScoreResult}
    (hnodup : (results.map (·.stage)).Nodup) {result : FullReferenceScoreResult} :
    results.find? (fun result => result.stage = stage) = some result ↔
      result ∈ results ∧ result.stage = stage := by
  constructor
  · intro h
    exact ⟨List.mem_of_find?_eq_some h, by simpa using List.find?_some h⟩
  · rintro ⟨hmem, hstage⟩
    cases hfind : results.find? fun result => result.stage = stage with
    | none => exact absurd hstage (by simpa using List.find?_eq_none.mp hfind result hmem)
    | some found =>
        have hfound : found.stage = stage := by simpa using List.find?_some hfind
        rw [List.inj_on_of_nodup_map hnodup (List.mem_of_find?_eq_some hfind) hmem
          (hfound.trans hstage.symm)]

/-- Every report has the stage scored, all in the same way. -/
theorem forall_resultsOf_iff
    (hnodup : ∀ report ∈ reports, (report.results.map (·.stage)).Nodup) :
    ((resultsOf reports stage).length = reports.length ∧
        (∀ result ∈ resultsOf reports stage, result.state = .scored) ∧
        ∃ transformations, ∀ result ∈ resultsOf reports stage,
          result.transformations = transformations) ↔
      ∃ transformations, ∀ report ∈ reports, ∃ result ∈ report.results, result.stage = stage ∧
        result.state = .scored ∧ result.transformations = transformations := by
  have hmem : ∀ result, result ∈ resultsOf reports stage ↔
      ∃ report ∈ reports, result ∈ report.results ∧ result.stage = stage := by
    intro result
    simp only [resultsOf, List.mem_filterMap]
    refine exists_congr fun report => and_congr_right fun hreport => ?_
    exact find?_stage_iff (hnodup report hreport)
  constructor
  · rintro ⟨hlength, hscored, transformations, hsame⟩
    refine ⟨transformations, fun report hreport => ?_⟩
    obtain ⟨result, hresult⟩ := Option.isSome_iff_exists.mp
      (List.filterMap_length_eq_length.mp hlength report hreport)
    obtain ⟨hin, hstage⟩ := (find?_stage_iff (hnodup report hreport)).mp hresult
    have hresults := (hmem result).mpr ⟨report, hreport, hin, hstage⟩
    exact ⟨result, hin, hstage, hscored result hresults, hsame result hresults⟩
  · rintro ⟨transformations, hall⟩
    have hone : ∀ result ∈ resultsOf reports stage, result.state = .scored ∧
        result.transformations = transformations := by
      intro result hresult
      obtain ⟨report, hreport, hin, hstage⟩ := (hmem result).mp hresult
      obtain ⟨result', hin', hstage', hscored, hsame⟩ := hall report hreport
      have heq : result = result' := List.inj_on_of_nodup_map (hnodup report hreport) hin hin'
        (hstage.trans hstage'.symm)
      rw [heq]
      exact ⟨hscored, hsame⟩
    refine ⟨List.filterMap_length_eq_length.mpr fun report hreport => ?_,
      fun result hresult => (hone result hresult).1,
      transformations, fun result hresult => (hone result hresult).2⟩
    obtain ⟨result, hin, hstage, -⟩ := hall report hreport
    rw [(find?_stage_iff (hnodup report hreport)).mpr ⟨hin, hstage⟩]
    rfl

end Reports

/-! ## Two orders of the reports -/

theorem orderFree_exactStatistics : OrderFree exactStatistics := by
  intro scores scores' found found' hperm h h'
  rw [exactStatistics_of_perm hperm h] at h'
  exact Except.ok.inj h'

/-- Where the floats of both orders have a sum, they have the same statistics. -/
theorem orderFree_stageStatistics : OrderFree stageStatistics := by
  intro scores scores' found found' hperm h h'
  have hdata : ∀ {scores found}, stageStatistics scores = .ok found →
      ∃ data : List ℚ, scores = data.map .finite := by
    intro scores found h
    cases hmap : scores.mapM finite? with
    | none => simp [stageStatistics, hmap] at h
    | some data => exact ⟨data, exists_data_of_mapM hmap⟩
  obtain ⟨data, rfl⟩ := hdata h
  obtain ⟨data', rfl, hperm'⟩ := exists_perm_data hperm
  obtain ⟨mean, deviation, minimum, maximum, hmean, hdeviation, hmin, hmax, rfl⟩ :=
    stageStatistics_eq_ok_iff.mp h
  obtain ⟨mean', deviation', minimum', maximum', hmean', hdeviation', hmin', hmax', rfl⟩ :=
    stageStatistics_eq_ok_iff.mp h'
  have hmedian : median data = median data' := by
    simp only [median, middle, Average.sortOn_eq_of_perm hperm', hperm'.length_eq]
  rw [pstdev_eq_of_perm hperm', hdeviation'] at hdeviation
  rw [Average.min?_eq_of_perm hperm', hmin'] at hmin
  rw [Average.max?_eq_of_perm hperm', hmax'] at hmax
  cases hdeviation
  cases hmin
  cases hmax
  rw [fmean_eq_of_perm hperm' hmean hmean', hmedian]

section Orders

variable {statistics : List PyFloat → Except AggregateError StageStatistics} {treatment : String}
  {reports reports' : List FullReferenceScoringReport} {minimumSamples : ℤ}
  {r r' : FullReferenceTreatmentReport}

/-- Two accepted orders of the reports give the same aggregates. -/
theorem perm_stages_of_accepted (hfree : OrderFree statistics) (hperm : reports.Perm reports')
    (h : aggregateReportsWith statistics treatment reports minimumSamples = .ok r)
    (h' : aggregateReportsWith statistics treatment reports' minimumSamples = .ok r') :
    r'.treatment = r.treatment ∧ r'.minimumSamples = r.minimumSamples ∧
      r'.contract = r.contract ∧ r'.stages.Perm r.stages := by
  obtain ⟨⟨-, -, hne⟩, hreports, hstages, htreatment, hminimum⟩ :=
    aggregateReportsWith_eq_ok_iff.mp h
  obtain ⟨-, hreports', hstages', htreatment', hminimum'⟩ := aggregateReportsWith_eq_ok_iff.mp h'
  obtain ⟨report, hreport⟩ := List.exists_mem_of_ne_nil reports hne
  have hcontract : r'.contract = r.contract := by
    rw [← (hreports report hreport).1, (hreports' report (hperm.mem_iff.mp hreport)).1]
  refine ⟨htreatment'.trans htreatment.symm, hminimum'.trans hminimum.symm, hcontract, ?_⟩
  -- the stages of the second order, in the order in which the first one has them
  obtain ⟨stages, hread, hstagesperm⟩ := perm_mapM (stageOrder_perm hperm).symm hstages'
  refine hstagesperm.symm.trans ?_
  rw [mapM_eq_ok_iff] at hread hstages
  have heq : stages = r.stages := by
    refine List.forall₂_eq_eq_eq ▸ ?_
    clear hstagesperm
    generalize stageOrder reports = order at hread hstages
    generalize r.stages = aggregates at hstages
    induction hread generalizing aggregates with
    | nil =>
        cases hstages
        exact List.Forall₂.nil
    | cons hhead _ ih =>
        cases hstages with
        | cons hhead' htail =>
            refine List.Forall₂.cons ?_ (ih _ htail)
            rw [hcontract, ← hperm.length_eq] at hhead
            exact (aggregateResultsWith_agree hfree (resultsOf_perm hperm _) hhead' hhead).symm
  rw [heq]

/-- With exact statistics, every order of accepted reports is accepted. -/
theorem exists_aggregateExactly_of_perm (hperm : reports.Perm reports')
    (h : aggregateExactly treatment reports minimumSamples = .ok r) :
    ∃ r', aggregateExactly treatment reports' minimumSamples = .ok r' := by
  obtain ⟨⟨htreatment, hminimum, hne⟩, hreports, hstages, -, -⟩ :=
    aggregateReportsWith_eq_ok_iff.mp h
  have hone : ∀ stage ∈ stageOrder reports', ∃ a, aggregateResultsWith exactStatistics treatment
      stage r.contract reports'.length (resultsOf reports' stage) minimumSamples = .ok a := by
    intro stage hstage
    obtain ⟨a, -, ha⟩ := exists_mem_mapM hstages ((stageOrder_perm hperm).mem_iff.mpr hstage)
    rw [hperm.length_eq] at ha
    exact exists_aggregateResultsWith_of_perm
      (fun _ _ found hperm hfound => ⟨found, exactStatistics_of_perm hperm hfound⟩)
      (resultsOf_perm hperm stage) ha
  obtain ⟨stages, hread⟩ := exists_mapM hone
  refine ⟨⟨treatment, minimumSamples, r.contract, stages⟩,
    aggregateReportsWith_eq_ok_iff.mpr ⟨⟨htreatment, hminimum, fun hnil => hne ?_⟩,
      fun report hreport => hreports report (hperm.mem_iff.mpr hreport), hread, rfl, rfl⟩⟩
  exact List.perm_nil.mp (hnil ▸ hperm)

/-- In the floats of the code, two accepted orders of the reports give the same aggregates. -/
theorem aggregate_perm (hperm : reports.Perm reports')
    (h : aggregateFullReferenceReports treatment reports minimumSamples = .ok r)
    (h' : aggregateFullReferenceReports treatment reports' minimumSamples = .ok r') :
    r'.contract = r.contract ∧ r'.stages.Perm r.stages := by
  rw [← aggregateReportsWith_stageStatistics] at h h'
  exact (perm_stages_of_accepted orderFree_stageStatistics hperm h h').2.2

end Orders

/-! ## What the code accepts -/

/-- Two aggregates that differ at most in the mean and the median. -/
def SameButAverages (a a' : FullReferenceStageAggregate) : Prop :=
  a' = { a with mean := a'.mean, median := a'.median }

/-- Statistics of the code are those with exact averages, up to the averages. -/
theorem exists_exactStatistics {scores : List PyFloat} {found : StageStatistics}
    (h : stageStatistics scores = .ok found) :
    ∃ found', exactStatistics scores = .ok found' ∧
      found' = { found with mean := found'.mean, median := found'.median } := by
  cases hmap : scores.mapM finite? with
  | none => simp [stageStatistics, hmap] at h
  | some data =>
      obtain rfl := exists_data_of_mapM hmap
      obtain ⟨mean, deviation, minimum, maximum, -, hdeviation, hmin, hmax, rfl⟩ :=
        stageStatistics_eq_ok_iff.mp h
      exact ⟨_, exactStatistics_eq_ok_iff.mpr
        ⟨data, deviation, minimum, maximum, rfl, hdeviation, hmin, hmax, rfl⟩, rfl⟩

/-- The exact aggregation accepts what the code accepts, with the same aggregates up to the
averages. -/
theorem aggregateExactly_of_aggregate {treatment : String}
    {reports : List FullReferenceScoringReport} {minimumSamples : ℤ}
    {r : FullReferenceTreatmentReport}
    (h : aggregateFullReferenceReports treatment reports minimumSamples = .ok r) :
    ∃ stages, aggregateExactly treatment reports minimumSamples = .ok { r with stages := stages } ∧
      List.Forall₂ SameButAverages r.stages stages := by
  rw [← aggregateReportsWith_stageStatistics] at h
  obtain ⟨haccepted, hreports, hstages, htreatment, hminimum⟩ := aggregateReportsWith_eq_ok_iff.mp h
  have hone : ∀ stage a, aggregateResultsWith stageStatistics treatment stage r.contract
      reports.length (resultsOf reports stage) minimumSamples = .ok a →
      ∃ a', aggregateResultsWith exactStatistics treatment stage r.contract reports.length
        (resultsOf reports stage) minimumSamples = .ok a' ∧ SameButAverages a a' := by
    intro stage a ha
    obtain ⟨hall, published, hpublished, rfl⟩ := aggregateResultsWith_eq_ok_iff.mp ha
    obtain ⟨hfew, rfl⟩ | ⟨henough, found, rfl, hfound⟩ := publishWith_cases hpublished
    · refine ⟨_, aggregateResultsWith_eq_ok_iff.mpr ⟨hall, none, ?_, rfl⟩, rfl⟩
      simp only [publishWith, not_le.mpr hfew, if_false]
    · obtain ⟨found', hfound', heq⟩ := exists_exactStatistics hfound
      refine ⟨_, aggregateResultsWith_eq_ok_iff.mpr ⟨hall, some found', ?_, rfl⟩, ?_⟩
      · simp only [publishWith, henough, if_true, hfound', Except.map]
      · rw [heq]
        rfl
  rw [mapM_eq_ok_iff] at hstages
  have hread : ∃ stages, List.Forall₂ (fun stage a => aggregateResultsWith exactStatistics treatment
      stage r.contract reports.length (resultsOf reports stage) minimumSamples = .ok a)
      (stageOrder reports) stages ∧ List.Forall₂ SameButAverages r.stages stages := by
    generalize r.stages = aggregates at hstages
    generalize stageOrder reports = order at hstages
    induction hstages with
    | nil => exact ⟨[], List.Forall₂.nil, List.Forall₂.nil⟩
    | cons hhead _ ih =>
        obtain ⟨a', ha', hsame⟩ := hone _ _ hhead
        obtain ⟨stages, hread, hrest⟩ := ih
        exact ⟨a' :: stages, List.Forall₂.cons ha' hread, List.Forall₂.cons hsame hrest⟩
  obtain ⟨stages, hread, hsame⟩ := hread
  exact ⟨stages, aggregateReportsWith_eq_ok_iff.mpr
    ⟨haccepted, hreports, mapM_eq_ok_iff.mpr hread, htreatment, hminimum⟩, hsame⟩

/-! ## Aggregated stages -/

section Spec

variable {treatment stage : String} {contract : FullReferenceScorerContract}
  {reports : List FullReferenceScoringReport} {minimumSamples : ℤ}
  {a : FullReferenceStageAggregate}

/-- The counts of a stage add up to the reports, and tell whether there are statistics. -/
theorem stage_counts (h : aggregateResultsWith exactStatistics treatment stage contract
      reports.length (resultsOf reports stage) minimumSamples = .ok a) :
    a.scoredCount + a.unavailableCount + a.blockedCount + a.failedCount + a.missingCount =
        a.samplesTotal ∧ a.samplesTotal = reports.length := by
  obtain ⟨hall, published, -, rfl⟩ := aggregateResultsWith_eq_ok_iff.mp h
  have hcounts := countState_add (resultsOf reports stage)
  have hscores := length_numericScores_of_isSome hall
  have htotal := @length_resultsOf_le reports stage
  refine ⟨?_, rfl⟩
  simp only [stageRecord]
  omega

theorem stage_statistics (h : aggregateResultsWith exactStatistics treatment stage contract
      reports.length (resultsOf reports stage) minimumSamples = .ok a) :
    (∀ x ∈ a.statistics.values, x.isSome ↔ minimumSamples ≤ a.scoredCount) ∧
      (minimumSamples ≤ a.scoredCount → ∃ minimum mean median maximum,
        a.minimum = some (.finite minimum) ∧ a.mean = some (.finite mean) ∧
          a.median = some (.finite median) ∧ a.maximum = some (.finite maximum) ∧
          (minimum ≤ mean ∧ mean ≤ maximum) ∧ (minimum ≤ median ∧ median ≤ maximum) ∧
          .finite minimum ∈ scoresOf reports stage ∧ .finite maximum ∈ scoresOf reports stage) := by
  obtain ⟨hall, published, hpublished, rfl⟩ := aggregateResultsWith_eq_ok_iff.mp h
  have hcount : (stageRecord treatment stage contract reports.length (resultsOf reports stage)
    minimumSamples published).scoredCount = (numericScores (resultsOf reports stage)).length := rfl
  rw [hcount]
  obtain ⟨hfew, rfl⟩ | ⟨henough, found, rfl, hfound⟩ := publishWith_cases hpublished
  · refine ⟨fun x hx => ?_, fun henough => absurd henough (not_le.mpr hfew)⟩
    simp only [FullReferenceStageAggregate.statistics, OptionalStatistics.values, stageRecord,
      Option.map_none, List.mem_cons, List.not_mem_nil, or_false, or_self] at hx
    simp [hx, hfew]
  · obtain ⟨minimum, mean, median, maximum, deviation, rfl, hmean, hmedian, hmin, hmax⟩ :=
      exactStatistics_bounds hfound
    refine ⟨fun x hx => ?_, fun _ => ⟨minimum, mean, median, maximum, rfl, rfl, rfl, rfl, hmean,
      hmedian, hmin, hmax⟩⟩
    simp only [FullReferenceStageAggregate.statistics, OptionalStatistics.values, stageRecord,
      Option.map_some, List.mem_cons, List.not_mem_nil, or_false] at hx
    obtain rfl | rfl | rfl | rfl | rfl := hx <;> simp [henough]

end Spec

/-- **Aggregation of accepted reports**, with exact means and medians. Every order of the
reports gives the same aggregates, one for each stage. The counts of a stage add up to the
number of reports. A stage is aggregated exactly when every report has it scored, all with the
same transformations, and there are enough of them. There are statistics exactly when there
are enough scores; the mean and the median lie between the extremes, and all of them in the
range of the contract where the reports are those of the scoring. -/
theorem aggregateExactly_spec {treatment : String} {reports : List FullReferenceScoringReport}
    {minimumSamples : ℤ} {r : FullReferenceTreatmentReport}
    (h : aggregateExactly treatment reports minimumSamples = .ok r) :
    (∀ reports', reports.Perm reports' → ∃ r',
      aggregateExactly treatment reports' minimumSamples = .ok r' ∧
        r'.treatment = r.treatment ∧ r'.minimumSamples = r.minimumSamples ∧
        r'.contract = r.contract ∧ r'.stages.Perm r.stages) ∧
      (r.stages.map (·.stage)).Nodup ∧
      ∀ a ∈ r.stages,
        (a.scoredCount + a.unavailableCount + a.blockedCount + a.failedCount + a.missingCount =
            a.samplesTotal ∧ a.samplesTotal = reports.length) ∧
          (a.state = .aggregated ↔
            (∃ transformations, ∀ report ∈ reports, ∃ result ∈ report.results,
              result.stage = a.stage ∧ result.state = .scored ∧
                result.transformations = transformations) ∧ minimumSamples ≤ reports.length) ∧
          (∀ x ∈ a.statistics.values, x.isSome ↔ minimumSamples ≤ a.scoredCount) ∧
          (minimumSamples ≤ a.scoredCount → ∃ minimum mean median maximum,
            a.minimum = some (.finite minimum) ∧ a.mean = some (.finite mean) ∧
              a.median = some (.finite median) ∧ a.maximum = some (.finite maximum) ∧
              (minimum ≤ mean ∧ mean ≤ maximum) ∧ (minimum ≤ median ∧ median ≤ maximum) ∧
              ∀ runs : List ScoringRun, reports = runs.map ScoringRun.report →
                r.contract.minimumScore ≤ minimum ∧ maximum ≤ r.contract.maximumScore) := by
  obtain ⟨-, hreports, hstages, -, -⟩ := aggregateReportsWith_eq_ok_iff.mp h
  have hstage : ∀ stage a, aggregateResultsWith exactStatistics treatment stage r.contract
      reports.length (resultsOf reports stage) minimumSamples = .ok a → a.stage = stage := by
    intro stage a ha
    obtain ⟨-, published, -, rfl⟩ := aggregateResultsWith_eq_ok_iff.mp ha
    rfl
  refine ⟨fun reports' hperm => ?_, ?_, fun a ha => ?_⟩
  · obtain ⟨r', hr'⟩ := exists_aggregateExactly_of_perm hperm h
    exact ⟨r', hr', perm_stages_of_accepted orderFree_exactStatistics hperm h hr'⟩
  · rw [map_eq_of_mapM hstages hstage, List.map_id']
    exact nodup_stageOrder reports
  · obtain ⟨stage, -, hread⟩ := exists_of_mem_mapM hstages ha
    obtain rfl := hstage stage a hread
    obtain ⟨hpresent, hbounds⟩ := stage_statistics hread
    refine ⟨stage_counts hread, ?_, hpresent, fun henough => ?_⟩
    · obtain ⟨hall, published, -, heq⟩ := aggregateResultsWith_eq_ok_iff.mp hread
      have hiff := @state_stageRecord_iff treatment a.stage r.contract reports.length _
        minimumSamples hall length_resultsOf_le published
      rw [← heq, forall_resultsOf_iff fun report hreport => (hreports report hreport).2] at hiff
      exact hiff
    · obtain ⟨minimum, mean, median, maximum, hmin, hmean, hmedian, hmax, hmeans, hmedians, hlo,
        hhi⟩ := hbounds henough
      refine ⟨minimum, mean, median, maximum, hmin, hmean, hmedian, hmax, hmeans, hmedians, ?_⟩
      rintro runs rfl
      have hcontract : ∀ run ∈ runs, run.scorer.contract = r.contract := fun run hrun =>
        (hreports run.report (List.mem_map_of_mem hrun)).1
      have hrange : ∀ q, PyFloat.finite q ∈ scoresOf (runs.map ScoringRun.report) a.stage →
          r.contract.minimumScore ≤ q ∧ q ≤ r.contract.maximumScore := by
        intro q hq
        obtain ⟨result, hresult, hscore⟩ := List.mem_filterMap.mp hq
        obtain ⟨q', hq', hrange⟩ := (scoreResultOk_of_mem_resultsOf hcontract
          (List.mem_filter.mp hresult).1).range _ hscore
        cases hq'
        exact hrange
      exact ⟨(hrange minimum hlo).1, (hrange maximum hhi).2⟩

theorem aggregateExactly_spec_serializer :
    ∃ r, aggregateExactly "baseline-speech" ((threeRuns "serializer").map ScoringRun.report) 3 =
        .ok r ∧ (r.stages.map (·.stage)).Nodup := by
  have haccept : (aggregateExactly "baseline-speech"
      ((threeRuns "serializer").map ScoringRun.report) 3).isOk = true := by decide +kernel
  cases h : aggregateExactly "baseline-speech" ((threeRuns "serializer").map ScoringRun.report) 3 with
  | error e =>
      rw [h] at haccept
      cases haccept
  | ok r => exact ⟨r, rfl, (aggregateExactly_spec h).2.1⟩

end VoxBench.Verification
