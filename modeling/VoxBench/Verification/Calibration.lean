import VoxBench.Verification.ExactAggregation
import VoxBench.Verification.Regression

/-!
# Repeatability of treatments

Several reports of one treatment say how far its means vary without any change: for a stage that
all of them have aggregated in the same way, the analysis publishes the spread of the means. This
spread is the least tolerance under which no two of the reports are told apart.

## Main definitions

* `analyzeFullReferenceRepeatability` — the analysis.
* `Comparable` — the reports that say something about a stage.

## Main results

* `repeatability_tolerance` — the published spread against the verdicts of the regression policy.
* `repeatability_of_perm` — the order of the reports is of no account.
-/

namespace VoxBench.Verification

open VoxBench.Lib VoxBench.ControlPlane VoxBench.Observability

/-! ## The analysis -/

inductive FullReferenceRepeatabilityState where
  | calibrated
  | indeterminate
  deriving DecidableEq, Repr

structure FullReferenceStageRepeatability where
  stage : String
  state : FullReferenceRepeatabilityState
  repeatCount : ℕ
  meanOfMeans : Option PyFloat
  minimumMean : Option PyFloat
  maximumMean : Option PyFloat
  observedMaxDelta : Option PyFloat
  populationStddev : Option PyFloat
  transformations : List String
  reasonAlias : Option String
  deriving DecidableEq, Repr

structure FullReferenceRepeatabilityReport where
  contract : FullReferenceScorerContract
  minimumRepeats : ℤ
  repeatCount : ℕ
  stages : List FullReferenceStageRepeatability
  deriving DecidableEq

/-- `_indeterminate_reason` of the calibration. -/
def calibrationReason (values : List (Option FullReferenceStageAggregate)) (minimumRepeats : ℤ)
    (contractsMatch : Bool) : Option String :=
  let aggregates := values.filterMap id
  if !contractsMatch then some "scorer-contract-mismatch"
  else if values.length < minimumRepeats then some "insufficient-repeats"
  else if values.any Option.isNone then some "stage-missing"
  else if aggregates.any (·.state ≠ .aggregated) then some "stage-not-aggregated"
  else if (aggregates.map (·.transformations)).dedup.length ≠ 1 then
    some "transformation-mismatch"
  else if aggregates.any (·.mean.isNone) then some "aggregate-mean-missing"
  else none

/-- What is published of the means of a stage. -/
def spreadOf (stage : String) (aggregates : List FullReferenceStageAggregate) :
    Except AggregateError FullReferenceStageRepeatability :=
  match (aggregates.filterMap (·.mean)).mapM finite? with
  | none => .error .raised
  | some means =>
      match fmean means, means.min?, means.max?, pstdev means with
      | some mean, some minimum, some maximum, some deviation =>
          .ok
            { stage
              state := .calibrated
              repeatCount := aggregates.length
              meanOfMeans := some (.finite mean)
              minimumMean := some (.finite minimum)
              maximumMean := some (.finite maximum)
              observedMaxDelta := some (toFloat (maximum - minimum))
              populationStddev := some (.finite deviation)
              transformations := (aggregates.head?.map (·.transformations)).getD []
              reasonAlias := none }
      | _, _, _, _ => .error .raised

/-- `_analyze_stage`. -/
def analyzeStage (stage : String) (values : List (Option FullReferenceStageAggregate))
    (minimumRepeats : ℤ) (contractsMatch : Bool) :
    Except AggregateError FullReferenceStageRepeatability :=
  match calibrationReason values minimumRepeats contractsMatch with
  | some reasonAlias =>
      .ok ⟨stage, .indeterminate, values.countP Option.isSome, none, none, none, none, none, [],
        some reasonAlias⟩
  | none => spreadOf stage (values.filterMap id)

/-- The stages in the order in which they first occur. -/
def repeatedStages (reports : List FullReferenceTreatmentReport) : List String :=
  (reports.flatMap fun report => report.stages.map (·.stage)).foldl addStage []

/-- What each report has under a name. -/
def valuesOf (reports : List FullReferenceTreatmentReport) (stage : String) :
    List (Option FullReferenceStageAggregate) :=
  reports.map fun report => Dict.get? (stagesByName report.stages) stage

/-- `analyze_full_reference_repeatability`. -/
def analyzeFullReferenceRepeatability (reports : List FullReferenceTreatmentReport)
    (minimumRepeats : ℤ) : Except AggregateError FullReferenceRepeatabilityReport :=
  if minimumRepeats < 3 then .error (.valueError "minimum_repeats must be at least 3")
  else
    match reports with
    | [] => .error (.valueError "at least one treatment report is required")
    | first :: _ =>
        if reports.any fun report => ¬ (report.stages.map (·.stage)).Nodup then
          .error (.valueError "treatment report contains duplicate stages")
        else do
          let stages ← (repeatedStages reports).mapM fun stage =>
            analyzeStage stage (valuesOf reports stage) minimumRepeats
              (reports.all (·.contract = first.contract))
          return ⟨first.contract, minimumRepeats, reports.length, stages⟩

/-! ## Reasons -/

/-- Aggregates whose means can be compared, all with the same transformations. -/
structure Comparable (aggregates : List FullReferenceStageAggregate) (transformations : List String) :
    Prop where
  aggregated : ∀ a ∈ aggregates, a.state = .aggregated
  mean : ∀ a ∈ aggregates, a.mean.isSome
  same : ∀ a ∈ aggregates, a.transformations = transformations

theorem any_isNone_iff {values : List (Option FullReferenceStageAggregate)} :
    (¬ values.any Option.isNone = true) ↔ values = (values.filterMap id).map some := by
  rw [Bool.not_eq_true, List.any_eq_false]
  constructor
  · intro hall
    induction values with
    | nil => rfl
    | cons value values ih =>
        cases value with
        | none => exact absurd rfl (hall none List.mem_cons_self)
        | some a =>
            have hrest := ih fun v hv => hall v (List.mem_cons_of_mem _ hv)
            simpa using hrest
  · intro heq value hvalue hnone
    rw [heq] at hvalue
    obtain ⟨a, -, rfl⟩ := List.mem_map.mp hvalue
    cases hnone

@[simp] theorem filterMap_id_map_some (aggregates : List FullReferenceStageAggregate) :
    (aggregates.map some).filterMap id = aggregates := by
  simp [List.filterMap_map]

theorem dedup_transformations_iff {aggregates : List FullReferenceStageAggregate}
    (hne : aggregates ≠ []) :
    (aggregates.map (·.transformations)).dedup.length = 1 ↔
      ∃ transformations, ∀ a ∈ aggregates, a.transformations = transformations := by
  have hlength : 0 < (aggregates.map (·.transformations)).dedup.length := by
    obtain ⟨a, ha⟩ := List.exists_mem_of_ne_nil _ hne
    exact List.length_pos_of_mem (List.mem_dedup.mpr (List.mem_map_of_mem ha))
  have hle := @length_dedup_le_one_iff _ _ (aggregates.map (·.transformations)) []
  have hone : (aggregates.map (·.transformations)).dedup.length = 1 ↔
      (aggregates.map (·.transformations)).dedup.length ≤ 1 := by
    omega
  rw [hone, hle]
  simp

/-- There is no reason exactly when there are enough reports, and they are comparable. -/
theorem calibrationReason_eq_none_iff {values : List (Option FullReferenceStageAggregate)}
    {minimumRepeats : ℤ} {contractsMatch : Bool} (hpos : 0 < minimumRepeats) :
    calibrationReason values minimumRepeats contractsMatch = none ↔
      contractsMatch = true ∧ minimumRepeats ≤ values.length ∧ ∃ aggregates transformations,
        values = aggregates.map some ∧ Comparable aggregates transformations := by
  simp only [calibrationReason]
  constructor
  · intro h
    split_ifs at h with hcontracts hcount hmissing hstate hsame hmean
    refine ⟨by simpa using hcontracts, not_lt.mp hcount, values.filterMap id, ?_⟩
    have heq := any_isNone_iff.mp hmissing
    have hne : values.filterMap id ≠ [] := by
      intro hnil
      rw [hnil] at heq
      rw [heq] at hcount
      simp only [List.map_nil, List.length_nil, Nat.cast_zero] at hcount
      exact hcount hpos
    obtain ⟨transformations, htransformations⟩ :=
      (dedup_transformations_iff hne).mp (not_not.mp hsame)
    refine ⟨transformations, heq, ?_, ?_, htransformations⟩
    · intro a ha
      by_contra hnot
      exact hstate (List.any_eq_true.mpr ⟨a, ha, by simpa using hnot⟩)
    · intro a ha
      by_contra hnone
      exact hmean (List.any_eq_true.mpr ⟨a, ha, by simpa using hnone⟩)
  · rintro ⟨rfl, hcount, aggregates, transformations, rfl, hcomparable⟩
    have hne : aggregates ≠ [] := by
      rintro rfl
      simp only [List.map_nil, List.length_nil, Nat.cast_zero] at hcount
      omega
    rw [filterMap_id_map_some, if_neg (by simp), if_neg (not_lt.mpr hcount), if_neg (by simp),
      if_neg, if_neg, if_neg]
    · simpa using fun a ha => Option.isSome_iff_ne_none.mp (hcomparable.mean a ha)
    · exact not_not.mpr ((dedup_transformations_iff hne).mpr ⟨transformations, hcomparable.same⟩)
    · simpa using hcomparable.aggregated

/-! ## The spread -/

/-- A larger number has a float that exceeds what the smaller one's exceeds. -/
theorem exceeds_toFloat_mono {p q t : ℚ} (h : p ≤ q) (ht : 0 ≤ t)
    (hp : (toFloat p).exceeds t = true) : (toFloat q).exceeds t = true := by
  have hmono := nearest_mono h
  have hzero : nearest 0 = 0 := by
    have hsome := roundDouble_zero
    rw [roundDouble_eq] at hsome
    split_ifs at hsome
    exact Option.some.inj hsome
  have hpositive : 0 < nearest p := by
    unfold toFloat at hp
    rw [roundDouble_eq] at hp
    by_cases hfits : |nearest p| < 2 ^ 1024
    · rw [if_pos hfits] at hp
      exact ht.trans_lt (of_decide_eq_true hp)
    · rw [if_neg hfits] at hp
      by_cases hpos : 0 < p
      · have hnonneg := nearest_nonneg hpos.le
        rw [abs_of_nonneg hnonneg, not_lt] at hfits
        exact lt_of_lt_of_le (by positivity) hfits
      · simp [hpos, PyFloat.exceeds] at hp
  have hq : 0 < q := by
    by_contra hneg
    have hle := nearest_mono (not_lt.mp hneg)
    rw [hzero] at hle
    linarith
  unfold toFloat at hp ⊢
  rw [roundDouble_eq] at hp ⊢
  by_cases hqfits : |nearest q| < 2 ^ 1024
  · have hpfits : |nearest p| < 2 ^ 1024 := by
      rw [abs_of_pos hpositive]
      rw [abs_of_nonneg (hpositive.le.trans hmono)] at hqfits
      exact hmono.trans_lt hqfits
    rw [if_pos hpfits] at hp
    rw [if_pos hqfits]
    have hlt : t < nearest p := of_decide_eq_true hp
    exact decide_eq_true (hlt.trans_le hmono)
  · rw [if_neg hqfits]
    simp [hq, PyFloat.exceeds]

/-- A difference is stable when neither it nor its opposite exceeds the tolerance. -/
theorem verdict_eq_stable_iff {policy : FullReferenceRegressionPolicy} {delta : PyFloat} :
    verdict policy delta = .stable ↔
      delta.exceeds policy.stableTolerance = false ∧
        delta.neg.exceeds policy.stableTolerance = false := by
  simp only [verdict, PyFloat.below_neg]
  cases policy.higherIsBetter <;> cases hpos : delta.exceeds policy.stableTolerance <;>
    cases hneg : delta.neg.exceeds policy.stableTolerance <;> simp [hpos, hneg]

/-- The differences of some numbers are all stable exactly when their spread does not exceed the
tolerance. -/
theorem stable_iff_spread {means : List ℚ} {minimum maximum : ℚ} (hmin : means.min? = some minimum)
    (hmax : means.max? = some maximum) (policy : FullReferenceRegressionPolicy) :
    (toFloat (maximum - minimum)).exceeds policy.stableTolerance = false ↔
      ∀ x ∈ means, ∀ y ∈ means, verdict policy (toFloat (y - x)) = .stable := by
  obtain ⟨hminMem, hminLe⟩ := List.min?_eq_some_iff.mp hmin
  obtain ⟨hmaxMem, hmaxLe⟩ := List.max?_eq_some_iff.mp hmax
  constructor
  · intro hspread x hx y hy
    have hbounded : ∀ a ∈ means, ∀ b ∈ means,
        (toFloat (b - a)).exceeds policy.stableTolerance = false := by
      intro a ha b hb
      by_contra hexceeds
      have hle : b - a ≤ maximum - minimum := sub_le_sub (hmaxLe b hb) (hminLe a ha)
      rw [exceeds_toFloat_mono hle policy.tolerance_nonneg
        ((Bool.not_eq_false _).mp hexceeds)] at hspread
      cases hspread
    refine verdict_eq_stable_iff.mpr ⟨hbounded x hx y hy, ?_⟩
    rw [← toFloat_neg, neg_sub]
    exact hbounded y hy x hx
  · intro hstable
    exact (verdict_eq_stable_iff.mp (hstable minimum hminMem maximum hmaxMem)).1

/-! ## Records -/

section Records

variable {reports : List FullReferenceTreatmentReport} {minimumRepeats : ℤ}
  {report : FullReferenceRepeatabilityReport} {record : FullReferenceStageRepeatability}

/-- What the analysis accepts, and what it returns. -/
theorem analyze_eq_ok (h : analyzeFullReferenceRepeatability reports minimumRepeats = .ok report) :
    3 ≤ minimumRepeats ∧ (∃ first ∈ reports, report.contract = first.contract) ∧
      (∀ r ∈ reports, (r.stages.map (·.stage)).Nodup) ∧ report.repeatCount = reports.length ∧
      List.Forall₂ (fun stage record => analyzeStage stage (valuesOf reports stage) minimumRepeats
        (reports.all (·.contract = report.contract)) = .ok record) (repeatedStages reports)
          report.stages := by
  unfold analyzeFullReferenceRepeatability at h
  by_cases hminimum : minimumRepeats < 3
  · rw [if_pos hminimum] at h
    cases h
  rw [if_neg hminimum] at h
  cases reports with
  | nil => cases h
  | cons first rest =>
      by_cases hduplicates : (first :: rest).any fun report => ¬ (report.stages.map (·.stage)).Nodup
      · simp only [hduplicates, if_true] at h
        cases h
      simp only [hduplicates] at h
      obtain ⟨stages, hstages, h⟩ := bind_eq_ok.mp h
      cases h
      refine ⟨not_lt.mp hminimum, ⟨first, List.mem_cons_self, rfl⟩, ?_, rfl, mapM_eq_ok_iff.mp hstages⟩
      intro r hr
      by_contra hnot
      exact hduplicates (List.any_eq_true.mpr ⟨r, hr, decide_eq_true hnot⟩)

theorem spreadOf_eq_ok {stage : String} {aggregates : List FullReferenceStageAggregate}
    (h : spreadOf stage aggregates = .ok record) :
    ∃ means minimum maximum mean deviation,
      (aggregates.filterMap (·.mean)).mapM finite? = some means ∧ fmean means = some mean ∧
      pstdev means = some deviation ∧ means.min? = some minimum ∧ means.max? = some maximum ∧
      record = ⟨stage, .calibrated, aggregates.length, some (.finite mean),
        some (.finite minimum), some (.finite maximum), some (toFloat (maximum - minimum)),
        some (.finite deviation), (aggregates.head?.map (·.transformations)).getD [], none⟩ := by
  unfold spreadOf at h
  split at h
  · cases h
  · rename_i means hmeans
    split at h
    · rename_i mean minimum maximum deviation hmean hmin hmax hdeviation
      cases h
      exact ⟨means, minimum, maximum, mean, deviation, hmeans, hmean, hdeviation, hmin, hmax, rfl⟩
    · cases h

/-- A stage is calibrated unless there is a reason against it. -/
theorem analyzeStage_cases {stage : String} {values : List (Option FullReferenceStageAggregate)}
    {contractsMatch : Bool}
    (h : analyzeStage stage values minimumRepeats contractsMatch = .ok record) :
    record.stage = stage ∧
      ((calibrationReason values minimumRepeats contractsMatch = none ∧ record.state = .calibrated ∧
          spreadOf stage (values.filterMap id) = .ok record) ∨
        (calibrationReason values minimumRepeats contractsMatch ≠ none ∧
          record.state = .indeterminate)) := by
  unfold analyzeStage at h
  split at h
  · rename_i reasonAlias hreason
    cases h
    exact ⟨rfl, Or.inr ⟨by simp [hreason], rfl⟩⟩
  · rename_i hreason
    obtain ⟨_, _, _, _, _, -, -, -, -, -, rfl⟩ := spreadOf_eq_ok h
    exact ⟨rfl, Or.inl ⟨hreason, rfl, h⟩⟩

theorem map_stage_of_forall₂ {f : String → Except AggregateError FullReferenceStageRepeatability}
    (hf : ∀ stage record, f stage = .ok record → record.stage = stage) {stages : List String}
    {records : List FullReferenceStageRepeatability}
    (h : List.Forall₂ (fun stage record => f stage = .ok record) stages records) :
    records.map (·.stage) = stages := by
  induction h with
  | nil => rfl
  | cons hfirst _ ih => rw [List.map_cons, ih, hf _ _ hfirst]

theorem map_stage_analyze
    (h : analyzeFullReferenceRepeatability reports minimumRepeats = .ok report) :
    report.stages.map (·.stage) = repeatedStages reports :=
  map_stage_of_forall₂ (fun _ _ h => (analyzeStage_cases h).1) (analyze_eq_ok h).2.2.2.2

theorem analyzeStage_of_mem
    (h : analyzeFullReferenceRepeatability reports minimumRepeats = .ok report)
    (hrecord : record ∈ report.stages) :
    analyzeStage record.stage (valuesOf reports record.stage) minimumRepeats
      (reports.all (·.contract = report.contract)) = .ok record := by
  obtain ⟨stage, -, hstage⟩ := exists_mem_of_forall₂ (analyze_eq_ok h).2.2.2.2 hrecord
  have hname := (analyzeStage_cases hstage).1
  rw [← hname] at hstage
  exact hstage

/-- The reports, with one aggregate of the stage in each, that say something about it. -/
def Calibratable (reports : List FullReferenceTreatmentReport) (minimumRepeats : ℤ)
    (contract : FullReferenceScorerContract) (stage : String) : Prop :=
  minimumRepeats ≤ reports.length ∧ ∃ transformations, ∀ r ∈ reports, r.contract = contract ∧
    ∃ a ∈ r.stages, a.stage = stage ∧ a.state = .aggregated ∧ a.mean.isSome ∧
      a.transformations = transformations

/-- The aggregates under a name, report by report. -/
theorem valuesOf_eq_map_iff (hnodup : ∀ r ∈ reports, (r.stages.map (·.stage)).Nodup) {stage : String}
    {aggregates : List FullReferenceStageAggregate} :
    valuesOf reports stage = aggregates.map some ↔
      List.Forall₂ (fun r a => a ∈ r.stages ∧ a.stage = stage) reports aggregates := by
  induction reports generalizing aggregates with
  | nil => cases aggregates <;> simp [valuesOf]
  | cons r reports ih =>
      have hrest := fun aggregates => @ih (fun r hr => hnodup r (List.mem_cons_of_mem _ hr)) aggregates
      simp only [valuesOf] at hrest
      cases aggregates with
      | nil => simp [valuesOf]
      | cons a aggregates =>
          simp only [valuesOf, List.map_cons, List.cons.injEq, List.forall₂_cons, hrest,
            get?_stagesByName_iff (hnodup r List.mem_cons_self)]

theorem calibrated_iff (h : analyzeFullReferenceRepeatability reports minimumRepeats = .ok report)
    (hrecord : record ∈ report.stages) :
    record.state = .calibrated ↔
      Calibratable reports minimumRepeats report.contract record.stage := by
  obtain ⟨hminimum, -, hnodup, -, -⟩ := analyze_eq_ok h
  have hstate : record.state = .calibrated ↔ calibrationReason (valuesOf reports record.stage)
      minimumRepeats (reports.all (·.contract = report.contract)) = none := by
    rcases (analyzeStage_cases (analyzeStage_of_mem h hrecord)).2 with ⟨hnone, hstate, -⟩ | ⟨hsome, hstate⟩
    · exact iff_of_true hstate hnone
    · refine iff_of_false ?_ hsome
      rw [hstate]
      decide
  have hlength : (valuesOf reports record.stage).length = reports.length := List.length_map _
  rw [hstate, calibrationReason_eq_none_iff (by omega), hlength]
  constructor
  · rintro ⟨hcontracts, hcount, aggregates, transformations, hvalues, hcomparable⟩
    refine ⟨hcount, transformations, fun r hr => ⟨?_, ?_⟩⟩
    · simpa using List.all_eq_true.mp hcontracts r hr
    · obtain ⟨a, ha, hmem, hname⟩ :=
        exists_mem_of_forall₂ ((valuesOf_eq_map_iff hnodup).mp hvalues).flip hr
      exact ⟨a, hmem, hname, hcomparable.aggregated a ha, hcomparable.mean a ha, hcomparable.same a ha⟩
  · rintro ⟨hcount, transformations, hall⟩
    refine ⟨List.all_eq_true.mpr fun r hr => decide_eq_true (hall r hr).1, hcount, ?_⟩
    obtain ⟨aggregates, hforall⟩ : ∃ aggregates, List.Forall₂ (fun r a => a ∈ r.stages ∧
        a.stage = record.stage ∧ a.state = FullReferenceAggregateState.aggregated ∧ a.mean.isSome ∧
          a.transformations = transformations) reports aggregates := by
      exact exists_forall₂ fun r hr => (hall r hr).2
    refine ⟨aggregates, transformations, (valuesOf_eq_map_iff hnodup).mpr ?_, ?_, ?_, ?_⟩
    · exact hforall.imp fun r a ha => ⟨ha.1, ha.2.1⟩
    all_goals
      intro a ha
      obtain ⟨r, -, hprops⟩ := exists_mem_of_forall₂ hforall ha
    · exact hprops.2.2.1
    · exact hprops.2.2.2.1
    · exact hprops.2.2.2.2

theorem nodup_repeatedStages : (repeatedStages reports).Nodup := by
  have hfold : ∀ added stages : List String, stages.Nodup → (added.foldl addStage stages).Nodup := by
    intro added
    induction added with
    | nil => exact fun _ h => h
    | cons stage added ih => exact fun stages h => ih _ (nodup_addStage stage h)
  exact hfold _ _ List.nodup_nil

theorem mem_repeatedStages {stage : String} :
    stage ∈ repeatedStages reports ↔ ∃ r ∈ reports, stage ∈ r.stages.map (·.stage) := by
  unfold repeatedStages
  rw [mem_foldl_addStage]
  simp

end Records

/-! ## The published spread -/

section Spread

variable {reports : List FullReferenceTreatmentReport} {minimumRepeats : ℤ}
  {report : FullReferenceRepeatabilityReport} {record : FullReferenceStageRepeatability}

/-- What a report has measured of a stage. -/
def Measured (r : FullReferenceTreatmentReport) (stage : String) (transformations : List String)
    (x : ℚ) : Prop :=
  ∃ a ∈ r.stages, a.stage = stage ∧ a.state = .aggregated ∧ a.mean = some (.finite x) ∧
    a.transformations = transformations

/-- The means of aggregates that all have one. -/
theorem map_mean_eq {aggregates : List FullReferenceStageAggregate} {means : List ℚ}
    (hmean : ∀ a ∈ aggregates, a.mean.isSome)
    (h : (aggregates.filterMap (·.mean)).mapM finite? = some means) :
    aggregates.map (·.mean) = means.map fun x => some (.finite x) := by
  have hsome : aggregates.map (·.mean) = (aggregates.filterMap (·.mean)).map some := by
    clear h
    induction aggregates with
    | nil => rfl
    | cons a aggregates ih =>
        obtain ⟨ha, hrest⟩ := List.forall_mem_cons.mp hmean
        obtain ⟨x, hx⟩ := Option.isSome_iff_exists.mp ha
        rw [List.map_cons, List.filterMap_cons_some hx, List.map_cons, hx, ih hrest]
  rw [hsome, exists_data_of_mapM h, List.map_map]
  rfl

/-- A calibrated stage has one mean for each report, and publishes their spread. -/
theorem means_of_calibrated
    (h : analyzeFullReferenceRepeatability reports minimumRepeats = .ok report)
    (hrecord : record ∈ report.stages) (hstate : record.state = .calibrated) :
    ∃ transformations means minimum maximum,
      List.Forall₂ (fun r x => r.contract = report.contract ∧
        Measured r record.stage transformations x) reports means ∧
      means.min? = some minimum ∧ means.max? = some maximum ∧
      record.observedMaxDelta = some (toFloat (maximum - minimum)) := by
  obtain ⟨hminimum, -, hnodup, -, -⟩ := analyze_eq_ok h
  obtain ⟨-, ⟨hreason, -, hspread⟩ | ⟨-, hindeterminate⟩⟩ :=
    analyzeStage_cases (analyzeStage_of_mem h hrecord)
  · obtain ⟨hcontracts, -, aggregates, transformations, hvalues, hcomparable⟩ :=
      (calibrationReason_eq_none_iff (by omega)).mp hreason
    rw [hvalues, filterMap_id_map_some] at hspread
    obtain ⟨means, minimum, maximum, _, _, hmeans, -, -, hmin, hmax, heq⟩ := spreadOf_eq_ok hspread
    refine ⟨transformations, means, minimum, maximum, ?_, hmin, hmax, by rw [heq]⟩
    have hforall := (valuesOf_eq_map_iff hnodup).mp hvalues
    have hmap := map_mean_eq hcomparable.mean hmeans
    have hall : ∀ r ∈ reports, r.contract = report.contract := by
      simpa using List.all_eq_true.mp hcontracts
    clear hspread hmeans hmin hmax heq hvalues hreason hnodup h hcontracts
    -- the reports, their aggregates and the means, side by side
    induction hforall generalizing means with
    | nil =>
        obtain rfl : means = [] := by simpa using hmap.symm
        exact List.Forall₂.nil
    | @cons r a reports aggregates ha _ ih =>
        cases means with
        | nil => cases hmap
        | cons x means =>
            rw [List.map_cons, List.map_cons, List.cons.injEq] at hmap
            obtain ⟨hr, hreports⟩ := List.forall_mem_cons.mp hall
            refine List.Forall₂.cons ⟨hr, a, ha.1, ha.2, ?_, hmap.1, ?_⟩ (ih ?_ means hmap.2 hreports)
            · exact hcomparable.aggregated a List.mem_cons_self
            · exact hcomparable.same a List.mem_cons_self
            · exact ⟨fun b hb => hcomparable.aggregated b (List.mem_cons_of_mem _ hb),
                fun b hb => hcomparable.mean b (List.mem_cons_of_mem _ hb),
                fun b hb => hcomparable.same b (List.mem_cons_of_mem _ hb)⟩
  · rw [hindeterminate] at hstate
    cases hstate

/-- The verdict on a stage that both reports have measured in the same way. -/
theorem compareStage_of_measured {baseline current : FullReferenceTreatmentReport} {stage : String}
    {transformations : List String} {x y : ℚ}
    (hbaseline : (baseline.stages.map (·.stage)).Nodup)
    (hcurrent : (current.stages.map (·.stage)).Nodup) (hcontract : baseline.contract = current.contract)
    (hx : Measured baseline stage transformations x) (hy : Measured current stage transformations y)
    (policy : FullReferenceRegressionPolicy) :
    stage ∈ comparedStages baseline current ∧
      (compareStage .double stage (Dict.get? (stagesByName baseline.stages) stage)
        (Dict.get? (stagesByName current.stages) stage) policy
          (baseline.contract = current.contract)).state = verdict policy (toFloat (y - x)) := by
  obtain ⟨b, hb, hbstage, hbstate, hbmean, hbsame⟩ := hx
  obtain ⟨c, hc, hcstage, hcstate, hcmean, hcsame⟩ := hy
  have hbget := (get?_stagesByName_iff hbaseline).mpr ⟨hb, hbstage⟩
  have hcget := (get?_stagesByName_iff hcurrent).mpr ⟨hc, hcstage⟩
  constructor
  · rw [mem_comparedStages, keys_stagesByName hbaseline]
    exact Or.inl (List.mem_map.mpr ⟨b, hb, hbstage⟩)
  · rw [hbget, hcget]
    obtain ⟨_, _, _, _, -, hb', hc', -, hx', hy', heq⟩ | ⟨hnot, -⟩ :=
      compareStage_cases .double stage (some b) (some c) policy (baseline.contract = current.contract)
    · cases hb'
      cases hc'
      cases hbmean.symm.trans hx'
      cases hcmean.symm.trans hy'
      rw [heq]
      rfl
    · exact absurd ⟨decide_eq_true hcontract, b, c, rfl, rfl, hbstate, hcstate,
        hbsame.trans hcsame.symm, by simp [hbmean], by simp [hcmean]⟩ hnot

end Spread

/-- **The tolerance that repetition supports.** Each stage that some report has is analysed, once.
It is calibrated exactly when there are enough reports and all of them have aggregated it, with a
mean, under one contract and one list of transformations. The spread that a calibrated stage
publishes is the threshold of the regression policies: those that it does not exceed, and no
others, find the stage stable between every two of the reports. -/
theorem repeatability_tolerance {reports : List FullReferenceTreatmentReport} {minimumRepeats : ℤ}
    {report : FullReferenceRepeatabilityReport}
    (h : analyzeFullReferenceRepeatability reports minimumRepeats = .ok report) :
    (report.stages.map (·.stage)).Nodup ∧
      (∀ stage, stage ∈ report.stages.map (·.stage) ↔
        ∃ r ∈ reports, stage ∈ r.stages.map (·.stage)) ∧
      ∀ record ∈ report.stages,
        (record.state = .calibrated ↔
          Calibratable reports minimumRepeats report.contract record.stage) ∧
        (record.state = .calibrated → ∃ spread, record.observedMaxDelta = some spread ∧
          ∀ policy : FullReferenceRegressionPolicy,
            spread.exceeds policy.stableTolerance = false ↔
              ∀ baseline ∈ reports, ∀ current ∈ reports,
                ∀ compared ∈ (compareFullReferenceTreatments .double baseline current policy).stages,
                  compared.stage = record.stage → compared.state = .stable) := by
  rw [map_stage_analyze h]
  refine ⟨nodup_repeatedStages, fun stage => mem_repeatedStages, fun record hrecord =>
    ⟨calibrated_iff h hrecord, fun hstate => ?_⟩⟩
  have hnodup := (analyze_eq_ok h).2.2.1
  obtain ⟨transformations, means, minimum, maximum, hforall, hmin, hmax, hspread⟩ :=
    means_of_calibrated h hrecord hstate
  refine ⟨_, hspread, fun policy => (stable_iff_spread hmin hmax policy).trans ?_⟩
  constructor
  · intro hstable baseline hbaseline current hcurrent compared hcompared hstage
    obtain ⟨x, hx, hbcontract, hxmeasured⟩ := exists_mem_of_forall₂ hforall.flip hbaseline
    obtain ⟨y, hy, hccontract, hymeasured⟩ := exists_mem_of_forall₂ hforall.flip hcurrent
    rw [eq_compareStage_of_mem hcompared, hstage, (compareStage_of_measured
      (hnodup baseline hbaseline) (hnodup current hcurrent) (hbcontract.trans hccontract.symm)
        hxmeasured hymeasured policy).2]
    exact hstable x hx y hy
  · intro hstable x hx y hy
    obtain ⟨baseline, hbaseline, hbcontract, hxmeasured⟩ := exists_mem_of_forall₂ hforall hx
    obtain ⟨current, hcurrent, hccontract, hymeasured⟩ := exists_mem_of_forall₂ hforall hy
    obtain ⟨hmem, hverdict⟩ := compareStage_of_measured (hnodup baseline hbaseline)
      (hnodup current hcurrent) (hbcontract.trans hccontract.symm) hxmeasured hymeasured policy
    rw [← hverdict]
    exact hstable baseline hbaseline current hcurrent _ (List.mem_map_of_mem hmem)
      (stage_compareStage record.stage)

/-- Three reports on one stage. -/
def repeatedReports : List FullReferenceTreatmentReport :=
  [uniformReport "first" "stt" 4, uniformReport "second" "stt" (9 / 2),
    uniformReport "third" "stt" (7 / 2)]

/-- Their spread is 1. -/
def repeatedReport : FullReferenceRepeatabilityReport where
  contract := visqolContract
  minimumRepeats := 3
  repeatCount := 3
  stages := [{
    stage := "stt"
    state := .calibrated
    repeatCount := 3
    meanOfMeans := some (.finite 4)
    minimumMean := some (.finite (7 / 2))
    maximumMean := some (.finite (9 / 2))
    observedMaxDelta := some (.finite 1)
    populationStddev := some (.finite (3677173697615391 / 9007199254740992))
    transformations := []
    reasonAlias := none }]

theorem analyze_repeatedReports :
    analyzeFullReferenceRepeatability repeatedReports 3 = .ok repeatedReport := by
  decide +kernel

theorem repeatability_tolerance_stt :
    (repeatedReport.stages.map (·.stage)).Nodup ∧
      (∀ stage, stage ∈ repeatedReport.stages.map (·.stage) ↔
        ∃ r ∈ repeatedReports, stage ∈ r.stages.map (·.stage)) ∧
      ∀ record ∈ repeatedReport.stages,
        (record.state = .calibrated ↔
          Calibratable repeatedReports 3 repeatedReport.contract record.stage) ∧
        ∀ policy : FullReferenceRegressionPolicy,
          (PyFloat.finite 1).exceeds policy.stableTolerance = false ↔
            ∀ baseline ∈ repeatedReports, ∀ current ∈ repeatedReports,
              ∀ compared ∈ (compareFullReferenceTreatments .double baseline current policy).stages,
                compared.stage = record.stage → compared.state = .stable := by
  obtain ⟨hnodup, hstages, hrecords⟩ := repeatability_tolerance analyze_repeatedReports
  refine ⟨hnodup, hstages, fun record hrecord => ?_⟩
  obtain ⟨hcalibrated, hspread⟩ := hrecords record hrecord
  refine ⟨hcalibrated, ?_⟩
  obtain rfl := List.mem_singleton.mp hrecord
  obtain ⟨spread, hobserved, hstable⟩ := hspread rfl
  cases hobserved
  exact hstable

/-! ## The order of the reports -/

section Order

variable {reports reports' : List FullReferenceTreatmentReport} {minimumRepeats : ℤ}
  {report report' : FullReferenceRepeatabilityReport}

theorem calibrationReason_of_perm {values values' : List (Option FullReferenceStageAggregate)}
    (h : values.Perm values') (minimumRepeats : ℤ) (contractsMatch : Bool) :
    calibrationReason values minimumRepeats contractsMatch =
      calibrationReason values' minimumRepeats contractsMatch := by
  have haggregates := h.filterMap id
  have hdedup := ((haggregates.map (·.transformations)).dedup).length_eq
  have hmissing : values.any Option.isNone = values'.any Option.isNone := h.any_eq
  have hstate := haggregates.any_eq (f := fun a => a.state ≠ .aggregated)
  have hmean := haggregates.any_eq (f := fun a => a.mean.isNone)
  simp only [calibrationReason, h.length_eq, hdedup, hmissing, hstate, hmean]

/-- Comparable aggregates in another order have the same spread. -/
theorem spreadOf_of_perm {stage : String} {aggregates aggregates' : List FullReferenceStageAggregate}
    {transformations : List String} {record record' : FullReferenceStageRepeatability}
    (hperm : aggregates.Perm aggregates') (hcomparable : Comparable aggregates transformations)
    (h : spreadOf stage aggregates = .ok record) (h' : spreadOf stage aggregates' = .ok record') :
    record = record' := by
  obtain ⟨means, minimum, maximum, mean, deviation, hmeans, hmean, hdeviation, hmin, hmax, rfl⟩ :=
    spreadOf_eq_ok h
  obtain ⟨means', minimum', maximum', mean', deviation', hmeans', hmean', hdeviation', hmin', hmax',
    rfl⟩ := spreadOf_eq_ok h'
  have hdata : means.Perm means' := by
    have hfloats := hperm.filterMap (·.mean)
    rw [exists_data_of_mapM hmeans, exists_data_of_mapM hmeans'] at hfloats
    have hnumbers := hfloats.filterMap finite?
    rwa [filterMap_finite?, filterMap_finite?] at hnumbers
  have hhead : aggregates.head?.map (·.transformations) =
      aggregates'.head?.map (·.transformations) := by
    cases aggregates with
    | nil => rw [hperm.nil_eq]
    | cons a aggregates =>
        cases aggregates' with
        | nil => exact absurd hperm.length_eq (by simp)
        | cons b aggregates' =>
            have hb := hcomparable.same b (hperm.mem_iff.mpr List.mem_cons_self)
            have ha := hcomparable.same a List.mem_cons_self
            simp [ha, hb]
  rw [pstdev_eq_of_perm hdata, hdeviation'] at hdeviation
  rw [Average.min?_eq_of_perm hdata, hmin'] at hmin
  rw [Average.max?_eq_of_perm hdata, hmax'] at hmax
  cases hdeviation
  cases hmin
  cases hmax
  rw [fmean_eq_of_perm hdata hmean hmean', hhead, hperm.length_eq]

theorem analyzeStage_of_perm {stage : String} {values values' : List (Option FullReferenceStageAggregate)}
    {contractsMatch : Bool} {record record' : FullReferenceStageRepeatability}
    (hperm : values.Perm values') (hpos : 0 < minimumRepeats)
    (h : analyzeStage stage values minimumRepeats contractsMatch = .ok record)
    (h' : analyzeStage stage values' minimumRepeats contractsMatch = .ok record') :
    record = record' := by
  unfold analyzeStage at h h'
  rw [← calibrationReason_of_perm hperm minimumRepeats contractsMatch] at h'
  cases hreason : calibrationReason values minimumRepeats contractsMatch with
  | some reasonAlias =>
      simp only [hreason] at h h'
      cases h
      cases h'
      rw [hperm.countP_eq]
  | none =>
      simp only [hreason] at h h'
      obtain ⟨-, -, aggregates, transformations, rfl, hcomparable⟩ :=
        (calibrationReason_eq_none_iff hpos).mp hreason
      rw [filterMap_id_map_some] at h
      have hfilter := hperm.filterMap id
      rw [filterMap_id_map_some] at hfilter
      exact spreadOf_of_perm hfilter hcomparable h h'

/-- The contracts are all equal, whichever report comes first. -/
theorem all_contract_iff (h : analyzeFullReferenceRepeatability reports minimumRepeats = .ok report) :
    reports.all (·.contract = report.contract) = true ↔
      ∀ r ∈ reports, ∀ r' ∈ reports, r.contract = r'.contract := by
  obtain ⟨-, ⟨first, hfirst, heq⟩, -⟩ := analyze_eq_ok h
  simp only [List.all_eq_true, decide_eq_true_eq]
  constructor
  · exact fun hall r hr r' hr' => (hall r hr).trans (hall r' hr').symm
  · exact fun hall r hr => (hall r hr first hfirst).trans heq.symm

end Order

/-- **Repeatability does not depend on the order of the reports.** Another order has the same
records, maybe in another order. -/
theorem repeatability_of_perm {reports reports' : List FullReferenceTreatmentReport}
    {minimumRepeats : ℤ} {report report' : FullReferenceRepeatabilityReport}
    (hperm : reports.Perm reports')
    (h : analyzeFullReferenceRepeatability reports minimumRepeats = .ok report)
    (h' : analyzeFullReferenceRepeatability reports' minimumRepeats = .ok report') :
    report.stages.Perm report'.stages := by
  have hcontracts : reports.all (·.contract = report.contract) =
      reports'.all (·.contract = report'.contract) := by
    rw [Bool.eq_iff_iff, all_contract_iff h, all_contract_iff h']
    simp only [hperm.mem_iff]
  have hminimum := (analyze_eq_ok h).1
  have hsub : ∀ record, record ∈ report.stages ↔ record ∈ report'.stages := by
    intro record
    have hname := fun stage => (@mem_repeatedStages reports stage).trans
      ((exists_congr fun r => and_congr_left fun _ => hperm.mem_iff).trans
        (@mem_repeatedStages reports' stage).symm)
    simp only [← map_stage_analyze h, ← map_stage_analyze h'] at hname
    constructor
    · intro hrecord
      obtain ⟨record', hrecord', hstage⟩ :=
        List.mem_map.mp ((hname _).mp (List.mem_map_of_mem hrecord))
      have hanalyzed := analyzeStage_of_mem h hrecord
      have hanalyzed' := analyzeStage_of_mem h' hrecord'
      rw [hstage, ← hcontracts] at hanalyzed'
      rwa [analyzeStage_of_perm (hperm.map _) (by omega) hanalyzed hanalyzed']
    · intro hrecord
      obtain ⟨record', hrecord', hstage⟩ :=
        List.mem_map.mp ((hname _).mpr (List.mem_map_of_mem hrecord))
      have hanalyzed := analyzeStage_of_mem h' hrecord
      have hanalyzed' := analyzeStage_of_mem h hrecord'
      rw [hstage, hcontracts] at hanalyzed'
      rwa [analyzeStage_of_perm (hperm.symm.map _) (by omega) hanalyzed hanalyzed']
  refine (List.perm_ext_iff_of_nodup ?_ ?_).mpr hsub
  · exact List.Nodup.of_map _ (by rw [map_stage_analyze h]; exact nodup_repeatedStages)
  · exact List.Nodup.of_map _ (by rw [map_stage_analyze h']; exact nodup_repeatedStages)

theorem repeatability_of_perm_stt :
    ∃ report, analyzeFullReferenceRepeatability repeatedReports.reverse 3 = .ok report ∧
      repeatedReport.stages.Perm report.stages := by
  have hreverse : analyzeFullReferenceRepeatability repeatedReports.reverse 3 =
      .ok repeatedReport := by
    decide +kernel
  exact ⟨repeatedReport, hreverse, repeatability_of_perm (List.reverse_perm _).symm
    analyze_repeatedReports hreverse⟩

end VoxBench.Verification
