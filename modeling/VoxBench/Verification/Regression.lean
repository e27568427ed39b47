import VoxBench.Verification.Aggregation

/-!
# Regressions between two treatments

`compareFullReferenceTreatments` compares the means of two treatment reports stage by stage,
where both have the stage aggregated in the same way. A difference within the tolerance of the
policy is stable; a larger one is an improvement or a regression, by its sign and the direction
of the policy.

## Main definitions

* `Rounding` — what becomes of the exact difference of two means.
* `compareStage`, `compareFullReferenceTreatments`.

## Main results

* `regression_antisymmetric` — what swapping the reports, and turning the direction of the
  policy, does to the verdicts, and when there is one.
-/

namespace VoxBench.Observability

open VoxBench.Lib

namespace PyFloat

/-- `-x`. -/
def neg : PyFloat → PyFloat
  | .finite q => .finite (-q)
  | .inf => .negInf
  | .negInf => .inf
  | .nan => .nan

/-- `x > q`. -/
def exceeds (x : PyFloat) (q : ℚ) : Bool :=
  match x with
  | .finite p => q < p
  | .inf => true
  | .negInf | .nan => false

/-- `x < q`. -/
def below (x : PyFloat) (q : ℚ) : Bool :=
  match x with
  | .finite p => p < q
  | .negInf => true
  | .inf | .nan => false

theorem below_neg (x : PyFloat) (q : ℚ) : x.below (-q) = x.neg.exceeds q := by
  cases x with
  | finite p =>
      simp only [below, neg, exceeds, decide_eq_decide]
      exact lt_neg
  | inf => rfl
  | negInf => rfl
  | nan => rfl

@[simp] theorem neg_neg (x : PyFloat) : x.neg.neg = x := by
  cases x <;> simp [neg]

/-- A number and its opposite do not both exceed a bound that is not negative. -/
theorem not_exceeds_neg {x : PyFloat} {q : ℚ} (hq : 0 ≤ q) (h : x.exceeds q = true) :
    x.neg.exceeds q = false := by
  cases x with
  | finite p =>
      simp only [exceeds, neg, decide_eq_true_eq, decide_eq_false_iff_not, not_lt] at h ⊢
      linarith
  | inf => rfl
  | negInf => cases h
  | nan => cases h

end PyFloat

end VoxBench.Observability

namespace VoxBench.Verification

open VoxBench.Lib VoxBench.ControlPlane VoxBench.Observability

/-! ## Differences -/

/-- What becomes of an exact difference. Zero stays, and opposite differences become opposite
floats. -/
structure Rounding where
  round : ℚ → PyFloat
  zero : round 0 = .finite 0
  neg : ∀ q, round (-q) = (round q).neg

/-- Exact rationals. -/
def Rounding.exact : Rounding where
  round := .finite
  zero := rfl
  neg _ := rfl

theorem toFloat_neg (q : ℚ) : toFloat (-q) = (toFloat q).neg := by
  unfold toFloat
  rw [roundDouble_neg]
  cases hround : roundDouble q with
  | some r => rfl
  | none =>
      have hne : q ≠ 0 := by
        rintro rfl
        simp [roundDouble_zero] at hround
      by_cases hpos : 0 < q
      · have hneg : ¬ 0 < -q := by linarith
        simp [hpos, PyFloat.neg, hneg]
      · have hneg : 0 < -q := neg_pos.mpr (lt_of_le_of_ne (not_lt.mp hpos) hne)
        simp [hpos, PyFloat.neg, hneg]

/-- Floats of double precision. -/
def Rounding.double : Rounding where
  round := toFloat
  zero := by
    unfold toFloat
    rw [roundDouble_zero]
  neg := toFloat_neg

/-- `x - y`. -/
def difference (rounding : Rounding) : PyFloat → PyFloat → PyFloat
  | .finite p, .finite q => rounding.round (p - q)
  | .nan, _ | _, .nan | .inf, .inf | .negInf, .negInf => .nan
  | .inf, _ | .finite _, .negInf => .inf
  | .negInf, _ | .finite _, .inf => .negInf

theorem difference_swap (rounding : Rounding) (x y : PyFloat) :
    difference rounding y x = (difference rounding x y).neg := by
  cases x <;> cases y <;> try rfl
  case finite.finite p q =>
    simp only [difference]
    rw [← rounding.neg, neg_sub]

/-- A float minus itself is zero or no number. -/
theorem exceeds_difference_self (rounding : Rounding) (x : PyFloat) {q : ℚ} (hq : 0 ≤ q) :
    (difference rounding x x).exceeds q = false := by
  cases x with
  | finite p => simpa [difference, rounding.zero, PyFloat.exceeds] using hq
  | inf => rfl
  | negInf => rfl
  | nan => rfl

/-! ## The comparison -/

inductive FullReferenceRegressionState where
  | improved
  | stable
  | regressed
  | indeterminate
  deriving DecidableEq, Repr

/-- The verdict in the other direction. -/
def FullReferenceRegressionState.exchange :
    FullReferenceRegressionState → FullReferenceRegressionState
  | .improved => .regressed
  | .regressed => .improved
  | state => state

/-- A `FullReferenceRegressionPolicy`, with what `__post_init__` has checked. -/
structure FullReferenceRegressionPolicy where
  stableTolerance : ℚ
  higherIsBetter : Bool
  tolerance_nonneg : 0 ≤ stableTolerance

/-- The same tolerance, in the other direction. -/
def FullReferenceRegressionPolicy.flip (policy : FullReferenceRegressionPolicy) :
    FullReferenceRegressionPolicy :=
  { policy with higherIsBetter := !policy.higherIsBetter }

structure FullReferenceStageRegression where
  stage : String
  state : FullReferenceRegressionState
  baselineMean : Option PyFloat
  currentMean : Option PyFloat
  delta : Option PyFloat
  tolerance : ℚ
  reasonAlias : Option String
  deriving DecidableEq, Repr

structure FullReferenceRegressionReport where
  baselineTreatment : String
  currentTreatment : String
  scorer : String
  metricName : String
  policy : FullReferenceRegressionPolicy
  stages : List FullReferenceStageRegression

/-- `_indeterminate_reason`. -/
def indeterminateReason (baseline current : Option FullReferenceStageAggregate)
    (contractsMatch : Bool) : Option String :=
  if !contractsMatch then some "scorer-contract-mismatch"
  else
    match baseline, current with
    | none, _ => some "baseline-stage-missing"
    | some _, none => some "current-stage-missing"
    | some baseline, some current =>
        if baseline.state ≠ .aggregated then some "baseline-not-aggregated"
        else if current.state ≠ .aggregated then some "current-not-aggregated"
        else if baseline.transformations ≠ current.transformations then
          some "transformation-mismatch"
        else if baseline.mean.isNone ∨ current.mean.isNone then some "aggregate-mean-missing"
        else none

/-- The verdict on a difference. -/
def verdict (policy : FullReferenceRegressionPolicy) (delta : PyFloat) :
    FullReferenceRegressionState :=
  let directedDelta := if policy.higherIsBetter then delta else delta.neg
  if directedDelta.exceeds policy.stableTolerance then .improved
  else if directedDelta.below (-policy.stableTolerance) then .regressed
  else .stable

def meanOf (aggregate : Option FullReferenceStageAggregate) : Option PyFloat :=
  aggregate.bind (·.mean)

/-- `_compare_stage`. The means are there where there is no reason against a verdict. -/
def compareStage (rounding : Rounding) (stage : String)
    (baseline current : Option FullReferenceStageAggregate)
    (policy : FullReferenceRegressionPolicy) (contractsMatch : Bool) :
    FullReferenceStageRegression :=
  match indeterminateReason baseline current contractsMatch, meanOf baseline, meanOf current with
  | none, some baselineMean, some currentMean =>
      let delta := difference rounding currentMean baselineMean
      ⟨stage, verdict policy delta, some baselineMean, some currentMean, some delta,
        policy.stableTolerance, none⟩
  | reasonAlias, baselineMean, currentMean =>
      ⟨stage, .indeterminate, baselineMean, currentMean, none, policy.stableTolerance, reasonAlias⟩

/-- The stages of a report by their names; the last one of a name stays. -/
def stagesByName (stages : List FullReferenceStageAggregate) :
    List (String × FullReferenceStageAggregate) :=
  stages.foldl (fun d stage => Dict.set d stage.stage stage) []

/-- The names of the baseline, and then those that only the current report has. -/
def comparedStages (baseline current : FullReferenceTreatmentReport) : List String :=
  let baselineByStage := stagesByName baseline.stages
  Dict.keys baselineByStage ++
    (Dict.keys (stagesByName current.stages)).filter (· ∉ Dict.keys baselineByStage)

def compareFullReferenceTreatments (rounding : Rounding)
    (baseline current : FullReferenceTreatmentReport) (policy : FullReferenceRegressionPolicy) :
    FullReferenceRegressionReport where
  baselineTreatment := baseline.treatment
  currentTreatment := current.treatment
  scorer := current.contract.scorer
  metricName := current.contract.metricName
  policy := policy
  stages := (comparedStages baseline current).map fun stage =>
    compareStage rounding stage (Dict.get? (stagesByName baseline.stages) stage)
      (Dict.get? (stagesByName current.stages) stage) policy (baseline.contract = current.contract)

/-! ## Verdicts -/

section Verdicts

variable {policy : FullReferenceRegressionPolicy} {rounding : Rounding}

@[simp] theorem exchange_exchange (state : FullReferenceRegressionState) :
    state.exchange.exchange = state := by
  cases state <;> rfl

@[simp] theorem exchange_eq_indeterminate_iff {state : FullReferenceRegressionState} :
    state.exchange = .indeterminate ↔ state = .indeterminate := by
  cases state <;> simp [FullReferenceRegressionState.exchange]

theorem verdict_ne_indeterminate (policy : FullReferenceRegressionPolicy) (delta : PyFloat) :
    verdict policy delta ≠ .indeterminate := by
  simp only [verdict]
  split_ifs <;> simp

/-- The opposite difference has the opposite verdict. -/
theorem verdict_neg (policy : FullReferenceRegressionPolicy) (delta : PyFloat) :
    verdict policy delta.neg = (verdict policy delta).exchange := by
  have hone : ∀ x : PyFloat,
      (if x.neg.exceeds policy.stableTolerance then FullReferenceRegressionState.improved
        else if x.neg.neg.exceeds policy.stableTolerance then .regressed else .stable) =
      (if x.exceeds policy.stableTolerance then FullReferenceRegressionState.improved
        else if x.neg.exceeds policy.stableTolerance then .regressed else .stable).exchange := by
    intro x
    rw [PyFloat.neg_neg]
    by_cases hpos : x.exceeds policy.stableTolerance = true
    · have hneg := PyFloat.not_exceeds_neg policy.tolerance_nonneg hpos
      simp [hpos, hneg, FullReferenceRegressionState.exchange]
    · by_cases hneg : x.neg.exceeds policy.stableTolerance = true <;>
        simp [hpos, hneg, FullReferenceRegressionState.exchange]
  simp only [verdict, PyFloat.below_neg]
  by_cases hhigher : policy.higherIsBetter = true
  · simpa [hhigher] using hone delta
  · simpa [hhigher] using hone delta.neg

theorem verdict_flip (policy : FullReferenceRegressionPolicy) (delta : PyFloat) :
    verdict policy.flip delta = (verdict policy delta).exchange := by
  rw [← verdict_neg]
  cases hhigher : policy.higherIsBetter <;>
    simp [verdict, FullReferenceRegressionPolicy.flip, hhigher]

theorem verdict_difference_self (policy : FullReferenceRegressionPolicy) (x : PyFloat) :
    verdict policy (difference rounding x x) = .stable := by
  have hself := exceeds_difference_self rounding x policy.tolerance_nonneg
  have hneg : (difference rounding x x).neg.exceeds policy.stableTolerance = false := by
    rw [← difference_swap]
    exact hself
  cases hhigher : policy.higherIsBetter <;>
    simp [verdict, PyFloat.below_neg, hhigher, hself, hneg]

end Verdicts

/-! ## One stage -/

section Stage

variable {policy : FullReferenceRegressionPolicy} {rounding : Rounding}
  {baseline current : Option FullReferenceStageAggregate} {contractsMatch : Bool}

/-- Two aggregates whose means can be compared. -/
structure Matched (baseline current : FullReferenceStageAggregate) : Prop where
  baseline_aggregated : baseline.state = .aggregated
  current_aggregated : current.state = .aggregated
  transformations : baseline.transformations = current.transformations
  baseline_mean : baseline.mean.isSome
  current_mean : current.mean.isSome

theorem Matched.symm {baseline current : FullReferenceStageAggregate}
    (h : Matched baseline current) : Matched current baseline :=
  ⟨h.current_aggregated, h.baseline_aggregated, h.transformations.symm, h.current_mean,
    h.baseline_mean⟩

/-- There is no reason against a verdict exactly when the aggregates match. -/
theorem indeterminateReason_eq_none_iff :
    indeterminateReason baseline current contractsMatch = none ↔
      contractsMatch = true ∧ ∃ b c, baseline = some b ∧ current = some c ∧ Matched b c := by
  cases contractsMatch with
  | false => simp [indeterminateReason]
  | true =>
      cases baseline with
      | none => simp [indeterminateReason]
      | some b =>
          cases current with
          | none => simp [indeterminateReason]
          | some c =>
              simp only [indeterminateReason]
              constructor
              · intro h
                split_ifs at h with _ hb hc ht hm
                simp only [not_not, not_or, Option.isNone_iff_eq_none] at hb hc ht hm
                exact ⟨trivial, b, c, rfl, rfl, hb, hc, ht, Option.isSome_iff_ne_none.mpr hm.1,
                  Option.isSome_iff_ne_none.mpr hm.2⟩
              · rintro ⟨-, _, _, hb, hc, h⟩
                cases hb
                cases hc
                have hbmean := Option.isSome_iff_ne_none.mp h.baseline_mean
                have hcmean := Option.isSome_iff_ne_none.mp h.current_mean
                simp [h.baseline_aggregated, h.current_aggregated, h.transformations, hbmean, hcmean]

/-- The record of a stage whose aggregates match, or of one whose aggregates do not. -/
theorem compareStage_cases (rounding : Rounding) (stage : String)
    (baseline current : Option FullReferenceStageAggregate)
    (policy : FullReferenceRegressionPolicy) (contractsMatch : Bool) :
    (∃ b c x y, contractsMatch = true ∧ baseline = some b ∧ current = some c ∧ Matched b c ∧
      b.mean = some x ∧ c.mean = some y ∧
      compareStage rounding stage baseline current policy contractsMatch =
        ⟨stage, verdict policy (difference rounding y x), some x, some y,
          some (difference rounding y x), policy.stableTolerance, none⟩) ∨
    (¬ (contractsMatch = true ∧ ∃ b c, baseline = some b ∧ current = some c ∧ Matched b c) ∧
      compareStage rounding stage baseline current policy contractsMatch =
        ⟨stage, .indeterminate, meanOf baseline, meanOf current, none, policy.stableTolerance,
          indeterminateReason baseline current contractsMatch⟩) := by
  cases hreason : indeterminateReason baseline current contractsMatch with
  | none =>
      obtain ⟨hcontracts, b, c, rfl, rfl, hmatched⟩ := indeterminateReason_eq_none_iff.mp hreason
      obtain ⟨x, hx⟩ := Option.isSome_iff_exists.mp hmatched.baseline_mean
      obtain ⟨y, hy⟩ := Option.isSome_iff_exists.mp hmatched.current_mean
      refine .inl ⟨b, c, x, y, hcontracts, rfl, rfl, hmatched, hx, hy, ?_⟩
      have hbmean : meanOf (some b) = some x := hx
      have hcmean : meanOf (some c) = some y := hy
      simp only [compareStage, hreason, hbmean, hcmean]
  | some reason =>
      refine .inr ⟨fun h => ?_, ?_⟩
      · rw [indeterminateReason_eq_none_iff.mpr h] at hreason
        cases hreason
      · simp only [compareStage, hreason]

@[simp] theorem stage_compareStage (stage : String) :
    (compareStage rounding stage baseline current policy contractsMatch).stage = stage := by
  obtain ⟨_, _, _, _, -, -, -, -, -, -, h⟩ | ⟨-, h⟩ :=
    compareStage_cases rounding stage baseline current policy contractsMatch <;> rw [h]

/-- There is a verdict exactly when the aggregates match. -/
theorem compareStage_ne_indeterminate_iff {stage : String} :
    (compareStage rounding stage baseline current policy contractsMatch).state ≠ .indeterminate ↔
      contractsMatch = true ∧ ∃ b c, baseline = some b ∧ current = some c ∧ Matched b c := by
  obtain ⟨b, c, x, y, hcontracts, hb, hc, hmatched, -, -, h⟩ | ⟨hnot, h⟩ :=
    compareStage_cases rounding stage baseline current policy contractsMatch
  · rw [h]
    exact iff_of_true (verdict_ne_indeterminate _ _) ⟨hcontracts, b, c, hb, hc, hmatched⟩
  · rw [h]
    simpa using hnot

/-- With the sides swapped, the verdict is exchanged and the difference is the opposite one. -/
theorem compareStage_swap (stage : String) :
    (compareStage rounding stage current baseline policy contractsMatch).state =
        (compareStage rounding stage baseline current policy contractsMatch).state.exchange ∧
      (compareStage rounding stage current baseline policy contractsMatch).delta =
        (compareStage rounding stage baseline current policy contractsMatch).delta.map
          PyFloat.neg := by
  obtain ⟨b, c, x, y, hcontracts, rfl, rfl, hmatched, hx, hy, h⟩ | ⟨hnot, h⟩ :=
    compareStage_cases rounding stage baseline current policy contractsMatch
  · obtain ⟨_, _, x', y', -, hc', hb', -, hy', hx', h'⟩ | ⟨hnot', -⟩ :=
      compareStage_cases rounding stage (some c) (some b) policy contractsMatch
    · cases hb'
      cases hc'
      cases hx.symm.trans hx'
      cases hy.symm.trans hy'
      rw [h, h', difference_swap rounding y x]
      exact ⟨verdict_neg policy _, rfl⟩
    · exact absurd ⟨hcontracts, c, b, rfl, rfl, hmatched.symm⟩ hnot'
  · obtain ⟨c, b, _, _, hcontracts, hc, hb, hmatched, -, -, -⟩ | ⟨-, h'⟩ :=
      compareStage_cases rounding stage current baseline policy contractsMatch
    · exact absurd ⟨hcontracts, b, c, hb, hc, hmatched.symm⟩ hnot
    · rw [h, h']
      exact ⟨rfl, rfl⟩

/-- A stage compared with itself has no difference to report. -/
theorem compareStage_self (rounding : Rounding) (stage : String)
    (baseline : Option FullReferenceStageAggregate) (policy : FullReferenceRegressionPolicy)
    (contractsMatch : Bool) :
    (compareStage rounding stage baseline baseline policy contractsMatch).state = .stable ∨
      (compareStage rounding stage baseline baseline policy contractsMatch).state =
        .indeterminate := by
  obtain ⟨b, c, x, y, -, hb, hc, -, hx, hy, h⟩ | ⟨-, h⟩ :=
    compareStage_cases rounding stage baseline baseline policy contractsMatch
  · cases hb.symm.trans hc
    cases hx.symm.trans hy
    rw [h]
    exact .inl (verdict_difference_self policy x)
  · rw [h]
    exact .inr rfl

/-- The other direction of the policy exchanges the verdict and changes nothing else. -/
theorem compareStage_flip (stage : String) :
    compareStage rounding stage baseline current policy.flip contractsMatch =
      { compareStage rounding stage baseline current policy contractsMatch with
        state :=
          (compareStage rounding stage baseline current policy contractsMatch).state.exchange } := by
  obtain ⟨b, c, x, y, hcontracts, rfl, rfl, hmatched, hx, hy, h⟩ | ⟨hnot, h⟩ :=
    compareStage_cases rounding stage baseline current policy contractsMatch
  · obtain ⟨_, _, x', y', -, hb', hc', -, hx', hy', h'⟩ | ⟨hnot', -⟩ :=
      compareStage_cases rounding stage (some b) (some c) policy.flip contractsMatch
    · cases hb'
      cases hc'
      cases hx.symm.trans hx'
      cases hy.symm.trans hy'
      rw [h, h', verdict_flip]
      rfl
    · exact absurd ⟨hcontracts, b, c, rfl, rfl, hmatched⟩ hnot'
  · obtain ⟨b, c, _, _, hcontracts, hb, hc, hmatched, -, -, -⟩ | ⟨-, h'⟩ :=
      compareStage_cases rounding stage baseline current policy.flip contractsMatch
    · exact absurd ⟨hcontracts, b, c, hb, hc, hmatched⟩ hnot
    · rw [h, h']
      rfl

end Stage

/-! ## Reports -/

section Reports

variable {stages : List FullReferenceStageAggregate} {name : String}
  {baseline current : FullReferenceTreatmentReport} {policy : FullReferenceRegressionPolicy}
  {rounding : Rounding}

theorem stagesByName_of_nodup (h : (stages.map (·.stage)).Nodup) :
    stagesByName stages = stages.map fun stage => (stage.stage, stage) :=
  @Dict.foldl_set_of_nodup _ _ _ FullReferenceStageAggregate.stage [] stages h

theorem keys_stagesByName (h : (stages.map (·.stage)).Nodup) :
    Dict.keys (stagesByName stages) = stages.map (·.stage) := by
  rw [stagesByName_of_nodup h, Dict.keys, List.map_map]
  rfl

/-- The aggregate under a name is the one that has the name. -/
theorem get?_stagesByName_iff (h : (stages.map (·.stage)).Nodup)
    {aggregate : FullReferenceStageAggregate} :
    Dict.get? (stagesByName stages) name = some aggregate ↔
      aggregate ∈ stages ∧ aggregate.stage = name := by
  have hkeys : (Dict.keys (stagesByName stages)).Nodup := by rwa [keys_stagesByName h]
  have hmem : ∀ a, (name, a) ∈ stagesByName stages ↔ a ∈ stages ∧ a.stage = name := by
    intro a
    simp only [stagesByName_of_nodup h, List.mem_map, Prod.mk.injEq]
    constructor
    · rintro ⟨a', ha', rfl, rfl⟩
      exact ⟨ha', rfl⟩
    · rintro ⟨ha, hname⟩
      exact ⟨a, ha, hname, rfl⟩
  rw [← hmem]
  exact ⟨Dict.mem_of_get?_eq_some, Dict.get?_eq_some_of_mem hkeys⟩

theorem map_stage_compare (rounding : Rounding) (baseline current : FullReferenceTreatmentReport)
    (policy : FullReferenceRegressionPolicy) :
    (compareFullReferenceTreatments rounding baseline current policy).stages.map (·.stage) =
      comparedStages baseline current := by
  simp [compareFullReferenceTreatments, Function.comp_def]

theorem mem_comparedStages :
    name ∈ comparedStages baseline current ↔
      name ∈ Dict.keys (stagesByName baseline.stages) ∨
        name ∈ Dict.keys (stagesByName current.stages) := by
  by_cases hname : name ∈ Dict.keys (stagesByName baseline.stages) <;>
    simp [comparedStages, hname]

theorem nodup_comparedStages (hbaseline : (baseline.stages.map (·.stage)).Nodup)
    (hcurrent : (current.stages.map (·.stage)).Nodup) :
    (comparedStages baseline current).Nodup := by
  rw [← keys_stagesByName hbaseline] at hbaseline
  rw [← keys_stagesByName hcurrent] at hcurrent
  refine List.nodup_append.mpr ⟨hbaseline, hcurrent.filter _, ?_⟩
  rintro a ha b hb rfl
  simp [ha] at hb

/-- Swapping the reports keeps the stages. -/
theorem perm_comparedStages (hbaseline : (baseline.stages.map (·.stage)).Nodup)
    (hcurrent : (current.stages.map (·.stage)).Nodup) :
    (comparedStages current baseline).Perm (comparedStages baseline current) := by
  apply (List.perm_ext_iff_of_nodup (nodup_comparedStages hcurrent hbaseline)
    (nodup_comparedStages hbaseline hcurrent)).mpr
  intro name
  rw [mem_comparedStages, mem_comparedStages, or_comm]

/-- The record of a stage compares what the two reports have under its name. -/
theorem eq_compareStage_of_mem {record : FullReferenceStageRegression}
    (h : record ∈ (compareFullReferenceTreatments rounding baseline current policy).stages) :
    record = compareStage rounding record.stage
      (Dict.get? (stagesByName baseline.stages) record.stage)
      (Dict.get? (stagesByName current.stages) record.stage) policy
      (baseline.contract = current.contract) := by
  obtain ⟨stage, -, rfl⟩ := List.mem_map.mp h
  rw [stage_compareStage]

end Reports

/-- **Antisymmetry of the verdicts.** Swapping the reports keeps the stages, exchanges
improvements and regressions, keeps the other verdicts and negates each difference. A report
compared with itself neither improves nor regresses. The other direction of the policy
exchanges improvements and regressions. There is a verdict on a stage exactly when the
contracts are equal and both reports have the stage aggregated, with a mean and with the same
transformations. -/
theorem regression_antisymmetric (rounding : Rounding)
    (baseline current : FullReferenceTreatmentReport) (policy : FullReferenceRegressionPolicy)
    (hbaseline : (baseline.stages.map (·.stage)).Nodup)
    (hcurrent : (current.stages.map (·.stage)).Nodup) :
    ((compareFullReferenceTreatments rounding current baseline policy).stages.map (·.stage)).Perm
        ((compareFullReferenceTreatments rounding baseline current policy).stages.map (·.stage)) ∧
      (∀ record ∈ (compareFullReferenceTreatments rounding baseline current policy).stages,
        ∀ swapped ∈ (compareFullReferenceTreatments rounding current baseline policy).stages,
          swapped.stage = record.stage →
            swapped.state = record.state.exchange ∧
              swapped.delta = record.delta.map PyFloat.neg) ∧
      (∀ record ∈ (compareFullReferenceTreatments rounding baseline baseline policy).stages,
        record.state ≠ .improved ∧ record.state ≠ .regressed) ∧
      (compareFullReferenceTreatments rounding baseline current policy.flip).stages =
        (compareFullReferenceTreatments rounding baseline current policy).stages.map
          (fun record => { record with state := record.state.exchange }) ∧
      ∀ record ∈ (compareFullReferenceTreatments rounding baseline current policy).stages,
        record.state ≠ .indeterminate ↔
          baseline.contract = current.contract ∧ ∃ b ∈ baseline.stages, ∃ c ∈ current.stages,
            b.stage = record.stage ∧ c.stage = record.stage ∧
              b.state = .aggregated ∧ c.state = .aggregated ∧ b.mean.isSome ∧ c.mean.isSome ∧
                b.transformations = c.transformations := by
  refine ⟨?_, ?_, ?_, ?_, ?_⟩
  · rw [map_stage_compare, map_stage_compare]
    exact perm_comparedStages hbaseline hcurrent
  · intro record hrecord swapped hswapped hstage
    rw [eq_compareStage_of_mem hrecord, eq_compareStage_of_mem hswapped, hstage,
      decide_eq_decide.mpr (@eq_comm _ current.contract baseline.contract)]
    exact compareStage_swap record.stage
  · intro record hrecord
    rw [eq_compareStage_of_mem hrecord]
    obtain h | h := compareStage_self rounding record.stage
      (Dict.get? (stagesByName baseline.stages) record.stage) policy
      (decide (baseline.contract = baseline.contract)) <;>
      rw [h] <;> decide
  · simp only [compareFullReferenceTreatments, List.map_map]
    apply List.map_congr_left
    intro stage _
    exact compareStage_flip stage
  · intro record hrecord
    rw [eq_compareStage_of_mem hrecord, compareStage_ne_indeterminate_iff, stage_compareStage,
      decide_eq_true_eq]
    apply and_congr_right
    intro _
    constructor
    · rintro ⟨b, c, hb, hc, h⟩
      obtain ⟨hbmem, hbstage⟩ := (get?_stagesByName_iff hbaseline).mp hb
      obtain ⟨hcmem, hcstage⟩ := (get?_stagesByName_iff hcurrent).mp hc
      exact ⟨b, hbmem, c, hcmem, hbstage, hcstage, h.baseline_aggregated, h.current_aggregated,
        h.baseline_mean, h.current_mean, h.transformations⟩
    · rintro ⟨b, hbmem, c, hcmem, hbstage, hcstage, hbstate, hcstate, hbmean, hcmean, htrans⟩
      exact ⟨b, c, (get?_stagesByName_iff hbaseline).mpr ⟨hbmem, hbstage⟩,
        (get?_stagesByName_iff hcurrent).mpr ⟨hcmem, hcstage⟩,
        hbstate, hcstate, htrans, hbmean, hcmean⟩

/-- A report on one stage: three samples, all with this score. -/
def uniformReport (treatment stage : String) (score : ℚ) : FullReferenceTreatmentReport where
  treatment := treatment
  minimumSamples := 3
  contract := visqolContract
  stages := [{
    treatment := treatment
    stage := stage
    scorer := "visqol"
    metricName := "visqol_moslqo"
    state := .aggregated
    samplesTotal := 3
    scoredCount := 3
    unavailableCount := 0
    blockedCount := 0
    failedCount := 0
    missingCount := 0
    mean := some (.finite score)
    median := some (.finite score)
    minimum := some (.finite score)
    maximum := some (.finite score)
    populationStddev := some (.finite 0)
    transformations := [] }]

def tenthPolicy : FullReferenceRegressionPolicy := ⟨1 / 10, true, by norm_num⟩

/-- A difference of exactly the tolerance is stable in both directions. -/
example : ((compareFullReferenceTreatments .exact (uniformReport "before" "stt" 4)
    (uniformReport "after" "stt" (41 / 10)) tenthPolicy).stages.map (·.state)) = [.stable] := by
  decide +kernel

theorem regression_antisymmetric_stt :
    (compareFullReferenceTreatments .exact (uniformReport "before" "stt" 4)
        (uniformReport "after" "stt" 3) tenthPolicy.flip).stages =
      (compareFullReferenceTreatments .exact (uniformReport "before" "stt" 4)
        (uniformReport "after" "stt" 3) tenthPolicy).stages.map
          (fun record => { record with state := record.state.exchange }) :=
  (regression_antisymmetric .exact (uniformReport "before" "stt" 4) (uniformReport "after" "stt" 3)
    tenthPolicy (by decide) (by decide)).2.2.2.1

end VoxBench.Verification
