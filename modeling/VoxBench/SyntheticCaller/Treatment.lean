import VoxBench.SyntheticCaller.Verification
import VoxBench.Verification.TreatmentReport

/-!
# Synthetic treatments

`run_synthetic_treatment` takes several samples of one config, each with a tone of its own and in a
directory of its own, and aggregates their scores. No sample writes where another has written, so
that all files can be read in the end.

## Main definitions

* `runSamples` — the loop over the samples.
* `runSyntheticTreatment` — the treatment.

## Main results

* `treatment_files` — the files of all samples, at the end.
* `treatment_accounts` — what the aggregate says of each stage, and the state of the treatment.
-/

namespace VoxBench.SyntheticCaller

open VoxBench.Lib VoxBench.ControlPlane VoxBench.EngineHarness VoxBench.Media VoxBench.Observability
open VoxBench.Verification PosixPath

/-! ## The treatment -/

inductive SyntheticTreatmentState where
  | complete
  /-- The state `"partial"`. -/
  | partialScores
  | failed
  deriving DecidableEq, Repr

structure SyntheticTreatmentRun where
  treatment : String
  state : SyntheticTreatmentState
  samples : List SyntheticVerificationRun
  aggregate : FullReferenceTreatmentReport

inductive SyntheticTreatmentError where
  | valueError (reason : String)
  | sample (error : SyntheticRunError)
  | report (error : SyntheticError)
  | aggregate (error : AggregateError)
  deriving DecidableEq

/-- `f"{n:03d}"`. -/
def threeDigits (n : ℕ) : Name := List.leftpad 3 '0' (Nat.toDigits 10 n)

def samplePrefix : Name := "sample-".toList

/-- `f"sample-{index + 1:03d}"`. -/
def sampleName (index : ℕ) : Name := samplePrefix ++ threeDigits (index + 1)

/-- `write_synthetic_verification_report`, below the directory of the sample. What is written is
no file of a tone. -/
def writeSyntheticVerificationReport (world : Surroundings) (sampleRoot : PurePath) (disk : WavDisk) :
    Except SyntheticError WavDisk := do
  let path := sampleRoot.join reportName
  makeDirectory world sampleRoot
  if ∃ part ∈ path.parts, nul ∈ part then .error (.valueError "embedded null byte")
  else if world.opens path then return Function.update disk (walk [] path.parts) none
  else .error .os

/-- The arguments of `run_synthetic_treatment`, and what each sample meets. -/
structure TreatmentRequest where
  treatment : String
  sampleCount : ℤ
  minimumSamples : ℤ
  resolvedConfig : Json
  outputRoot : PurePath
  audioSpec : SyntheticAudioSpec
  scorer : DiskScorer
  frequencyStepHz : ℚ
  world : ℕ → Surroundings
  observedAt : ℕ → Datetime
  reading : Reading

namespace TreatmentRequest

variable (request : TreatmentRequest)

def sampleRoot (index : ℕ) : PurePath := request.outputRoot.join (sampleName index)

/-- `replace(audio_spec, frequency_hz=...)`. -/
def sampleSpec (index : ℕ) : SyntheticAudioSpec :=
  { request.audioSpec with
    frequencyHz := request.audioSpec.frequencyHz + index * request.frequencyStepHz }

/-- One sample, and its report. -/
def runSample (index : ℕ) (disk : WavDisk) :
    Except SyntheticTreatmentError (SyntheticVerificationRun × WavDisk) :=
  match runSyntheticVerification (request.world index) request.reading (request.observedAt index)
      request.resolvedConfig (request.sampleRoot index) (request.sampleSpec index) request.scorer []
      disk with
  | .error error => .error (.sample error)
  | .ok (sample, disk) =>
      match writeSyntheticVerificationReport (request.world index) (request.sampleRoot index) disk with
      | .error error => .error (.report error)
      | .ok disk => .ok (sample, disk)

/-- The loop over the samples. -/
def runSamples : List ℕ → WavDisk →
    Except SyntheticTreatmentError (List SyntheticVerificationRun × WavDisk)
  | [], disk => .ok ([], disk)
  | index :: indices, disk => do
      let (sample, disk) ← request.runSample index disk
      let (samples, disk) ← runSamples indices disk
      return (sample :: samples, disk)

end TreatmentRequest

/-- The state of a treatment. -/
def treatmentState (samples : List SyntheticVerificationRun)
    (aggregate : FullReferenceTreatmentReport) : SyntheticTreatmentState :=
  if samples.any (fun sample => sample.state = .failed) then .failed
  else if samples.any (fun sample => sample.state = .partialScores) ∨
      aggregate.stages.any (fun stage => stage.state ≠ .aggregated) then .partialScores
  else .complete

/-- `run_synthetic_treatment`. -/
def runSyntheticTreatment (request : TreatmentRequest) (disk : WavDisk) :
    Except SyntheticTreatmentError (SyntheticTreatmentRun × WavDisk) :=
  if request.sampleCount < 2 then .error (.valueError "sample_count must be at least 2")
  else if request.frequencyStepHz < 0 then
    .error (.valueError "frequency_step_hz must be non-negative")
  else do
    let (samples, disk) ← request.runSamples (List.range request.sampleCount.toNat) disk
    match aggregateFullReferenceReports request.treatment
        (samples.map SyntheticVerificationRun.fullReference) request.minimumSamples with
    | .error error => .error (.aggregate error)
    | .ok aggregate => return ({
        treatment := request.treatment
        state := treatmentState samples aggregate
        samples
        aggregate }, disk)

/-! ## Directories of the samples -/

theorem threeDigits_injective : Function.Injective threeDigits := by
  intro m n h
  have hread := congrArg (fun digits => Nat.ofDigitChars 10 digits 0) h
  simp only [threeDigits, List.leftpad, Nat.ofDigitChars_append, Nat.ofDigitChars_replicate_zero,
    mul_zero, Nat.ofDigitChars_ten_toDigits] at hread
  exact hread

theorem sampleName_injective : Function.Injective sampleName := by
  intro m n h
  rw [sampleName, sampleName, List.append_cancel_left_eq] at h
  have hnext := threeDigits_injective h
  omega

theorem slash_notMem_sampleName (index : ℕ) : '/' ∉ sampleName index := by
  intro h
  have hprefix : '/' ∉ samplePrefix := by decide
  simp only [sampleName, threeDigits, List.leftpad, List.mem_append, hprefix, List.mem_replicate,
    false_or] at h
  rcases h with ⟨-, h⟩ | h
  · exact absurd h (by decide)
  · exact absurd (Text.isDigit_of_mem_toDigits h) (by decide)

/-- Where the files of a sample are. -/
def samplePlace (request : TreatmentRequest) (index : ℕ) : List Name :=
  walk [] request.outputRoot.parts ++ [sampleName index]

theorem walk_sampleRoot (request : TreatmentRequest) (index : ℕ) :
    walk [] (request.sampleRoot index).parts = samplePlace request index := by
  have hlong : 3 ≤ (sampleName index).length := by
    have hprefix : samplePrefix.length = 7 := rfl
    rw [sampleName, List.length_append]
    omega
  rw [TreatmentRequest.sampleRoot, samplePlace,
    walk_join_name _ (slash_notMem_sampleName index) hlong]

/-- The directories of two samples have no place in common. -/
theorem samplePlace_disjoint {request : TreatmentRequest} {index other : ℕ} {rest rest' : List Name}
    (h : samplePlace request index ++ rest = samplePlace request other ++ rest') : index = other := by
  rw [samplePlace, samplePlace, List.append_assoc, List.append_assoc, List.append_cancel_left_eq,
    List.singleton_append, List.singleton_append, List.cons.injEq] at h
  exact sampleName_injective h.1

/-! ## Samples -/

section Samples

variable {request : TreatmentRequest} {plans : List StagePlan} {disk disk' : WavDisk}

/-- A sample whose files are on a disk. -/
structure SampleOn (request : TreatmentRequest) (disk : WavDisk) (index : ℕ)
    (sample : SyntheticVerificationRun) : Prop where
  state : sample.state = verificationState sample.invariantResults sample.fullReference
  generated : ∃ before writes, generateSyntheticArtifacts (request.world index) request.resolvedConfig
      (request.sampleRoot index) (request.sampleSpec index) [] = .ok (sample.artifacts, writes) ∧
    sample.fullReference = ScoringRun.report ⟨sample.artifacts.stageReferences.map
      StageReferenceArtifact.toReference, sample.artifacts.recordings,
        request.scorer.on (leftOnDisk before writes)⟩ ∧
    ∀ names, names ≠ [reportName] → disk (samplePlace request index ++ names) =
      leftOnDisk before writes (samplePlace request index ++ names)

theorem walk_report (index : ℕ) :
    walk [] ((request.sampleRoot index).join reportName).parts =
      samplePlace request index ++ [reportName] := by
  have hslash : '/' ∉ reportName := by decide
  have hlong : 3 ≤ reportName.length := by decide
  rw [walk_join_name _ hslash hlong, walk_sampleRoot]

theorem writeSyntheticVerificationReport_eq_ok {world : Surroundings} {index : ℕ}
    (h : writeSyntheticVerificationReport world (request.sampleRoot index) disk = .ok disk') :
    disk' = Function.update disk (samplePlace request index ++ [reportName]) none := by
  unfold writeSyntheticVerificationReport at h
  obtain ⟨_, -, h⟩ := bind_eq_ok.mp h
  split_ifs at h
  cases h
  rw [walk_report]

/-- A sample writes below its own directory, the report last. -/
theorem runSample_eq_ok (hplans : buildStagePlan request.resolvedConfig = .ok plans)
    (hplain : PlainStages plans) {index : ℕ} {sample : SyntheticVerificationRun}
    (h : request.runSample index disk = .ok (sample, disk')) :
    SampleOn request disk' index sample ∧
      ∀ place, ¬ samplePlace request index <+: place → disk' place = disk place := by
  unfold TreatmentRequest.runSample at h
  split at h
  · cases h
  rename_i sample' left hrun
  split at h
  · cases h
  rename_i after hreport
  cases h
  obtain ⟨writes, hgenerate, rfl, hscores, hstate⟩ := runSyntheticVerification_eq_ok hrun
  obtain rfl := writeSyntheticVerificationReport_eq_ok hreport
  refine ⟨⟨hstate, disk, writes, hgenerate, hscores, fun names hnames => ?_⟩, fun place hplace => ?_⟩
  · exact Function.update_of_ne (fun h => hnames (List.append_cancel_left h)) _ _
  · rw [Function.update_of_ne]
    · apply Writes.apply_of_notMem
      rw [List.map_map]
      intro hmem
      obtain ⟨write, hwrite, rfl⟩ := List.mem_map.mp hmem
      have hbelow := places_below hplans hplain hgenerate hwrite
      rw [walk_sampleRoot] at hbelow
      exact hplace hbelow
    · rintro rfl
      exact hplace (List.prefix_append _ _)

/-- The files of each sample stay: the samples after it write elsewhere. -/
theorem runSamples_eq_ok (hplans : buildStagePlan request.resolvedConfig = .ok plans)
    (hplain : PlainStages plans) {indices : List ℕ} {samples : List SyntheticVerificationRun}
    (hnodup : indices.Nodup) (h : request.runSamples indices disk = .ok (samples, disk')) :
    List.Forall₂ (SampleOn request disk') indices samples ∧
      ∀ place, (∀ index ∈ indices, ¬ samplePlace request index <+: place) →
        disk' place = disk place := by
  induction indices generalizing disk samples with
  | nil =>
      cases h
      exact ⟨.nil, fun _ _ => rfl⟩
  | cons index indices ih =>
      obtain ⟨⟨sample, between⟩, hsample, h⟩ := bind_eq_ok.mp h
      obtain ⟨⟨rest, after⟩, hrest, h⟩ := bind_eq_ok.mp h
      cases h
      obtain ⟨hnotMem, hnodup⟩ := List.nodup_cons.mp hnodup
      obtain ⟨hon, hframe⟩ := runSample_eq_ok hplans hplain hsample
      obtain ⟨hothers, hframe'⟩ := ih hnodup hrest
      refine ⟨.cons ⟨hon.state, ?_⟩ hothers, fun place hplace => ?_⟩
      · obtain ⟨before, writes, hgenerate, hscores, hkept⟩ := hon.generated
        refine ⟨before, writes, hgenerate, hscores, fun names hnames => ?_⟩
        rw [hframe' _ ?_, hkept names hnames]
        rintro other hother ⟨rest', heq⟩
        rw [samplePlace_disjoint heq] at hother
        exact hnotMem hother
      · rw [List.forall_mem_cons] at hplace
        rw [hframe' place hplace.2, hframe place hplace.1]

theorem runSyntheticTreatment_eq_ok {run : SyntheticTreatmentRun}
    (h : runSyntheticTreatment request disk = .ok (run, disk')) :
    2 ≤ request.sampleCount ∧
      request.runSamples (List.range request.sampleCount.toNat) disk = .ok (run.samples, disk') ∧
      aggregateFullReferenceReports request.treatment
        (run.samples.map SyntheticVerificationRun.fullReference) request.minimumSamples =
          .ok run.aggregate ∧
      run.state = treatmentState run.samples run.aggregate := by
  unfold runSyntheticTreatment at h
  split_ifs at h with hcount hstep
  obtain ⟨⟨samples, left⟩, hsamples, h⟩ := bind_eq_ok.mp h
  dsimp only at h
  split at h
  · cases h
  · rename_i aggregate haggregate
    cases h
    exact ⟨not_lt.mp hcount, hsamples, haggregate, rfl⟩

end Samples

/-- **Files of a treatment.** For stage types that differ and are plain names: after the last sample
the reference and the recording of every stage of every sample are still read from their URIs, and
are the same file. Nothing outside the directories of the samples has been written. -/
theorem treatment_files {request : TreatmentRequest} {plans : List StagePlan} {disk disk' : WavDisk}
    {run : SyntheticTreatmentRun} (hroot : request.outputRoot.WellFormed)
    (hplans : buildStagePlan request.resolvedConfig = .ok plans) (hplain : PlainStages plans)
    (h : runSyntheticTreatment request disk = .ok (run, disk')) :
    List.Forall₂ (fun index sample => ∀ plan ∈ plans,
        ∃ reference ∈ sample.artifacts.stageReferences, ∃ recording ∈ sample.artifacts.recordings,
          StageFiles (request.world index) (request.sampleSpec index) {}
            (request.reading.files disk') plan reference recording)
      (List.range request.sampleCount.toNat) run.samples ∧
    ∀ place, (∀ index < request.sampleCount.toNat, ¬ samplePlace request index <+: place) →
      disk' place = disk place := by
  obtain ⟨-, hsamples, -⟩ := runSyntheticTreatment_eq_ok h
  obtain ⟨hon, hframe⟩ := runSamples_eq_ok hplans hplain List.nodup_range hsamples
  constructor
  · refine hon.imp fun index sample hsample plan hplan => ?_
    obtain ⟨before, writes, hgenerate, -, hkept⟩ := hsample.generated
    rw [← walk_sampleRoot] at hkept
    exact exists_stageFiles_of_kept request.reading (hroot.join _) hplans hplain hgenerate hkept hplan
  · exact fun place hplace => hframe place fun index hindex => hplace index (List.mem_range.mp hindex)

/-- Two samples of the config with a μ-law stage. -/
def codedTreatment : TreatmentRequest where
  treatment := "tone"
  sampleCount := 2
  minimumSamples := 2
  resolvedConfig := codedConfig
  outputRoot := rootPath
  audioSpec := silentSpec
  scorer := fixedScorer
  frequencyStepHz := 100
  world := fun _ => silentWorld
  observedAt := fun _ => .utc 0
  reading := plainReading

theorem run_codedTreatment : ∃ run disk,
    runSyntheticTreatment codedTreatment (fun _ => none) = .ok (run, disk) := by
  have hsome : (runSyntheticTreatment codedTreatment fun _ => none).toOption.isSome = true := by
    decide +kernel
  cases hrun : runSyntheticTreatment codedTreatment fun _ => none with
  | error e => simp [hrun, Except.toOption] at hsome
  | ok result => exact ⟨result.1, result.2, rfl⟩

theorem treatment_files_coded : ∃ run disk, ∃ plans : List StagePlan,
    runSyntheticTreatment codedTreatment (fun _ => none) = .ok (run, disk) ∧
      plans.map StagePlan.stage = ["agc", "serializer"] ∧
      List.Forall₂ (fun index sample => ∀ plan ∈ plans,
        ∃ reference ∈ sample.artifacts.stageReferences, ∃ recording ∈ sample.artifacts.recordings,
          StageFiles silentWorld (codedTreatment.sampleSpec index) {} (plainReading.files disk) plan
            reference recording) [0, 1] run.samples := by
  obtain ⟨run, disk, h⟩ := run_codedTreatment
  obtain ⟨plans, hplans, hplain, hnames, -⟩ := plans_coded
  exact ⟨run, disk, plans, h, hnames, (treatment_files wellFormed_rootPath hplans hplain h).1⟩

/-! ## The aggregate -/

section Aggregate

variable {request : TreatmentRequest} {plans : List StagePlan} {disk : WavDisk}

/-- The results of one sample. -/
structure SampleResults (plans : List StagePlan) (contract : FullReferenceScorerContract)
    (report : FullReferenceScoringReport) : Prop where
  stages : (report.results.map (·.stage)).Perm (plans.map StagePlan.stage)
  ok : ∀ result ∈ report.results, ScoreResultOk contract result
  blocked : ∀ result ∈ report.results, ∀ plan ∈ plans, plan.stage = result.stage →
    (result.state = .blocked ↔ Comparable plan.format = false)

theorem sampleResults_of_on (hroot : request.outputRoot.WellFormed)
    (hplans : buildStagePlan request.resolvedConfig = .ok plans) (hplain : PlainStages plans)
    {index : ℕ} {sample : SyntheticVerificationRun} (h : SampleOn request disk index sample) :
    SampleResults plans request.scorer.contract sample.fullReference := by
  obtain ⟨before, writes, hgenerate, hscores, -⟩ := h.generated
  refine ⟨?_, fun result hresult => ?_, fun result hresult plan hplan hname => ?_⟩
  · rw [hscores, ← (stages_of_artifacts hplans hplain.nodup hgenerate).1]
    refine (ScoringRun.perm_stages _).trans (List.Perm.of_eq ?_)
    rw [List.map_map]
    rfl
  · rw [hscores] at hresult
    exact ScoringRun.scoreResultOk_report hresult
  · rw [hscores] at hresult
    obtain ⟨plan', hplan', _, -, _, -, -, hname', hscore⟩ := scoreOf_result request.reading
      (hroot.join _) hplans hplain hgenerate before _ hresult
    obtain rfl : plan' = plan :=
      List.inj_on_of_nodup_map hplain.nodup hplan' hplan (hname'.symm.trans hname.symm)
    rcases hscore with ⟨hcomparable, hblocked, -⟩ | ⟨hcomparable, -, hstate⟩ |
      ⟨hcomparable, -, candidate, -, -, -, rfl⟩
    · exact iff_of_true hblocked hcomparable
    · rw [hstate, hcomparable]
      exact iff_of_false (by decide) (by decide)
    · rw [hcomparable]
      refine iff_of_false (fun hstate => ?_) (by decide)
      have hmem := state_scoreCandidate candidate (request.scorer.on (leftOnDisk before writes))
      rw [hstate] at hmem
      exact absurd hmem (by decide)

/-- A stage has one result in each sample. -/
theorem length_resultsOf {reports : List FullReferenceScoringReport} {stage : String}
    (h : ∀ report ∈ reports, stage ∈ report.results.map (·.stage)) :
    (resultsOf reports stage).length = reports.length := by
  unfold resultsOf
  rw [List.length_filterMap_eq_countP, List.countP_eq_length]
  intro report hreport
  obtain ⟨result, hresult, hname⟩ := List.mem_map.mp (h report hreport)
  rw [List.find?_isSome]
  exact ⟨result, hresult, by simpa using hname⟩

theorem mem_resultsOf {reports : List FullReferenceScoringReport} {report : FullReferenceScoringReport}
    {result : FullReferenceScoreResult} (hnodup : (report.results.map (·.stage)).Nodup)
    (hreport : report ∈ reports) (hresult : result ∈ report.results) :
    result ∈ resultsOf reports result.stage := by
  refine List.mem_filterMap.mpr ⟨report, hreport, ?_⟩
  have hsome : (report.results.find? fun other => other.stage = result.stage).isSome := by
    rw [List.find?_isSome]
    exact ⟨result, hresult, by simp⟩
  obtain ⟨found, hfound⟩ := Option.isSome_iff_exists.mp hsome
  have hname := List.find?_some hfound
  rw [decide_eq_true_eq] at hname
  rw [hfound, List.inj_on_of_nodup_map hnodup (List.mem_of_find?_eq_some hfound) hresult hname]

/-- What the aggregate says of a stage. -/
structure StageAccount (plans : List StagePlan) (samples : ℕ) (minimumSamples : ℤ)
    (stage : FullReferenceStageAggregate) : Prop where
  planned : stage.stage ∈ plans.map StagePlan.stage
  total : stage.samplesTotal = samples
  missing : stage.missingCount = 0
  counts : stage.scoredCount + stage.unavailableCount + stage.blockedCount + stage.failedCount = samples
  blocked : ∀ plan ∈ plans, plan.stage = stage.stage →
    stage.blockedCount = if Comparable plan.format then 0 else samples
  aggregated : stage.state = .aggregated ↔
    stage.scoredCount = samples ∧ minimumSamples ≤ samples ∧ stage.state ≠ .incomparable

variable {contract contract' : FullReferenceScorerContract} {reports : List FullReferenceScoringReport}
  {treatment stage : String} {minimumSamples : ℤ} {a : FullReferenceStageAggregate}

/-- The results of a stage and what the aggregate counts. -/
structure StageCounted (reports : List FullReferenceScoringReport)
    (a : FullReferenceStageAggregate) : Prop where
  scored : a.scoredCount = countState (resultsOf reports a.stage) .scored
  failed : a.failedCount = countState (resultsOf reports a.stage) .failed
  length : (resultsOf reports a.stage).length = reports.length

theorem stageAccount_of_results (hresults : ∀ report ∈ reports, SampleResults plans contract report)
    (hplanned : stage ∈ plans.map StagePlan.stage)
    (h : aggregateResults treatment stage contract' reports.length (resultsOf reports stage)
      minimumSamples = .ok a) :
    StageCounted reports a ∧ StageAccount plans reports.length minimumSamples a := by
  obtain ⟨statistics, -, rfl⟩ := exists_of_aggregateResults h
  have hlength : (resultsOf reports stage).length = reports.length :=
    length_resultsOf fun report hreport => (hresults report hreport).stages.mem_iff.mpr hplanned
  have hok : ∀ result ∈ resultsOf reports stage, ScoreResultOk contract result := by
    intro result hresult
    obtain ⟨report, hreport, hmem⟩ := List.mem_filterMap.mp hresult
    exact (hresults report hreport).ok result (List.mem_of_find?_eq_some hmem)
  have hscored := length_numericScores hok
  have hcounts := countState_add (resultsOf reports stage)
  refine ⟨⟨hscored, rfl, hlength⟩, hplanned, rfl, ?_, ?_, ?_, ?_⟩
  · simp only [stageRecord]
    omega
  · simp only [stageRecord]
    omega
  · intro plan hplan hname
    have hblocked : ∀ result ∈ resultsOf reports stage,
        (result.state = .blocked ↔ Comparable plan.format = false) := by
      intro result hresult
      obtain ⟨report, hreport, hmem⟩ := List.mem_filterMap.mp hresult
      have hstage := List.find?_some hmem
      rw [decide_eq_true_eq] at hstage
      exact (hresults report hreport).blocked result (List.mem_of_find?_eq_some hmem) plan hplan
        (hname.trans hstage.symm)
    simp only [stageRecord, countState]
    cases hcomparable : Comparable plan.format with
    | true =>
        rw [if_pos rfl, List.countP_eq_zero]
        intro result hresult
        rw [decide_eq_true_eq, hblocked result hresult, hcomparable]
        decide
    | false =>
        rw [if_neg (by decide), ← hlength, List.countP_eq_length]
        intro result hresult
        rw [decide_eq_true_eq, hblocked result hresult, hcomparable]
  · simp only [stageRecord, aggregateState]
    split_ifs with hsets hpartial hfew
    · simp
    · simp only [List.any_cons, List.any_nil, Bool.or_false, Bool.or_eq_true, decide_eq_true_eq]
        at hpartial
      simp only [false_iff, not_and]
      omega
    · simp only [false_iff, not_and]
      omega
    · simp only [List.any_cons, List.any_nil, Bool.or_false, Bool.or_eq_true, decide_eq_true_eq,
        not_or, not_not] at hpartial
      simp only [ne_eq, reduceCtorEq, not_false_eq_true, and_true, true_iff]
      omega

theorem treatmentState_eq_failed_iff {samples : List SyntheticVerificationRun}
    {aggregate : FullReferenceTreatmentReport} :
    treatmentState samples aggregate = .failed ↔ ∃ sample ∈ samples, sample.state = .failed := by
  unfold treatmentState
  split_ifs with hfailed hpartial <;> simpa using hfailed

theorem treatmentState_eq_complete_iff {samples : List SyntheticVerificationRun}
    {aggregate : FullReferenceTreatmentReport} :
    treatmentState samples aggregate = .complete ↔
      (∀ sample ∈ samples, sample.state = .complete) ∧
        ∀ stage ∈ aggregate.stages, stage.state = .aggregated := by
  have hcomplete : (∀ sample ∈ samples, sample.state = .complete) ↔
      ¬ samples.any (fun sample => sample.state = .failed) = true ∧
        ¬ samples.any (fun sample => sample.state = .partialScores) = true := by
    simp only [List.any_eq_true, decide_eq_true_eq, not_exists, not_and, ← forall_and]
    refine forall_congr' fun sample => ?_
    cases sample.state <;> simp
  have haggregated : (∀ stage ∈ aggregate.stages, stage.state = .aggregated) ↔
      ¬ aggregate.stages.any (fun stage => stage.state ≠ .aggregated) = true := by
    simp
  rw [hcomplete, haggregated]
  unfold treatmentState
  split_ifs with hfailed hpartial
  · refine iff_of_false (by decide) ?_
    tauto
  · refine iff_of_false (by decide) ?_
    tauto
  · refine iff_of_true rfl ?_
    tauto

/-- The samples of a treatment and what the aggregate counts of them. -/
structure Tallied (request : TreatmentRequest) (plans : List StagePlan)
    (run : SyntheticTreatmentRun) : Prop where
  samples : run.samples.length = request.sampleCount
  nonempty : run.samples ≠ []
  results : ∀ sample ∈ run.samples,
    SampleResults plans request.scorer.contract sample.fullReference
  states : ∀ sample ∈ run.samples,
    sample.state = verificationState sample.invariantResults sample.fullReference
  state : run.state = treatmentState run.samples run.aggregate
  stages : (run.aggregate.stages.map (·.stage)).Perm (plans.map StagePlan.stage)
  counted : ∀ stage ∈ run.aggregate.stages,
    StageCounted (run.samples.map SyntheticVerificationRun.fullReference) stage
  accounts : ∀ stage ∈ run.aggregate.stages,
    StageAccount plans run.samples.length request.minimumSamples stage

variable {run : SyntheticTreatmentRun}

theorem tallied_of_run {disk' : WavDisk} (hroot : request.outputRoot.WellFormed)
    (hplans : buildStagePlan request.resolvedConfig = .ok plans) (hplain : PlainStages plans)
    (h : runSyntheticTreatment request disk = .ok (run, disk')) : Tallied request plans run := by
  obtain ⟨hcount, hsamples, haggregate, hstate⟩ := runSyntheticTreatment_eq_ok h
  obtain ⟨hon, -⟩ := runSamples_eq_ok hplans hplain List.nodup_range hsamples
  obtain ⟨-, -, hstages, htreatment, hminimum⟩ := aggregateFullReferenceReports_eq_ok_iff.mp haggregate
  set reports := run.samples.map SyntheticVerificationRun.fullReference with hreports
  have hsample : ∀ sample ∈ run.samples, ∃ index, SampleOn request disk' index sample := by
    intro sample hmem
    obtain ⟨index, -, hindex⟩ := exists_mem_of_forall₂ hon hmem
    exact ⟨index, hindex⟩
  have hresults : ∀ sample ∈ run.samples,
      SampleResults plans request.scorer.contract sample.fullReference := by
    intro sample hmem
    obtain ⟨index, hindex⟩ := hsample sample hmem
    exact sampleResults_of_on hroot hplans hplain hindex
  have hlength : (run.samples.length : ℤ) = request.sampleCount := by
    rw [← hon.length_eq, List.length_range, Int.toNat_of_nonneg (by omega)]
  obtain ⟨first, hfirst⟩ : ∃ sample, sample ∈ run.samples :=
    List.exists_mem_of_length_pos (by omega)
  have horder : ∀ stage, stage ∈ stageOrder reports ↔ stage ∈ plans.map StagePlan.stage := by
    intro stage
    rw [mem_stageOrder]
    constructor
    · rintro ⟨report, hreport, result, hresult, rfl⟩
      obtain ⟨sample, hmem, rfl⟩ := List.mem_map.mp hreport
      exact (hresults sample hmem).stages.mem_iff.mp (List.mem_map_of_mem hresult)
    · intro hplanned
      obtain ⟨result, hresult, hname⟩ :=
        List.mem_map.mp ((hresults first hfirst).stages.mem_iff.mpr hplanned)
      exact ⟨_, List.mem_map_of_mem hfirst, result, hresult, hname⟩
  have hnames : run.aggregate.stages.map (·.stage) = stageOrder reports := by
    rw [map_eq_of_mapM hstages fun stage a ha => ?_, List.map_id']
    obtain ⟨statistics, -, rfl⟩ := exists_of_aggregateResults ha
    rfl
  have haccount : ∀ stage ∈ run.aggregate.stages, StageCounted reports stage ∧
      StageAccount plans run.samples.length request.minimumSamples stage := by
    intro stage hstage
    obtain ⟨name, hname, ha⟩ := exists_of_mem_mapM hstages hstage
    rw [← show reports.length = run.samples.length from List.length_map _]
    have hreportResults : ∀ report ∈ reports, SampleResults plans request.scorer.contract report := by
      intro report hreport
      obtain ⟨sample, hmem, rfl⟩ := List.mem_map.mp hreport
      exact hresults sample hmem
    exact stageAccount_of_results hreportResults ((horder name).mp hname) ha
  exact {
    samples := hlength
    nonempty := List.ne_nil_of_mem hfirst
    results := hresults
    states := fun sample hmem => (hsample sample hmem).elim fun _ hindex => hindex.state
    state := hstate
    stages := hnames ▸ (List.perm_ext_iff_of_nodup (nodup_stageOrder _) hplain.nodup).mpr horder
    counted := fun stage hstage => (haccount stage hstage).1
    accounts := fun stage hstage => (haccount stage hstage).2 }

/-- A result of a sample is counted in the aggregate of its stage. -/
theorem Tallied.exists_stage (h : Tallied request plans run) (hplain : PlainStages plans)
    {sample : SyntheticVerificationRun} (hsample : sample ∈ run.samples)
    {result : FullReferenceScoreResult} (hresult : result ∈ sample.fullReference.results) :
    ∃ stage ∈ run.aggregate.stages, result ∈
      resultsOf (run.samples.map SyntheticVerificationRun.fullReference) stage.stage := by
  have hmem : result.stage ∈ run.aggregate.stages.map (·.stage) := by
    rw [h.stages.mem_iff, ← (h.results sample hsample).stages.mem_iff]
    exact List.mem_map_of_mem hresult
  obtain ⟨stage, hstage, hname⟩ := List.mem_map.mp hmem
  refine ⟨stage, hstage, hname ▸ mem_resultsOf ?_ (List.mem_map_of_mem hsample) hresult⟩
  exact (h.results sample hsample).stages.nodup_iff.mpr hplain.nodup

/-- A result that is counted is a result of a sample. -/
theorem exists_sample_of_mem {result : FullReferenceScoreResult}
    (h : result ∈ resultsOf (run.samples.map SyntheticVerificationRun.fullReference) stage) :
    ∃ sample ∈ run.samples, result ∈ sample.fullReference.results := by
  obtain ⟨report, hreport, hfound⟩ := List.mem_filterMap.mp h
  obtain ⟨sample, hmem, rfl⟩ := List.mem_map.mp hreport
  exact ⟨sample, hmem, List.mem_of_find?_eq_some hfound⟩

theorem Tallied.failed_iff (h : Tallied request plans run) (hplain : PlainStages plans) :
    run.state = .failed ↔
      (∃ sample ∈ run.samples, ∃ r ∈ sample.invariantResults, r.passed = false) ∨
        ∃ stage ∈ run.aggregate.stages, 0 < stage.failedCount := by
  have hsample : ∀ sample ∈ run.samples, sample.state = .failed ↔
      (∃ r ∈ sample.invariantResults, r.passed = false) ∨
        ∃ result ∈ sample.fullReference.results, result.state = .failed := by
    intro sample hmem
    rw [h.states sample hmem, verificationState_eq_failed_iff]
  rw [h.state, treatmentState_eq_failed_iff]
  constructor
  · rintro ⟨sample, hmem, hfailed⟩
    rcases (hsample sample hmem).mp hfailed with hcheck | ⟨result, hresult, hfailed⟩
    · exact Or.inl ⟨sample, hmem, hcheck⟩
    · obtain ⟨stage, hstage, hin⟩ := h.exists_stage hplain hmem hresult
      refine Or.inr ⟨stage, hstage, ?_⟩
      rw [(h.counted stage hstage).failed, countState, List.countP_pos_iff]
      exact ⟨result, hin, decide_eq_true hfailed⟩
  · rintro (⟨sample, hmem, hcheck⟩ | ⟨stage, hstage, hpos⟩)
    · exact ⟨sample, hmem, (hsample sample hmem).mpr (Or.inl hcheck)⟩
    · rw [(h.counted stage hstage).failed, countState, List.countP_pos_iff] at hpos
      obtain ⟨result, hresult, hfailed⟩ := hpos
      obtain ⟨sample, hmem, hin⟩ := exists_sample_of_mem hresult
      exact ⟨sample, hmem, (hsample sample hmem).mpr
        (Or.inr ⟨result, hin, of_decide_eq_true hfailed⟩)⟩

/-- All samples are complete when every stage is scored in every sample, and all checks pass. -/
theorem Tallied.samples_complete_iff (h : Tallied request plans run) (hplain : PlainStages plans) :
    (∀ sample ∈ run.samples, sample.state = .complete) ↔
      (∀ sample ∈ run.samples, ∀ r ∈ sample.invariantResults, r.passed = true) ∧ plans ≠ [] ∧
        ∀ stage ∈ run.aggregate.stages, stage.scoredCount = stage.samplesTotal := by
  have hsample : ∀ sample ∈ run.samples, sample.state = .complete ↔
      (∀ r ∈ sample.invariantResults, r.passed = true) ∧ plans ≠ [] ∧
        ∀ result ∈ sample.fullReference.results, result.state = .scored := by
    intro sample hmem
    have hempty : sample.fullReference.results ≠ [] ↔ plans ≠ [] := by
      have hlength := (h.results sample hmem).stages.length_eq
      rw [List.length_map, List.length_map] at hlength
      rw [← List.length_pos_iff, ← List.length_pos_iff, hlength]
    rw [h.states sample hmem, verificationState_eq_complete_iff, hempty]
  have hscored : (∀ sample ∈ run.samples, ∀ result ∈ sample.fullReference.results,
      result.state = .scored) ↔
        ∀ stage ∈ run.aggregate.stages, stage.scoredCount = stage.samplesTotal := by
    have hstage : ∀ stage ∈ run.aggregate.stages, stage.scoredCount = stage.samplesTotal ↔
        ∀ result ∈ resultsOf (run.samples.map SyntheticVerificationRun.fullReference) stage.stage,
          result.state = .scored := by
      intro stage hstage
      have hlength := (h.counted stage hstage).length
      rw [List.length_map] at hlength
      rw [(h.accounts stage hstage).total, (h.counted stage hstage).scored, ← hlength, countState,
        List.countP_eq_length]
      simp only [decide_eq_true_eq]
    constructor
    · intro hall stage hmem
      rw [hstage stage hmem]
      intro result hresult
      obtain ⟨sample, hsampleMem, hin⟩ := exists_sample_of_mem hresult
      exact hall sample hsampleMem result hin
    · intro hall sample hsampleMem result hresult
      obtain ⟨stage, hmem, hin⟩ := h.exists_stage hplain hsampleMem hresult
      exact (hstage stage hmem).mp (hall stage hmem) result hin
  rw [← hscored]
  obtain ⟨first, hfirst⟩ := List.exists_mem_of_ne_nil _ h.nonempty
  constructor
  · intro hall
    have hmem := fun sample hmem => (hsample sample hmem).mp (hall sample hmem)
    exact ⟨fun sample hs => (hmem sample hs).1, (hmem first hfirst).2.1, fun sample hs => (hmem sample hs).2.2⟩
  · rintro ⟨hpassed, hne, hall⟩ sample hs
    exact (hsample sample hs).mpr ⟨hpassed sample hs, hne, hall sample hs⟩

theorem Tallied.complete_iff (h : Tallied request plans run) (hplain : PlainStages plans) :
    run.state = .complete ↔
      (∀ sample ∈ run.samples, ∀ r ∈ sample.invariantResults, r.passed = true) ∧ plans ≠ [] ∧
        request.minimumSamples ≤ request.sampleCount ∧ ∀ stage ∈ run.aggregate.stages,
          stage.scoredCount = stage.samplesTotal ∧ stage.state ≠ .incomparable := by
  have haggregated := fun stage hstage => (h.accounts stage hstage).aggregated
  rw [h.state, treatmentState_eq_complete_iff, h.samples_complete_iff hplain, ← h.samples]
  constructor
  · rintro ⟨⟨hpassed, hne, hscored⟩, hall⟩
    obtain ⟨plan, hplan⟩ := List.exists_mem_of_ne_nil _ hne
    obtain ⟨stage, hstage, -⟩ :=
      List.mem_map.mp (h.stages.mem_iff.mpr (List.mem_map_of_mem hplan))
    exact ⟨hpassed, hne, ((haggregated stage hstage).mp (hall stage hstage)).2.1,
      fun stage hstage => ⟨hscored stage hstage, ((haggregated stage hstage).mp (hall stage hstage)).2.2⟩⟩
  · rintro ⟨hpassed, hne, henough, hall⟩
    refine ⟨⟨hpassed, hne, fun stage hstage => (hall stage hstage).1⟩, fun stage hstage => ?_⟩
    rw [haggregated stage hstage]
    exact ⟨(hall stage hstage).1.trans (h.accounts stage hstage).total, henough, (hall stage hstage).2⟩

end Aggregate

/-- **Accounts of a treatment.** For stage types that differ and are plain names: a treatment that
returns has as many samples as were asked for, and the aggregate has each stage once, with a result
from every sample; a stage is blocked in all samples or in none, as its coding says. The treatment
has failed exactly when a check of a sample has failed or a stage counts a failed score. It is
complete exactly when all checks have passed, there are stages, as many samples as are needed, and
every stage is scored in every sample, under the same transformations. -/
theorem treatment_accounts {request : TreatmentRequest} {plans : List StagePlan}
    {disk disk' : WavDisk} {run : SyntheticTreatmentRun} (hroot : request.outputRoot.WellFormed)
    (hplans : buildStagePlan request.resolvedConfig = .ok plans) (hplain : PlainStages plans)
    (h : runSyntheticTreatment request disk = .ok (run, disk')) :
    run.samples.length = request.sampleCount ∧
      (run.aggregate.stages.map (·.stage)).Perm (plans.map StagePlan.stage) ∧
      (∀ stage ∈ run.aggregate.stages,
        StageAccount plans run.samples.length request.minimumSamples stage) ∧
      (run.state = .failed ↔
        (∃ sample ∈ run.samples, ∃ r ∈ sample.invariantResults, r.passed = false) ∨
          ∃ stage ∈ run.aggregate.stages, 0 < stage.failedCount) ∧
      (run.state = .complete ↔
        (∀ sample ∈ run.samples, ∀ r ∈ sample.invariantResults, r.passed = true) ∧ plans ≠ [] ∧
          request.minimumSamples ≤ request.sampleCount ∧ ∀ stage ∈ run.aggregate.stages,
            stage.scoredCount = stage.samplesTotal ∧ stage.state ≠ .incomparable) := by
  have htallied := tallied_of_run hroot hplans hplain h
  exact ⟨htallied.samples, htallied.stages, htallied.accounts, htallied.failed_iff hplain,
    htallied.complete_iff hplain⟩

theorem treatment_accounts_coded : ∃ run disk,
    runSyntheticTreatment codedTreatment (fun _ => none) = .ok (run, disk) ∧ run.samples.length = (2 : ℤ) ∧
      (run.aggregate.stages.map (·.stage)).Perm ["agc", "serializer"] := by
  obtain ⟨run, disk, h⟩ := run_codedTreatment
  obtain ⟨plans, hplans, hplain, hnames, -⟩ := plans_coded
  obtain ⟨hsamples, hstages, -⟩ := treatment_accounts wellFormed_rootPath hplans hplain h
  exact ⟨run, disk, h, hsamples, hnames ▸ hstages⟩

end VoxBench.SyntheticCaller
