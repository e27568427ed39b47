import VoxBench.Observability.Observer
import VoxBench.Registry.Hashing

/-!
# Full-reference scores

A full-reference scorer compares the recording of a stage with a reference for that stage.
`selectFullReferenceCandidates` pairs references with recordings and blocks the references
that cannot be scored; `scoreFullReferenceSelection` runs the scorer on the pairs. What the
scorer raises, and the texts that it returns, do not reach the report as they are.

## Main definitions

* `FullReferenceScorerContract` — the names and the range of a scorer, with their checks.
* `selectFullReferenceCandidates`, `scoreFullReferenceSelection` — the two steps.
* `ScoringRun` — the inputs of both.

## Main results

* `ScoringRun.perm_stages` — the report has one result for each reference.
* `ScoringRun.scoreResultOk_report` — a result has a score when it is scored, within the range.
-/

namespace VoxBench.Verification

open VoxBench.Lib VoxBench.ControlPlane VoxBench.Observability

/-! ## Safe texts -/

/-- `fullmatch` of a pattern `^[first][rest]{0,extra}$`. -/
def matchesAlias (first rest : Char → Bool) (extra : ℕ) (s : String) : Bool :=
  match s.toList with
  | [] => false
  | c :: cs => first c && cs.length ≤ extra && cs.all rest

def isLowerOrDigit (c : Char) : Bool := c.isLower || c.isDigit

/-- `_SAFE_NAME` and `_SAFE_TREATMENT`, which are one pattern. -/
def safeName : String → Bool :=
  matchesAlias Char.isLower (fun c => isLowerOrDigit c || c ∈ ['_', '.', '-']) 63

/-- `_SAFE_REASON`. -/
def safeReasonText : String → Bool :=
  matchesAlias isLowerOrDigit (fun c => isLowerOrDigit c || c ∈ ['_', '.', ':', '-']) 127

/-- `_SAFE_TRANSFORMATION`. -/
def safeTransformationText : String → Bool :=
  matchesAlias isLowerOrDigit (fun c => isLowerOrDigit c || c ∈ ['_', '.', ':', '>', '-']) 127

/-- `_safe_reason`. -/
def safeReason (reason : Option String) (fallback : String) : String :=
  match reason with
  | some reason => if safeReasonText reason then reason else fallback
  | none => fallback

/-- `_safe_transformations`. An element that is not a text is `none`. -/
def safeTransformations (transformations : List (Option String)) (fallback : String) :
    List String :=
  transformations.map fun transformation =>
    match transformation with
    | some text => if safeTransformationText text then text else fallback
    | none => fallback

theorem safe_of_mem_safeTransformations {transformations : List (Option String)} {fallback t : String}
    (hfallback : safeTransformationText fallback = true)
    (ht : t ∈ safeTransformations transformations fallback) : safeTransformationText t = true := by
  obtain ⟨transformation, -, rfl⟩ := List.mem_map.mp ht
  cases transformation with
  | none => exact hfallback
  | some text =>
      dsimp only
      split_ifs with htext
      · exact htext
      · exact hfallback

/-! ## Selection -/

structure StageReference where
  stage : String
  uri : String
  comparisonFormat : Json
  transformations : List String
  comparisonReady : Bool
  blockedReason : Option String

structure FullReferenceCandidate where
  stage : String
  referenceUri : String
  degradedUri : String
  comparisonFormat : Json
  degradedFormat : Json
  transformations : List String

structure FullReferenceBlock where
  stage : String
  reason : String

structure FullReferenceSelection where
  candidates : List FullReferenceCandidate
  blocked : List FullReferenceBlock

/-- `_comparison_formats_match`. A key that is missing reads as `None`. -/
def comparisonFormatsMatch (referenceFormat recordingFormat : Json) : Bool :=
  ["encoding", "rate", "channels"].all fun key =>
    ((referenceFormat.get? key).getD .null).pyEq ((recordingFormat.get? key).getD .null)

/-- `recordings_by_stage`: the last recording of a stage stays. -/
def recordingsByStage (recordings : List RecordingArtifact) : List (String × RecordingArtifact) :=
  recordings.foldl (fun d recording => Dict.set d recording.stage recording) []

/-- `blocked_reason or "reference-not-ready"`. -/
def StageReference.notReadyReason (reference : StageReference) : String :=
  match reference.blockedReason with
  | some reason => if reason = "" then "reference-not-ready" else reason
  | none => "reference-not-ready"

/-- One reference, after the stages in `seen`. -/
def selectReference (recordings : List (String × RecordingArtifact)) (seen : List String)
    (reference : StageReference) : FullReferenceCandidate ⊕ FullReferenceBlock :=
  if reference.stage ∈ seen then .inr ⟨reference.stage, "duplicate-stage-reference"⟩
  else if !reference.comparisonReady then .inr ⟨reference.stage, reference.notReadyReason⟩
  else
    match Dict.get? recordings reference.stage with
    | none => .inr ⟨reference.stage, "stage-recording-missing"⟩
    | some recording =>
        if !comparisonFormatsMatch reference.comparisonFormat recording.format then
          .inr ⟨reference.stage, "comparison-format-mismatch"⟩
        else
          .inl {
            stage := reference.stage
            referenceUri := reference.uri
            degradedUri := recording.uri
            comparisonFormat := reference.comparisonFormat
            degradedFormat := recording.format
            transformations := reference.transformations }

def FullReferenceSelection.add (selection : FullReferenceSelection) :
    FullReferenceCandidate ⊕ FullReferenceBlock → FullReferenceSelection
  | .inl candidate => { selection with candidates := selection.candidates ++ [candidate] }
  | .inr block => { selection with blocked := selection.blocked ++ [block] }

/-- `seen_stages.add(stage)`, and `stage_order` of the aggregation. -/
def addStage (stages : List String) (stage : String) : List String :=
  if stage ∈ stages then stages else stages ++ [stage]

/-- The loop of `select_full_reference_candidates`. -/
def selectLoop (recordings : List (String × RecordingArtifact)) :
    List StageReference → List String → FullReferenceSelection → FullReferenceSelection
  | [], _, selection => selection
  | reference :: references, seen, selection =>
      selectLoop recordings references (addStage seen reference.stage)
        (selection.add (selectReference recordings seen reference))

def selectFullReferenceCandidates (references : List StageReference)
    (recordings : List RecordingArtifact) : FullReferenceSelection :=
  selectLoop (recordingsByStage recordings) references [] ⟨[], []⟩

/-! ## Scoring -/

/-- A `FullReferenceScorerContract`, with what `__post_init__` has checked; its bounds are
finite. -/
structure FullReferenceScorerContract where
  scorer : String
  metricName : String
  minimumScore : ℚ
  maximumScore : ℚ
  scorer_safe : safeName scorer = true
  metricName_safe : safeName metricName = true
  range : minimumScore < maximumScore
  deriving DecidableEq

structure FullReferenceScorerReadiness where
  available : Bool
  reasonAlias : Option String

/-- What `scorer.score` does: it raises (or what it returns is no number), or it returns a
number, alone or as a `FullReferenceMeasurement`. -/
inductive ScoreOutcome where
  | raised
  | number (score : PyFloat)
  | measurement (score : PyFloat) (transformations : List (Option String))

/-- A scorer; `readiness` is `none` when it raises. -/
structure FullReferenceScorer where
  contract : FullReferenceScorerContract
  readiness : Option FullReferenceScorerReadiness
  score : FullReferenceCandidate → ScoreOutcome

inductive FullReferenceScoreState where
  | scored
  | unavailable
  | blocked
  | failed
  deriving DecidableEq, Repr

structure FullReferenceScoreResult where
  stage : String
  scorer : String
  metricName : String
  state : FullReferenceScoreState
  score : Option PyFloat
  reasonAlias : Option String
  transformations : List String
  deriving DecidableEq, Repr

structure FullReferenceScoringReport where
  contract : FullReferenceScorerContract
  results : List FullReferenceScoreResult
  deriving DecidableEq

/-- `_result`. -/
def scoreResult (stage : String) (contract : FullReferenceScorerContract)
    (state : FullReferenceScoreState) (score : Option PyFloat) (reasonAlias : Option String)
    (transformations : List String) : FullReferenceScoreResult :=
  ⟨stage, contract.scorer, contract.metricName, state, score, reasonAlias, transformations⟩

def referenceTransformations (candidate : FullReferenceCandidate) : List String :=
  safeTransformations (candidate.transformations.map some) "reference-transform"

/-- The checks of `_score_candidate` on a number. -/
def checkScore (stage : String) (contract : FullReferenceScorerContract) (score : PyFloat)
    (transformations : List String) : FullReferenceScoreResult :=
  match score with
  | .finite q =>
      if contract.minimumScore ≤ q ∧ q ≤ contract.maximumScore then
        scoreResult stage contract .scored (some (.finite q)) none transformations
      else scoreResult stage contract .failed none (some "score-out-of-range") transformations
  | _ => scoreResult stage contract .failed none (some "score-not-finite") transformations

/-- `_score_candidate`. -/
def scoreCandidate (candidate : FullReferenceCandidate) (scorer : FullReferenceScorer) :
    FullReferenceScoreResult :=
  let transformations := referenceTransformations candidate
  match scorer.score candidate with
  | .raised =>
      scoreResult candidate.stage scorer.contract .failed none (some "scorer-error") transformations
  | .number score => checkScore candidate.stage scorer.contract score transformations
  | .measurement score more =>
      checkScore candidate.stage scorer.contract score
        (transformations ++ safeTransformations more "scorer-input-transform")

def scoreUnavailable (candidate : FullReferenceCandidate) (scorer : FullReferenceScorer)
    (reasonAlias : String) : FullReferenceScoreResult :=
  scoreResult candidate.stage scorer.contract .unavailable none (some reasonAlias)
    (referenceTransformations candidate)

def scoreBlock (block : FullReferenceBlock) (scorer : FullReferenceScorer) :
    FullReferenceScoreResult :=
  scoreResult block.stage scorer.contract .blocked none
    (some (safeReason (some block.reason) "input-blocked")) []

def scoreFullReferenceSelection (selection : FullReferenceSelection)
    (scorer : FullReferenceScorer) : FullReferenceScoringReport :=
  let readiness := scorer.readiness.getD ⟨false, some "scorer-readiness-error"⟩
  let scored :=
    if !readiness.available then
      selection.candidates.map fun candidate =>
        scoreUnavailable candidate scorer (safeReason readiness.reasonAlias "scorer-unavailable")
    else selection.candidates.map fun candidate => scoreCandidate candidate scorer
  ⟨scorer.contract, scored ++ selection.blocked.map fun block => scoreBlock block scorer⟩

/-! ## One result for each reference -/

section Stages

variable {recordings : List (String × RecordingArtifact)} {seen : List String}

def FullReferenceSelection.stages (selection : FullReferenceSelection) : List String :=
  selection.candidates.map (·.stage) ++ selection.blocked.map (·.stage)

def stageOf : FullReferenceCandidate ⊕ FullReferenceBlock → String
  | .inl candidate => candidate.stage
  | .inr block => block.stage

/-- Whatever becomes of a reference, its stage stays. -/
theorem stageOf_selectReference (reference : StageReference) :
    stageOf (selectReference recordings seen reference) = reference.stage := by
  unfold selectReference
  split_ifs
  · rfl
  · rfl
  · split
    · rfl
    · split_ifs <;> rfl

theorem perm_stages_add (selection : FullReferenceSelection)
    (item : FullReferenceCandidate ⊕ FullReferenceBlock) :
    (selection.add item).stages.Perm (selection.stages ++ [stageOf item]) := by
  cases item with
  | inl candidate =>
      unfold FullReferenceSelection.stages
      simp only [FullReferenceSelection.add, stageOf, List.map_append, List.map_cons, List.map_nil,
        List.append_assoc]
      exact List.perm_append_comm.append_left _
  | inr block =>
      unfold FullReferenceSelection.stages
      simp [FullReferenceSelection.add, stageOf]

theorem perm_stages_selectLoop (references : List StageReference)
    (selection : FullReferenceSelection) :
    (selectLoop recordings references seen selection).stages.Perm
      (selection.stages ++ references.map (·.stage)) := by
  induction references generalizing seen selection with
  | nil => simp [selectLoop]
  | cons reference references ih =>
      refine (ih _).trans (((perm_stages_add selection _).append_right _).trans ?_)
      simp [stageOf_selectReference]

end Stages

/-! ## Scored results -/

/-- What a report promises of a result. -/
structure ScoreResultOk (contract : FullReferenceScorerContract)
    (result : FullReferenceScoreResult) : Prop where
  isSome_score_iff : result.score.isSome ↔ result.state = .scored
  range : ∀ score ∈ result.score, ∃ q, score = .finite q ∧
    contract.minimumScore ≤ q ∧ q ≤ contract.maximumScore
  transformations_safe : ∀ t ∈ result.transformations, safeTransformationText t = true

section Results

variable {contract : FullReferenceScorerContract} {transformations : List String}

/-- A result without a score. -/
theorem scoreResultOk_none {stage : String} {state : FullReferenceScoreState}
    {reasonAlias : Option String} (hstate : state ≠ .scored)
    (hsafe : ∀ t ∈ transformations, safeTransformationText t = true) :
    ScoreResultOk contract (scoreResult stage contract state none reasonAlias transformations) := by
  refine ⟨?_, ?_, hsafe⟩
  · simpa [scoreResult] using hstate
  · simp [scoreResult]

theorem scoreResultOk_checkScore (stage : String) (score : PyFloat)
    (hsafe : ∀ t ∈ transformations, safeTransformationText t = true) :
    ScoreResultOk contract (checkScore stage contract score transformations) := by
  cases score with
  | finite q =>
      unfold checkScore
      dsimp only
      split_ifs with hrange
      · refine ⟨by simp [scoreResult], ?_, hsafe⟩
        intro score hscore
        cases hscore
        exact ⟨q, rfl, hrange⟩
      · exact scoreResultOk_none (by decide) hsafe
  | inf => exact scoreResultOk_none (by decide) hsafe
  | negInf => exact scoreResultOk_none (by decide) hsafe
  | nan => exact scoreResultOk_none (by decide) hsafe

theorem safe_of_mem_referenceTransformations {candidate : FullReferenceCandidate} {t : String}
    (ht : t ∈ referenceTransformations candidate) : safeTransformationText t = true :=
  safe_of_mem_safeTransformations (by decide +kernel) ht

theorem scoreResultOk_scoreCandidate (candidate : FullReferenceCandidate)
    (scorer : FullReferenceScorer) :
    ScoreResultOk scorer.contract (scoreCandidate candidate scorer) := by
  unfold scoreCandidate
  dsimp only
  split
  · exact scoreResultOk_none (by decide) fun t ht => safe_of_mem_referenceTransformations ht
  · exact scoreResultOk_checkScore _ _ fun t ht => safe_of_mem_referenceTransformations ht
  · refine scoreResultOk_checkScore _ _ fun t ht => ?_
    rcases List.mem_append.mp ht with ht | ht
    · exact safe_of_mem_referenceTransformations ht
    · exact safe_of_mem_safeTransformations (by decide +kernel) ht

end Results

/-! ## Selection followed by scoring -/

/-- The inputs of a selection and of the scoring after it. -/
structure ScoringRun where
  references : List StageReference
  recordings : List RecordingArtifact
  scorer : FullReferenceScorer

namespace ScoringRun

def report (run : ScoringRun) : FullReferenceScoringReport :=
  scoreFullReferenceSelection (selectFullReferenceCandidates run.references run.recordings)
    run.scorer

variable {run : ScoringRun}

@[simp] theorem contract_report : run.report.contract = run.scorer.contract := rfl

theorem scoreResultOk_report {result : FullReferenceScoreResult}
    (h : result ∈ run.report.results) : ScoreResultOk run.scorer.contract result := by
  rcases List.mem_append.mp h with hscored | hblocked
  · split_ifs at hscored
    · obtain ⟨candidate, -, rfl⟩ := List.mem_map.mp hscored
      exact scoreResultOk_none (by decide) fun t ht => safe_of_mem_referenceTransformations ht
    · obtain ⟨candidate, -, rfl⟩ := List.mem_map.mp hscored
      exact scoreResultOk_scoreCandidate candidate run.scorer
  · obtain ⟨block, -, rfl⟩ := List.mem_map.mp hblocked
    exact scoreResultOk_none (by decide) (by simp)

theorem stage_scoreCandidate (candidate : FullReferenceCandidate) (scorer : FullReferenceScorer) :
    (scoreCandidate candidate scorer).stage = candidate.stage := by
  unfold scoreCandidate
  dsimp only
  split
  · rfl
  all_goals
    unfold checkScore
    split
    · split_ifs <;> rfl
    · rfl

/-- The stages of the results are those of the references. -/
theorem perm_stages (run : ScoringRun) :
    (run.report.results.map (·.stage)).Perm (run.references.map (·.stage)) := by
  have hstages : run.report.results.map (·.stage) =
      (selectFullReferenceCandidates run.references run.recordings).stages := by
    unfold report scoreFullReferenceSelection FullReferenceSelection.stages
    dsimp only
    rw [List.map_append, List.map_map]
    congr 1
    split_ifs
    · rw [List.map_map]
      rfl
    · rw [List.map_map]
      exact List.map_congr_left fun candidate _ => stage_scoreCandidate candidate _
  rw [hstages]
  exact perm_stages_selectLoop run.references ⟨[], []⟩

end ScoringRun

end VoxBench.Verification
