import VoxBench.SyntheticCaller.Offline
import VoxBench.Verification.NominalRun

/-!
# Synthetic verification runs

`run_synthetic_verification` generates the artifacts of a config, verifies the recordings, pairs
each reference with the recording of its stage, and scores the pairs. For stage types that differ
and are plain names, the files of a stage are its own: without a degradation the recording is the
reference, byte for byte.

## Main definitions

* `runSyntheticVerification` — the run.
* `PlainStages` — stage types whose files do not meet.

## Main results

* `synthetic_files` — what is on the disk for each stage.
* `synthetic_scores` — what becomes of each stage.
* `undegraded_run` — the checks that a run without degradations passes.
-/

namespace VoxBench.SyntheticCaller

open VoxBench.Lib VoxBench.ControlPlane VoxBench.EngineHarness VoxBench.Media VoxBench.Observability
open VoxBench.Verification PosixPath

/-! ## The run -/

inductive SyntheticVerificationState where
  | complete
  /-- The state `"partial"`. -/
  | partialScores
  | failed
  deriving DecidableEq, Repr

structure SyntheticVerificationRun where
  state : SyntheticVerificationState
  artifacts : SyntheticArtifacts
  invariantResults : List VerificationResult
  fullReference : FullReferenceScoringReport
  metrics : List MetricArtifact

/-- The WAV files on a disk, by their places. -/
abbrev WavDisk := List Name → Option Verification.WavFile

/-- What some writes leave on a disk. -/
def leftOnDisk (disk : WavDisk) (writes : List WavWrite) : WavDisk :=
  Writes.apply disk (writes.map fun write => (walk [] write.1.parts, write.2))

/-- What the machine does with URIs and numbers. -/
structure Reading where
  check : Url.NetlocCheck
  decoder : Utf8Decoder
  math : FloatMath

/-- The files of a disk, by their URIs. A `ValueError` and a missing file are caught. -/
def Reading.files (reading : Reading) (disk : WavDisk) : WavFiles := fun uri =>
  match fileUriToPath reading.check reading.decoder uri with
  | .error _ => .error .unreadable
  | .ok path =>
      match disk (walk [] path.parts) with
      | some file => .ok file
      | none => .error .unreadable

/-- A scorer, which reads the files of a disk. -/
structure DiskScorer where
  contract : FullReferenceScorerContract
  readiness : WavDisk → Option FullReferenceScorerReadiness
  score : WavDisk → FullReferenceCandidate → ScoreOutcome

def DiskScorer.on (scorer : DiskScorer) (disk : WavDisk) : FullReferenceScorer where
  contract := scorer.contract
  readiness := scorer.readiness disk
  score := scorer.score disk

/-- A reference as the selection reads it. -/
def StageReferenceArtifact.toReference (reference : StageReferenceArtifact) : StageReference where
  stage := reference.stage
  uri := reference.uri
  comparisonFormat := reference.comparisonFormat
  transformations := reference.transformations
  comparisonReady := reference.comparisonReady
  blockedReason := reference.blockedReason

/-- `full_reference_scores_to_metrics`. -/
def fullReferenceScoresToMetrics (report : FullReferenceScoringReport) (observedAt : Datetime) :
    List MetricArtifact :=
  report.results.filterMap fun result =>
    match result.state, result.score with
    | .scored, some (.finite score) => some ⟨some result.stage, result.metricName, score, observedAt⟩
    | _, _ => none

/-- `_verification_state`. -/
def verificationState (invariantResults : List VerificationResult)
    (fullReference : FullReferenceScoringReport) : SyntheticVerificationState :=
  if invariantResults.any (fun result => !result.passed) ∨
      fullReference.results.any (fun result => result.state = .failed) then .failed
  else if fullReference.results = [] ∨
      fullReference.results.any (fun result => result.state ∈ [.unavailable, .blocked]) then
    .partialScores
  else .complete

inductive SyntheticRunError where
  | generation (error : SyntheticError)
  | reading (error : ReadError)
  deriving DecidableEq

/-- `run_synthetic_verification`. -/
def runSyntheticVerification (world : Surroundings) (reading : Reading) (observedAt : Datetime)
    (resolvedConfig : Json) (outputRoot : PurePath) (spec : SyntheticAudioSpec) (scorer : DiskScorer)
    (degradations : List (String × SyntheticStageDegradation)) (disk : WavDisk) :
    Except SyntheticRunError (SyntheticVerificationRun × WavDisk) :=
  match generateSyntheticArtifacts world resolvedConfig outputRoot spec degradations with
  | .error error => .error (.generation error)
  | .ok (artifacts, writes) =>
      let disk := leftOnDisk disk writes
      match verifyRecordings (reading.files disk) reading.math {} resolvedConfig artifacts.recordings
          artifacts.metrics with
      | .error error => .error (.reading error)
      | .ok invariantResults =>
          let fullReference := scoreFullReferenceSelection
            (selectFullReferenceCandidates
              (artifacts.stageReferences.map StageReferenceArtifact.toReference)
              artifacts.recordings) (scorer.on disk)
          .ok ({
            state := verificationState invariantResults fullReference
            artifacts
            invariantResults
            fullReference
            metrics := artifacts.metrics ++ fullReferenceScoresToMetrics fullReference observedAt },
            disk)

/-- What a run that returns has generated. -/
theorem runSyntheticVerification_eq_ok {world : Surroundings} {reading : Reading}
    {observedAt : Datetime} {resolvedConfig : Json} {outputRoot : PurePath} {spec : SyntheticAudioSpec}
    {scorer : DiskScorer} {degradations : List (String × SyntheticStageDegradation)}
    {disk disk' : WavDisk} {run : SyntheticVerificationRun}
    (h : runSyntheticVerification world reading observedAt resolvedConfig outputRoot spec scorer
      degradations disk = .ok (run, disk')) :
    ∃ writes, generateSyntheticArtifacts world resolvedConfig outputRoot spec degradations =
        .ok (run.artifacts, writes) ∧
      disk' = leftOnDisk disk writes ∧
      run.fullReference = ScoringRun.report ⟨run.artifacts.stageReferences.map
        StageReferenceArtifact.toReference, run.artifacts.recordings, scorer.on disk'⟩ ∧
      run.state = verificationState run.invariantResults run.fullReference := by
  unfold runSyntheticVerification at h
  split at h
  · cases h
  · rename_i artifacts writes hgenerate
    dsimp only at h
    split at h
    · cases h
    · cases h
      exact ⟨writes, hgenerate, rfl, rfl, rfl⟩

/-! ## States -/

section States

variable {results : List VerificationResult} {report : FullReferenceScoringReport}

theorem verificationState_eq_failed_iff :
    verificationState results report = .failed ↔
      (∃ r ∈ results, r.passed = false) ∨ ∃ result ∈ report.results, result.state = .failed := by
  have hany : (results.any (fun result => !result.passed) = true ∨
      report.results.any (fun result => result.state = .failed) = true) ↔
      (∃ r ∈ results, r.passed = false) ∨ ∃ result ∈ report.results, result.state = .failed := by
    simp
  rw [← hany]
  unfold verificationState
  split_ifs with hfailed hempty
  · exact iff_of_true rfl hfailed
  · exact iff_of_false (by decide) hfailed
  · exact iff_of_false (by decide) hfailed

/-- A run is complete when every check has passed and there are scores, of every stage. -/
theorem verificationState_eq_complete_iff :
    verificationState results report = .complete ↔
      (∀ r ∈ results, r.passed = true) ∧ report.results ≠ [] ∧
        ∀ result ∈ report.results, result.state = .scored := by
  have hscored : (∀ result ∈ report.results, result.state = .scored) ↔
      ¬ report.results.any (fun result => result.state = .failed) = true ∧
        ¬ report.results.any (fun result => result.state ∈ [.unavailable, .blocked]) = true := by
    simp only [List.any_eq_true, decide_eq_true_eq, not_exists, not_and, ← forall_and]
    refine forall_congr' fun result => ?_
    cases result.state <;> simp
  have hpassed : (∀ r ∈ results, r.passed = true) ↔
      ¬ results.any (fun result => !result.passed) = true := by
    simp
  rw [hscored, hpassed]
  unfold verificationState
  split_ifs with hfailed hempty
  · refine iff_of_false (by decide) ?_
    tauto
  · refine iff_of_false (by decide) ?_
    tauto
  · refine iff_of_true rfl ?_
    tauto

end States

/-! ## Places -/

/-- Stage types that differ and are plain names. -/
structure PlainStages (plans : List StagePlan) : Prop where
  nodup : (plans.map StagePlan.stage).Nodup
  plain : ∀ plan ∈ plans, '/' ∉ plan.stage.toList

/-- The name of the file of a stage. -/
def fileName (stage : String) : Name := stage.toList ++ ".wav".toList

theorem fileName_inj {stage stage' : String} (h : fileName stage = fileName stage') :
    stage = stage' :=
  String.toList_inj.mp (List.append_cancel_right h)

/-- A name below a path. -/
theorem walk_join_name (path : PurePath) {name : Name} (hslash : '/' ∉ name) (hlong : 3 ≤ name.length) :
    walk [] (path.join name).parts = walk [] path.parts ++ [name] := by
  have hne : name ≠ [] := by
    rintro rfl
    cases hlong
  have hdot : name ≠ ['.'] := by
    rintro rfl
    simp at hlong
  have hdotdot : name ≠ dotdot := by
    rintro rfl
    simp [dotdot] at hlong
  rw [PurePath.join, if_pos (root_parse_of_notMem hslash), parts_parse,
    segments_name hslash hne hdot, walk_append]
  exact if_neg hdotdot

theorem walk_join_fileName (path : PurePath) {stage : String} (h : '/' ∉ stage.toList) :
    walk [] (path.join (stage.toList ++ ".wav".toList)).parts = walk [] path.parts ++ [fileName stage] := by
  apply walk_join_name
  · have hwav : '/' ∉ ".wav".toList := by decide
    simp only [List.mem_append, h, hwav, or_self, not_false_eq_true]
  · rw [List.length_append]
    have hwav : ".wav".toList.length = 4 := rfl
    omega

theorem place_of_reference {world : Surroundings} {outputRoot : PurePath} {spec : SyntheticAudioSpec}
    {plan : StagePlan} {reference : StageReferenceArtifact} {write : WavWrite}
    (hslash : '/' ∉ plan.stage.toList)
    (h : ReferenceOf world (outputRoot.join "references".toList) spec plan reference write) :
    walk [] write.1.parts =
      walk [] outputRoot.parts ++ ["references".toList, fileName plan.stage] := by
  rw [h.path, walk_join_fileName _ hslash, walk_join_name outputRoot (by decide) (by decide),
    List.append_assoc, List.singleton_append]

theorem place_of_recording {world : Surroundings} {resolvedConfig : Json} {outputRoot : PurePath}
    {spec : SyntheticAudioSpec} {degradation : SyntheticStageDegradation} {source planned : Json}
    {stage : String} {recorded : RecordedStage} (hslash : '/' ∉ stage.toList)
    (h : RecordingOf world resolvedConfig outputRoot spec degradation source stage planned recorded) :
    walk [] recorded.write.1.parts = walk [] outputRoot.parts ++ [fileName stage] := by
  rw [h.path, walk_join_fileName _ hslash]

/-! ## The artifacts of a plan -/

section Artifacts

variable {world : Surroundings} {resolvedConfig : Json} {outputRoot : PurePath}
  {spec : SyntheticAudioSpec} {degradations : List (String × SyntheticStageDegradation)}
  {artifacts : SyntheticArtifacts} {writes : List WavWrite} {plans : List StagePlan}

/-- The degradation of a stage. -/
def degradationOf (degradations : List (String × SyntheticStageDegradation)) (stage : String) :
    SyntheticStageDegradation :=
  (Dict.get? degradations stage).getD {}

theorem pipelineStages_eq_ok {stages : List Json} (h : pipelineStages resolvedConfig = .ok stages) :
    stages = pipeline resolvedConfig := by
  unfold pipelineStages at h
  split at h
  · cases h
  · rename_i found hfound
    cases h
    obtain ⟨specification, hspec, hfound⟩ := bind_eq_ok.mp hfound
    obtain ⟨media, hmedia, hfound⟩ := bind_eq_ok.mp hfound
    simp [pipeline, Json.field, Json.lookup, get?_of_subscript hspec, get?_of_subscript hmedia,
      get?_of_subscript hfound, Json.elems]
  · cases h

/-- What is generated for a plan: a reference and a recording of each stage. -/
theorem artifacts_of_plan (hplans : buildStagePlan resolvedConfig = .ok plans)
    (hnodup : (plans.map StagePlan.stage).Nodup)
    (h : generateSyntheticArtifacts world resolvedConfig outputRoot spec degradations =
      .ok (artifacts, writes)) :
    spec.Valid ∧ ∃ first references recorded,
      List.Forall₂ (fun plan reference =>
        ReferenceOf world (outputRoot.join "references".toList) spec plan reference.1 reference.2)
          plans references ∧
      List.Forall₂ (fun plan recorded => ∃ stage ∈ pipeline resolvedConfig,
        stageType stage = plan.stage ∧ RecordingOf world resolvedConfig outputRoot spec
          (degradationOf degradations plan.stage) stage plan.stage plan.format recorded) plans recorded ∧
      artifacts.stageReferences = references.map Prod.fst ∧
      artifacts.recordings = recorded.map RecordedStage.recording ∧
      artifacts.metrics = recorded.flatMap RecordedStage.metrics ∧
      first.1 = outputRoot.join "reference.wav".toList ∧
      writes = first :: (references.map Prod.snd ++ recorded.map RecordedStage.write) := by
  obtain ⟨hvalid, plans', stages, first, references, recorded, hplans', hstages, hreferences,
    hrecorded, hlists⟩ := generate_eq_ok h
  cases hplans.symm.trans hplans'
  obtain rfl := pipelineStages_eq_ok hstages
  refine ⟨hvalid, first, references, recorded, hreferences, ?_, hlists⟩
  have hof := (buildStagePlan_eq_ok hplans).2
  have hwithout : List.Forall₂ (fun stage recorded => ∃ n, recordStage world resolvedConfig outputRoot
      spec degradations (plansByStage plans) (stage, n) = .ok recorded) (pipeline resolvedConfig)
        recorded := by
    have hfst : (pipeline resolvedConfig).zipIdx.map Prod.fst = pipeline resolvedConfig :=
      List.zipIdx_map_fst 0 _
    rw [← hfst, List.forall₂_map_left_iff]
    exact hrecorded.imp fun stage _ hstage => ⟨stage.2, hstage⟩
  have hpairs := forall₂_of_common hof hwithout
  have hmem : ∀ plan ∈ plans, Dict.get? (plansByStage plans) plan.stage = some plan :=
    fun plan hplan => Dict.get?_foldl_set_of_mem hnodup hplan
  refine (List.forall₂_iff_get.mpr ⟨hpairs.length_eq, fun i hi hi' => ?_⟩)
  obtain ⟨stage, hstage, hplan, n, hrecord⟩ := (List.forall₂_iff_get.mp hpairs).2 i hi hi'
  obtain ⟨stageName, plan, hname, hget, hrecording⟩ := recordStage_eq_ok hrecord
  obtain ⟨htext, htype⟩ := stagePlan_eq_ok hplan
  obtain ⟨value, hvalue, hname⟩ := bind_eq_ok.mp hname
  rw [get?_of_subscript hvalue, Option.bind_some, nameOf_eq_ok hname, Option.some.injEq] at htext
  rw [htext, hmem _ (List.get_mem _ _), Option.some.injEq] at hget
  rw [← hget, htext] at hrecording
  exact ⟨stage, hstage, htype, hrecording⟩

/-! ## Files -/

/-- Below one directory the references and the recordings of plain stages have places of their
own. -/
theorem nodup_places {references : List (StageReferenceArtifact × WavWrite)}
    {recorded : List RecordedStage} (hplain : PlainStages plans)
    (hreferences : List.Forall₂ (fun plan reference =>
      ReferenceOf world (outputRoot.join "references".toList) spec plan reference.1 reference.2)
        plans references)
    (hrecorded : List.Forall₂ (fun plan recorded => ∃ stage ∈ pipeline resolvedConfig,
      stageType stage = plan.stage ∧ RecordingOf world resolvedConfig outputRoot spec
        (degradationOf degradations plan.stage) stage plan.stage plan.format recorded) plans recorded) :
    ((references.map Prod.snd ++ recorded.map RecordedStage.write).map fun write =>
      walk [] write.1.parts).Nodup := by
  have hnames := hplain.nodup
  have hinj : ∀ dir middle : List Name,
      Function.Injective fun stage => dir ++ (middle ++ [fileName stage]) :=
    fun dir middle stage stage' h => fileName_inj
      (List.singleton_inj.mp (List.append_cancel_left (List.append_cancel_left h)))
  have hfirst : references.map (fun reference => walk [] reference.2.1.parts) =
      (plans.map StagePlan.stage).map fun stage =>
        walk [] outputRoot.parts ++ (["references".toList] ++ [fileName stage]) := by
    rw [List.map_map]
    exact map_eq_of_forall₂ ((List.forall₂_and_left plans _).mpr ⟨hplain.plain, hreferences⟩)
      fun plan reference ⟨hslash, hof⟩ => place_of_reference hslash hof
  have hsecond : recorded.map (fun recorded => walk [] recorded.write.1.parts) =
      (plans.map StagePlan.stage).map fun stage =>
        walk [] outputRoot.parts ++ ([] ++ [fileName stage]) := by
    rw [List.map_map]
    exact map_eq_of_forall₂ ((List.forall₂_and_left plans _).mpr ⟨hplain.plain, hrecorded⟩)
      fun plan recorded ⟨hslash, stage, _, _, hof⟩ => place_of_recording hslash hof
  rw [List.map_append, List.map_map, List.map_map, Function.comp_def, Function.comp_def, hfirst,
    hsecond, List.nodup_append]
  refine ⟨hnames.map (hinj _ _), hnames.map (hinj _ _), ?_⟩
  intro place hplace place' hplace' heq
  obtain ⟨stage, -, rfl⟩ := List.mem_map.mp hplace
  obtain ⟨stage', -, rfl⟩ := List.mem_map.mp hplace'
  have hlength := congrArg List.length heq
  simp at hlength

/-- A file that is written at a place of its own stays there. -/
theorem leftOnDisk_of_mem {disk : WavDisk} {first write : WavWrite} {later : List WavWrite}
    (hnodup : (later.map fun write => walk [] write.1.parts).Nodup) (hwrite : write ∈ later) :
    leftOnDisk disk (first :: later) (walk [] write.1.parts) = some write.2 := by
  rw [leftOnDisk, List.map_cons, Writes.apply, List.foldl_cons, ← Writes.apply]
  apply Writes.apply_of_mem
  · rwa [List.map_map]
  · exact List.mem_map.mpr ⟨write, hwrite, rfl⟩

/-- A file is read by its URI. -/
theorem files_asUri (reading : Reading) {disk : WavDisk} {path : PurePath} {uri : String}
    {file : Verification.WavFile} (hpath : path.WellFormed) (habsolute : path.root ≠ [])
    (huri : uri = asUri path) (hdisk : disk (walk [] path.parts) = some file) :
    reading.files disk uri = .ok file := by
  rw [huri, Reading.files, (readers_asUri reading.check reading.decoder hpath habsolute).2.1]
  simp only [hdisk]

theorem degradedSpec_of_scales {degradation : SyntheticStageDegradation}
    (hduration : degradation.durationScale = 1) (hlevel : degradation.levelScale = 1)
    (rate channels : ℤ) : degradedSpec spec degradation rate channels =
      { spec with sampleRateHz := rate, channels := channels } := by
  rw [degradedSpec, hduration, hlevel, mul_one, mul_one, roundHalfEven_intCast]

/-- The two files of a stage, as they are read from the disk. -/
structure StageFiles (world : Surroundings) (spec : SyntheticAudioSpec)
    (degradation : SyntheticStageDegradation) (files : WavFiles) (plan : StagePlan)
    (reference : StageReferenceArtifact) (recording : RecordingArtifact) : Prop where
  stages : reference.stage = plan.stage ∧ recording.stage = plan.stage
  formats : reference.comparisonFormat = recording.format
  format : reference.comparisonFormat =
    comparisonFormat (rateOf plan.format) (valueOf plan.format "channels")
  ready : reference.comparisonReady = Comparable plan.format
  reason : ∃ text, hashableText world (valueOf plan.format "encoding") = .ok text ∧
    reference.blockedReason = if Comparable plan.format then none
      else some ("codec-round-trip-required:" ++ text)
  tones : ∃ rate channels file file', HasFormat plan.format rate channels ∧ rate < 2 ^ 32 ∧
    files reference.uri = .ok file ∧ files recording.uri = .ok file' ∧
    sineWav world.sine { spec with sampleRateHz := rate, channels := channels }
      (codecRoundTripOf (valueOf plan.format "encoding") rate) = .ok file ∧
    (degradedSpec spec degradation rate channels).Valid ∧
    sineWav world.sine (degradedSpec spec degradation rate channels)
      (codecRoundTripOf (valueOf plan.format "encoding") rate) = .ok file' ∧
    (degradation.durationScale = 1 → degradation.levelScale = 1 → file' = file)

theorem stages_of_artifacts (hplans : buildStagePlan resolvedConfig = .ok plans)
    (hnodup : (plans.map StagePlan.stage).Nodup)
    (h : generateSyntheticArtifacts world resolvedConfig outputRoot spec degradations =
      .ok (artifacts, writes)) :
    artifacts.stageReferences.map StageReferenceArtifact.stage = plans.map StagePlan.stage ∧
      artifacts.recordings.map RecordingArtifact.stage = plans.map StagePlan.stage := by
  obtain ⟨-, first, references, recorded, hreferences, hrecorded, hreferenceList, hrecordingList, -⟩ :=
    artifacts_of_plan hplans hnodup h
  rw [hreferenceList, hrecordingList, List.map_map, List.map_map]
  exact ⟨map_eq_of_forall₂ hreferences fun _ _ hof => hof.stage,
    map_eq_of_forall₂ hrecorded fun _ _ ⟨_, _, _, hof⟩ => hof.stage⟩

/-- The report of a sample, beside its recordings. -/
def reportName : Name := "verification-report.json".toList

theorem fileName_ne_reportName (stage : String) : fileName stage ≠ reportName := by
  intro h
  have hwav : ".wav".toList.getLast? = some 'v' := by decide
  have hreport : reportName.getLast? = some 'n' := by decide
  have hlast := congrArg List.getLast? h
  rw [fileName, List.getLast?_append, hwav, hreport, Option.some_or] at hlast
  exact absurd hlast (by decide)

/-- The files of a stage, on any disk that has kept what was written below the directory, the
report apart. -/
theorem exists_stageFiles_of_kept (reading : Reading) (hroot : outputRoot.WellFormed)
    (hplans : buildStagePlan resolvedConfig = .ok plans) (hplain : PlainStages plans)
    (h : generateSyntheticArtifacts world resolvedConfig outputRoot spec degradations =
      .ok (artifacts, writes)) {disk later : WavDisk}
    (hkept : ∀ names, names ≠ [reportName] → later (walk [] outputRoot.parts ++ names) =
      leftOnDisk disk writes (walk [] outputRoot.parts ++ names))
    {plan : StagePlan} (hplan : plan ∈ plans) :
    ∃ reference ∈ artifacts.stageReferences, ∃ recording ∈ artifacts.recordings,
      StageFiles world spec (degradationOf degradations plan.stage) (reading.files later) plan
        reference recording := by
  obtain ⟨-, first, references, recorded, hreferences, hrecorded, hreferenceList, hrecordingList, -, -,
    rfl⟩ := artifacts_of_plan hplans hplain.nodup h
  have hnodup := nodup_places hplain hreferences hrecorded
  rw [hreferenceList, hrecordingList]
  obtain ⟨⟨reference, write⟩, hreference, hof⟩ := exists_mem_of_forall₂ hreferences.flip hplan
  obtain ⟨recorded, hrecordedMem, stage, -, -, hof'⟩ := exists_mem_of_forall₂ hrecorded.flip hplan
  refine ⟨reference, List.mem_map.mpr ⟨_, hreference, rfl⟩, recorded.recording,
    List.mem_map_of_mem hrecordedMem, ⟨hof.stage, hof'.stage⟩, hof.format.trans hof'.format.symm,
    hof.format, hof.ready, hof.reason, ?_⟩
  obtain ⟨rate, channels, hformat, -, hfile⟩ := hof.file
  obtain ⟨rate', channels', hformat', hlt, hvalid, hfile'⟩ := hof'.file
  obtain ⟨rfl, rfl⟩ := hformat.unique hformat'
  refine ⟨rate, channels, write.2, recorded.write.2, hformat, hlt, ?_, ?_, hfile, hvalid, hfile', ?_⟩
  · refine files_asUri reading ?_ hof.absolute hof.uri ?_
    · rw [hof.path]
      exact (hroot.join _).join _
    · have hplace := place_of_reference (hplain.plain plan hplan) hof
      rw [hplace, hkept _ (by simp), ← hplace]
      exact leftOnDisk_of_mem hnodup
        (List.mem_append_left _ (List.mem_map.mpr ⟨_, hreference, rfl⟩))
  · refine files_asUri reading ?_ hof'.absolute hof'.uri ?_
    · rw [hof'.path]
      exact hroot.join _
    · have hplace := place_of_recording (hplain.plain plan hplan) hof'
      rw [hplace, hkept _ (by simpa using fileName_ne_reportName plan.stage), ← hplace]
      exact leftOnDisk_of_mem hnodup (List.mem_append_right _ (List.mem_map_of_mem hrecordedMem))
  · intro hduration hlevel
    rw [degradedSpec_of_scales hduration hlevel, hfile] at hfile'
    exact (Except.ok.inj hfile').symm

theorem exists_stageFiles (reading : Reading) (hroot : outputRoot.WellFormed)
    (hplans : buildStagePlan resolvedConfig = .ok plans) (hplain : PlainStages plans)
    (h : generateSyntheticArtifacts world resolvedConfig outputRoot spec degradations =
      .ok (artifacts, writes)) (disk : WavDisk) {plan : StagePlan} (hplan : plan ∈ plans) :
    ∃ reference ∈ artifacts.stageReferences, ∃ recording ∈ artifacts.recordings,
      StageFiles world spec (degradationOf degradations plan.stage)
        (reading.files (leftOnDisk disk writes)) plan reference recording :=
  exists_stageFiles_of_kept reading hroot hplans hplain h (fun _ _ => rfl) hplan

/-- All that is written is below the directory. -/
theorem places_below (hplans : buildStagePlan resolvedConfig = .ok plans) (hplain : PlainStages plans)
    (h : generateSyntheticArtifacts world resolvedConfig outputRoot spec degradations =
      .ok (artifacts, writes)) {write : WavWrite} (hwrite : write ∈ writes) :
    walk [] outputRoot.parts <+: walk [] write.1.parts := by
  obtain ⟨-, first, references, recorded, hreferences, hrecorded, -, -, -, hfirst, rfl⟩ :=
    artifacts_of_plan hplans hplain.nodup h
  rcases List.mem_cons.mp hwrite with rfl | hwrite
  · rw [hfirst, walk_join_name outputRoot (by decide) (by decide)]
    exact List.prefix_append _ _
  rcases List.mem_append.mp hwrite with hwrite | hwrite
  · obtain ⟨reference, hreference, rfl⟩ := List.mem_map.mp hwrite
    obtain ⟨plan, hplan, hof⟩ := exists_mem_of_forall₂ hreferences hreference
    rw [place_of_reference (hplain.plain plan hplan) hof]
    exact List.prefix_append _ _
  · obtain ⟨stage, hstage, rfl⟩ := List.mem_map.mp hwrite
    obtain ⟨plan, hplan, _, -, -, hof⟩ := exists_mem_of_forall₂ hrecorded hstage
    rw [place_of_recording (hplain.plain plan hplan) hof]
    exact List.prefix_append _ _

end Artifacts

/-- **Files of a synthetic run.** For stage types that differ and are plain names: each stage has
one reference and one recording, of one format, and whatever is written later, their URIs lead to
the tone in this format and to the degraded tone. Where the degradation does not scale the tone,
the recording is the reference, byte for byte. -/
theorem synthetic_files {world : Surroundings} {resolvedConfig : Json} {outputRoot : PurePath}
    {spec : SyntheticAudioSpec} {degradations : List (String × SyntheticStageDegradation)}
    {artifacts : SyntheticArtifacts} {writes : List WavWrite} {plans : List StagePlan}
    (reading : Reading) (hroot : outputRoot.WellFormed)
    (hplans : buildStagePlan resolvedConfig = .ok plans) (hplain : PlainStages plans)
    (h : generateSyntheticArtifacts world resolvedConfig outputRoot spec degradations =
      .ok (artifacts, writes)) (disk : WavDisk) :
    artifacts.stageReferences.map StageReferenceArtifact.stage = plans.map StagePlan.stage ∧
      artifacts.recordings.map RecordingArtifact.stage = plans.map StagePlan.stage ∧
      ∀ plan ∈ plans, ∃ reference ∈ artifacts.stageReferences, ∃ recording ∈ artifacts.recordings,
        StageFiles world spec (degradationOf degradations plan.stage)
          (reading.files (leftOnDisk disk writes)) plan reference recording := by
  obtain ⟨hreferences, hrecordings⟩ := stages_of_artifacts hplans hplain.nodup h
  exact ⟨hreferences, hrecordings,
    fun plan => exists_stageFiles reading hroot hplans hplain h disk⟩

/-- A tone without an amplitude. -/
def silentWorld : Surroundings where
  sine := ⟨fun _ _ _ _ => 0, fun _ _ _ _ h => by simpa using h⟩
  floatRepr := fun _ => ""
  now := fun _ => .utc 0
  makes := fun _ => true
  opens := fun _ => true

def codedStage (type encoding : String) : Json :=
  .obj [("type", .str type), ("plugin", .str type),
    ("io", .obj [("produces", .obj [("encoding", .str encoding), ("rate", .int 8000),
      ("channels", .int 1)])]),
    ("invariants_applicable", .arr [.str "duration_preserving"])]

def codedConfig : Json :=
  .obj [("spec", .obj [("media", .obj [("pipeline",
    .arr [codedStage "agc" "pcm16", codedStage "serializer" "mulaw"])])])]

def silentSpec : SyntheticAudioSpec := ⟨8000, 1, 1 / 1000, 0, 100⟩

def rootPath : PurePath := ⟨['/'], []⟩

def plainReading : Reading := ⟨plainCheck, markingDecoder, noMath⟩

theorem safeName_fixed : safeName "fixed" = true ∧ safeName "fixed_score" = true := by decide

theorem fixed_range : (1 : ℚ) < 5 := by norm_num

/-- A scorer that is there, and gives every pair the same score. -/
def fixedScorer : DiskScorer where
  contract := ⟨"fixed", "fixed_score", 1, 5, safeName_fixed.1, safeName_fixed.2, fixed_range⟩
  readiness := fun _ => some ⟨true, none⟩
  score := fun _ _ => .number (.finite 4)

theorem generate_coded : ∃ artifacts writes,
    generateSyntheticArtifacts silentWorld codedConfig rootPath silentSpec [] =
      .ok (artifacts, writes) := by
  have hsome : (generateSyntheticArtifacts silentWorld codedConfig rootPath silentSpec []).toOption.isSome =
      true := by
    decide +kernel
  cases hgenerate : generateSyntheticArtifacts silentWorld codedConfig rootPath silentSpec [] with
  | error e => simp [hgenerate, Except.toOption] at hsome
  | ok result => exact ⟨result.1, result.2, rfl⟩

theorem plans_coded : ∃ plans, buildStagePlan codedConfig = .ok plans ∧ PlainStages plans ∧
    plans.map StagePlan.stage = ["agc", "serializer"] ∧
    ∀ plan ∈ plans, asInt? (rateOf plan.format) = some 8000 := by
  obtain ⟨plans, hplans, hnames, hrates⟩ : ∃ plans, buildStagePlan codedConfig = .ok plans ∧
      plans.map StagePlan.stage = ["agc", "serializer"] ∧
      plans.map (fun plan => asInt? (rateOf plan.format)) = [some 8000, some 8000] :=
    ⟨_, rfl, rfl, rfl⟩
  refine ⟨plans, hplans, ⟨?_, ?_⟩, hnames, ?_⟩
  · rw [hnames]
    decide
  · intro plan hplan
    have hmem := List.mem_map_of_mem (f := StagePlan.stage) hplan
    rw [hnames, List.mem_cons, List.mem_singleton] at hmem
    rcases hmem with hmem | hmem <;> rw [hmem] <;> decide
  · intro plan hplan
    have hmem := List.mem_map_of_mem (f := fun plan => asInt? (rateOf plan.format)) hplan
    simpa [hrates] using hmem

theorem wellFormed_rootPath : rootPath.WellFormed := ⟨by decide, by decide⟩

theorem synthetic_files_coded : ∃ artifacts writes,
    generateSyntheticArtifacts silentWorld codedConfig rootPath silentSpec [] = .ok (artifacts, writes) ∧
      artifacts.recordings.map RecordingArtifact.stage = ["agc", "serializer"] := by
  obtain ⟨artifacts, writes, h⟩ := generate_coded
  obtain ⟨plans, hplans, hplain, hnames, -⟩ := plans_coded
  refine ⟨artifacts, writes, h, ?_⟩
  rw [(synthetic_files plainReading wellFormed_rootPath hplans hplain h fun _ => none).2.1, hnames]

/-! ## What is read of a tone -/

section Tones

variable {sine : Sine} {spec : SyntheticAudioSpec} {codecRoundTrip : Option String}
  {file : Verification.WavFile}

theorem length_sineSamples :
    (sineSamples sine spec).length = sineFrameCount spec * spec.channels.toNat := by
  simp [sineSamples, List.length_flatMap]

theorem sineWav_eq_ok (h : sineWav sine spec codecRoundTrip = .ok file) :
    file.nchannels = spec.channels.toNat ∧ file.sampwidth = 2 ∧
      file.framerate = spec.sampleRateHz.toNat ∧
      file.nframes = file.frames.length / (2 * spec.channels.toNat) ∧
      file.frames.length = 2 * (sineFrameCount spec * spec.channels.toNat) := by
  obtain ⟨frames, hframes, h⟩ := bind_eq_ok.mp h
  cases h
  refine ⟨rfl, rfl, rfl, rfl, ?_⟩
  have hlength : frames.length = (packSamples (sineSamples sine spec)).length := by
    unfold codecRoundTripped at hframes
    split at hframes
    · cases hframes
      rfl
    · split_ifs at hframes
      split at hframes
      · rename_i coded hcoded
        cases hframes
        exact (codec_eq_ok hcoded).2
      · cases hframes
  rw [hlength, length_packSamples, length_sineSamples]

theorem counts_sineFrameCount (hvalid : spec.Valid)
    (h : FitsRate (spec.durationSeconds * 1000) spec.sampleRateHz) :
    Counts (spec.durationSeconds * 1000) spec.sampleRateHz (sineFrameCount spec) := by
  refine ⟨_, ?_, rfl⟩
  have hone := one_le_of_fitsRate (mul_pos hvalid.duration (by norm_num)) hvalid.rate h
  rw [mul_div_cancel_right₀ _ (by norm_num)] at hone ⊢
  have hunit : 1 / 2 ^ 32 ≤ spec.sampleRateHz * spec.durationSeconds := by
    norm_num at hone ⊢
    linarith
  obtain ⟨hlo, hhi⟩ := nearest_bounds hunit
  norm_num at hlo hhi ⊢
  rw [abs_le]
  constructor <;> linarith

/-- A tone is read, and has its duration up to the rounding of the number of frames. -/
theorem readWavStats_tone (hvalid : spec.Valid) (h : sineWav sine spec codecRoundTrip = .ok file)
    {files : WavFiles} {recording : RecordingArtifact} (hfile : files recording.uri = .ok file) :
    ∃ stats, readWavStats files recording = .ok stats ∧
      stats.durationMs = nearest (nearest (sineFrameCount spec / spec.sampleRateHz) * 1000) := by
  obtain ⟨-, hwidth, hrate, hframes, hlength⟩ := sineWav_eq_ok h
  have hpos := hvalid.rate
  have hchannels := hvalid.channels
  have hcount : file.nframes = sineFrameCount spec := by
    rw [hframes, hlength, Nat.mul_left_comm, Nat.mul_div_cancel _ (by omega)]
  have hframerate : spec.sampleRateHz.toNat > 0 := by omega
  have hcast : ((spec.sampleRateHz.toNat : ℕ) : ℚ) = spec.sampleRateHz := by
    exact_mod_cast Int.toNat_of_nonneg hpos.le
  have heven : file.frames.length % 2 = 0 := by omega
  simp only [readWavStats, hfile, bind, Except.bind, hwidth, hrate, if_pos hframerate, hcast, hcount,
    heven, ne_eq, not_true_eq_false, if_false]
  split_ifs
  · exact ⟨_, rfl, rfl⟩
  · exact ⟨_, rfl, rfl⟩
  · exact ⟨_, rfl, rfl⟩

end Tones

/-! ## Checks -/

section Checks

variable {world : Surroundings} {resolvedConfig : Json} {outputRoot : PurePath}
  {spec : SyntheticAudioSpec} {degradations : List (String × SyntheticStageDegradation)}
  {artifacts : SyntheticArtifacts} {writes : List WavWrite} {plans : List StagePlan}

/-- What is on the disk for a recording. -/
theorem tone_of_recording (reading : Reading) (hroot : outputRoot.WellFormed)
    (hplans : buildStagePlan resolvedConfig = .ok plans) (hplain : PlainStages plans)
    (h : generateSyntheticArtifacts world resolvedConfig outputRoot spec degradations =
      .ok (artifacts, writes)) (disk : WavDisk) {recording : RecordingArtifact}
    (hrecording : recording ∈ artifacts.recordings) :
    ∃ plan ∈ plans, ∃ rate channels file, HasFormat plan.format rate channels ∧ rate < 2 ^ 32 ∧
      (degradedSpec spec (degradationOf degradations plan.stage) rate channels).Valid ∧
      sineWav world.sine (degradedSpec spec (degradationOf degradations plan.stage) rate channels)
        (codecRoundTripOf (valueOf plan.format "encoding") rate) = .ok file ∧
      reading.files (leftOnDisk disk writes) recording.uri = .ok file := by
  have hstages := (stages_of_artifacts hplans hplain.nodup h).2
  have hmem := List.mem_map_of_mem (f := RecordingArtifact.stage) hrecording
  rw [hstages] at hmem
  obtain ⟨plan, hplan, hname⟩ := List.mem_map.mp hmem
  obtain ⟨reference, -, recording', hrecording', hfiles⟩ :=
    exists_stageFiles reading hroot hplans hplain h disk hplan
  -- the types differ, so that this is the recording
  obtain rfl : recording' = recording := by
    refine List.inj_on_of_nodup_map ?_ hrecording' hrecording (hfiles.stages.2.trans hname)
    rw [hstages]
    exact hplain.nodup
  obtain ⟨rate, channels, -, file, hformat, hlt, -, hfile, -, hvalid, htone, -⟩ := hfiles.tones
  exact ⟨plan, hplan, rate, channels, file, hformat, hlt, hvalid, htone, hfile⟩

/-- The `ptime_ms` of a config is a float where it is a number, and so is the number of its frames
in a tone where it is positive. -/
structure PtimeIsFloat (resolvedConfig : Json) (spec : SyntheticAudioSpec) : Prop where
  ptime : ∀ ptimeMs ∈ configPtimeMs resolvedConfig, (roundDouble ptimeMs).isSome
  frames : ∀ ptimeMs ∈ positivePtime resolvedConfig,
    (roundDouble (spec.durationSeconds * 1000 / ptimeMs)).isSome

/-- A run never fails after its artifacts have been generated, where the interval is a float. -/
theorem exists_run (reading : Reading) (observedAt : Datetime) (hroot : outputRoot.WellFormed)
    (hplans : buildStagePlan resolvedConfig = .ok plans) (hplain : PlainStages plans)
    (hptime : PtimeIsFloat resolvedConfig spec) (scorer : DiskScorer) (disk : WavDisk)
    (h : generateSyntheticArtifacts world resolvedConfig outputRoot spec degradations =
      .ok (artifacts, writes)) :
    ∃ results, verifyRecordings (reading.files (leftOnDisk disk writes)) reading.math {} resolvedConfig
        artifacts.recordings artifacts.metrics = .ok results ∧
      ∃ run, runSyntheticVerification world reading observedAt resolvedConfig outputRoot spec scorer
          degradations disk = .ok (run, leftOnDisk disk writes) ∧
        run.artifacts = artifacts ∧ run.invariantResults = results ∧
        run.fullReference = ScoringRun.report ⟨artifacts.stageReferences.map
          StageReferenceArtifact.toReference, artifacts.recordings,
            scorer.on (leftOnDisk disk writes)⟩ ∧
        run.state = verificationState results run.fullReference ∧
        run.metrics = artifacts.metrics ++ fullReferenceScoresToMetrics run.fullReference observedAt := by
  have hread : ∀ recording ∈ artifacts.recordings, ∃ stats,
      readWavStats (reading.files (leftOnDisk disk writes)) recording = .ok stats := by
    intro recording hrecording
    obtain ⟨plan, -, rate, channels, file, -, -, hvalid, htone, hfile⟩ :=
      tone_of_recording reading hroot hplans hplain h disk hrecording
    exact (readWavStats_tone hvalid htone hfile).imp fun _ => And.left
  obtain ⟨results, hresults⟩ := @exists_verify_of_readable
    (evidence (reading.files (leftOnDisk disk writes)) reading.math {} resolvedConfig
      artifacts.recordings artifacts.metrics) hread (pipeline resolvedConfig)
    fun _ _ _ _ => hptime.ptime
  have hverified : verifyRecordings (reading.files (leftOnDisk disk writes)) reading.math {}
      resolvedConfig artifacts.recordings artifacts.metrics = .ok results := hresults
  refine ⟨results, hverified, ?_⟩
  rw [runSyntheticVerification, h]
  simp only [hverified]
  exact ⟨_, rfl, rfl, rfl, rfl, rfl, rfl⟩

/-- The metrics of stages without a degradation are steady. -/
theorem steady_artifacts (hplans : buildStagePlan resolvedConfig = .ok plans)
    (hnodup : (plans.map StagePlan.stage).Nodup)
    (hnone : ∀ plan ∈ plans, degradationOf degradations plan.stage = {})
    (h : generateSyntheticArtifacts world resolvedConfig outputRoot spec degradations =
      .ok (artifacts, writes)) :
    ∃ frames, SteadyMetrics frames artifacts.metrics := by
  obtain ⟨-, first, references, recorded, -, hrecorded, -, -, hmetrics, -⟩ :=
    artifacts_of_plan hplans hnodup h
  refine ⟨(((positivePtime resolvedConfig).bind roundDouble).map
    (spec.durationSeconds * 1000 / ·)).getD 0, ?_⟩
  intro metric hmetric _
  rw [hmetrics] at hmetric
  obtain ⟨recorded, hmem, hmetric⟩ := List.mem_flatMap.mp hmetric
  obtain ⟨plan, hplan, stage, -, -, hof⟩ := exists_mem_of_forall₂ hrecorded hmem
  obtain ⟨ts, hts⟩ := hof.metrics
  rw [hnone plan hplan] at hts
  unfold cadenceMetrics at hts
  by_cases hdeclared : "isochronous" ∉ (stage.field ["invariants_applicable"]).texts
  · rw [if_pos hdeclared, Except.ok.injEq] at hts
    rw [← hts] at hmetric
    cases hmetric
  rw [if_neg hdeclared] at hts
  cases hptime : positivePtime resolvedConfig with
  | none =>
      simp only [hptime, Option.map_none, Except.ok.injEq] at hts
      rw [← hts] at hmetric
      cases hmetric
  | some ptimeMs =>
      cases hround : roundDouble ptimeMs with
      | none => simp [hptime, hround] at hts
      | some intervalMs =>
          simp only [hptime, Option.map_some, hround, Except.ok.injEq] at hts
          rw [← hts] at hmetric
          simp only [List.mem_cons, List.not_mem_nil, or_false] at hmetric
          rcases hmetric with rfl | rfl | rfl | rfl <;> simp [hround]

/-- What the file of a tone depends on, besides the tone. -/
def toneFormat (format : Json) : Option ℤ × Option ℤ × Option String :=
  (asInt? (rateOf format), asInt? (valueOf format "channels"),
    codecRoundTripOf (valueOf format "encoding") ((asInt? (rateOf format)).getD 0))

theorem toneFormat_eq {format : Json} {rate channels : ℤ} (h : HasFormat format rate channels) :
    toneFormat format =
      (some rate, some channels, codecRoundTripOf (valueOf format "encoding") rate) := by
  rw [toneFormat, h.rate, h.channels]
  rfl

section Undegraded

variable (reading : Reading) (hroot : outputRoot.WellFormed)
  (hplans : buildStagePlan resolvedConfig = .ok plans) (hplain : PlainStages plans)
  (hnone : ∀ plan ∈ plans, degradationOf degradations plan.stage = {})
  (h : generateSyntheticArtifacts world resolvedConfig outputRoot spec degradations =
    .ok (artifacts, writes)) (disk : WavDisk)
include hroot hplans hplain hnone h

theorem undegraded_tone {recording : RecordingArtifact} (hrecording : recording ∈ artifacts.recordings) :
    ∃ plan ∈ plans, ∃ rate channels file, HasFormat plan.format rate channels ∧ rate < 2 ^ 32 ∧
      ({ spec with sampleRateHz := rate, channels := channels } : SyntheticAudioSpec).Valid ∧
      sineWav world.sine { spec with sampleRateHz := rate, channels := channels }
        (codecRoundTripOf (valueOf plan.format "encoding") rate) = .ok file ∧
      reading.files (leftOnDisk disk writes) recording.uri = .ok file := by
  obtain ⟨plan, hplan, rate, channels, file, hformat, hlt, hvalid, htone, hfile⟩ :=
    tone_of_recording reading hroot hplans hplain h disk hrecording
  rw [degradedSpec_of_scales (by rw [hnone plan hplan]) (by rw [hnone plan hplan])] at hvalid htone
  exact ⟨plan, hplan, rate, channels, file, hformat, hlt, hvalid, htone, hfile⟩

/-- Only a comparison of levels can fail. -/
theorem failed_undegraded
    (hfits : ∀ plan ∈ plans, ∀ rate ∈ asInt? (rateOf plan.format),
      FitsRate (spec.durationSeconds * 1000) rate)
    {results : List VerificationResult}
    (hresults : verifyRecordings (reading.files (leftOnDisk disk writes)) reading.math {}
      resolvedConfig artifacts.recordings artifacts.metrics = .ok results) :
    ∀ r ∈ results, r.passed = false → r.invariant = "level_preserving" := by
  obtain ⟨frames, hsteady⟩ := steady_artifacts hplans hplain.nodup hnone h
  refine @forall_mem_walk (evidence (reading.files (leftOnDisk disk writes)) reading.math {}
    resolvedConfig artifacts.recordings artifacts.metrics)
    (fun r => r.passed = false → r.invariant = "level_preserving")
    (NearDuration (spec.durationSeconds * 1000)) _ none _ ?_ ?_ ?_ nofun hresults
  · intro recording hrecording stats hstats
    obtain ⟨plan, hplan, rate, channels, file, hformat, hlt, hvalid, htone, hfile⟩ :=
      undegraded_tone reading hroot hplans hplain hnone h disk hrecording
    obtain ⟨stats', hstats', hduration⟩ := readWavStats_tone hvalid htone hfile
    cases hstats'.symm.trans hstats
    have hpos : 0 < spec.durationSeconds * 1000 := mul_pos hvalid.duration (by norm_num)
    right
    rw [hduration]
    have hrate := hfits plan hplan rate hformat.rate
    exact ⟨hpos, durationMs_bounds hpos hvalid.rate hlt hrate (counts_sineFrameCount hvalid hrate)⟩
  · intro stage _ found hfound result hresult hfailed
    rw [(passed_isochronous rfl hsteady hfound hresult).1] at hfailed
    cases hfailed
  · intro stage name previous current invariant result hprevious hcurrent hinvariant hsignal hfailed
    by_cases hlossy : lossyExpectedReasons stage invariant = []
    · rw [Evidence.signalResult, if_neg (not_not.mpr hlossy)] at hsignal
      rcases invariant_cases hinvariant with rfl | rfl
      · rw [if_pos rfl] at hsignal
        rw [(passed_verifyDuration hprevious hcurrent hsignal).1] at hfailed
        cases hfailed
      · rw [if_neg (by decide)] at hsignal
        unfold verifyLevel at hsignal
        split at hsignal
        · split_ifs at hsignal
          obtain rfl := Option.some.inj hsignal
          rfl
        · cases hsignal
    · rw [Evidence.signalResult, if_pos hlossy] at hsignal
      obtain rfl := Option.some.inj hsignal
      cases hfailed

/-- Where all formats agree, no check fails. -/
theorem passed_undegraded
    (hsame : ∀ plan ∈ plans, ∀ plan' ∈ plans, toneFormat plan.format = toneFormat plan'.format)
    {results : List VerificationResult}
    (hresults : verifyRecordings (reading.files (leftOnDisk disk writes)) reading.math {}
      resolvedConfig artifacts.recordings artifacts.metrics = .ok results) :
    ∀ r ∈ results, r.passed = true := by
  obtain ⟨frames, hsteady⟩ := steady_artifacts hplans hplain.nodup hnone h
  set files := reading.files (leftOnDisk disk writes)
  -- all recordings are read as the same numbers
  have hequal : ∀ first ∈ artifacts.recordings, ∀ second ∈ artifacts.recordings,
      readWavStats files first = readWavStats files second := by
    intro first hfirst second hsecond
    obtain ⟨plan, hplan, rate, channels, file, hformat, -, -, htone, hfile⟩ :=
      undegraded_tone reading hroot hplans hplain hnone h disk hfirst
    obtain ⟨plan', hplan', rate', channels', file', hformat', -, -, htone', hfile'⟩ :=
      undegraded_tone reading hroot hplans hplain hnone h disk hsecond
    have heq := hsame plan hplan plan' hplan'
    rw [toneFormat_eq hformat, toneFormat_eq hformat', Prod.mk.injEq, Prod.mk.injEq,
      Option.some.injEq, Option.some.injEq] at heq
    obtain ⟨rfl, rfl, hcodec⟩ := heq
    rw [hcodec, htone', Except.ok.injEq] at htone
    simp only [readWavStats, files, hfile, hfile', htone]
  refine @forall_mem_walk (evidence files reading.math {} resolvedConfig artifacts.recordings
    artifacts.metrics) (fun r => r.passed = true)
    (fun stats => ∃ recording ∈ artifacts.recordings, readWavStats files recording = .ok stats)
    _ none _ ?_ ?_ ?_ (by simp) hresults
  · exact fun recording hrecording stats hstats => ⟨recording, hrecording, hstats⟩
  · exact fun stage _ found hfound result hresult =>
      (passed_isochronous rfl hsteady hfound hresult).1
  · rintro stage name previous current invariant result ⟨first, hfirst, hprevious⟩
      ⟨second, hsecond, hcurrent⟩ - hsignal
    rw [hequal first hfirst second hsecond, hcurrent, Except.ok.injEq] at hprevious
    rw [hprevious] at hsignal
    exact passed_signalResult_self rfl hsignal

end Undegraded

end Checks

/-! ## Scores -/

section Selection

variable {recordings : List (String × RecordingArtifact)} {references : List StageReference}

/-- The pair of a reference and the recording of its stage. -/
def pairOf (recordings : List (String × RecordingArtifact)) (reference : StageReference) :
    Option FullReferenceCandidate :=
  (Dict.get? recordings reference.stage).map fun recording => {
    stage := reference.stage
    referenceUri := reference.uri
    degradedUri := recording.uri
    comparisonFormat := reference.comparisonFormat
    degradedFormat := recording.format
    transformations := reference.transformations }

/-- References that are ready have a recording of their format. -/
def Recorded (recordings : List (String × RecordingArtifact)) (reference : StageReference) : Prop :=
  reference.comparisonReady = true → ∃ recording, Dict.get? recordings reference.stage = some recording ∧
    comparisonFormatsMatch reference.comparisonFormat recording.format = true

theorem selectReference_of_recorded {seen : List String} {reference : StageReference}
    (hseen : reference.stage ∉ seen) (h : Recorded recordings reference) :
    (reference.comparisonReady = true → ∃ candidate, pairOf recordings reference = some candidate ∧
      selectReference recordings seen reference = .inl candidate) ∧
    (reference.comparisonReady = false →
      selectReference recordings seen reference = .inr ⟨reference.stage, reference.notReadyReason⟩) := by
  constructor
  · intro hready
    obtain ⟨recording, hget, hmatch⟩ := h hready
    refine ⟨_, by rw [pairOf, hget]; rfl, ?_⟩
    simp [selectReference, hseen, hready, hget, hmatch]
  · intro hready
    simp [selectReference, hseen, hready]

/-- Different stages with recordings of their formats are blocked only when they are not ready. -/
theorem selectLoop_of_recorded {seen : List String} {selection : FullReferenceSelection}
    (hnodup : (seen ++ references.map StageReference.stage).Nodup)
    (h : ∀ reference ∈ references, Recorded recordings reference) :
    selectLoop recordings references seen selection =
      ⟨selection.candidates ++ (references.filter (·.comparisonReady)).filterMap (pairOf recordings),
        selection.blocked ++ (references.filter fun reference => !reference.comparisonReady).map
          fun reference => ⟨reference.stage, reference.notReadyReason⟩⟩ := by
  induction references generalizing seen selection with
  | nil => simp [selectLoop]
  | cons reference references ih =>
      obtain ⟨hfirst, hrest⟩ := List.forall_mem_cons.mp h
      have hseen : reference.stage ∉ seen := by
        intro hmem
        exact (List.nodup_append.mp hnodup).2.2 _ hmem _ List.mem_cons_self rfl
      have hnext : (addStage seen reference.stage ++ references.map StageReference.stage).Nodup := by
        rw [addStage, if_neg hseen, List.append_assoc]
        exact hnodup
      obtain ⟨hready, hblocked⟩ := selectReference_of_recorded hseen hfirst
      rw [selectLoop, ih hnext hrest]
      cases hcase : reference.comparisonReady with
      | true =>
          obtain ⟨candidate, hpair, hselect⟩ := hready hcase
          rw [hselect, List.filter_cons_of_pos hcase, List.filter_cons_of_neg (by simp [hcase]),
            List.filterMap_cons_some hpair]
          simp [FullReferenceSelection.add]
      | false =>
          rw [hblocked hcase, List.filter_cons_of_neg (by simp [hcase]),
            List.filter_cons_of_pos (by simp [hcase])]
          simp [FullReferenceSelection.add]

theorem state_checkScore {stage : String} {contract : FullReferenceScorerContract} {score : PyFloat}
    {transformations : List String} :
    (checkScore stage contract score transformations).state ∈
      [FullReferenceScoreState.scored, .failed] := by
  unfold checkScore
  split
  · split_ifs <;> simp [scoreResult]
  · simp [scoreResult]

/-- A pair that a scorer has looked at is scored, or has failed. -/
theorem state_scoreCandidate (candidate : FullReferenceCandidate) (scorer : FullReferenceScorer) :
    (scoreCandidate candidate scorer).state ∈ [FullReferenceScoreState.scored, .failed] := by
  unfold scoreCandidate
  dsimp only
  split
  · simp [scoreResult]
  · exact state_checkScore
  · exact state_checkScore

end Selection

theorem comparisonFormatsMatch_self {rate channels : Json} {n m : ℤ} (hrate : asInt? rate = some n)
    (hchannels : asInt? channels = some m) :
    comparisonFormatsMatch (comparisonFormat rate channels) (comparisonFormat rate channels) = true := by
  have hself : ∀ {value : Json} {n : ℤ}, asInt? value = some n → value.pyEq value = true := by
    intro value n h
    cases value <;> simp_all [asInt?, Json.pyEq, Json.number?]
  simp [comparisonFormatsMatch, comparisonFormat, Json.get?, hself hrate, hself hchannels, Json.pyEq]

section Scores

variable {world : Surroundings} {resolvedConfig : Json} {outputRoot : PurePath}
  {spec : SyntheticAudioSpec} {degradations : List (String × SyntheticStageDegradation)}
  {artifacts : SyntheticArtifacts} {writes : List WavWrite} {plans : List StagePlan}

/-- What becomes of the score of a stage, of which there are these artifacts. -/
def ScoreOf (world : Surroundings) (scorer : FullReferenceScorer) (plan : StagePlan)
    (reference : StageReferenceArtifact) (recording : RecordingArtifact)
    (result : FullReferenceScoreResult) : Prop :=
  let available := (scorer.readiness.getD ⟨false, some "scorer-readiness-error"⟩).available
  (Comparable plan.format = false ∧ result.state = .blocked ∧ ∃ text,
    hashableText world (valueOf plan.format "encoding") = .ok text ∧
      result.reasonAlias =
        some (safeReason (some ("codec-round-trip-required:" ++ text)) "input-blocked")) ∨
  (Comparable plan.format = true ∧ available = false ∧ result.state = .unavailable) ∨
  (Comparable plan.format = true ∧ available = true ∧ ∃ candidate, candidate.stage = plan.stage ∧
    candidate.referenceUri = reference.uri ∧ candidate.degradedUri = recording.uri ∧
      result = scoreCandidate candidate scorer)

section Report

variable (reading : Reading) (hroot : outputRoot.WellFormed)
  (hplans : buildStagePlan resolvedConfig = .ok plans) (hplain : PlainStages plans)
  (h : generateSyntheticArtifacts world resolvedConfig outputRoot spec degradations =
    .ok (artifacts, writes)) (disk : WavDisk)
include reading hroot hplans hplain h disk

theorem files_of_reference {reference : StageReferenceArtifact}
    (hreference : reference ∈ artifacts.stageReferences) :
    ∃ plan ∈ plans, ∃ recording ∈ artifacts.recordings,
      StageFiles world spec (degradationOf degradations plan.stage)
        (reading.files (leftOnDisk disk writes)) plan reference recording ∧
      Dict.get? (recordingsByStage artifacts.recordings) reference.stage = some recording ∧
      comparisonFormatsMatch reference.comparisonFormat recording.format = true := by
  obtain ⟨hreferences, hrecordings⟩ := stages_of_artifacts hplans hplain.nodup h
  have hmem := List.mem_map_of_mem (f := StageReferenceArtifact.stage) hreference
  rw [hreferences] at hmem
  obtain ⟨plan, hplan, hname⟩ := List.mem_map.mp hmem
  obtain ⟨reference', hreference', recording, hrecording, hfiles⟩ :=
    exists_stageFiles reading hroot hplans hplain h disk hplan
  obtain rfl : reference' = reference := by
    refine List.inj_on_of_nodup_map ?_ hreference' hreference (hfiles.stages.1.trans hname)
    rw [hreferences]
    exact hplain.nodup
  refine ⟨plan, hplan, recording, hrecording, hfiles, ?_, ?_⟩
  · rw [hfiles.stages.1, ← hfiles.stages.2]
    refine Dict.get?_foldl_set_of_mem ?_ hrecording
    rw [hrecordings]
    exact hplain.nodup
  · obtain ⟨rate, channels, -, -, hformat, -⟩ := hfiles.tones
    rw [← hfiles.formats, hfiles.format]
    exact comparisonFormatsMatch_self hformat.rate hformat.channels

/-- The report on the artifacts: a pair for each reference that is ready, a block for each other
one. -/
theorem select_artifacts :
    selectFullReferenceCandidates (artifacts.stageReferences.map StageReferenceArtifact.toReference)
        artifacts.recordings =
      ⟨((artifacts.stageReferences.map StageReferenceArtifact.toReference).filter
          (·.comparisonReady)).filterMap (pairOf (recordingsByStage artifacts.recordings)),
        ((artifacts.stageReferences.map StageReferenceArtifact.toReference).filter fun reference =>
          !reference.comparisonReady).map fun reference =>
            ⟨reference.stage, reference.notReadyReason⟩⟩ := by
  have hstages : ([] ++ (artifacts.stageReferences.map StageReferenceArtifact.toReference).map
      StageReference.stage).Nodup := by
    have hnames := (stages_of_artifacts hplans hplain.nodup h).1
    rw [List.nil_append, List.map_map]
    exact hnames ▸ hplain.nodup
  refine selectLoop_of_recorded hstages fun reference hreference _ => ?_
  obtain ⟨artifact, hartifact, rfl⟩ := List.mem_map.mp hreference
  obtain ⟨-, -, recording, -, -, hget, hmatch⟩ :=
    files_of_reference reading hroot hplans hplain h disk hartifact
  exact ⟨recording, hget, hmatch⟩

/-- Every result is the score of a stage. -/
theorem scoreOf_result (scorer : FullReferenceScorer) {result : FullReferenceScoreResult}
    (hresult : result ∈ (ScoringRun.report ⟨artifacts.stageReferences.map
      StageReferenceArtifact.toReference, artifacts.recordings, scorer⟩).results) :
    ∃ plan ∈ plans, ∃ reference ∈ artifacts.stageReferences, ∃ recording ∈ artifacts.recordings,
      StageFiles world spec (degradationOf degradations plan.stage)
        (reading.files (leftOnDisk disk writes)) plan reference recording ∧
      result.stage = plan.stage ∧ ScoreOf world scorer plan reference recording result := by
  simp only [ScoringRun.report, select_artifacts reading hroot hplans hplain h disk] at hresult
  have hcandidate : ∀ candidate ∈ ((artifacts.stageReferences.map
      StageReferenceArtifact.toReference).filter (·.comparisonReady)).filterMap
        (pairOf (recordingsByStage artifacts.recordings)),
      ∃ plan ∈ plans, ∃ reference ∈ artifacts.stageReferences, ∃ recording ∈ artifacts.recordings,
        StageFiles world spec (degradationOf degradations plan.stage)
          (reading.files (leftOnDisk disk writes)) plan reference recording ∧
        Comparable plan.format = true ∧ candidate.stage = plan.stage ∧
        candidate.referenceUri = reference.uri ∧ candidate.degradedUri = recording.uri := by
    intro candidate hcandidate
    obtain ⟨reference, hreference, hpair⟩ := List.mem_filterMap.mp hcandidate
    obtain ⟨hreference, hready⟩ := List.mem_filter.mp hreference
    obtain ⟨artifact, hartifact, rfl⟩ := List.mem_map.mp hreference
    obtain ⟨plan, hplan, recording, hrecording, hfiles, hget, -⟩ :=
      files_of_reference reading hroot hplans hplain h disk hartifact
    obtain ⟨recording', hget', rfl⟩ := Option.map_eq_some_iff.mp hpair
    cases hget.symm.trans hget'
    exact ⟨plan, hplan, artifact, hartifact, recording, hrecording, hfiles,
      hfiles.ready.symm.trans hready, hfiles.stages.1, rfl, rfl⟩
  rcases List.mem_append.mp hresult with hscored | hblocked
  · cases havailable : (scorer.readiness.getD ⟨false, some "scorer-readiness-error"⟩).available with
    | false =>
        simp only [havailable, Bool.not_false, if_true] at hscored
        obtain ⟨candidate, hmem, rfl⟩ := List.mem_map.mp hscored
        obtain ⟨plan, hplan, reference, hreference, recording, hrecording, hfiles, hcomparable, hstage, -⟩ :=
          hcandidate candidate hmem
        exact ⟨plan, hplan, reference, hreference, recording, hrecording, hfiles, hstage,
          Or.inr (Or.inl ⟨hcomparable, havailable, rfl⟩)⟩
    | true =>
        simp only [havailable, Bool.not_true, Bool.false_eq_true, if_false] at hscored
        obtain ⟨candidate, hmem, rfl⟩ := List.mem_map.mp hscored
        obtain ⟨plan, hplan, reference, hreference, recording, hrecording, hfiles, hcomparable, hstage,
          huris⟩ := hcandidate candidate hmem
        exact ⟨plan, hplan, reference, hreference, recording, hrecording, hfiles,
          (ScoringRun.stage_scoreCandidate candidate scorer).trans hstage,
          Or.inr (Or.inr ⟨hcomparable, havailable, candidate, hstage, huris.1, huris.2, rfl⟩)⟩
  · obtain ⟨block, hblock, rfl⟩ := List.mem_map.mp hblocked
    obtain ⟨reference, hreference, rfl⟩ := List.mem_map.mp hblock
    obtain ⟨hreference, hready⟩ := List.mem_filter.mp hreference
    obtain ⟨artifact, hartifact, rfl⟩ := List.mem_map.mp hreference
    obtain ⟨plan, hplan, recording, hrecording, hfiles, -⟩ :=
      files_of_reference reading hroot hplans hplain h disk hartifact
    have hcomparable : Comparable plan.format = false := by
      rw [← hfiles.ready]
      simpa [StageReferenceArtifact.toReference] using hready
    obtain ⟨text, htext, hreason⟩ := hfiles.reason
    rw [hcomparable] at hreason
    refine ⟨plan, hplan, artifact, hartifact, recording, hrecording, hfiles, hfiles.stages.1,
      Or.inl ⟨hcomparable, rfl, text, htext, ?_⟩⟩
    have hname : artifact.toReference.notReadyReason = "codec-round-trip-required:" ++ text := by
      have hne : "codec-round-trip-required:" ++ text ≠ "" := by
        intro hempty
        have hlength := congrArg String.length hempty
        simp at hlength
      simp only [StageReference.notReadyReason, StageReferenceArtifact.toReference, hreason,
        Bool.false_eq_true, if_false, if_neg hne]
    simp only [scoreBlock, scoreResult, hname]

end Report

/-- All stages are scored exactly when all can be compared, the scorer is available, and none of its
scores has failed. -/
theorem all_scored_iff {scorer : FullReferenceScorer} {results : List FullReferenceScoreResult}
    (hnodup : (plans.map StagePlan.stage).Nodup) (hne : plans ≠ [])
    (hperm : (results.map (·.stage)).Perm (plans.map StagePlan.stage))
    (hscores : ∀ result ∈ results, ∃ plan ∈ plans, ∃ reference recording,
      result.stage = plan.stage ∧ ScoreOf world scorer plan reference recording result) :
    (∀ result ∈ results, result.state = .scored) ↔
      (∀ plan ∈ plans, Comparable plan.format = true) ∧
      (scorer.readiness.getD ⟨false, some "scorer-readiness-error"⟩).available = true ∧
      ∀ result ∈ results, result.state ≠ .failed := by
  constructor
  · intro hscored
    have hplan : ∀ plan ∈ plans, Comparable plan.format = true ∧
        (scorer.readiness.getD ⟨false, some "scorer-readiness-error"⟩).available = true := by
      intro plan hplan
      obtain ⟨result, hresult, hname⟩ :=
        List.mem_map.mp (hperm.mem_iff.mpr (List.mem_map_of_mem hplan))
      obtain ⟨plan', hplan', _, _, hname', hscore⟩ := hscores result hresult
      obtain rfl : plan' = plan :=
        List.inj_on_of_nodup_map hnodup hplan' hplan (hname'.symm.trans hname)
      have hstate := hscored result hresult
      rcases hscore with ⟨-, hblocked, -⟩ | ⟨-, -, hunavailable⟩ | ⟨hcomparable, havailable, -⟩
      · rw [hblocked] at hstate
        cases hstate
      · rw [hunavailable] at hstate
        cases hstate
      · exact ⟨hcomparable, havailable⟩
    obtain ⟨first, hfirst⟩ := List.exists_mem_of_ne_nil _ hne
    refine ⟨fun plan hmem => (hplan plan hmem).1, (hplan first hfirst).2, ?_⟩
    intro result hresult hfailed
    rw [hscored result hresult] at hfailed
    cases hfailed
  · rintro ⟨hcomparable, havailable, hnotFailed⟩ result hresult
    obtain ⟨plan, hplan, _, _, -, hscore⟩ := hscores result hresult
    rcases hscore with ⟨hnot, -⟩ | ⟨-, hnot, -⟩ | ⟨-, -, candidate, -, -, -, hscore⟩
    · rw [hcomparable plan hplan] at hnot
      cases hnot
    · rw [havailable] at hnot
      cases hnot
    · have hstate := state_scoreCandidate candidate scorer
      rw [← hscore, List.mem_cons, List.mem_singleton] at hstate
      exact hstate.resolve_right (hnotFailed result hresult)

end Scores

/-- **Scores of a synthetic run.** For stage types that differ and are plain names, and a `ptime_ms`
that is a float, whatever the degradations: the run returns once its artifacts are generated, the
report has one result for each stage, and no reference lacks its recording, or has another format.
A stage is blocked exactly when its coding cannot be undone, for this reason; otherwise the scorer
is given its two files. The run is complete exactly when all checks have passed, there are stages,
all can be compared, the scorer is available, and no score has failed. Its metrics are those of the
artifacts and the scores. -/
theorem synthetic_scores {world : Surroundings} {resolvedConfig : Json} {outputRoot : PurePath}
    {spec : SyntheticAudioSpec} {degradations : List (String × SyntheticStageDegradation)}
    {artifacts : SyntheticArtifacts} {writes : List WavWrite} {plans : List StagePlan}
    (reading : Reading) (observedAt : Datetime) (hroot : outputRoot.WellFormed)
    (hplans : buildStagePlan resolvedConfig = .ok plans) (hplain : PlainStages plans)
    (hptime : PtimeIsFloat resolvedConfig spec) (scorer : DiskScorer) (disk : WavDisk)
    (h : generateSyntheticArtifacts world resolvedConfig outputRoot spec degradations =
      .ok (artifacts, writes)) :
    ∃ run, runSyntheticVerification world reading observedAt resolvedConfig outputRoot spec scorer
        degradations disk = .ok (run, leftOnDisk disk writes) ∧
      (run.fullReference.results.map (·.stage)).Perm (plans.map StagePlan.stage) ∧
      (∀ result ∈ run.fullReference.results, ∃ plan ∈ plans,
        ∃ reference ∈ run.artifacts.stageReferences, ∃ recording ∈ run.artifacts.recordings,
          StageFiles world spec (degradationOf degradations plan.stage)
            (reading.files (leftOnDisk disk writes)) plan reference recording ∧
          result.stage = plan.stage ∧
          ScoreOf world (scorer.on (leftOnDisk disk writes)) plan reference recording result) ∧
      (run.state = .complete ↔ (∀ r ∈ run.invariantResults, r.passed = true) ∧ plans ≠ [] ∧
        (∀ plan ∈ plans, Comparable plan.format = true) ∧
        (((scorer.readiness (leftOnDisk disk writes)).getD
          ⟨false, some "scorer-readiness-error"⟩).available = true) ∧
        ∀ result ∈ run.fullReference.results, result.state ≠ .failed) ∧
      run.metrics = run.artifacts.metrics ++ fullReferenceScoresToMetrics run.fullReference observedAt := by
  obtain ⟨results, -, run, hrun, hartifacts, hinvariants, hreport, hstate, hmetrics⟩ :=
    exists_run reading observedAt hroot hplans hplain hptime scorer disk h
  have hscores : ∀ result ∈ run.fullReference.results, _ := fun result hresult =>
    scoreOf_result reading hroot hplans hplain h disk (scorer.on (leftOnDisk disk writes))
      (hreport ▸ hresult)
  have hperm : (run.fullReference.results.map (·.stage)).Perm (plans.map StagePlan.stage) := by
    rw [hreport, ← (stages_of_artifacts hplans hplain.nodup h).1]
    refine (ScoringRun.perm_stages _).trans (List.Perm.of_eq ?_)
    rw [List.map_map]
    rfl
  refine ⟨run, hrun, hperm, ?_, ?_, ?_⟩
  · rw [hartifacts]
    exact hscores
  · rw [hstate, verificationState_eq_complete_iff, hinvariants]
    refine and_congr_right fun _ => ?_
    have hempty : run.fullReference.results ≠ [] ↔ plans ≠ [] := by
      have hlength := hperm.length_eq
      rw [List.length_map, List.length_map] at hlength
      rw [← List.length_pos_iff, ← List.length_pos_iff, hlength]
    rw [hempty]
    refine and_congr_right fun hne => ?_
    refine @all_scored_iff world _ (scorer.on (leftOnDisk disk writes)) _ hplain.nodup hne hperm ?_
    intro result hresult
    obtain ⟨plan, hplan, reference, -, recording, -, -, hname, hscore⟩ := hscores result hresult
    exact ⟨plan, hplan, reference, recording, hname, hscore⟩
  · rw [hmetrics, hartifacts]

/-- A config without a `ptime_ms`. -/
theorem ptimeIsFloat_coded : PtimeIsFloat codedConfig silentSpec where
  ptime := fun _ h => absurd h (by simp [show configPtimeMs codedConfig = none from rfl])
  frames := fun _ h => absurd h (by simp [show positivePtime codedConfig = none from rfl])

theorem synthetic_scores_coded : ∃ run disk,
    runSyntheticVerification silentWorld plainReading (.utc 0) codedConfig rootPath silentSpec fixedScorer
        [] (fun _ => none) = .ok (run, disk) ∧
      (run.fullReference.results.map (·.stage)).Perm ["agc", "serializer"] := by
  obtain ⟨artifacts, writes, h⟩ := generate_coded
  obtain ⟨plans, hplans, hplain, hnames, -⟩ := plans_coded
  obtain ⟨run, hrun, hperm, -⟩ := synthetic_scores plainReading (.utc 0) wellFormed_rootPath hplans hplain
    ptimeIsFloat_coded fixedScorer (fun _ => none) h
  exact ⟨run, _, hrun, hnames ▸ hperm⟩

/-- **Runs without degradations.** For stage types that differ and are plain names, and a
`ptime_ms` that is a float: once the artifacts are generated, the run returns. When the
rounding of the number of frames hardly changes the durations, only a comparison of levels can
fail; where the tones of all stages have one format, no check fails, and the run has failed exactly
when a score has. -/
theorem undegraded_run {world : Surroundings} {resolvedConfig : Json} {outputRoot : PurePath}
    {spec : SyntheticAudioSpec} {degradations : List (String × SyntheticStageDegradation)}
    {artifacts : SyntheticArtifacts} {writes : List WavWrite} {plans : List StagePlan}
    (reading : Reading) (observedAt : Datetime) (hroot : outputRoot.WellFormed)
    (hplans : buildStagePlan resolvedConfig = .ok plans) (hplain : PlainStages plans)
    (hptime : PtimeIsFloat resolvedConfig spec)
    (hnone : ∀ plan ∈ plans, degradationOf degradations plan.stage = {})
    (scorer : DiskScorer) (disk : WavDisk)
    (h : generateSyntheticArtifacts world resolvedConfig outputRoot spec degradations =
      .ok (artifacts, writes)) :
    ∃ run, runSyntheticVerification world reading observedAt resolvedConfig outputRoot spec scorer
        degradations disk = .ok (run, leftOnDisk disk writes) ∧
      ((∀ plan ∈ plans, ∀ rate ∈ asInt? (rateOf plan.format),
          FitsRate (spec.durationSeconds * 1000) rate) →
        ∀ r ∈ run.invariantResults, r.passed = false → r.invariant = "level_preserving") ∧
      ((∀ plan ∈ plans, ∀ plan' ∈ plans, toneFormat plan.format = toneFormat plan'.format) →
        (∀ r ∈ run.invariantResults, r.passed = true) ∧
        (run.state = .failed ↔ ∃ result ∈ run.fullReference.results, result.state = .failed)) := by
  obtain ⟨results, hresults, run, hrun, -, hinvariants, -, hstate, -⟩ :=
    exists_run reading observedAt hroot hplans hplain hptime scorer disk h
  refine ⟨run, hrun, fun hfits => ?_, fun hsame => ?_⟩
  · rw [hinvariants]
    exact failed_undegraded reading hroot hplans hplain hnone h disk hfits hresults
  · have hpassed := passed_undegraded reading hroot hplans hplain hnone h disk hsame hresults
    rw [hinvariants, hstate, verificationState_eq_failed_iff]
    refine ⟨hpassed, or_iff_right ?_⟩
    rintro ⟨r, hr, hfailed⟩
    rw [hpassed r hr] at hfailed
    cases hfailed

theorem undegraded_run_coded : ∃ run disk,
    runSyntheticVerification silentWorld plainReading (.utc 0) codedConfig rootPath silentSpec fixedScorer
        [] (fun _ => none) = .ok (run, disk) ∧
      ∀ r ∈ run.invariantResults, r.passed = false → r.invariant = "level_preserving" := by
  obtain ⟨artifacts, writes, h⟩ := generate_coded
  obtain ⟨plans, hplans, hplain, -, hrates⟩ := plans_coded
  obtain ⟨run, hrun, hpassed, -⟩ := undegraded_run plainReading (.utc 0) wellFormed_rootPath hplans hplain
    ptimeIsFloat_coded (fun _ _ => rfl) fixedScorer (fun _ => none) h
  refine ⟨run, _, hrun, hpassed fun plan hplan rate hrate => ?_⟩
  rw [hrates plan hplan] at hrate
  obtain rfl : 8000 = rate := Option.some.inj hrate
  refine Or.inr ⟨8, ?_⟩
  norm_num [silentSpec]

end VoxBench.SyntheticCaller
