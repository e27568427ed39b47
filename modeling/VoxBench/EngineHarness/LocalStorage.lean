import VoxBench.ControlPlane.Recording
import VoxBench.EngineHarness.ObjectStorage
import VoxBench.Lib.PosixPath
import VoxBench.Registry.Contracts

/-!
# Recordings in the file system

`LocalRecordingSink` joins its root, the run and the type of a stage to the path of a WAV file.
Nothing checks the type, which comes from a config: a type that is an absolute path, or climbs,
leads out of the directory of the run, and two types may name one file. The observed audio of a
run is written under the quoted type, which is always one name.

## Main definitions

* `LocalRecordingSink.writeStageWav` — the sink.
* `Separated` — the files of a run lie in its directory, a file for each stage.
* `SafeStages` — the stage types for which the joined paths do.

## Main results

* `recordings_separated_iff` — the files of every run are separated exactly for safe types.
* `climbing_stage_escapes` — a config with a type that is not safe is accepted.
-/

namespace VoxBench.EngineHarness

open VoxBench.Lib VoxBench.ControlPlane PosixPath
open VoxBench.Registry (pipelineConfig pipelineRegistry eq_ok_of_toOption)
open VoxBench.Registry.RegistryService (pipelineOf)

/-! ## The sink -/

/-- The character that no path has. -/
def nul : Char := Char.ofNat 0

/-- `path.as_uri()`. -/
def asUri (path : PurePath) : String := "file://" ++ quote (String.ofList path.str) ['/']

structure LocalRecordingSink where
  root : PurePath
  root_absolute : root.root = ['/']
  root_resolved : dotdot ∉ root.parts
  root_openable : ∀ part ∈ root.parts, nul ∉ part

namespace LocalRecordingSink

/-- `__init__`, in a working directory: `root.resolve()`. -/
def make (cwd : { dir : List Name // dotdot ∉ dir }) (root : PurePath) :
    Except StorageError LocalRecordingSink :=
  let parts := walk (if root.root = [] then cwd.1 else []) root.parts
  if hnul : ∃ part ∈ parts, nul ∈ part then .error (.valueError "embedded null byte")
  else .ok
    { root := ⟨['/'], parts⟩
      root_absolute := rfl
      root_resolved := dotdot_notMem_walk (by split_ifs <;> simp [cwd.2]) root.parts
      root_openable := fun part hpart hmem => hnul ⟨part, hpart, hmem⟩ }

/-- The path of a recording. -/
def stagePath (sink : LocalRecordingSink) (runId stage : String) : PurePath :=
  (sink.root.join runId.toList).join (stage.toList ++ ".wav".toList)

/-- `write_stage_wav`: the file that is opened, what is written, and the artifact. -/
def writeStageWav (sink : LocalRecordingSink) (runId stage : String) (audioFormat : Json)
    (durationMs : ℚ) : Except StorageError (PurePath × SilentWav × RecordingArtifact) := do
  let path := sink.stagePath runId stage
  if ∃ part ∈ path.parts, nul ∈ part then .error (.valueError "embedded null byte")
  else
    let file ← writeSilentWav audioFormat durationMs
    return (path, file, { stage, uri := asUri path, format := audioFormat, durationMs })

/-- The directory of a run. -/
def runDirectory (sink : LocalRecordingSink) (runId : String) : List Name :=
  walk [] (sink.root.join runId.toList).parts

/-- The place of a file that the sink writes for a stage. -/
def Writes (sink : LocalRecordingSink) (runId stage : String) (place : List Name) : Prop :=
  ∃ audioFormat durationMs path file artifact,
    sink.writeStageWav runId stage audioFormat durationMs = .ok (path, file, artifact) ∧
      place = walk [] path.parts

end LocalRecordingSink

/-- The types of the stages, as `build_stage_plan` reads them. -/
def recordedStages (config : Json) : List String :=
  (pipelineOf config).map fun stage => (stage.field ["type"]).text

/-! ## Observed audio -/

/-- The directory of the observed audio of a run. -/
def observedDirectory (root runId : String) : List Name :=
  walk [] (PurePath.parse (root ++ "/" ++ runId).toList).parts

/-- The place of a file that a chunk of observed audio changes. -/
def ObservedWrites (root runId stage : String) (place : List Name) : Prop :=
  ∃ (state state' : RunApiState) (run run' : StoredRun) (chunk : AudioChunkObservationRequest)
      (text : String), state.artifactRoot = root ∧ run.runId = runId ∧ chunk.stage = stage ∧
    writeObservedAudio state run chunk chunk.pcm = .ok (state', run') ∧
    state'.wavFiles text ≠ state.wavFiles text ∧
    place = walk [] (PurePath.parse text.toList).parts

/-! ## The property -/

/-- What is written for stages lies in a directory, a file for each. -/
structure Separated (directory : List Name) (writes : String → List Name → Prop)
    (stages : List String) : Prop where
  below : ∀ stage ∈ stages, ∀ place, writes stage place → directory <+: place ∧ place ≠ directory
  apart : ∀ stage ∈ stages, ∀ stage' ∈ stages, stage ≠ stage' → ∀ place, writes stage place →
    ¬ writes stage' place

/-- The type of a stage as a path. -/
def typePath (stage : String) : PurePath := PurePath.parse (stage.toList ++ ".wav".toList)

/-- Types that are relative, never climb above where they start, and have names of their own.
A type with NUL is never written. -/
structure SafeStages (stages : List String) : Prop where
  relative : ∀ stage ∈ stages, nul ∉ stage.toList → (typePath stage).root = []
  steady : ∀ stage ∈ stages, nul ∉ stage.toList → (normal (typePath stage).parts).climbs = 0
  distinct : ∀ stage ∈ stages, ∀ stage' ∈ stages, nul ∉ stage.toList → nul ∉ stage'.toList →
    stage ≠ stage' → (normal (typePath stage).parts).names ≠ (normal (typePath stage').parts).names

/-! ## Names -/

theorem nul_ne_slash : nul ≠ '/' := by decide

theorem nul_ne_dot : nul ≠ '.' := by decide

/-- The text of a UUID is a name. -/
theorem uuid_chars (k : Uuid) : ∀ c ∈ k.str.toList, c ≠ '/' ∧ c ≠ '.' ∧ c ≠ nul := by
  intro c hc
  rw [Uuid.str, String.toList_ofList] at hc
  rcases Uuid.mem_chars hc with rfl | ⟨d, hd, rfl⟩
  · decide
  · interval_cases d <;> decide

theorem segments_uuid (k : Uuid) : segments k.str.toList = [k.str.toList] := by
  have hlength := length_toList_str k
  apply segments_name
  · intro h
    exact (uuid_chars k _ h).1 rfl
  · intro h
    simp [h] at hlength
  · intro h
    simp [h] at hlength

theorem root_parse_of_notMem {text : List Char} (h : '/' ∉ text) :
    (PurePath.parse text).root = [] := by
  simp only [PurePath.parse]
  fun_cases splitRoot text
  · simp at h
  · simp at h
  · simp at h
  · rfl

theorem join_uuid (sink : LocalRecordingSink) (k : Uuid) :
    sink.root.join k.str.toList = ⟨['/'], sink.root.parts ++ [k.str.toList]⟩ := by
  have hrelative : (PurePath.parse k.str.toList).root = [] :=
    root_parse_of_notMem fun h => (uuid_chars k _ h).1 rfl
  simp only [PurePath.join, if_pos hrelative, parts_parse, segments_uuid, sink.root_absolute]

theorem dotdot_ne_uuid (k : Uuid) : dotdot ≠ k.str.toList := by
  intro h
  have hlength := length_toList_str k
  rw [← h] at hlength
  exact absurd hlength (by decide)

theorem runDirectory_uuid (sink : LocalRecordingSink) (k : Uuid) :
    sink.runDirectory k.str = sink.root.parts ++ [k.str.toList] := by
  rw [LocalRecordingSink.runDirectory, join_uuid, walk_of_notMem, List.nil_append]
  rw [List.mem_append, List.mem_singleton, not_or]
  exact ⟨sink.root_resolved, dotdot_ne_uuid k⟩

/-! ## Places -/

section Places

variable (sink : LocalRecordingSink) (k : Uuid) (stage : String)

theorem parts_stagePath :
    (sink.stagePath k.str stage).parts =
      if (typePath stage).root = [] then
        sink.root.parts ++ [k.str.toList] ++ (typePath stage).parts
      else (typePath stage).parts := by
  rw [LocalRecordingSink.stagePath, join_uuid, PurePath.join]
  exact apply_ite PurePath.parts _ _ _

/-- A relative type is walked from the directory of the run, an absolute one from the root. -/
theorem place_stagePath :
    walk [] (sink.stagePath k.str stage).parts =
      if (typePath stage).root = [] then
        (sink.runDirectory k.str).take
          ((sink.runDirectory k.str).length - (normal (typePath stage).parts).climbs) ++
          (normal (typePath stage).parts).names
      else (normal (typePath stage).parts).names := by
  have hdirectory : walk [] (sink.root.parts ++ [k.str.toList]) = sink.runDirectory k.str := by
    rw [LocalRecordingSink.runDirectory, join_uuid]
  rw [parts_stagePath]
  by_cases hrelative : (typePath stage).root = []
  · rw [if_pos hrelative, if_pos hrelative, walk_append, hdirectory, walk_eq]
  · rw [if_neg hrelative, if_neg hrelative, walk_eq, List.take_nil, List.nil_append]

/-- Only NUL keeps the file from being opened. -/
theorem nul_mem_stagePath :
    (∃ part ∈ (sink.stagePath k.str stage).parts, nul ∈ part) ↔ nul ∈ stage.toList := by
  have htype : (∃ part ∈ (typePath stage).parts, nul ∈ part) ↔ nul ∈ stage.toList := by
    have hwav : nul ∉ ".wav".toList := by decide
    rw [typePath, parts_parse, mem_segments_iff nul_ne_slash nul_ne_dot, List.mem_append]
    simp only [hwav, or_false]
  rw [parts_stagePath]
  split_ifs with hrelative
  · rw [← htype]
    constructor
    · rintro ⟨part, hpart, hnul⟩
      rcases List.mem_append.mp hpart with hpart | hpart
      · rcases List.mem_append.mp hpart with hpart | hpart
        · exact absurd hnul (sink.root_openable part hpart)
        · rw [List.mem_singleton.mp hpart] at hnul
          exact absurd rfl (uuid_chars k _ hnul).2.2
      · exact ⟨part, hpart, hnul⟩
    · rintro ⟨part, hpart, hnul⟩
      exact ⟨part, List.mem_append_right _ hpart, hnul⟩
  · exact htype

theorem writes_iff {place : List Name} :
    sink.Writes k.str stage place ↔
      nul ∉ stage.toList ∧ place = walk [] (sink.stagePath k.str stage).parts := by
  rw [← nul_mem_stagePath sink k stage]
  constructor
  · rintro ⟨audioFormat, durationMs, path, file, artifact, hwrite, rfl⟩
    simp only [LocalRecordingSink.writeStageWav] at hwrite
    split_ifs at hwrite with hnul
    obtain ⟨file', -, hwrite⟩ := bind_eq_ok.mp hwrite
    cases hwrite
    exact ⟨hnul, rfl⟩
  · rintro ⟨hnul, rfl⟩
    obtain ⟨file, hfile⟩ := exists_writeSilentWav_mono
    refine ⟨monoFormat, 20, sink.stagePath k.str stage, file,
      ⟨stage, asUri (sink.stagePath k.str stage), monoFormat, 20⟩, ?_, rfl⟩
    simp only [LocalRecordingSink.writeStageWav, if_neg hnul, hfile]
    rfl

end Places

/-- A path ends with the name of the file. -/
theorem names_typePath_ne_nil (stage : String) : (normal (typePath stage).parts).names ≠ [] := by
  obtain ⟨before, last, hparts⟩ :=
    @exists_last_segment stage.toList ".wav".toList (by decide) (by decide)
  have hname : last ++ ".wav".toList ≠ dotdot := by
    intro h
    have hlength := congrArg List.length h
    simp [dotdot] at hlength
  rw [typePath, parts_parse, hparts]
  simp only [normal, List.foldl_append, List.foldl_cons, List.foldl_nil, Normal.step,
    if_neg hname]
  simp

/-- No fixed names lead into the directory of every run. -/
theorem exists_getElem?_ne (names : List Name) (i : ℕ) :
    ∃ k : Uuid, names[i]? ≠ some k.str.toList := by
  by_contra hall
  push Not at hall
  have hsame := (hall (Uuid.ofNat 0)).symm.trans (hall (Uuid.ofNat 1))
  have heq := Uuid.str_injective (String.toList_injective (Option.some.inj hsame))
  exact absurd heq (by decide)

/-- What lies below the directory of a run has the run as a segment, at its depth. -/
theorem getElem?_of_runDirectory {sink : LocalRecordingSink} {k : Uuid} {place : List Name}
    (h : sink.runDirectory k.str <+: place) :
    place[sink.root.parts.length]? = some k.str.toList := by
  obtain ⟨rest, rfl⟩ := h
  rw [runDirectory_uuid, List.append_assoc, List.getElem?_append_right le_rfl, Nat.sub_self]
  rfl

/-- A type that is below the directory of every run is relative and does not climb. -/
theorem relative_steady_of_below {sink : LocalRecordingSink} {stage : String}
    (h : ∀ k : Uuid, sink.runDirectory k.str <+: walk [] (sink.stagePath k.str stage).parts) :
    (typePath stage).root = [] ∧ (normal (typePath stage).parts).climbs = 0 := by
  have hrelative : (typePath stage).root = [] := by
    by_contra habsolute
    obtain ⟨k, hk⟩ := exists_getElem?_ne (normal (typePath stage).parts).names
      sink.root.parts.length
    have hbelow := getElem?_of_runDirectory (h k)
    rw [place_stagePath, if_neg habsolute] at hbelow
    exact hk hbelow
  refine ⟨hrelative, ?_⟩
  by_contra hclimbs
  have hlength : ∀ k : Uuid, (sink.runDirectory k.str).length = sink.root.parts.length + 1 := by
    intro k
    rw [runDirectory_uuid, List.length_append, List.length_singleton]
  obtain ⟨k, hk⟩ := exists_getElem?_ne (normal (typePath stage).parts).names
    (sink.root.parts.length -
      (sink.root.parts.length + 1 - (normal (typePath stage).parts).climbs))
  have hbelow := getElem?_of_runDirectory (h k)
  rw [place_stagePath, if_pos hrelative, hlength, List.getElem?_append_right, List.length_take,
    hlength, min_eq_left (Nat.sub_le _ _)] at hbelow
  · exact hk hbelow
  · rw [List.length_take, hlength]
    omega

/-! ## Observed audio -/

/-- A quoted text is a name. -/
theorem slash_notMem_quote (text : String) : '/' ∉ (quote text []).toList := by
  intro h
  rw [quote, String.toList_ofList] at h
  obtain ⟨c, -, h⟩ := List.mem_flatMap.mp h
  split_ifs at h with hplain
  · rw [← List.mem_singleton.mp h] at hplain
    exact absurd hplain (by decide)
  · obtain ⟨b, -, h⟩ := List.mem_flatMap.mp h
    have hdigit : ∀ n < 16, '/' ≠ if n < 10 then Char.ofNat (48 + n) else Char.ofNat (55 + n) := by
      decide
    simp only [List.mem_cons, List.not_mem_nil, or_false] at h
    rcases h with h | h | h
    · exact absurd h (by decide)
    · refine hdigit _ ?_ h
      have hbyte := b.toNat_lt
      omega
    · exact hdigit _ (Nat.mod_lt _ (by decide)) h

/-- The file of a chunk: one name below the directory of the run. -/
theorem observedWrites_eq {root runId stage : String} {place : List Name}
    (h : ObservedWrites root runId stage place) :
    place = observedDirectory root runId ++ [(quote stage []).toList ++ ".wav".toList] := by
  obtain ⟨state, state', run, run', chunk, text, rfl, rfl, rfl, hwrite, hchanged, rfl⟩ := h
  obtain ⟨-, buffer, recording, -, -, -, -, rfl, -⟩ := writeObservedAudio_eq_ok hwrite
  have htext : text = wavPath state.artifactRoot run.runId chunk.stage := by
    by_contra hne
    exact hchanged (Function.update_of_ne hne _ _)
  have hslash : '/' ∉ (quote chunk.stage []).toList ++ ".wav".toList := by
    rw [List.mem_append, not_or]
    exact ⟨slash_notMem_quote chunk.stage, by decide⟩
  have hlength : 4 ≤ ((quote chunk.stage []).toList ++ ".wav".toList).length := by simp
  have hname : segments ((quote chunk.stage []).toList ++ ".wav".toList) =
      [(quote chunk.stage []).toList ++ ".wav".toList] := by
    apply segments_name hslash
    · intro h
      rw [h] at hlength
      exact absurd hlength (by decide)
    · intro h
      rw [h] at hlength
      exact absurd hlength (by decide)
  have hne : (quote chunk.stage []).toList ++ ".wav".toList ≠ dotdot := by
    intro h
    rw [h] at hlength
    exact absurd hlength (by decide)
  have hpath : (wavPath state.artifactRoot run.runId chunk.stage).toList =
      (state.artifactRoot ++ "/" ++ run.runId).toList ++
        '/' :: ((quote chunk.stage []).toList ++ ".wav".toList) := by
    simp [wavPath]
  rw [htext, parts_parse, hpath, segments_append_slash, hname, walk_append, observedDirectory,
    parts_parse]
  simp only [walk, List.foldl_cons, List.foldl_nil, PosixPath.step, if_neg hne]

/-- Quoting separates the observed audio of the stages of a run. -/
theorem separated_observed (root runId : String) (stages : List String) :
    Separated (observedDirectory root runId) (ObservedWrites root runId) stages where
  below := by
    intro stage _ place h
    rw [observedWrites_eq h]
    refine ⟨List.prefix_append _ _, ?_⟩
    simp
  apart := by
    intro stage _ stage' _ hne place h h'
    have hnames := (observedWrites_eq h).symm.trans (observedWrites_eq h')
    have hquote := List.append_cancel_right
      (List.singleton_inj.mp (List.append_cancel_left hnames))
    exact hne (quote_injective (String.toList_injective hquote))

/-! ## Separation -/

/-- The files of safe types are separated, in every run. -/
theorem SafeStages.separated {stages : List String} (h : SafeStages stages)
    (sink : LocalRecordingSink) (k : Uuid) :
    Separated (sink.runDirectory k.str) (sink.Writes k.str) stages := by
  have hplace : ∀ stage ∈ stages, ∀ place, sink.Writes k.str stage place →
      nul ∉ stage.toList ∧
        place = sink.runDirectory k.str ++ (normal (typePath stage).parts).names := by
    intro stage hstage place hwrites
    obtain ⟨hnul, rfl⟩ := (writes_iff sink k stage).mp hwrites
    refine ⟨hnul, ?_⟩
    rw [place_stagePath, if_pos (h.relative stage hstage hnul), h.steady stage hstage hnul,
      Nat.sub_zero, List.take_length]
  refine ⟨?_, ?_⟩
  · intro stage hstage place hwrites
    rw [(hplace stage hstage place hwrites).2]
    refine ⟨List.prefix_append _ _, ?_⟩
    rw [ne_eq, List.append_right_eq_self]
    exact names_typePath_ne_nil stage
  · intro stage hstage stage' hstage' hne place hwrites hwrites'
    have hfile := hplace stage hstage place hwrites
    have hfile' := hplace stage' hstage' place hwrites'
    apply h.distinct stage hstage stage' hstage' hfile.1 hfile'.1 hne
    exact List.append_cancel_left (hfile.2.symm.trans hfile'.2)

/-- Types whose files are separated in every run are safe. -/
theorem safeStages_of_separated {stages : List String} {sink : LocalRecordingSink}
    (h : ∀ k : Uuid, Separated (sink.runDirectory k.str) (sink.Writes k.str) stages) :
    SafeStages stages := by
  have hbelow : ∀ stage ∈ stages, nul ∉ stage.toList →
      (typePath stage).root = [] ∧ (normal (typePath stage).parts).climbs = 0 := by
    intro stage hstage hnul
    refine @relative_steady_of_below sink stage fun k => ?_
    exact ((h k).below stage hstage _ ((writes_iff sink k stage).mpr ⟨hnul, rfl⟩)).1
  refine ⟨fun stage hstage hnul => (hbelow stage hstage hnul).1,
    fun stage hstage hnul => (hbelow stage hstage hnul).2, ?_⟩
  intro stage hstage stage' hstage' hnul hnul' hne hnames
  let k := Uuid.ofNat 0
  obtain ⟨hrelative, hclimbs⟩ := hbelow stage hstage hnul
  obtain ⟨hrelative', hclimbs'⟩ := hbelow stage' hstage' hnul'
  have hsame : walk [] (sink.stagePath k.str stage).parts =
      walk [] (sink.stagePath k.str stage').parts := by
    rw [place_stagePath, place_stagePath, if_pos hrelative, if_pos hrelative', hclimbs, hclimbs',
      hnames]
  exact (h k).apart stage hstage stage' hstage' hne _
    ((writes_iff sink k stage).mpr ⟨hnul, rfl⟩) ((writes_iff sink k stage').mpr ⟨hnul', hsame⟩)

/-- **Separated recordings.** In every run, what the sink writes for the stages of a config lies
in the directory of the run, a file for each stage type, exactly when the types are safe. The
observed audio of the stages is separated in any case. -/
theorem recordings_separated_iff (config : Json) (sink : LocalRecordingSink) (root : String) :
    (∀ k : Uuid,
      Separated (sink.runDirectory k.str) (sink.Writes k.str) (recordedStages config) ∧
      Separated (observedDirectory root k.str) (ObservedWrites root k.str)
        (recordedStages config)) ↔
    SafeStages (recordedStages config) := by
  constructor
  · intro h
    exact safeStages_of_separated fun k => (h k).1
  · intro h k
    exact ⟨h.separated sink k, separated_observed root k.str _⟩

/-- A stage of this type. -/
def relayStage (type : String) : Json :=
  .obj [("type", .str type), ("plugin", .str "resampler"),
    ("io", .obj [("mode", .str "passthrough")])]

/-- A type that climbs, and two types of one file. -/
def climbingPipeline : VoxBench.Registry.JsonObject :=
  pipelineConfig [relayStage "../escaped", relayStage "stt", relayStage "./stt"]
    (by decide +kernel)

/-- The registry accepts types whose files lie outside of the run, or are the same. -/
theorem climbing_stage_escapes :
    ∃ service result sink place shared, pipelineRegistry climbingPipeline = .ok service ∧
      service.resolveConfig "voice" = .ok result ∧
      recordedStages result.resolved.json = ["../escaped", "stt", "./stt"] ∧
      LocalRecordingSink.make ⟨[], List.not_mem_nil⟩ (PurePath.parse "/srv/recordings".toList) =
        .ok sink ∧
      sink.Writes (Uuid.ofNat 0).str "../escaped" place ∧
      ¬ sink.runDirectory (Uuid.ofNat 0).str <+: place ∧
      sink.Writes (Uuid.ofNat 0).str "stt" shared ∧
      sink.Writes (Uuid.ofNat 0).str "./stt" shared := by
  have hrun : (do
      let service ← pipelineRegistry climbingPipeline
      let result ← service.resolveConfig "voice"
      pure (recordedStages result.resolved.json)).toOption =
      some ["../escaped", "stt", "./stt"] := by
    decide +kernel
  have hrun := eq_ok_of_toOption hrun
  simp only [bind_eq_ok] at hrun
  obtain ⟨service, hservice, result, hresult, hstages⟩ := hrun
  obtain ⟨sink, hsink, hparts⟩ : ∃ sink : LocalRecordingSink,
      LocalRecordingSink.make ⟨[], List.not_mem_nil⟩ (PurePath.parse "/srv/recordings".toList) =
        .ok sink ∧ sink.root.parts = ["srv".toList, "recordings".toList] := ⟨_, rfl, rfl⟩
  refine ⟨service, result, sink, _, _, hservice, hresult, Except.ok.inj hstages, hsink,
    (writes_iff sink _ _).mpr ⟨by decide, rfl⟩, ?_, (writes_iff sink _ _).mpr ⟨by decide, rfl⟩,
    (writes_iff sink _ _).mpr ⟨by decide, ?_⟩⟩
  · rw [place_stagePath, runDirectory_uuid, hparts]
    decide +kernel
  · rw [place_stagePath, place_stagePath, runDirectory_uuid, hparts]
    decide +kernel

end VoxBench.EngineHarness
