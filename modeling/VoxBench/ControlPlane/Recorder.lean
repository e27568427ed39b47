import VoxBench.ControlPlane.Recording
import VoxBench.Lib.Machine

/-!
# The recorder over restarts

Files and stored runs outlive an API process, the buffers that the files are rewritten from
do not. The recorder is the API over all its processes, together with the audio it accepted.

## Main definitions

* `Recorder`, `RecorderStep`, `recorderMachine` — the API with the chunks it accepted.
* `Recorder.Faithful` — every stage has the audio that was accepted for it.
* `Recorder.Buffered` — the step condition: audio for a recorded stage meets its buffer, and
  is saved.

## Main results

* `recorderInv_next` — a buffered step keeps buffers, files and recordings in step.
* `recording_fidelity` — every run of buffered steps.
-/

namespace VoxBench.ControlPlane

open VoxBench.Lib

/-! ## Stored runs -/

namespace RunStore

variable {store store' : RunStore} {run : StoredRun}

theorem save_eq_ok (h : store.save run = .ok store') : ∃ k, Uuid.parse run.runId = some k ∧
    store'.find? k = some { run.asUtc with runId := k.str } ∧
    ∀ k', k' ≠ k → store'.find? k' = store.find? k' := by
  unfold save at h
  split at h
  · cases h
  · rename_i k hparse
    exact ⟨k, hparse, find?_saveInSession_self h, fun k' hk' => find?_saveInSession_of_ne h hk'⟩

end RunStore

/-! ## The recorder -/

/-- What `create_observed_run` takes from the request and the resolved config. -/
structure ObservedRunRequest where
  configHash : String
  callId : Option String
  provider : String
  engine : String
  startedAt : Datetime
  resolvedConfig : Json
  environment : RunEnvironmentMetadata
  readinessChecklist : List ReadinessChecklistItem

/-- `create_observed_run`, under a new identifier. -/
def createObservedRun (state : RunApiState) (k : Uuid) (request : ObservedRunRequest)
    (unavailable : Bool) : Except PyError StoredRun × RunApiState :=
  let stored := { createRunningRun k.str request.configHash request.callId request.provider
    request.engine request.startedAt request.resolvedConfig request.environment
    request.readinessChecklist with conversationId := "observed-" ++ k.str }
  match state.save stored unavailable with
  | .error e => (.error e, state)
  | .ok state => (.ok stored, state)

/-- An API over its restarts, the runs that were created as observed ones, and the audio
chunks of all batches that were accepted, in their order. -/
structure Recorder where
  api : RunApiState
  observed : List Uuid
  accepted : List (Uuid × AudioChunkObservationRequest)

inductive RecorderStep where
  | create (k : Uuid) (request : ObservedRunRequest) (unavailable : Bool)
  | batch (request : ObservationBatchRequest) (unavailable : Bool)
  | sipEvent (request : SipEventRequest) (unavailable : Bool)
  | rtpStat (request : RtpStatRequest) (unavailable : Bool)
  | complete (runId : String) (now : Instant) (unavailable : Bool)
  | fail (runId failureAlias : String) (now : Instant) (unavailable : Bool)
  /-- A save of a run that is not an observed one. -/
  | saveOther (run : StoredRun) (unavailable : Bool)
  /-- The process ends and a new one starts on the same database and the same files. -/
  | restart

namespace Recorder

/-- The accepted chunks of a run's stage. -/
def chunks (s : Recorder) (k : Uuid) (stage : String) : List AudioChunkObservationRequest :=
  ofStage stage ((s.accepted.filter fun p => p.1 = k).map Prod.snd)

/-- Identifiers of new runs are new. -/
def Enabled (s : Recorder) : RecorderStep → Prop
  | .create k _ _ => s.api.repository.find? k = none
  | .saveOther run _ => ∀ k, Uuid.parse run.runId = some k → k ∉ s.observed
  | _ => True

def next (verify : Json → List RecordingArtifact → List MetricArtifact → List VerificationResult)
    (s : Recorder) : RecorderStep → Recorder
  | .create k request unavailable =>
      let result := createObservedRun s.api k request unavailable
      { s with
        api := result.2
        observed := if result.1.isOk then k :: s.observed else s.observed }
  | .batch request unavailable =>
      let result := ingestObservationBatch s.api request unavailable
      { s with
        api := result.2
        accepted := if result.1.isOk then
          s.accepted ++ (Uuid.parse request.runId).toList.flatMap fun k =>
            request.audioChunks.map (k, ·) else s.accepted }
  | .sipEvent request unavailable => { s with api := (ingestSipEvent s.api request unavailable).2 }
  | .rtpStat request unavailable => { s with api := (ingestRtpStat s.api request unavailable).2 }
  | .complete runId now unavailable =>
      { s with api := (completeObservedRun verify s.api runId now unavailable).2 }
  | .fail runId failureAlias now unavailable =>
      { s with api := (failObservedRun s.api runId failureAlias now unavailable).2 }
  | .saveOther run unavailable =>
      match s.api.save run unavailable with
      | .error _ => s
      | .ok api => { s with api }
  | .restart => { s with api := { s.api with audioBuffers := fun _ _ => none } }

/-- Audio for a stage of an observed run that has a recording meets the buffer of the stage,
and the save of a batch with audio does not fail. -/
def Buffered (s : Recorder) : RecorderStep → Prop
  | .batch request unavailable => ∀ k stored, Uuid.parse request.runId = some k → k ∈ s.observed →
      s.api.repository.find? k = some stored → s.api.Accepts request →
      (unavailable = true → request.audioChunks = []) ∧
      ∀ chunk ∈ request.audioChunks, (∃ r ∈ stored.recordings, r.stage = chunk.stage) →
        (s.api.audioBuffers stored.runId chunk.stage).isSome
  | _ => True

/-- Every stage of an observed run for which audio was accepted has that audio in its file
and one recording of it. -/
def Faithful (s : Recorder) : Prop :=
  ∀ k ∈ s.observed, ∃ run, s.api.repository.find? k = some run ∧
    ∀ stage, s.chunks k stage ≠ [] → Recorded s.api run stage (s.chunks k stage)

end Recorder

/-- An API process starts with any runs and files and no buffers. -/
def recorderMachine
    (verify : Json → List RecordingArtifact → List MetricArtifact → List VerificationResult) :
    Machine Recorder RecorderStep where
  init := fun s => s.observed = [] ∧ s.accepted = [] ∧ s.api.audioBuffers = fun _ _ => none
  enabled := Recorder.Enabled
  next := Recorder.next verify

/-! ## The invariant -/

/-- Buffers, files and recordings of all observed runs are in step. Chunks and buffers belong
to stored runs. -/
structure RecorderInv (s : Recorder) : Prop where
  stages : ∀ k ∈ s.observed, ∃ run, s.api.repository.find? k = some run ∧
    ∀ stage, StageInv s.api run stage (s.chunks k stage)
  accepted : ∀ p ∈ s.accepted, (s.api.repository.find? p.1).isSome
  buffers : ∀ runId stage, (s.api.audioBuffers runId stage).isSome →
    ∃ k : Uuid, runId = k.str ∧ (s.api.repository.find? k).isSome

theorem RecorderInv.faithful {s : Recorder} (h : RecorderInv s) : s.Faithful := by
  intro k hk
  obtain ⟨run, hfind, hstages⟩ := h.stages k hk
  exact ⟨run, hfind, fun stage hne => (hstages stage).recorded hne⟩

/-- Files stay, buffers may be dropped, and the runs keep their recordings. -/
structure KeepsRecordings (api api' : RunApiState) : Prop where
  root : api'.artifactRoot = api.artifactRoot
  files : api'.wavFiles = api.wavFiles
  buffers : ∀ runId stage b, api'.audioBuffers runId stage = some b →
    api.audioBuffers runId stage = some b
  runs : ∀ k run, api.repository.find? k = some run → ∃ run',
    api'.repository.find? k = some run' ∧ run'.recordings = run.recordings

theorem KeepsRecordings.refl (api : RunApiState) : KeepsRecordings api api :=
  ⟨rfl, rfl, fun _ _ _ h => h, fun _ run h => ⟨run, h, rfl⟩⟩

theorem KeepsRecordings.trans {a b c : RunApiState} (h : KeepsRecordings a b)
    (h' : KeepsRecordings b c) : KeepsRecordings a c := by
  refine ⟨h'.root.trans h.root, h'.files.trans h.files,
    fun runId stage buffer hb => h.buffers _ _ _ (h'.buffers _ _ _ hb), fun k run hrun => ?_⟩
  obtain ⟨run₁, hrun₁, heq₁⟩ := h.runs k run hrun
  obtain ⟨run₂, hrun₂, heq₂⟩ := h'.runs k run₁ hrun₁
  exact ⟨run₂, hrun₂, heq₂.trans heq₁⟩

section Keeps

variable {api api' : RunApiState} {run run' stored : StoredRun} {stage runId : String}
  {chunks : List AudioChunkObservationRequest} {unavailable : Bool}

theorem StageInv.congr (h : StageInv api run stage chunks)
    (hroot : api'.artifactRoot = api.artifactRoot) (hfiles : api'.wavFiles = api.wavFiles)
    (hbuffers : ∀ b, api'.audioBuffers run.runId stage = some b →
      api.audioBuffers run.runId stage = some b)
    (hid : run'.runId = run.runId) (hrecordings : run'.recordings = run.recordings) :
    StageInv api' run' stage chunks := by
  refine ⟨fun hnil => ?_, fun hne => ?_, fun b hb => ?_⟩
  · rw [hrecordings]
    exact h.unrecorded hnil
  · obtain ⟨rate, channels, hformats, hfile, hrecording⟩ := h.recorded hne
    refine ⟨rate, channels, hformats, ?_, ?_⟩
    · rw [hfiles, hroot, hid]
      exact hfile
    · rw [hrecordings]
      exact hrecording
  · rw [hid] at hb
    exact h.buffer b (hbuffers b hb)

/-- A step that keeps the recordings keeps the invariant. -/
theorem recorderInv_of_keeps {s : Recorder} (h : RecorderInv s)
    (hkeeps : KeepsRecordings s.api api') : RecorderInv { s with api := api' } := by
  have hsome : ∀ k, (s.api.repository.find? k).isSome → (api'.repository.find? k).isSome := by
    intro k hk
    obtain ⟨run, hrun⟩ := Option.isSome_iff_exists.mp hk
    obtain ⟨run', hrun', -⟩ := hkeeps.runs k run hrun
    exact Option.isSome_iff_exists.mpr ⟨run', hrun'⟩
  refine ⟨fun k hk => ?_, fun p hp => hsome _ (h.accepted p hp), fun runId stage hb => ?_⟩
  · obtain ⟨run, hfind, hstages⟩ := h.stages k hk
    obtain ⟨run', hfind', hrecordings⟩ := hkeeps.runs k run hfind
    refine ⟨run', hfind', fun stage => (hstages stage).congr hkeeps.root hkeeps.files
      (fun b => hkeeps.buffers _ _ b) ?_ hrecordings⟩
    rw [RunStore.runId_of_find? hfind', RunStore.runId_of_find? hfind]
  · obtain ⟨b, hb⟩ := Option.isSome_iff_exists.mp hb
    obtain ⟨k, hk, hsome'⟩ := h.buffers runId stage
      (Option.isSome_iff_exists.mpr ⟨b, hkeeps.buffers _ _ b hb⟩)
    exact ⟨k, hk, hsome k hsome'⟩

theorem save_eq_ok (h : api.save run unavailable = .ok api') :
    ∃ store, api.repository.save run = .ok store ∧ api' = { api with repository := store } := by
  unfold RunApiState.save at h
  split at h
  · cases h
  · cases hsave : api.repository.save run with
    | error e => simp [hsave, Except.map] at h
    | ok store =>
        refine ⟨store, rfl, ?_⟩
        simpa [hsave, Except.map, eq_comm] using h

/-- Saving an edit of a stored run that leaves its recordings alone. -/
theorem keepsRecordings_save (hget : api.repository.get runId = some stored)
    (h : api.save run unavailable = .ok api') (hid : run.runId = stored.runId)
    (hrecordings : run.recordings = stored.recordings) : KeepsRecordings api api' := by
  obtain ⟨k, -, hfind⟩ := Option.bind_eq_some_iff.mp hget
  obtain ⟨store, hstore, rfl⟩ := save_eq_ok h
  obtain ⟨k', hparse, hself, hother⟩ := RunStore.save_eq_ok hstore
  rw [hid, RunStore.runId_of_find? hfind, Uuid.parse_str] at hparse
  obtain rfl := Option.some.inj hparse
  refine ⟨rfl, rfl, fun _ _ _ hb => hb, fun k' other hother' => ?_⟩
  by_cases hk : k' = k
  · subst hk
    rw [hfind] at hother'
    obtain rfl := Option.some.inj hother'
    exact ⟨_, hself, hrecordings⟩
  · exact ⟨other, (hother k' hk).trans hother', rfl⟩

theorem keepsRecordings_dropBuffers : KeepsRecordings api (api.dropBuffers runId) := by
  refine ⟨rfl, rfl, fun r stage b hb => ?_, fun _ run h => ⟨run, h, rfl⟩⟩
  by_cases hr : r = runId
  · subst hr
    simp [RunApiState.dropBuffers] at hb
  · simpa [RunApiState.dropBuffers, Function.update_of_ne hr] using hb

theorem keepsRecordings_sipEvent (request : SipEventRequest) :
    KeepsRecordings api (ingestSipEvent api request unavailable).2 := by
  unfold ingestSipEvent
  split
  · exact .refl api
  · rename_i hget
    split
    · exact .refl api
    · rename_i hsave
      exact keepsRecordings_save hget hsave rfl rfl

theorem keepsRecordings_rtpStat (request : RtpStatRequest) :
    KeepsRecordings api (ingestRtpStat api request unavailable).2 := by
  unfold ingestRtpStat
  split
  · exact .refl api
  · rename_i hget
    split
    · exact .refl api
    · rename_i hsave
      exact keepsRecordings_save hget hsave rfl rfl

theorem keepsRecordings_complete
    (verify : Json → List RecordingArtifact → List MetricArtifact → List VerificationResult)
    (now : Instant) :
    KeepsRecordings api (completeObservedRun verify api runId now unavailable).2 := by
  unfold completeObservedRun
  split
  · exact .refl api
  · rename_i stored hget
    cases stored.status with
    | completed | failed => exact .refl api
    | running =>
        dsimp only
        split
        · exact keepsRecordings_dropBuffers
        · rename_i hsave
          exact keepsRecordings_dropBuffers.trans (keepsRecordings_save hget hsave rfl rfl)

theorem keepsRecordings_fail (failureAlias : String) (now : Instant) :
    KeepsRecordings api (failObservedRun api runId failureAlias now unavailable).2 := by
  unfold failObservedRun
  split
  · exact .refl api
  · rename_i stored hget
    cases stored.status with
    | completed | failed => exact .refl api
    | running =>
        dsimp only
        split
        · exact keepsRecordings_dropBuffers
        · rename_i hsave
          exact keepsRecordings_dropBuffers.trans (keepsRecordings_save hget hsave rfl rfl)

theorem keepsRecordings_restart :
    KeepsRecordings api { api with audioBuffers := fun _ _ => none } :=
  ⟨rfl, rfl, (fun _ _ _ hb => nomatch hb), fun _ run h => ⟨run, h, rfl⟩⟩

end Keeps

/-! ## Steps -/

section Steps

variable {s : Recorder} {api' : RunApiState} {stored written : StoredRun} {k : Uuid}
  {request : ObservationBatchRequest}
  {decoded : List (AudioChunkObservationRequest × List UInt8)}

/-- What a batch writes before its save: nothing of other runs, and its chunks after those
of their stages. -/
theorem stageInv_batch (h : RecorderInv s) (hfind : s.api.repository.find? k = some stored)
    (hcheck : checkObservationBatch s.api stored request = .ok decoded)
    (hwrite : writeAllAudio s.api stored decoded = (.ok (), api', written)) :
    (∀ k' ∈ s.observed, k' ≠ k → ∃ run, s.api.repository.find? k' = some run ∧
      ∀ stage, StageInv api' run stage (s.chunks k' stage)) ∧
    (k ∈ s.observed →
      (∀ chunk ∈ request.audioChunks, (∃ r ∈ stored.recordings, r.stage = chunk.stage) →
        (s.api.audioBuffers stored.runId chunk.stage).isSome) →
      ∀ stage, StageInv api' written stage
        (s.chunks k stage ++ ofStage stage request.audioChunks)) := by
  obtain ⟨-, hfst, hdecoded, -⟩ := checkObservationBatch_spec hcheck
  have hid := RunStore.runId_of_find? hfind
  have hpcm : ∀ p ∈ decoded, p.2 = p.1.pcm := fun p hp => pcm_of_decodeAudioChunk (hdecoded p hp)
  constructor
  · intro k' hk' hne
    obtain ⟨run, hrun, hstages⟩ := h.stages k' hk'
    exact ⟨run, hrun, fun stage => stageInv_writeAllAudio_of_run_ne hid
      (RunStore.runId_of_find? hrun) hne hpcm (hstages stage) hwrite⟩
  · intro hk hbuffered stage
    obtain ⟨run, hrun, hstages⟩ := h.stages k hk
    rw [hfind] at hrun
    obtain rfl := Option.some.inj hrun
    rw [← hfst]
    refine stageInv_writeAllAudio hid hpcm hstages (fun p hp hne => ?_) hwrite stage
    obtain ⟨_, _, _, _, recording, hone, _⟩ := (hstages p.1.stage).recorded hne
    have hmem : recording ∈ stored.recordings.filter fun r => r.stage = p.1.stage := by
      rw [hone]
      exact List.mem_singleton_self recording
    obtain ⟨hmem, hstage⟩ := List.mem_filter.mp hmem
    exact hbuffered p.1 (hfst ▸ List.mem_map_of_mem (f := Prod.fst) hp)
      ⟨recording, hmem, by simpa using hstage⟩

theorem chunks_append (accepted : List (Uuid × AudioChunkObservationRequest)) (k k' : Uuid)
    (new : List AudioChunkObservationRequest) (stage : String) :
    Recorder.chunks ⟨s.api, s.observed, accepted ++ new.map (k, ·)⟩ k' stage =
      Recorder.chunks ⟨s.api, s.observed, accepted⟩ k' stage ++
        if k' = k then ofStage stage new else [] := by
  by_cases hk : k' = k
  · subst hk
    simp [Recorder.chunks, ofStage, List.filter_map, Function.comp_def]
  · have hne : k ≠ k' := Ne.symm hk
    simp [Recorder.chunks, ofStage, hk, hne, List.filter_map, Function.comp_def]

/-- A batch that is answered with an error after its audio was written. -/
theorem recorderInv_unsaved (h : RecorderInv s) (hfind : s.api.repository.find? k = some stored)
    (hcheck : checkObservationBatch s.api stored request = .ok decoded)
    (hwrite : writeAllAudio s.api stored decoded = (.ok (), api', written))
    (hk : k ∈ s.observed → request.audioChunks = []) : RecorderInv { s with api := api' } := by
  obtain ⟨hother, -⟩ := stageInv_batch h hfind hcheck hwrite
  obtain ⟨hroot, hrepo, hid, hbuffers⟩ := writeAllAudio_frame hwrite
  refine ⟨fun k' hk' => ?_, fun p hp => ?_, fun runId stage hb => ?_⟩
  · by_cases hne : k' = k
    · subst hne
      have hnil : decoded = [] := by
        have hfst := (checkObservationBatch_spec hcheck).2.1
        simpa [hk hk'] using hfst
      rw [hnil] at hwrite
      cases hwrite
      exact h.stages k' hk'
    · rw [hrepo]
      exact hother k' hk' hne
  · rw [hrepo]
    exact h.accepted p hp
  · rw [hrepo]
    by_cases hr : runId = stored.runId
    · exact ⟨k, hr.trans (RunStore.runId_of_find? hfind), by rw [hfind]; rfl⟩
    · rw [hbuffers runId stage hr] at hb
      exact h.buffers runId stage hb

/-- A batch that is stored. -/
theorem recorderInv_saved (h : RecorderInv s) (hfind : s.api.repository.find? k = some stored)
    (hcheck : checkObservationBatch s.api stored request = .ok decoded)
    (hwrite : writeAllAudio s.api stored decoded = (.ok (), api', written))
    {store : RunStore} (hsave : api'.repository.save (written.addObservations request) = .ok store)
    (hbuffered : k ∈ s.observed →
      ∀ chunk ∈ request.audioChunks, (∃ r ∈ stored.recordings, r.stage = chunk.stage) →
        (s.api.audioBuffers stored.runId chunk.stage).isSome) :
    RecorderInv ⟨{ api' with repository := store }, s.observed,
      s.accepted ++ request.audioChunks.map (k, ·)⟩ := by
  obtain ⟨hother, hself⟩ := stageInv_batch h hfind hcheck hwrite
  obtain ⟨hroot, hrepo, hid, hbuffers⟩ := writeAllAudio_frame hwrite
  obtain ⟨k', hparse, hstored, hothers⟩ := RunStore.save_eq_ok hsave
  have hidk : written.runId = k.str := hid.trans (RunStore.runId_of_find? hfind)
  obtain rfl : k = k' := by
    have hrunId : (written.addObservations request).runId = k.str := hidk
    rw [hrunId, Uuid.parse_str] at hparse
    exact Option.some.inj hparse
  have hsome : ∀ j, (s.api.repository.find? j).isSome → (store.find? j).isSome := by
    intro j hj
    by_cases hjk : j = k
    · subst hjk
      rw [hstored]
      rfl
    · rw [hothers j hjk, hrepo]
      exact hj
  refine ⟨fun j hj => ?_, fun p hp => ?_, fun runId stage hb => ?_⟩
  · by_cases hjk : j = k
    · subst hjk
      refine ⟨_, hstored, fun stage => ?_⟩
      have hstage := hself hj (hbuffered hj) stage
      have hchunks := chunks_append (s := s) s.accepted j j request.audioChunks stage
      rw [if_pos rfl] at hchunks
      exact hchunks ▸ hstage.congr rfl rfl (fun _ hb => hb) hidk.symm rfl
    · obtain ⟨run, hrun, hstages⟩ := hother j hj hjk
      refine ⟨run, (hothers j hjk).trans (hrepo ▸ hrun), fun stage => ?_⟩
      have hchunks := chunks_append (s := s) s.accepted k j request.audioChunks stage
      rw [if_neg hjk, List.append_nil] at hchunks
      exact hchunks ▸ (hstages stage).congr rfl rfl (fun _ hb => hb) rfl rfl
  · rcases List.mem_append.mp hp with hp | hp
    · exact hsome _ (h.accepted p hp)
    · obtain ⟨c, -, rfl⟩ := List.mem_map.mp hp
      rw [hstored]
      rfl
  · by_cases hr : runId = stored.runId
    · exact ⟨k, hr.trans (RunStore.runId_of_find? hfind), by rw [hstored]; rfl⟩
    · rw [hbuffers runId stage hr] at hb
      obtain ⟨j, hj, hjsome⟩ := h.buffers runId stage hb
      exact ⟨j, hj, hsome j hjsome⟩

variable {verify : Json → List RecordingArtifact → List MetricArtifact → List VerificationResult}
  {unavailable : Bool}

theorem recorderInv_batch (h : RecorderInv s) (hbuffered : s.Buffered (.batch request unavailable)) :
    RecorderInv (s.next verify (.batch request unavailable)) := by
  by_cases haccepts : s.api.Accepts request
  · obtain ⟨stored, decoded, api₁, written, hget, hcheck, hwrite, -, htrue, hfalse⟩ :=
      ingest_of_accepts haccepts
    obtain ⟨k, hparse, hfind⟩ := Option.bind_eq_some_iff.mp hget
    have hcond := fun hk => hbuffered k stored hparse hk hfind haccepts
    cases unavailable with
    | true =>
        simp only [Recorder.next, htrue]
        exact recorderInv_unsaved h hfind hcheck hwrite fun hk => (hcond hk).1 rfl
    | false =>
        obtain ⟨response, api₂, hok⟩ := hfalse
        have hsave : ∃ store, api₁.repository.save (written.addObservations request) = .ok store ∧
            api₂ = { api₁ with repository := store } := by
          simp only [ingestObservationBatch, hget, hcheck, hwrite] at hok
          split at hok
          · cases hok
          · rename_i hsave
            obtain ⟨store, hstore, heq⟩ := save_eq_ok hsave
            cases hok
            exact ⟨store, hstore, heq⟩
        obtain ⟨store, hstore, rfl⟩ := hsave
        simp only [Recorder.next, hok, hparse, Option.toList_some, List.flatMap_singleton]
        exact recorderInv_saved h hfind hcheck hwrite hstore fun hk => (hcond hk).2
  · have hsame : (ingestObservationBatch s.api request unavailable).2 = s.api :=
      ingest_of_not_accepts haccepts
    have herror : (ingestObservationBatch s.api request unavailable).1.isOk = false := by
      cases hget : s.api.repository.get request.runId with
      | none => simp [ingestObservationBatch, hget, Except.isOk, Except.toBool]
      | some stored =>
          cases hcheck : checkObservationBatch s.api stored request with
          | error e => simp [ingestObservationBatch, hget, hcheck, Except.isOk, Except.toBool]
          | ok decoded => exact absurd ⟨stored, decoded, hget, hcheck⟩ haccepts
    simp only [Recorder.next, hsame, herror]
    exact h

theorem createObservedRun_cases (api : RunApiState) (k : Uuid) (new : ObservedRunRequest)
    (unavailable : Bool) :
    (∃ e, createObservedRun api k new unavailable = (.error e, api)) ∨
    ∃ stored store, createObservedRun api k new unavailable =
        (.ok stored, { api with repository := store }) ∧
      api.repository.save stored = .ok store ∧ stored.runId = k.str ∧ stored.recordings = [] := by
  unfold createObservedRun
  dsimp only
  split
  · exact .inl ⟨_, rfl⟩
  · rename_i hsave
    obtain ⟨store, hstore, rfl⟩ := save_eq_ok hsave
    exact .inr ⟨_, store, rfl, hstore, rfl, rfl⟩

theorem recorderInv_create (h : RecorderInv s) {new : ObservedRunRequest}
    (hnew : s.api.repository.find? k = none) :
    RecorderInv (s.next verify (.create k new unavailable)) := by
  obtain ⟨e, hcreate⟩ | ⟨stored, store, hcreate, hstore, hid, hnone⟩ :=
    createObservedRun_cases s.api k new unavailable
  · simp only [Recorder.next, hcreate]
    exact h
  · obtain ⟨k', hparse, hself, hother⟩ := RunStore.save_eq_ok hstore
    obtain rfl : k = k' := by
      rw [hid, Uuid.parse_str] at hparse
      exact Option.some.inj hparse
    simp only [Recorder.next, hcreate]
    have hold : ∀ j, (s.api.repository.find? j).isSome → j ≠ k := by
      rintro j hj rfl
      simp [hnew] at hj
    refine ⟨fun j hj => ?_, fun p hp => ?_, fun runId stage hb => ?_⟩
    · rcases List.mem_cons.mp hj with rfl | hj
      · refine ⟨_, hself, fun stage => ?_⟩
        have hchunks : s.chunks j stage = [] := by
          have hnone : s.accepted.filter (fun p => p.1 = j) = [] := by
            rw [List.filter_eq_nil_iff]
            intro p hp
            simpa using hold p.1 (h.accepted p hp)
          simp [Recorder.chunks, hnone, ofStage]
        refine ⟨fun _ => by simp [StoredRun.asUtc, hnone], fun hne => absurd hchunks hne,
          fun b hb => ?_⟩
        obtain ⟨j', hj', hsome⟩ := h.buffers j.str stage (Option.isSome_iff_exists.mpr ⟨b, hb⟩)
        exact absurd (Uuid.str_injective hj').symm (hold j' hsome)
      · obtain ⟨run, hrun, hstages⟩ := h.stages j hj
        have hjk : j ≠ k := hold j (by rw [hrun]; rfl)
        exact ⟨run, (hother j hjk).trans hrun,
          fun stage => (hstages stage).congr rfl rfl (fun _ hb => hb) rfl rfl⟩
    · rw [hother p.1 (hold p.1 (h.accepted p hp))]
      exact h.accepted p hp
    · obtain ⟨j, hj, hsome⟩ := h.buffers runId stage hb
      exact ⟨j, hj, by rw [hother j (hold j hsome)]; exact hsome⟩

theorem recorderInv_saveOther (h : RecorderInv s) {run : StoredRun}
    (hrun : ∀ k, Uuid.parse run.runId = some k → k ∉ s.observed) :
    RecorderInv (s.next verify (.saveOther run unavailable)) := by
  simp only [Recorder.next]
  split
  · exact h
  · rename_i api' hsave
    obtain ⟨store, hstore, rfl⟩ := save_eq_ok hsave
    obtain ⟨k, hparse, hself, hother⟩ := RunStore.save_eq_ok hstore
    have hsome : ∀ j, (s.api.repository.find? j).isSome → (store.find? j).isSome := by
      intro j hj
      by_cases hjk : j = k
      · subst hjk
        rw [hself]
        rfl
      · rw [hother j hjk]
        exact hj
    refine ⟨fun j hj => ?_, fun p hp => hsome _ (h.accepted p hp), fun runId stage hb => ?_⟩
    · obtain ⟨stored, hfind, hstages⟩ := h.stages j hj
      have hjk : j ≠ k := by
        rintro rfl
        exact hrun j hparse hj
      exact ⟨stored, (hother j hjk).trans hfind,
        fun stage => (hstages stage).congr rfl rfl (fun _ hb => hb) rfl rfl⟩
    · obtain ⟨j, hj, hjsome⟩ := h.buffers runId stage hb
      exact ⟨j, hj, hsome j hjsome⟩

/-- Every buffered step keeps buffers, files and recordings in step. -/
theorem recorderInv_next {l : RecorderStep} (hl : s.Enabled l ∧ s.Buffered l) (h : RecorderInv s) :
    RecorderInv (s.next verify l) := by
  cases l with
  | create k request unavailable => exact recorderInv_create h hl.1
  | batch request unavailable => exact recorderInv_batch h hl.2
  | sipEvent request unavailable => exact recorderInv_of_keeps h (keepsRecordings_sipEvent request)
  | rtpStat request unavailable => exact recorderInv_of_keeps h (keepsRecordings_rtpStat request)
  | complete runId now unavailable =>
      exact recorderInv_of_keeps h (keepsRecordings_complete verify now)
  | fail runId failureAlias now unavailable =>
      exact recorderInv_of_keeps h (keepsRecordings_fail failureAlias now)
  | saveOther run unavailable => exact recorderInv_saveOther h hl.1
  | restart => exact recorderInv_of_keeps h keepsRecordings_restart

end Steps

section Runs

variable {verify : Json → List RecordingArtifact → List MetricArtifact → List VerificationResult}
  {s : Recorder} {ls : List RecorderStep}

/-- In every run whose batches with audio are saved and meet the buffer of each stage that has
a recording, every state reached has in the file of each stage of each observed run exactly
the audio that was accepted for it, in its order and in one format, and exactly one recording
of the stage, with the duration of that audio. -/
theorem recording_fidelity (hinit : (recorderMachine verify).init s)
    (hlegal : (recorderMachine verify).Legal s ls)
    (hbuffered : (recorderMachine verify).Along Recorder.Buffered s ls) :
    ∀ ks, ks <+: ls → ((recorderMachine verify).exec s ks).Faithful := by
  rintro ks ⟨rest, rfl⟩
  obtain ⟨hobserved, haccepted, hbuffers⟩ := hinit
  have hstart : RecorderInv s :=
    ⟨by simp [hobserved], by simp [haccepted], by simp [hbuffers]⟩
  have hboth := Machine.along_and.mpr ⟨(Machine.along_append.mp hlegal).1,
    (Machine.along_append.mp hbuffered).1⟩
  have hend : RecorderInv ((recorderMachine verify).exec s ks) :=
    hboth.invariant (fun _ _ hl hs => recorderInv_next hl hs) hstart
  exact hend.faithful

end Runs

/-! ## A restart between two chunks -/

/-- An API process without runs. -/
def newRecorder : Recorder := ⟨{ observedState with repository := .empty }, [], []⟩

/-- The first identifier with one sample of audio for its only stage. -/
def sampleBatch (pcmS16leBase64 : String) : ObservationBatchRequest :=
  { audioBatch with audioChunks := [⟨"agc", pcmS16leBase64, 8000, 1, .utc 0⟩] }

def createSampleRun : RecorderStep :=
  .create (Uuid.ofNat 1) ⟨"hash", none, "echo", "loopback", .utc 0, observedRun.resolvedConfig, {}, []⟩
    false

/-- No verification at all. -/
def verifyNothing : Json → List RecordingArtifact → List MetricArtifact → List VerificationResult :=
  fun _ _ _ => []

theorem buffered_batch {s : Recorder} {request : ObservationBatchRequest}
    (hrun : request.runId = (Uuid.ofNat 1).str)
    (hbuffer : ((s.api.repository.find? (Uuid.ofNat 1)).map fun run => run.recordings.length) =
        some 0 ∨
      ∀ chunk ∈ request.audioChunks,
        (s.api.audioBuffers (Uuid.ofNat 1).str chunk.stage).isSome = true) :
    s.Buffered (.batch request false) := by
  intro k stored hparse hk hfind haccepts
  rw [hrun, Uuid.parse_str] at hparse
  obtain rfl := Option.some.inj hparse
  refine ⟨nofun, fun chunk hchunk => ?_⟩
  rintro ⟨r, hr, -⟩
  rcases hbuffer with hnone | hsome
  · rw [hfind, Option.map_some, Option.some.injEq, List.length_eq_zero_iff] at hnone
    rw [hnone] at hr
    cases hr
  · rw [RunStore.runId_of_find? hfind]
    exact hsome chunk hchunk

/-- Two batches without a restart in between. -/
theorem recording_fidelity_two_batches :
    ((recorderMachine verifyNothing).exec newRecorder [createSampleRun,
      .batch (sampleBatch "AAA=") false, .batch (sampleBatch "AQA=") false]).Faithful := by
  apply recording_fidelity (s := newRecorder) ⟨rfl, rfl, rfl⟩ _ _ _ (List.prefix_refl _)
  · exact ⟨rfl, trivial, trivial, trivial⟩
  · exact ⟨trivial, buffered_batch rfl (.inl (by decide +kernel)),
      buffered_batch rfl (.inr (by decide +kernel)), trivial⟩

/-- After a restart the file holds the second chunk alone. -/
theorem restart_truncates_recording :
    let ls := [createSampleRun, .batch (sampleBatch "AAA=") false, .restart,
      .batch (sampleBatch "AQA=") false]
    (recorderMachine verifyNothing).init newRecorder ∧
    (recorderMachine verifyNothing).Legal newRecorder ls ∧
    ¬ ((recorderMachine verifyNothing).exec newRecorder ls).Faithful := by
  intro ls
  refine ⟨⟨rfl, rfl, rfl⟩, ⟨rfl, trivial, trivial, trivial, trivial⟩, fun hfaithful => ?_⟩
  set s := (recorderMachine verifyNothing).exec newRecorder ls with hs
  have hobserved : s.observed = [Uuid.ofNat 1] := by decide +kernel
  have hchunks : s.chunks (Uuid.ofNat 1) "agc" =
      [⟨"agc", "AAA=", 8000, 1, .utc 0⟩, ⟨"agc", "AQA=", 8000, 1, .utc 0⟩] := by decide +kernel
  have hfile : s.api.wavFiles (wavPath s.api.artifactRoot (Uuid.ofNat 1).str "agc") =
      some ⟨1, 8000, [1, 0]⟩ := by decide +kernel
  obtain ⟨run, hfind, hstages⟩ := hfaithful (Uuid.ofNat 1) (by simp [hobserved])
  obtain ⟨rate, channels, -, hfile', -⟩ := hstages "agc" (by simp [hchunks])
  rw [RunStore.runId_of_find? hfind, hfile, hchunks] at hfile'
  have hframes := congrArg WavFile.frames (Option.some.inj hfile')
  dsimp only at hframes
  exact absurd hframes (by decide +kernel)

end VoxBench.ControlPlane
