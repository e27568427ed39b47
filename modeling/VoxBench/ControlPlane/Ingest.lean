import VoxBench.ControlPlane.RunStore
import VoxBench.Lib.Base64
import Mathlib.Data.List.Dedup

/-!
# The ingest endpoints

The handlers that write to a stored run from outside: single SIP events and RTP stats,
observation batches with audio, and the requests that end an observed run. A handler
reads the run, edits its copy and saves it; an observation batch also appends to the
process-local audio buffers and rewrites a WAV file per stage before the save. The
state survives an exception, so that a handler returns its result and the state it
leaves.

## Main definitions

* `ingestSipEvent`, `ingestRtpStat`, `ingestObservationBatch`, `completeObservedRun`,
  `failObservedRun` — the handlers over `RunApiState`.
* `StoredRun.addSipEvent`, `StoredRun.addObservations` and their companions — what they
  do to the run.

## Main results

* `ingest_atomic_iff` — an observation batch is applied as a whole or not at all, unless
  the save fails after audio was written.
-/

namespace VoxBench.ControlPlane

open VoxBench.Lib

/-! ## Requests -/

structure SipEventRequest where
  runId : String
  callId : Option String
  method : String
  direction : SipDirection
  ts : Datetime
  statusCode : Option ℤ
  summaryAlias : Option String

structure RtpStatRequest where
  runId : String
  ts : Datetime
  jitterMs : Option ℚ
  lossPct : Option ℚ
  mos : Option ℚ
  direction : Option RtpDirection
  rttMs : Option ℚ

structure MetricObservationRequest where
  stage : Option String
  name : String
  value : ℚ
  ts : Datetime
  deriving DecidableEq, Repr

structure AudioChunkObservationRequest where
  stage : String
  pcmS16leBase64 : String
  sampleRateHz : ℕ
  channels : ℕ
  ts : Datetime
  deriving DecidableEq, Repr

structure SipEventObservationRequest where
  callId : Option String
  method : String
  direction : SipDirection
  ts : Datetime
  statusCode : Option ℤ
  summaryAlias : Option String
  deriving DecidableEq, Repr

structure RtpStatObservationRequest where
  ts : Datetime
  jitterMs : Option ℚ
  lossPct : Option ℚ
  mos : Option ℚ
  direction : Option RtpDirection
  rttMs : Option ℚ
  deriving DecidableEq, Repr

structure TimelineEventObservationRequest where
  eventId : String
  category : TimelineCategory
  name : String
  ts : Datetime
  clockDomain : String
  alignmentUncertaintyMs : Option ℚ
  direction : Option String
  stage : Option String
  streamAlias : Option String
  source : String
  correlationAlias : Option String
  attributes : List (String × AttrValue)
  deriving DecidableEq, Repr

/-- A validated `ObservationBatchRequest`: event ids are unique within the batch. -/
structure ObservationBatchRequest where
  runId : String
  metrics : List MetricObservationRequest
  audioChunks : List AudioChunkObservationRequest
  sipEvents : List SipEventObservationRequest
  rtpStats : List RtpStatObservationRequest
  timelineEvents : List TimelineEventObservationRequest
  events_unique : (timelineEvents.map TimelineEventObservationRequest.eventId).Nodup

structure ObservationBatchResponse where
  runId : String
  metricCount : ℕ
  audioChunkCount : ℕ
  sipEventCount : ℕ
  rtpStatCount : ℕ
  timelineEventCount : ℕ
  recordingCount : ℕ
  deriving DecidableEq, Repr

def SipEventRequest.event (r : SipEventRequest) : SipEventResponse :=
  ⟨r.callId, r.method, r.direction, r.ts, r.statusCode, r.summaryAlias⟩
def RtpStatRequest.stat (r : RtpStatRequest) : RtpStatResponse :=
  ⟨r.ts, r.jitterMs, r.lossPct, r.mos, r.direction, r.rttMs⟩
def MetricObservationRequest.artifact (m : MetricObservationRequest) : MetricArtifact :=
  ⟨m.stage, m.name, m.value, m.ts⟩
def SipEventObservationRequest.event (e : SipEventObservationRequest) : SipEventResponse :=
  ⟨e.callId, e.method, e.direction, e.ts, e.statusCode, e.summaryAlias⟩
def RtpStatObservationRequest.stat (r : RtpStatObservationRequest) : RtpStatResponse :=
  ⟨r.ts, r.jitterMs, r.lossPct, r.mos, r.direction, r.rttMs⟩
def TimelineEventObservationRequest.artifact (e : TimelineEventObservationRequest) :
    TimelineEventArtifact :=
  ⟨e.eventId, e.category, e.name, e.ts, e.clockDomain, e.alignmentUncertaintyMs, e.direction,
    e.stage, e.streamAlias, e.source, e.correlationAlias, e.attributes⟩

/-! ## Edits of a run -/

namespace StoredRun

def addSipEvent (run : StoredRun) (event : SipEventResponse) : StoredRun :=
  { run with sipEvents := run.sipEvents ++ [event] }

def addRtpStat (run : StoredRun) (stat : RtpStatResponse) : StoredRun :=
  { run with rtpStats := run.rtpStats ++ [stat] }

/-- What `ingest_observation_batch` appends to a run besides audio. A timeline event
whose id the run already has is left out. -/
def addObservations (run : StoredRun) (request : ObservationBatchRequest) : StoredRun :=
  { run with
    metrics := run.metrics ++ request.metrics.map MetricObservationRequest.artifact
    sipEvents := run.sipEvents ++ request.sipEvents.map SipEventObservationRequest.event
    rtpStats := run.rtpStats ++ request.rtpStats.map RtpStatObservationRequest.stat
    timelineEvents := run.timelineEvents ++ (request.timelineEvents.filter fun e =>
      e.eventId ∉ run.timelineEvents.map TimelineEventArtifact.eventId).map
        TimelineEventObservationRequest.artifact }

/-- A recording takes the place of the recording of its stage. -/
def putRecording (run : StoredRun) (recording : RecordingArtifact) : StoredRun :=
  { run with
    recordings :=
      match run.recordings.findIdx? fun existing => existing.stage = recording.stage with
      | none => run.recordings ++ [recording]
      | some index => run.recordings.set index recording }

/-- The writes of `complete_observed_run`, with the result of `verify_recordings`. -/
def completeObserved (run : StoredRun) (verifications : List VerificationResult)
    (now : Instant) : StoredRun :=
  { run with verifications := verifications, status := .completed, endedAt := some (.utc now) }

/-- The writes of `fail_observed_run`. -/
def failObserved (run : StoredRun) (failureAlias : String) (now : Instant) : StoredRun :=
  { run with
    status := .failed
    failureAlias := some failureAlias
    endedAt := some (.utc now)
    metrics := run.metrics ++ [⟨none, "run_failed", 1, .utc now⟩] }

end StoredRun

/-! ## Audio -/

structure RunAudioBuffer where
  sampleRateHz : ℕ
  channels : ℕ
  pcmS16le : List UInt8
  deriving DecidableEq, Repr

/-- A WAV file with 16-bit samples. -/
structure WavFile where
  channels : ℕ
  sampleRateHz : ℕ
  frames : List UInt8
  deriving DecidableEq, Repr

/-- The state of one API process. Audio buffers are keyed by run and stage. -/
structure RunApiState where
  artifactRoot : String
  repository : RunStore
  audioBuffers : String → String → Option RunAudioBuffer
  wavFiles : String → Option WavFile

/-- `urllib.parse.quote`: UTF-8 bytes outside the unreserved and the `safe` characters
are written as `%XX`. -/
def quote (text : String) (safe : List Char) : String :=
  let hexDigit (n : ℕ) : Char := if n < 10 then Char.ofNat (48 + n) else Char.ofNat (55 + n)
  String.ofList (text.toList.flatMap fun c =>
    if (c.toNat < 128 && c.isAlphanum) || c ∈ ['_', '.', '-', '~'] || c ∈ safe then [c]
    else (String.singleton c).toUTF8.toList.flatMap fun b =>
      ['%', hexDigit (b.toNat / 16), hexDigit (b.toNat % 16)])

/-- `_configured_stage_names`. -/
def configuredStageNames (run : StoredRun) : Except PyError (List String) :=
  match run.resolvedConfig.get? "spec" with
  | none => .error (.keyError "spec")
  | some spec =>
      match spec.get? "media" with
      | none => .error (.keyError "media")
      | some media =>
          match media.get? "pipeline" with
          | none => .error (.keyError "pipeline")
          | some pipeline => .ok (pipeline.elems.filterMap fun stage =>
              (stage.get? "type").bind Json.str?)

/-- `_decode_audio_chunk`. -/
def decodeAudioChunk (chunk : AudioChunkObservationRequest) : Except PyError (List UInt8) :=
  match Base64.decode chunk.pcmS16leBase64 with
  | none => .error (.http 400 "pcm_s16le_base64 is not valid base64")
  | some pcm =>
      if pcm = [] then .error (.http 400 "audio chunks must not be empty")
      else if pcm.length % (2 * chunk.channels) ≠ 0 then
        .error (.http 400 "PCM16LE audio length must contain complete channel frames")
      else .ok pcm

/-- The rate and the channels of a chunk. -/
def AudioChunkObservationRequest.format (chunk : AudioChunkObservationRequest) : ℕ × ℕ :=
  (chunk.sampleRateHz, chunk.channels)

def RunAudioBuffer.format (buffer : RunAudioBuffer) : ℕ × ℕ :=
  (buffer.sampleRateHz, buffer.channels)

def formatChanged (stage : String) : PyError :=
  .http 409 ("audio format changed within stage '" ++ stage ++ "'")

/-- `_write_observed_audio`: append to the buffer of the stage, rewrite its WAV file and
put its recording into the run. -/
def writeObservedAudio (state : RunApiState) (run : StoredRun)
    (chunk : AudioChunkObservationRequest) (pcm : List UInt8) :
    Except PyError (RunApiState × StoredRun) :=
  let existing := state.audioBuffers run.runId chunk.stage
  if existing.any fun buffer => buffer.format ≠ chunk.format then
    .error (formatChanged chunk.stage)
  else
    let buffer : RunAudioBuffer :=
      { sampleRateHz := chunk.sampleRateHz
        channels := chunk.channels
        pcmS16le := (existing.map RunAudioBuffer.pcmS16le).getD [] ++ pcm }
    let path := state.artifactRoot ++ "/" ++ run.runId ++ "/" ++ quote chunk.stage [] ++ ".wav"
    let recording : RecordingArtifact :=
      { stage := chunk.stage
        uri := "file://" ++ quote path ['/']
        format := .obj [("encoding", .str "linear16"), ("rate", .int buffer.sampleRateHz),
          ("channels", .int buffer.channels)]
        durationMs := buffer.pcmS16le.length / (2 * buffer.channels * buffer.sampleRateHz) * 1000 }
    .ok
      ({ state with
          audioBuffers := Function.update state.audioBuffers run.runId
            (Function.update (state.audioBuffers run.runId) chunk.stage (some buffer))
          wavFiles := Function.update state.wavFiles path
            (some ⟨buffer.channels, buffer.sampleRateHz, buffer.pcmS16le⟩) },
        run.putRecording recording)

/-- The loop over the decoded chunks. An exception leaves what was written before it. -/
def writeAllAudio (state : RunApiState) (run : StoredRun) :
    List (AudioChunkObservationRequest × List UInt8) →
      Except PyError Unit × RunApiState × StoredRun
  | [] => (.ok (), state, run)
  | (chunk, pcm) :: rest =>
      match writeObservedAudio state run chunk pcm with
      | .error e => (.error e, state, run)
      | .ok (state', run') => writeAllAudio state' run' rest

/-! ## Handlers -/

/-- `api_state.repository.save`; the database may be unavailable. -/
def RunApiState.save (state : RunApiState) (run : StoredRun) (unavailable : Bool) :
    Except PyError RunApiState :=
  if unavailable then .error .runRepositoryError
  else (state.repository.save run).map fun store => { state with repository := store }

def unknownRun (runId : String) : PyError := .http 404 ("unknown run '" ++ runId ++ "'")

def ingestSipEvent (state : RunApiState) (request : SipEventRequest) (unavailable : Bool) :
    Except PyError SipEventResponse × RunApiState :=
  match state.repository.get request.runId with
  | none => (.error (unknownRun request.runId), state)
  | some stored =>
      match state.save (stored.addSipEvent request.event) unavailable with
      | .error e => (.error e, state)
      | .ok state' => (.ok request.event, state')

def ingestRtpStat (state : RunApiState) (request : RtpStatRequest) (unavailable : Bool) :
    Except PyError RtpStatResponse × RunApiState :=
  match state.repository.get request.runId with
  | none => (.error (unknownRun request.runId), state)
  | some stored =>
      match state.save (stored.addRtpStat request.stat) unavailable with
      | .error e => (.error e, state)
      | .ok state' => (.ok request.stat, state')

/-- The stages that a batch names. -/
def ObservationBatchRequest.referencedStages (request : ObservationBatchRequest) : List String :=
  request.metrics.filterMap MetricObservationRequest.stage ++
    request.audioChunks.map AudioChunkObservationRequest.stage ++
    request.timelineEvents.filterMap TimelineEventObservationRequest.stage

/-- The stages of a batch's audio, in the order of their first chunk. -/
def ObservationBatchRequest.audioStages (request : ObservationBatchRequest) : List String :=
  (request.audioChunks.map AudioChunkObservationRequest.stage).reverse.dedup.reverse

/-- The formats of a stage's chunks in a batch. -/
def ObservationBatchRequest.stageFormats (request : ObservationBatchRequest) (stage : String) :
    List (ℕ × ℕ) :=
  (request.audioChunks.filter fun c => c.stage = stage).map AudioChunkObservationRequest.format

/-- The checks of `ingest_observation_batch` before its first write, with the decoded
audio. -/
def checkObservationBatch (state : RunApiState) (stored : StoredRun)
    (request : ObservationBatchRequest) :
    Except PyError (List (AudioChunkObservationRequest × List UInt8)) :=
  if stored.status ≠ .running then
    .error (.http 409 ("run '" ++ request.runId ++ "' is not accepting observations"))
  else do
    let configured ← configuredStageNames stored
    let unknown := (request.referencedStages.filter fun s => s ∉ configured).dedup.insertionSort
      (· ≤ ·)
    if unknown ≠ [] then
      throw (.http 400 ("unknown pipeline stages: " ++ ", ".intercalate unknown))
    else do
      let decoded ← request.audioChunks.mapM fun chunk => do
        let pcm ← decodeAudioChunk chunk
        return (chunk, pcm)
      match request.audioStages.find? fun s => (request.stageFormats s).dedup.length > 1 with
      | some stage => throw (formatChanged stage)
      | none =>
          match request.audioStages.find? fun s =>
              (state.audioBuffers stored.runId s).any fun b => b.format ∉ request.stageFormats s with
          | some stage => throw (formatChanged stage)
          | none => return decoded

def ingestObservationBatch (state : RunApiState) (request : ObservationBatchRequest)
    (unavailable : Bool) : Except PyError ObservationBatchResponse × RunApiState :=
  match state.repository.get request.runId with
  | none => (.error (unknownRun request.runId), state)
  | some stored =>
      match checkObservationBatch state stored request with
      | .error e => (.error e, state)
      | .ok decoded =>
          match writeAllAudio state stored decoded with
          | (.error e, state, _) => (.error e, state)
          | (.ok (), state, stored) =>
              let stored := stored.addObservations request
              match state.save stored unavailable with
              | .error e => (.error e, state)
              | .ok state => (.ok
                  { runId := stored.runId
                    metricCount := request.metrics.length
                    audioChunkCount := request.audioChunks.length
                    sipEventCount := request.sipEvents.length
                    rtpStatCount := request.rtpStats.length
                    timelineEventCount := request.timelineEvents.length
                    recordingCount := stored.recordings.length }, state)

/-- Drop the audio buffers of a run. -/
def RunApiState.dropBuffers (state : RunApiState) (runId : String) : RunApiState :=
  { state with audioBuffers := Function.update state.audioBuffers runId fun _ => none }

/-- `complete_observed_run`; `verify` stands for `verify_recordings`. -/
def completeObservedRun
    (verify : Json → List RecordingArtifact → List MetricArtifact → List VerificationResult)
    (state : RunApiState) (runId : String) (now : Instant) (unavailable : Bool) :
    Except PyError StoredRun × RunApiState :=
  match state.repository.get runId with
  | none => (.error (unknownRun runId), state)
  | some stored =>
      match stored.status with
      | .completed => (.ok stored, state)
      | .failed => (.error (.http 409 ("run '" ++ runId ++ "' cannot be completed")), state)
      | .running =>
          let stored := stored.completeObserved
            (verify stored.resolvedConfig stored.recordings stored.metrics) now
          let state := state.dropBuffers runId
          match state.save stored unavailable with
          | .error e => (.error e, state)
          | .ok state => (.ok stored, state)

def failObservedRun (state : RunApiState) (runId failureAlias : String) (now : Instant)
    (unavailable : Bool) : Except PyError StoredRun × RunApiState :=
  match state.repository.get runId with
  | none => (.error (unknownRun runId), state)
  | some stored =>
      match stored.status with
      | .failed => (.ok stored, state)
      | .completed => (.error (.http 409 ("run '" ++ runId ++ "' cannot be failed")), state)
      | .running =>
          let stored := stored.failObserved failureAlias now
          let state := state.dropBuffers runId
          match state.save stored unavailable with
          | .error e => (.error e, state)
          | .ok state => (.ok stored, state)

/-! ## What the checks establish -/

/-- The audio of the chunks fits together and fits the buffers of the run. -/
structure AudioFits (state : RunApiState) (runId : String)
    (chunks : List AudioChunkObservationRequest) : Prop where
  within : ∀ c ∈ chunks, ∀ c' ∈ chunks, c.stage = c'.stage → c.format = c'.format
  buffers : ∀ c ∈ chunks, ∀ b, state.audioBuffers runId c.stage = some b → b.format = c.format

section Checks

variable {state state' : RunApiState} {stored run run' : StoredRun}
  {request : ObservationBatchRequest}
  {decoded : List (AudioChunkObservationRequest × List UInt8)}

theorem mem_audioStages {c : AudioChunkObservationRequest} (h : c ∈ request.audioChunks) :
    c.stage ∈ request.audioStages := by
  simp only [ObservationBatchRequest.audioStages, List.mem_reverse, List.mem_dedup, List.mem_map]
  exact ⟨c, h, rfl⟩

theorem mem_stageFormats {c : AudioChunkObservationRequest} (h : c ∈ request.audioChunks) :
    c.format ∈ request.stageFormats c.stage :=
  List.mem_map.mpr ⟨c, List.mem_filter.mpr ⟨h, by simp⟩, rfl⟩

/-- Two elements of a list without two different elements are equal. -/
theorem eq_of_dedup_length {α : Type} [DecidableEq α] {xs : List α} {x y : α}
    (h : ¬ xs.dedup.length > 1) (hx : x ∈ xs) (hy : y ∈ xs) : x = y := by
  have hx' := List.mem_dedup.mpr hx
  have hy' := List.mem_dedup.mpr hy
  match hd : xs.dedup with
  | [] => simp [hd] at hx'
  | [z] =>
      rw [hd, List.mem_singleton] at hx' hy'
      rw [hx', hy']
  | z :: w :: rest => simp [hd] at h

/-- Decoding succeeds chunk by chunk. -/
theorem decoded_of_mapM {chunks : List AudioChunkObservationRequest}
    (h : (chunks.mapM fun chunk => (do
      let pcm ← decodeAudioChunk chunk
      return (chunk, pcm) : Except PyError _)) = .ok decoded) :
    decoded.map Prod.fst = chunks ∧ ∀ p ∈ decoded, decodeAudioChunk p.1 = .ok p.2 := by
  induction chunks generalizing decoded with
  | nil =>
      rw [List.mapM_nil] at h
      cases h
      simp
  | cons c cs ih =>
      rw [List.mapM_cons, bind_eq_ok] at h
      obtain ⟨x, hx, h⟩ := h
      rw [bind_eq_ok] at hx h
      obtain ⟨pcm, hpcm, hx⟩ := hx
      obtain ⟨xs, hxs, h⟩ := h
      cases hx
      cases h
      obtain ⟨hfst, hall⟩ := ih hxs
      refine ⟨by rw [List.map_cons, hfst], fun p hp => ?_⟩
      rcases List.mem_cons.mp hp with rfl | hp
      · exact hpcm
      · exact hall p hp

theorem checkObservationBatch_spec
    (h : checkObservationBatch state stored request = .ok decoded) :
    stored.status = .running ∧ decoded.map Prod.fst = request.audioChunks ∧
      (∀ p ∈ decoded, decodeAudioChunk p.1 = .ok p.2) ∧
      AudioFits state stored.runId request.audioChunks := by
  unfold checkObservationBatch at h
  split at h
  · cases h
  · rename_i hrunning
    rw [bind_eq_ok] at h
    obtain ⟨configured, -, h⟩ := h
    dsimp only at h
    split at h
    · cases h
    · rw [bind_eq_ok] at h
      obtain ⟨out, hout, h⟩ := h
      split at h
      · cases h
      · rename_i hwithin
        split at h
        · cases h
        · rename_i hbuffers
          cases h
          obtain ⟨hfst, hall⟩ := decoded_of_mapM hout
          refine ⟨by simpa using hrunning, hfst, hall, fun c hc c' hc' hstage => ?_,
            fun c hc b hb => ?_⟩
          · have hone := List.find?_eq_none.mp hwithin c.stage (mem_audioStages hc)
            refine eq_of_dedup_length (by simpa using hone) (mem_stageFormats hc) ?_
            rw [hstage]
            exact mem_stageFormats hc'
          · have hone := List.find?_eq_none.mp hwithin c.stage (mem_audioStages hc)
            have hin := List.find?_eq_none.mp hbuffers c.stage (mem_audioStages hc)
            have hmem : b.format ∈ request.stageFormats c.stage := by simpa [hb] using hin
            exact eq_of_dedup_length (by simpa using hone) hmem (mem_stageFormats hc)

/-- Writing a chunk that fits succeeds, touches no other state, and leaves what is still
to be written fitting. -/
theorem writeObservedAudio_spec {chunk : AudioChunkObservationRequest} {pcm : List UInt8}
    {rest : List AudioChunkObservationRequest}
    (hfits : AudioFits state run.runId (chunk :: rest)) :
    ∃ state' run', writeObservedAudio state run chunk pcm = .ok (state', run') ∧
      state'.repository = state.repository ∧
      run' = { run with recordings := run'.recordings } ∧ AudioFits state' run.runId rest ∧
      (∀ stage, stage ≠ chunk.stage →
        state'.audioBuffers run.runId stage = state.audioBuffers run.runId stage) ∧
      (state'.audioBuffers run.runId chunk.stage).map RunAudioBuffer.pcmS16le =
        some (((state.audioBuffers run.runId chunk.stage).map RunAudioBuffer.pcmS16le).getD [] ++
          pcm) := by
  have hok : ¬ (state.audioBuffers run.runId chunk.stage).any
      (fun b => b.format ≠ chunk.format) = true := by
    rw [Option.any_eq_true]
    rintro ⟨b, hb, hne⟩
    simp [hfits.buffers chunk List.mem_cons_self b hb] at hne
  unfold writeObservedAudio
  rw [if_neg hok]
  refine ⟨_, _, rfl, rfl, rfl, ⟨?_, ?_⟩, ?_, ?_⟩
  · intro c hc c' hc' hstage
    exact hfits.within c (List.mem_cons_of_mem _ hc) c' (List.mem_cons_of_mem _ hc') hstage
  · intro c hc b hb
    by_cases hstage : c.stage = chunk.stage
    · simp only [Function.update_self, hstage, Option.some.injEq] at hb
      rw [← hb]
      exact (hfits.within c (List.mem_cons_of_mem _ hc) chunk List.mem_cons_self hstage).symm
    · simp only [Function.update_self, Function.update_of_ne hstage] at hb
      exact hfits.buffers c (List.mem_cons_of_mem _ hc) b hb
  · intro stage hstage
    simp [Function.update_of_ne hstage]
  · simp

/-- The bytes buffered for a stage of a run. -/
def RunApiState.buffered (state : RunApiState) (runId stage : String) : ℕ :=
  (((state.audioBuffers runId stage).map RunAudioBuffer.pcmS16le).getD []).length

theorem buffered_writeObservedAudio {chunk : AudioChunkObservationRequest} {pcm : List UInt8}
    {runId : String} (hother : ∀ stage, stage ≠ chunk.stage →
      state'.audioBuffers runId stage = state.audioBuffers runId stage)
    (hself : (state'.audioBuffers runId chunk.stage).map RunAudioBuffer.pcmS16le =
        some (((state.audioBuffers runId chunk.stage).map RunAudioBuffer.pcmS16le).getD [] ++ pcm))
    (stage : String) :
    state'.buffered runId stage =
      state.buffered runId stage + if stage = chunk.stage then pcm.length else 0 := by
  unfold RunApiState.buffered
  by_cases hstage : stage = chunk.stage
  · subst hstage
    simp [hself]
  · simp [hother stage hstage, hstage]

/-- Writing audio that fits never raises; the buffers only grow. -/
theorem writeAllAudio_spec (hfits : AudioFits state run.runId (decoded.map Prod.fst)) :
    ∃ state' run', writeAllAudio state run decoded = (.ok (), state', run') ∧
      state'.repository = state.repository ∧
      run' = { run with recordings := run'.recordings } ∧
      ∀ stage, state'.buffered run.runId stage = state.buffered run.runId stage +
        ((decoded.filter fun p => p.1.stage = stage).map fun p => p.2.length).sum := by
  induction decoded generalizing state run with
  | nil => exact ⟨state, run, rfl, rfl, rfl, by simp⟩
  | cons p rest ih =>
      obtain ⟨chunk, pcm⟩ := p
      obtain ⟨state₁, run₁, hwrite, hrepo, hrun, hfits₁, hother, hself⟩ :=
        @writeObservedAudio_spec _ _ _ pcm _ hfits
      have hgrow := buffered_writeObservedAudio hother hself
      have hid : run₁.runId = run.runId := by rw [hrun]
      rw [← hid] at hfits₁
      obtain ⟨state₂, run₂, hrest, hrepo₂, hrun₂, hgrow₂⟩ := ih hfits₁
      refine ⟨state₂, run₂, ?_, hrepo₂.trans hrepo, ?_, ?_⟩
      · simp only [writeAllAudio, hwrite, hrest]
      · rw [hrun₂, hrun]
      · intro stage
        rw [hid] at hgrow₂
        rw [hgrow₂ stage, hgrow stage]
        by_cases hstage : chunk.stage = stage
        · simp [hstage, Nat.add_assoc]
        · simp [hstage, Ne.symm hstage]

end Checks

/-! ## Atomicity -/

/-- The run exists and the batch passes every check made before the first write. -/
def RunApiState.Accepts (state : RunApiState) (request : ObservationBatchRequest) : Prop :=
  ∃ stored decoded, state.repository.get request.runId = some stored ∧
    checkObservationBatch state stored request = .ok decoded

/-- The evidence of a stored run. -/
def RunApiState.evidence (state : RunApiState) (runId : String) :=
  (state.repository.get runId).map fun run =>
    (run.recordings, run.metrics, run.sipEvents, run.rtpStats, run.timelineEvents)

/-- A batch that ends in an error leaves the stored runs and the audio buffers as they
were, and sending it again with success leaves the evidence of one successful send. -/
def IngestAtomic (state : RunApiState) (request : ObservationBatchRequest)
    (unavailable : Bool) : Prop :=
  ∀ e state', ingestObservationBatch state request unavailable = (.error e, state') →
    (state'.repository = state.repository ∧ state'.audioBuffers = state.audioBuffers) ∧
    ∀ resent state₂ sent state₁, ingestObservationBatch state' request false = (.ok resent, state₂) →
      ingestObservationBatch state request false = (.ok sent, state₁) →
      state₂.evidence request.runId = state₁.evidence request.runId

section Atomicity

variable {state : RunApiState} {request : ObservationBatchRequest} {unavailable : Bool}

/-- New events are told apart from the stored ones by their ids. -/
theorem nodup_addObservations {run : StoredRun}
    (h : (run.timelineEvents.map TimelineEventArtifact.eventId).Nodup) :
    ((run.addObservations request).timelineEvents.map TimelineEventArtifact.eventId).Nodup := by
  have hnew : ((request.timelineEvents.filter fun e =>
      e.eventId ∉ run.timelineEvents.map TimelineEventArtifact.eventId).map
        TimelineEventObservationRequest.eventId).Nodup :=
    (List.filter_sublist.map _).nodup request.events_unique
  simp only [StoredRun.addObservations, List.map_append, List.map_map]
  refine h.append hnew ?_
  intro id hold hid
  obtain ⟨e, he, rfl⟩ := List.mem_map.mp hid
  have hout := (List.mem_filter.mp he).2
  rw [decide_eq_true_eq] at hout
  exact hout hold

/-- What a save of an edited run stores. -/
theorem find?_save_edit {k : Uuid} {run' : StoredRun} (hid : run'.runId = k.str)
    (hnodup : (run'.timelineEvents.map TimelineEventArtifact.eventId).Nodup) :
    ∃ store, state.save run' false = .ok { state with repository := store } ∧
      store.find? k = some run'.asUtc := by
  have hsave : state.repository.save run' = state.repository.saveInSession run' k := by
    simp [RunStore.save, hid]
  obtain ⟨store, hstore⟩ : ∃ store, state.repository.saveInSession run' k = .ok store := by
    rw [RunStore.saveInSession, dif_pos hnodup]
    exact ⟨_, rfl⟩
  refine ⟨store, ?_, ?_⟩
  · simp [RunApiState.save, hsave, hstore, Except.map]
  · rw [RunStore.find?_saveInSession_self hstore, ← hid]
    rfl

theorem exists_save_addObservations {stored run : StoredRun}
    (hget : state.repository.get request.runId = some stored) (hid : run.runId = stored.runId)
    (hevents : run.timelineEvents = stored.timelineEvents) (store : RunStore) :
    ∃ store', store.save (run.addObservations request) = .ok store' := by
  obtain ⟨runUuid, -, hfind⟩ := Option.bind_eq_some_iff.mp hget
  have hparse : Uuid.parse (run.addObservations request).runId = some runUuid := by
    rw [show (run.addObservations request).runId = run.runId from rfl, hid,
      RunStore.runId_of_find? hfind, Uuid.parse_str]
  have hnodup := @nodup_addObservations request _
    (by rw [hevents]; exact RunStore.nodup_eventId_of_find? hfind)
  rw [RunStore.save, hparse]
  simp only [RunStore.saveInSession]
  rw [dif_pos hnodup]
  exact ⟨_, rfl⟩

/-- An accepted batch either is stored, or writes its audio and fails in the save. -/
theorem ingest_of_accepts (h : state.Accepts request) :
    ∃ stored decoded state₁ stored₁, state.repository.get request.runId = some stored ∧
      checkObservationBatch state stored request = .ok decoded ∧
      writeAllAudio state stored decoded = (.ok (), state₁, stored₁) ∧
      state₁.repository = state.repository ∧
      ingestObservationBatch state request true = (.error .runRepositoryError, state₁) ∧
      ∃ response state₂, ingestObservationBatch state request false = (.ok response, state₂) := by
  obtain ⟨stored, decoded, hget, hcheck⟩ := h
  obtain ⟨-, hfst, -, hfits⟩ := checkObservationBatch_spec hcheck
  rw [← hfst] at hfits
  obtain ⟨state₁, stored₁, hwrite, hrepo, hrun, -⟩ := writeAllAudio_spec hfits
  obtain ⟨store, hsave⟩ := @exists_save_addObservations _ _ _ stored₁ hget
    (by rw [hrun]) (by rw [hrun]) state₁.repository
  refine ⟨stored, decoded, state₁, stored₁, hget, hcheck, hwrite, hrepo, ?_, ?_⟩
  · simp [ingestObservationBatch, hget, hcheck, hwrite, RunApiState.save]
  · simp [ingestObservationBatch, hget, hcheck, hwrite, RunApiState.save, hsave, Except.map]

/-- What a batch does to the stored run: nothing, or it adds its observations. -/
theorem find?_ingest {k : Uuid} {run : StoredRun} (hparse : Uuid.parse request.runId = some k)
    (hfind : state.repository.find? k = some run) :
    ((ingestObservationBatch state request unavailable).1.toOption.isSome = false ∧
      (ingestObservationBatch state request unavailable).2.repository = state.repository) ∨
    ((ingestObservationBatch state request unavailable).1.toOption.isSome = true ∧
      ∃ recordings, (ingestObservationBatch state request unavailable).2.repository.find? k =
        some { run.addObservations request with recordings := recordings }.asUtc) := by
  have hget : state.repository.get request.runId = some run := by
    rw [RunStore.get, hparse, Option.bind_some, hfind]
  cases hcheck : checkObservationBatch state run request with
  | error e => exact .inl (by simp [ingestObservationBatch, hget, hcheck, Except.toOption])
  | ok decoded =>
      obtain ⟨-, hfst, -, hfits⟩ := checkObservationBatch_spec hcheck
      rw [← hfst] at hfits
      obtain ⟨state₁, written, hwrite, hrepo, hrun, -⟩ := writeAllAudio_spec hfits
      cases unavailable with
      | true =>
          exact .inl (by simp [ingestObservationBatch, hget, hcheck, hwrite, RunApiState.save,
            Except.toOption, hrepo])
      | false =>
          have hid : written.runId = k.str := by
            rw [hrun]
            exact @RunStore.runId_of_find? _ run _ hfind
          have hevents : written.timelineEvents = run.timelineEvents := by rw [hrun]
          have hnodup := @nodup_addObservations request _
            (by rw [hevents]; exact RunStore.nodup_eventId_of_find? hfind)
          obtain ⟨store, hsave, hstore⟩ :=
            @find?_save_edit state₁ _ (written.addObservations request) hid hnodup
          refine .inr ⟨?_, written.recordings, ?_⟩
          · simp [ingestObservationBatch, hget, hcheck, hwrite, hsave, Except.toOption]
          · simp only [ingestObservationBatch, hget, hcheck, hwrite, hsave]
            rw [hstore, hrun]
            rfl

/-- A batch that is not accepted changes nothing. -/
theorem ingest_of_not_accepts (h : ¬ state.Accepts request) :
    (ingestObservationBatch state request unavailable).2 = state := by
  cases hget : state.repository.get request.runId with
  | none => simp [ingestObservationBatch, hget]
  | some stored =>
      cases hcheck : checkObservationBatch state stored request with
      | error e => simp [ingestObservationBatch, hget, hcheck]
      | ok decoded => exact absurd ⟨stored, decoded, hget, hcheck⟩ h

/-- Audio that was decoded is not empty, so that writing it shows in a buffer. -/
theorem audioBuffers_ne_of_write {stored stored₁ : StoredRun} {state₁ : RunApiState}
    {decoded : List (AudioChunkObservationRequest × List UInt8)}
    (hcheck : checkObservationBatch state stored request = .ok decoded)
    (hwrite : writeAllAudio state stored decoded = (.ok (), state₁, stored₁))
    (haudio : request.audioChunks ≠ []) : state₁.audioBuffers ≠ state.audioBuffers := by
  obtain ⟨-, hfst, hdecoded, hfits⟩ := checkObservationBatch_spec hcheck
  rw [← hfst] at hfits haudio
  obtain ⟨state₂, stored₂, hwrite₂, -, -, hgrow⟩ := writeAllAudio_spec hfits
  rw [hwrite] at hwrite₂
  obtain ⟨rfl, rfl⟩ : state₁ = state₂ ∧ stored₁ = stored₂ := by simpa using hwrite₂
  obtain ⟨p, rest, rfl⟩ := List.exists_cons_of_ne_nil (by simpa using haudio)
  have hpos : p.2.length ≠ 0 := by
    have hok := hdecoded p List.mem_cons_self
    unfold decodeAudioChunk at hok
    split at hok
    · cases hok
    · split at hok
      · cases hok
      · rename_i hne
        split at hok
        · cases hok
        · cases hok
          simpa using hne
  intro hsame
  have hbytes := hgrow p.1.stage
  have hold : state₁.buffered stored.runId p.1.stage = state.buffered stored.runId p.1.stage := by
    simp [RunApiState.buffered, hsame]
  rw [hold] at hbytes
  simp only [decide_true, List.filter_cons_of_pos, List.map_cons, List.sum_cons] at hbytes
  omega

/-- Ingesting a batch is atomic exactly when it does not happen that an accepted batch
with audio meets a failing save; and once the checks have passed, no chunk of the batch is
refused for its format. -/
theorem ingest_atomic_iff (state : RunApiState) (request : ObservationBatchRequest)
    (unavailable : Bool) :
    (IngestAtomic state request unavailable ↔
      ¬ (unavailable = true ∧ request.audioChunks ≠ [] ∧ state.Accepts request)) ∧
    ∀ stored decoded, state.repository.get request.runId = some stored →
      checkObservationBatch state stored request = .ok decoded →
      (writeAllAudio state stored decoded).1 = .ok () := by
  refine ⟨⟨?_, ?_⟩, ?_⟩
  · rintro hatomic ⟨rfl, haudio, haccepts⟩
    obtain ⟨stored, decoded, state₁, stored₁, -, hcheck, hwrite, -, herror, -⟩ :=
      ingest_of_accepts haccepts
    exact audioBuffers_ne_of_write hcheck hwrite haudio (hatomic _ _ herror).1.2
  · intro hcond e state' herror
    have hsame : state' = state := by
      by_cases haccepts : state.Accepts request
      · obtain ⟨stored, decoded, state₁, stored₁, -, hcheck, hwrite, -, htrue, response, state₂,
          hfalse⟩ := ingest_of_accepts haccepts
        cases unavailable with
        | false =>
            rw [hfalse] at herror
            cases herror
        | true =>
            have hnil : request.audioChunks = [] := by
              by_contra hne
              exact hcond ⟨rfl, hne, haccepts⟩
            have hdecoded : decoded = [] := by
              have hfst := (checkObservationBatch_spec hcheck).2.1
              simpa [hnil] using hfst
            rw [hdecoded] at hwrite
            cases hwrite
            rw [htrue] at herror
            cases herror
            rfl
      · have hsnd := @ingest_of_not_accepts _ _ unavailable haccepts
        rw [herror] at hsnd
        exact hsnd
    subst hsame
    refine ⟨⟨rfl, rfl⟩, fun resent state₂ sent state₁ h₂ h₁ => ?_⟩
    rw [h₁] at h₂
    cases h₂
    rfl
  · intro stored decoded hget hcheck
    obtain ⟨-, hfst, -, hfits⟩ := checkObservationBatch_spec hcheck
    rw [← hfst] at hfits
    obtain ⟨state₁, stored₁, hwrite, -⟩ := writeAllAudio_spec hfits
    rw [hwrite]

end Atomicity

/-! ## A save that fails -/

/-- An observed run with one configured stage. -/
def observedRun : StoredRun :=
  { createRunningRun (Uuid.ofNat 1).str "hash" none "echo" "loopback" (.utc 0)
      (.obj [("spec", .obj [("media", .obj [("pipeline", .arr [.obj [("type", .str "agc")]])])])])
      {} [] with
    conversationId := "observed-" ++ (Uuid.ofNat 1).str }

/-- An API process that holds the run and no audio. -/
def observedState : RunApiState where
  artifactRoot := "/artifacts"
  repository := (RunStore.empty.save observedRun).toOption.getD .empty
  audioBuffers := fun _ _ => none
  wavFiles := fun _ => none

/-- One sample of audio. -/
def audioBatch : ObservationBatchRequest where
  runId := (Uuid.ofNat 1).str
  metrics := []
  audioChunks := [⟨"agc", "AAA=", 8000, 1, .utc 0⟩]
  sipEvents := []
  rtpStats := []
  timelineEvents := []
  events_unique := by simp

/-- While the database is unavailable the batch is answered with an error, and its audio
stays in the buffer. -/
theorem unavailable_save_keeps_audio : ¬ IngestAtomic observedState audioBatch true := by
  intro hatomic
  have hbuffer : (ingestObservationBatch observedState audioBatch true).2.audioBuffers
      (Uuid.ofNat 1).str "agc" = some ⟨8000, 1, [0, 0]⟩ := by decide +kernel
  have hnotOk : (ingestObservationBatch observedState audioBatch true).1.toOption = none := by
    decide +kernel
  cases hout : ingestObservationBatch observedState audioBatch true with
  | mk result state' =>
      rw [hout] at hbuffer hnotOk
      cases result with
      | ok response => cases hnotOk
      | error e =>
          have hsame := (hatomic e state' hout).1.2
          rw [hsame] at hbuffer
          cases hbuffer

end VoxBench.ControlPlane
