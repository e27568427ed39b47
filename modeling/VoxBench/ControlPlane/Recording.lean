import VoxBench.ControlPlane.Ingest
import VoxBench.Lib.Utf8

/-!
# Recordings of observed audio

The audio of a stage is kept three times: in a buffer of the API process, in a WAV file that
is rewritten from the buffer with every chunk, and as a recording in the stored run.

## Main definitions

* `wavPath` — the file of a run's stage.
* `Recorded` — file and recording hold exactly the given chunks.
* `StageInv` — buffer, file and recording of a stage are in step.

## Main results

* `quote_injective`, `wavPath_inj` — different stages have different files.
* `stageInv_writeObservedAudio` — one chunk, if it meets the buffer.
* `stageInv_writeAllAudio` — the chunks of a batch.
-/

namespace VoxBench.ControlPlane

open VoxBench.Lib

/-! ## Files -/

/-- The path of a stage's WAV file. -/
def wavPath (root runId stage : String) : String :=
  root ++ "/" ++ runId ++ "/" ++ quote stage [] ++ ".wav"

/-- The value of an upper-case hexadecimal digit. -/
def hexUpper (c : Char) : ℕ := if c.toNat < 65 then c.toNat - 48 else c.toNat - 55

/-- The bytes of a quoted text: `%XX` is a byte, other characters stand for themselves. -/
def unquoteBytes : List Char → List UInt8
  | '%' :: high :: low :: rest =>
      UInt8.ofNat (16 * hexUpper high + hexUpper low) :: unquoteBytes rest
  | c :: rest => String.utf8EncodeChar c ++ unquoteBytes rest
  | [] => []

theorem unquoteBytes_cons {c : Char} (h : c ≠ '%') (rest : List Char) :
    unquoteBytes (c :: rest) = String.utf8EncodeChar c ++ unquoteBytes rest := by
  rw [unquoteBytes]
  rintro high low rest' rfl
  exact absurd rfl h

/-- The digits that `quote` writes are read back. -/
theorem unquoteBytes_byte (b : UInt8) (rest : List Char) :
    let hexDigit (n : ℕ) : Char := if n < 10 then Char.ofNat (48 + n) else Char.ofNat (55 + n)
    unquoteBytes ('%' :: hexDigit (b.toNat / 16) :: hexDigit (b.toNat % 16) :: rest) =
      b :: unquoteBytes rest := by
  intro hexDigit
  have hdigit : ∀ n < 16, hexUpper (hexDigit n) = n := by decide
  have hhigh : b.toNat / 16 < 16 := by
    have := b.toNat_lt
    omega
  have hlow : b.toNat % 16 < 16 := Nat.mod_lt _ (by decide)
  rw [unquoteBytes, hdigit _ hhigh, hdigit _ hlow, Nat.div_add_mod]
  simp

theorem unquoteBytes_bytes (bytes : List UInt8) (rest : List Char) :
    let hexDigit (n : ℕ) : Char := if n < 10 then Char.ofNat (48 + n) else Char.ofNat (55 + n)
    unquoteBytes ((bytes.flatMap fun b =>
      ['%', hexDigit (b.toNat / 16), hexDigit (b.toNat % 16)]) ++ rest) =
        bytes ++ unquoteBytes rest := by
  intro hexDigit
  induction bytes with
  | nil => rfl
  | cons b bytes ih =>
      rw [List.flatMap_cons, List.append_assoc, List.cons_append, List.cons_append,
        List.cons_append, List.nil_append, unquoteBytes_byte, ih, List.cons_append]

/-- Quoting keeps the bytes of a text. -/
theorem unquoteBytes_quote (text : String) :
    unquoteBytes (quote text []).toList = text.toList.flatMap String.utf8EncodeChar := by
  rw [quote, String.toList_ofList]
  induction text.toList with
  | nil => rfl
  | cons c cs ih =>
      rw [List.flatMap_cons, List.flatMap_cons, ← ih]
      split
      · rename_i hplain
        have hne : c ≠ '%' := by
          rintro rfl
          exact absurd hplain (by decide)
        rw [List.singleton_append, unquoteBytes_cons hne]
      · rw [toList_toUTF8_singleton, unquoteBytes_bytes]

/-- Different texts are quoted differently. -/
theorem quote_injective : Function.Injective fun text => quote text [] := by
  intro s t h
  have hbytes : s.toList.flatMap String.utf8EncodeChar = t.toList.flatMap String.utf8EncodeChar := by
    rw [← unquoteBytes_quote, ← unquoteBytes_quote]
    exact congrArg (fun text : String => unquoteBytes text.toList) h
  have hencode : s.toList.utf8Encode = t.toList.utf8Encode := congrArg List.toByteArray hbytes
  rw [← String.toByteArray_ofList, ← String.toByteArray_ofList, String.toByteArray_inj,
    String.ofList_toList, String.ofList_toList] at hencode
  exact hencode

theorem length_toList_str (k : Uuid) : k.str.toList.length = 36 := by
  have hlen : ((Uuid.digits 32 k.toNat).map Uuid.hexChar).length = 32 := by simp
  simp [Uuid.str, Uuid.chars, hlen]

/-- Different stages, and different runs, have different files. -/
theorem wavPath_inj {root stage stage' : String} {k k' : Uuid}
    (h : wavPath root k.str stage = wavPath root k'.str stage') : k = k' ∧ stage = stage' := by
  have hchars := congrArg String.toList h
  simp only [wavPath, String.toList_append, List.append_assoc, List.append_cancel_left_eq] at hchars
  obtain ⟨hrun, hrest⟩ :=
    List.append_inj hchars (by rw [length_toList_str, length_toList_str])
  refine ⟨Uuid.str_injective (String.toList_injective hrun), ?_⟩
  rw [List.append_cancel_left_eq, List.append_cancel_right_eq] at hrest
  exact quote_injective (String.toList_injective hrest)

/-! ## Recordings of a run -/

section PutRecording

variable {run : StoredRun} {recording : RecordingArtifact} {stage : String}

@[simp] theorem runId_putRecording : (run.putRecording recording).runId = run.runId := rfl

/-- `putRecording` goes along the recordings to the first one of the stage. -/
theorem recordings_putRecording_cons (first : RecordingArtifact) (rest : List RecordingArtifact) :
    ({ run with recordings := first :: rest }.putRecording recording).recordings =
      if first.stage = recording.stage then recording :: rest
      else first :: ({ run with recordings := rest }.putRecording recording).recordings := by
  unfold StoredRun.putRecording
  rw [List.findIdx?_cons]
  by_cases hfirst : first.stage = recording.stage
  · simp [hfirst]
  · simp only [hfirst, decide_false, Bool.false_eq_true, if_false]
    cases rest.findIdx? fun existing => existing.stage = recording.stage <;> simp

theorem filter_putRecording_of_ne (h : stage ≠ recording.stage) :
    (run.putRecording recording).recordings.filter (fun r => r.stage = stage) =
      run.recordings.filter fun r => r.stage = stage := by
  obtain ⟨recordings, hrecordings⟩ : ∃ rs, run.recordings = rs := ⟨_, rfl⟩
  have hrun : run = { run with recordings := recordings } := by rw [← hrecordings]
  rw [hrun]
  clear hrun hrecordings
  induction recordings with
  | nil => simp [StoredRun.putRecording, Ne.symm h]
  | cons first rest ih =>
      rw [recordings_putRecording_cons]
      by_cases hfirst : first.stage = recording.stage
      · simp [hfirst, Ne.symm h]
      · rw [if_neg hfirst, List.filter_cons, List.filter_cons, ih]

/-- A stage with one recording at most has exactly the new one afterwards. -/
theorem filter_putRecording_self
    (h : (run.recordings.filter fun r => r.stage = recording.stage).length ≤ 1) :
    (run.putRecording recording).recordings.filter (fun r => r.stage = recording.stage) =
      [recording] := by
  obtain ⟨recordings, hrecordings⟩ : ∃ rs, run.recordings = rs := ⟨_, rfl⟩
  have hrun : run = { run with recordings := recordings } := by rw [← hrecordings]
  rw [hrun] at h ⊢
  clear hrun hrecordings
  induction recordings with
  | nil => simp [StoredRun.putRecording]
  | cons first rest ih =>
      rw [recordings_putRecording_cons]
      by_cases hfirst : first.stage = recording.stage
      · have hrest : rest.filter (fun r => r.stage = recording.stage) = [] := by
          simpa [List.filter_cons, hfirst] using h
        simp [hfirst, hrest]
      · have hrest := ih (by simpa [List.filter_cons, hfirst] using h)
        simp [hfirst, hrest]

end PutRecording

/-! ## One chunk -/

/-- The audio of a chunk. -/
def AudioChunkObservationRequest.pcm (chunk : AudioChunkObservationRequest) : List UInt8 :=
  (Base64.decode chunk.pcmS16leBase64).getD []

/-- The file of the stage holds the chunks one after the other, in one format; the run has
one recording of the stage, with the duration of its frames. -/
def Recorded (state : RunApiState) (run : StoredRun) (stage : String)
    (chunks : List AudioChunkObservationRequest) : Prop :=
  ∃ rate channels, (∀ c ∈ chunks, c.format = (rate, channels)) ∧
    state.wavFiles (wavPath state.artifactRoot run.runId stage) =
      some ⟨channels, rate, chunks.flatMap AudioChunkObservationRequest.pcm⟩ ∧
    ∃ recording, run.recordings.filter (fun r => r.stage = stage) = [recording] ∧
      recording.durationMs =
        (chunks.flatMap AudioChunkObservationRequest.pcm).length / (2 * channels) / rate * 1000

/-- Buffer, file and recording of a stage after the given chunks. -/
structure StageInv (state : RunApiState) (run : StoredRun) (stage : String)
    (chunks : List AudioChunkObservationRequest) : Prop where
  unrecorded : chunks = [] → run.recordings.filter (fun r => r.stage = stage) = []
  recorded : chunks ≠ [] → Recorded state run stage chunks
  buffer : ∀ b, state.audioBuffers run.runId stage = some b → chunks ≠ [] ∧
    b.pcmS16le = chunks.flatMap AudioChunkObservationRequest.pcm ∧ ∀ c ∈ chunks, c.format = b.format

section Chunk

variable {state state' : RunApiState} {run run' other : StoredRun} {stage : String}
  {chunks : List AudioChunkObservationRequest} {chunk : AudioChunkObservationRequest} {k k' : Uuid}

theorem StageInv.length_le_one (h : StageInv state run stage chunks) :
    (run.recordings.filter fun r => r.stage = stage).length ≤ 1 := by
  by_cases hchunks : chunks = []
  · simp [h.unrecorded hchunks]
  · obtain ⟨_, _, _, _, recording, hone, _⟩ := h.recorded hchunks
    simp [hone]

/-- The state and the run that a chunk leaves. -/
theorem writeObservedAudio_eq_ok
    (h : writeObservedAudio state run chunk chunk.pcm = .ok (state', run')) :
    (∀ b, state.audioBuffers run.runId chunk.stage = some b → b.format = chunk.format) ∧
    ∃ (buffer : RunAudioBuffer) (recording : RecordingArtifact), buffer.format = chunk.format ∧
      buffer.pcmS16le = ((state.audioBuffers run.runId chunk.stage).map
        RunAudioBuffer.pcmS16le).getD [] ++ chunk.pcm ∧
      recording.stage = chunk.stage ∧
      recording.durationMs =
        buffer.pcmS16le.length / (2 * buffer.channels * buffer.sampleRateHz) * 1000 ∧
      state' = { state with
        audioBuffers := Function.update state.audioBuffers run.runId
          (Function.update (state.audioBuffers run.runId) chunk.stage (some buffer))
        wavFiles := Function.update state.wavFiles
          (wavPath state.artifactRoot run.runId chunk.stage)
          (some ⟨buffer.channels, buffer.sampleRateHz, buffer.pcmS16le⟩) } ∧
      run' = run.putRecording recording := by
  simp only [writeObservedAudio] at h
  split at h
  · cases h
  · rename_i hsame
    obtain ⟨rfl, rfl⟩ := Prod.mk.inj (Except.ok.inj h)
    refine ⟨?_, _, _, rfl, rfl, rfl, rfl, rfl, rfl⟩
    intro b hb
    by_contra hne
    exact hsame (by simp [hb, hne])

/-- A chunk that meets the buffer of what was recorded before is recorded after it. -/
theorem stageInv_writeObservedAudio (h : StageInv state run chunk.stage chunks)
    (hbuffer : chunks ≠ [] → (state.audioBuffers run.runId chunk.stage).isSome)
    (hwrite : writeObservedAudio state run chunk chunk.pcm = .ok (state', run')) :
    StageInv state' run' chunk.stage (chunks ++ [chunk]) ∧
      (state'.audioBuffers run.runId chunk.stage).isSome := by
  obtain ⟨hformat, buffer, recording, hbformat, hpcm, hstage, hduration, rfl, rfl⟩ :=
    writeObservedAudio_eq_ok hwrite
  have hbytes : buffer.pcmS16le = (chunks ++ [chunk]).flatMap AudioChunkObservationRequest.pcm := by
    rw [hpcm, List.flatMap_append, List.flatMap_singleton]
    congr 1
    cases hold : state.audioBuffers run.runId chunk.stage with
    | none =>
        have hnil : chunks = [] := by
          by_contra hne
          simpa [hold] using hbuffer hne
        simp [hnil]
    | some b => exact (h.buffer b hold).2.1
  have hformats : ∀ c ∈ chunks ++ [chunk], c.format = buffer.format := by
    intro c hc
    rcases List.mem_append.mp hc with hc | hc
    · obtain ⟨b, hb⟩ := Option.isSome_iff_exists.mp (hbuffer (List.ne_nil_of_mem hc))
      rw [(h.buffer b hb).2.2 c hc, hformat b hb, hbformat]
    · rw [List.mem_singleton.mp hc, hbformat]
  refine ⟨⟨by simp, fun _ => ?_, fun b hb => ?_⟩, by simp⟩
  · refine ⟨buffer.sampleRateHz, buffer.channels, hformats, ?_, recording, ?_, ?_⟩
    · rw [← hbytes]
      exact Function.update_self ..
    · rw [← hstage]
      exact filter_putRecording_self (hstage ▸ h.length_le_one)
    · rw [hduration, hbytes, div_div]
  · simp only [runId_putRecording, Function.update_self, Option.some.injEq] at hb
    subst hb
    exact ⟨by simp, hbytes, hformats⟩

/-- A chunk leaves the other stages of its run alone. -/
theorem stageInv_writeObservedAudio_of_ne (hid : run.runId = k.str)
    (h : StageInv state run stage chunks) (hne : stage ≠ chunk.stage)
    (hwrite : writeObservedAudio state run chunk chunk.pcm = .ok (state', run')) :
    StageInv state' run' stage chunks ∧
      state'.audioBuffers run.runId stage = state.audioBuffers run.runId stage := by
  obtain ⟨-, buffer, recording, -, -, hstage, -, rfl, rfl⟩ := writeObservedAudio_eq_ok hwrite
  have hfilter := @filter_putRecording_of_ne run recording stage (hstage ▸ hne)
  have hpath : wavPath state.artifactRoot run.runId stage ≠
      wavPath state.artifactRoot run.runId chunk.stage := by
    rw [hid]
    exact fun heq => hne (wavPath_inj heq).2
  refine ⟨⟨fun hnil => ?_, fun hchunks => ?_, fun b hb => ?_⟩, ?_⟩
  · rw [hfilter]
    exact h.unrecorded hnil
  · obtain ⟨rate, channels, hformats, hfile, recording', hone, hduration⟩ := h.recorded hchunks
    exact ⟨rate, channels, hformats, (Function.update_of_ne hpath ..).trans hfile, recording',
      hfilter.trans hone, hduration⟩
  · apply h.buffer
    simpa [Function.update_of_ne hne] using hb
  · simp [Function.update_of_ne hne]

/-- A chunk leaves the other runs alone. -/
theorem stageInv_writeObservedAudio_of_run_ne (hid : run.runId = k.str)
    (hother : other.runId = k'.str) (h : StageInv state other stage chunks) (hne : k' ≠ k)
    (hwrite : writeObservedAudio state run chunk chunk.pcm = .ok (state', run')) :
    StageInv state' other stage chunks := by
  obtain ⟨-, buffer, recording, -, -, -, -, rfl, rfl⟩ := writeObservedAudio_eq_ok hwrite
  have hruns : other.runId ≠ run.runId := by
    rw [hid, hother]
    exact fun heq => hne (Uuid.str_injective heq)
  have hpath : wavPath state.artifactRoot other.runId stage ≠
      wavPath state.artifactRoot run.runId chunk.stage := by
    rw [hid, hother]
    exact fun heq => hne (wavPath_inj heq).1
  refine ⟨h.unrecorded, fun hchunks => ?_, fun b hb => ?_⟩
  · obtain ⟨rate, channels, hformats, hfile, hrecording⟩ := h.recorded hchunks
    exact ⟨rate, channels, hformats, (Function.update_of_ne hpath ..).trans hfile, hrecording⟩
  · apply h.buffer
    simpa [Function.update_of_ne hruns] using hb

end Chunk

/-! ## One batch -/

/-- The chunks of a list that belong to a stage. -/
def ofStage (stage : String) (chunks : List AudioChunkObservationRequest) :
    List AudioChunkObservationRequest :=
  chunks.filter fun c => c.stage = stage

section Batch

variable {state state' : RunApiState} {run run' other : StoredRun} {k k' : Uuid}
  {decoded : List (AudioChunkObservationRequest × List UInt8)}
  {before : String → List AudioChunkObservationRequest}

/-- The chunks of a batch are recorded after those of their stages, if each stage that was
recorded before still has its buffer. -/
theorem stageInv_writeAllAudio (hid : run.runId = k.str)
    (hpcm : ∀ p ∈ decoded, p.2 = p.1.pcm) (h : ∀ stage, StageInv state run stage (before stage))
    (hbuffer : ∀ p ∈ decoded, before p.1.stage ≠ [] →
      (state.audioBuffers run.runId p.1.stage).isSome)
    (hwrite : writeAllAudio state run decoded = (.ok (), state', run')) (stage : String) :
    StageInv state' run' stage (before stage ++ ofStage stage (decoded.map Prod.fst)) := by
  induction decoded generalizing state run before with
  | nil =>
      cases hwrite
      simpa [ofStage] using h stage
  | cons p rest ih =>
      obtain ⟨chunk, pcm⟩ := p
      obtain rfl : pcm = chunk.pcm := hpcm _ List.mem_cons_self
      rw [writeAllAudio] at hwrite
      cases hfirst : writeObservedAudio state run chunk chunk.pcm with
      | error e => simp [hfirst] at hwrite
      | ok first =>
          obtain ⟨state₁, run₁⟩ := first
          simp only [hfirst] at hwrite
          have hid₁ : run₁.runId = run.runId := by
            obtain ⟨-, _, _, -, -, -, -, -, rfl⟩ := writeObservedAudio_eq_ok hfirst
            rfl
          obtain ⟨hself, hsome⟩ := stageInv_writeObservedAudio (h chunk.stage)
            (hbuffer _ List.mem_cons_self) hfirst
          have hother : ∀ s, s ≠ chunk.stage → StageInv state₁ run₁ s (before s) ∧
              state₁.audioBuffers run.runId s = state.audioBuffers run.runId s :=
            fun s hs => stageInv_writeObservedAudio_of_ne hid (h s) hs hfirst
          have hnext := @ih state₁ run₁
            (Function.update before chunk.stage (before chunk.stage ++ [chunk]))
            (hid₁.trans hid) (fun p hp => hpcm p (List.mem_cons_of_mem _ hp)) ?_ ?_ hwrite
          · by_cases hs : chunk.stage = stage
            · subst hs
              simpa [ofStage] using hnext
            · simpa [ofStage, hs, Function.update_of_ne (Ne.symm hs)] using hnext
          · intro s
            by_cases hs : s = chunk.stage
            · subst hs
              simpa using hself
            · simpa [Function.update_of_ne hs] using (hother s hs).1
          · intro p hp hne
            rw [hid₁]
            by_cases hs : p.1.stage = chunk.stage
            · rw [hs]
              exact hsome
            · rw [(hother _ hs).2]
              exact hbuffer p (List.mem_cons_of_mem _ hp)
                (by simpa [Function.update_of_ne hs] using hne)

theorem stageInv_writeAllAudio_of_run_ne (hid : run.runId = k.str)
    (hother : other.runId = k'.str) (hne : k' ≠ k) (hpcm : ∀ p ∈ decoded, p.2 = p.1.pcm)
    {stage : String} {chunks : List AudioChunkObservationRequest}
    (h : StageInv state other stage chunks)
    (hwrite : writeAllAudio state run decoded = (.ok (), state', run')) :
    StageInv state' other stage chunks := by
  induction decoded generalizing state run with
  | nil =>
      cases hwrite
      exact h
  | cons p rest ih =>
      obtain ⟨chunk, pcm⟩ := p
      obtain rfl : pcm = chunk.pcm := hpcm _ List.mem_cons_self
      rw [writeAllAudio] at hwrite
      cases hfirst : writeObservedAudio state run chunk chunk.pcm with
      | error e => simp [hfirst] at hwrite
      | ok first =>
          obtain ⟨state₁, run₁⟩ := first
          simp only [hfirst] at hwrite
          have hid₁ : run₁.runId = run.runId := by
            obtain ⟨-, _, _, -, -, -, -, -, rfl⟩ := writeObservedAudio_eq_ok hfirst
            rfl
          exact ih (hid₁.trans hid) (fun p hp => hpcm p (List.mem_cons_of_mem _ hp))
            (stageInv_writeObservedAudio_of_run_ne hid hother h hne hfirst) hwrite

theorem pcm_of_decodeAudioChunk {chunk : AudioChunkObservationRequest} {pcm : List UInt8}
    (h : decodeAudioChunk chunk = .ok pcm) : pcm = chunk.pcm := by
  unfold decodeAudioChunk at h
  unfold AudioChunkObservationRequest.pcm
  split at h
  · cases h
  · rename_i hdecode
    split at h
    · cases h
    · split at h
      · cases h
      · cases h
        rw [hdecode]
        rfl

theorem writeAllAudio_frame (hwrite : writeAllAudio state run decoded = (.ok (), state', run')) :
    state'.artifactRoot = state.artifactRoot ∧ state'.repository = state.repository ∧
      run'.runId = run.runId ∧
      ∀ runId stage, runId ≠ run.runId →
        state'.audioBuffers runId stage = state.audioBuffers runId stage := by
  induction decoded generalizing state run with
  | nil =>
      cases hwrite
      exact ⟨rfl, rfl, rfl, fun _ _ _ => rfl⟩
  | cons p rest ih =>
      obtain ⟨chunk, pcm⟩ := p
      simp only [writeAllAudio, writeObservedAudio] at hwrite
      split at hwrite
      · cases hwrite
      · rename_i state₁ run₁ hfirst
        split at hfirst
        · cases hfirst
        · obtain ⟨rfl, rfl⟩ := Prod.mk.inj (Except.ok.inj hfirst)
          obtain ⟨hroot, hrepo, hid, hbuffers⟩ := ih hwrite
          refine ⟨hroot, hrepo, hid, fun runId stage hne => ?_⟩
          rw [hbuffers runId stage (by simpa using hne)]
          simp [Function.update_of_ne hne]

end Batch

end VoxBench.ControlPlane
