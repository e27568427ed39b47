import VoxBench.ControlPlane.Recording
import VoxBench.Observability.ExactlyOnce

/-!
# Batches that the server stores

A batch that validates may still be refused by the handler: its stages have to be configured,
under the names that the validation has stripped, and the audio of a stage keeps the format of its
first chunk. A refused batch is put back in front of everything else, and is refused again by every
later flush. Here the observers of a run and its server are followed together.

## Main definitions

* `StagesKnown` — items of configured stages, with one format for the audio of each.
* `Serves` — a server that stores the run as running, with audio of those formats.
* `Servable` — what a call has to meet for the checks of the validation and of the handler.

## Main results

* `batches_stored` — in a run of such calls every batch validates, and a request with it is answered
  with success.
* `refused_of_mismatch` — what happens to other requests.
-/

namespace VoxBench.Observability

open VoxBench.Lib VoxBench.ControlPlane

/-- Items that name configured stages, and audio of the formats of its stages. The server sees the
names without the spaces around them. -/
structure StagesKnown (configured : List String) (formats : String → ℕ × ℕ)
    (items : ∀ k, List (Item k)) : Prop where
  metrics : ∀ m ∈ items .metrics, ∀ stage ∈ m.stage, Text.strip stage ∈ configured
  audio : ∀ c ∈ items .audioChunks, Text.strip c.stage ∈ configured ∧
    (c.sampleRateHz, c.channels) = formats (Text.strip c.stage)
  timeline : ∀ e ∈ items .timelineEvents, ∀ stage ∈ e.stage, Text.strip stage ∈ configured

/-- A server that stores a run as running, with some configured stages, and has buffered audio of
some formats for it. -/
structure Serves (configured : List String) (formats : String → ℕ × ℕ) (k : Uuid)
    (server : RunApiState) : Prop where
  stored : ∃ run, server.repository.find? k = some run ∧ run.status = .running ∧
    configuredStageNames run = .ok configured
  buffers : ∀ stage b, server.audioBuffers k.str stage = some b → b.format = formats stage

/-- A call that names a stage names a configured one, up to spaces around the name, and records
audio of the format of the stage. -/
def ServedCall (configured : List String) (formats : String → ℕ × ℕ) : SessionStep → Prop
  | .stageAudio a => Text.strip a.stage ∈ configured ∧ (Collector.recorded a = true →
      (a.sampleRateHz.toNat, a.channels.toNat) = formats (Text.strip a.stage))
  | _ => True

/-- The step makes no call, its call raises, or it can be delivered and served. -/
def Servable {n : ℕ} (math : FloatMath) (parses : Datetime → Bool) (configured : List String)
    (formats : String → ℕ × ℕ) (d : Deployment n) : DeploymentStep n → Prop
  | .session i l => ((d.sessions i).call math l).isSome = true →
      DeliverableCall parses (d.sessions i).collector l ∧ ServedCall configured formats l
  | .post .. => True

/-! ## Items -/

section Items

variable {math : FloatMath} {configured : List String} {formats : String → ℕ × ℕ}

theorem stagesKnown_noItems : StagesKnown configured formats noItems :=
  ⟨by simp [noItems], by simp [noItems], by simp [noItems]⟩

theorem StagesKnown.append {xs ys : ∀ k, List (Item k)} (hx : StagesKnown configured formats xs)
    (hy : StagesKnown configured formats ys) :
    StagesKnown configured formats fun k => xs k ++ ys k where
  metrics m hm := (List.mem_append.mp hm).elim (hx.metrics m) (hy.metrics m)
  audio c hc := (List.mem_append.mp hc).elim (hx.audio c) (hy.audio c)
  timeline e he := (List.mem_append.mp he).elim (hx.timeline e) (hy.timeline e)

/-- An event that names no stage. -/
theorem stagesKnown_eventItems {e : TimelineEvent} (h : e.stage = none) :
    StagesKnown configured formats (Collector.eventItems e) where
  metrics := by simp [Collector.eventItems]
  audio := by simp [Collector.eventItems]
  timeline := by
    intro e' he' stage hstage
    obtain rfl : e' = e := by simpa [Collector.eventItems] using he'
    rw [h] at hstage
    cases hstage

theorem stagesKnown_stageItems {c : Collector} {a : StageAudio}
    (h : ServedCall configured formats (.stageAudio a)) (inputRms outputRms : ℚ)
    (quality : ℚ × ℚ × ℚ) :
    StagesKnown configured formats (c.stageItems math a inputRms outputRms quality) where
  metrics := by
    have hstage : ∀ m ∈ Collector.stageMetrics math a inputRms outputRms quality,
        m.stage = some a.stage := by
      intro m hm
      simp only [Collector.stageMetrics, List.mem_append, List.mem_cons, List.not_mem_nil, or_false,
        Option.mem_toList, Option.map_eq_some_iff] at hm
      rcases hm with (rfl | rfl | rfl | rfl | rfl | rfl | rfl) | ⟨g, -, rfl⟩ <;> rfl
    intro m hm stage hmem
    rw [hstage m hm] at hmem
    cases hmem
    exact h.1
  audio := by
    intro chunk hchunk
    simp only [Collector.stageItems] at hchunk
    split at hchunk
    · rename_i hrecorded
      rw [List.mem_singleton] at hchunk
      subst hchunk
      exact ⟨h.1, h.2 hrecorded⟩
    · cases hchunk
  timeline := by
    intro e he stage hstage
    simp only [Collector.stageItems] at he
    split at he
    · cases he
    · rw [List.mem_singleton] at he
      subst he
      cases hstage
      exact h.1

/-- What a served call queues. -/
theorem stagesKnown_newItems {s : Session} {l : SessionStep}
    (h : (s.call math l).isSome = true → ServedCall configured formats l) :
    StagesKnown configured formats (s.newItems math l) := by
  cases l with
  | stageAudio a =>
      cases hcall : s.collector.observeStageAudio math a with
      | error e =>
          have hnone : s.newItems math (.stageAudio a) = noItems := by
            simp [Session.newItems, Session.call, hcall, Except.toOption]
          rw [hnone]
          exact stagesKnown_noItems
      | ok out =>
          have hsome : s.newItems math (.stageAudio a) = out.1 := by
            simp [Session.newItems, Session.call, hcall, Except.toOption]
          obtain ⟨-, -, -, inputRms, outputRms, quality, rfl⟩ := observeStageAudio_eq_ok hcall
          rw [hsome]
          exact stagesKnown_stageItems (h (by simp [Session.call, hcall, Except.toOption]))
            inputRms outputRms quality
  | rtpPacket packet | captureHealth snapshot => exact stagesKnown_eventItems rfl
  | datagram i bytes ts =>
      rw [Session.newItems, Session.call]
      cases s.taps i with
      | none => exact stagesKnown_noItems
      | some tap =>
          dsimp only [Option.bind_some]
          cases (tap.observeDatagram bytes ts).1 with
          | error e => exact stagesKnown_noItems
          | ok packet => exact stagesKnown_eventItems rfl
  | reportHealth i ts =>
      rw [Session.newItems, Session.call]
      cases s.taps i with
      | none => exact stagesKnown_noItems
      | some tap => exact stagesKnown_eventItems rfl
  | newTap i tap | captureDrop i count | flush | send f delivers | restore f =>
      exact stagesKnown_noItems

end Items

/-! ## The server -/

section Server

variable {parses : Datetime → Bool} {configured : List String} {formats : String → ℕ × ℕ} {k : Uuid}
  {server : RunApiState} {run : StoredRun} {request : ObservationBatchRequest}

/-- What a request has to meet. -/
structure RequestKnown (configured : List String) (formats : String → ℕ × ℕ)
    (request : ObservationBatchRequest) : Prop where
  stages : ∀ stage ∈ request.referencedStages, stage ∈ configured
  formats : ∀ chunk ∈ request.audioChunks, chunk.format = formats chunk.stage
  decodes : ∀ chunk ∈ request.audioChunks, ∃ pcm, decodeAudioChunk chunk = .ok pcm

/-- Elements that are all equal to one are at most one. -/
theorem dedup_length_le_one {α : Type} [DecidableEq α] {xs : List α} {x : α}
    (h : ∀ y ∈ xs, y = x) : xs.dedup.length ≤ 1 := by
  have hsub : xs.dedup ⊆ [x] := fun y hy => List.mem_singleton.mpr (h y (List.mem_dedup.mp hy))
  exact ((List.nodup_dedup xs).subperm hsub).length_le

/-- The checks of the handler let such a request pass. -/
theorem exists_checkObservationBatch (hserves : Serves configured formats k server)
    (hfind : server.repository.find? k = some run) (h : RequestKnown configured formats request) :
    ∃ decoded, checkObservationBatch server run request = .ok decoded := by
  obtain ⟨run', hfind', hrunning, hconfigured⟩ := hserves.stored
  obtain rfl : run' = run := Option.some.inj (hfind'.symm.trans hfind)
  have hid : run'.runId = k.str := RunStore.runId_of_find? hfind
  have hunknown : request.referencedStages.filter (fun s => s ∉ configured) = [] := by
    rw [List.filter_eq_nil_iff]
    intro stage hstage
    simp [h.stages stage hstage]
  have hone : ∀ chunk ∈ request.audioChunks, ∃ p, (do
      let pcm ← decodeAudioChunk chunk
      return (chunk, pcm) : Except PyError _) = .ok p := by
    intro chunk hchunk
    obtain ⟨pcm, hpcm⟩ := h.decodes chunk hchunk
    exact ⟨(chunk, pcm), by rw [hpcm]; rfl⟩
  obtain ⟨decoded, hdecoded⟩ := exists_mapM hone
  have hformat : ∀ stage, ∀ format ∈ request.stageFormats stage, format = formats stage := by
    intro stage format hmem
    obtain ⟨chunk, hchunk, rfl⟩ := List.mem_map.mp hmem
    obtain ⟨hchunk, hstage⟩ := List.mem_filter.mp hchunk
    rw [h.formats chunk hchunk, of_decide_eq_true hstage]
  have hwithin : request.audioStages.find?
      (fun s => (request.stageFormats s).dedup.length > 1) = none := by
    rw [List.find?_eq_none]
    intro stage _
    simpa using dedup_length_le_one (hformat stage)
  have hbuffers : request.audioStages.find? (fun s => (server.audioBuffers run'.runId s).any
      fun b => b.format ∉ request.stageFormats s) = none := by
    rw [List.find?_eq_none]
    intro stage hstage
    simp only [ObservationBatchRequest.audioStages, List.mem_reverse, List.mem_dedup,
      List.mem_map] at hstage
    obtain ⟨chunk, hchunk, rfl⟩ := hstage
    rw [Bool.not_eq_true, ← Bool.not_eq_true, Option.any_eq_true]
    rintro ⟨b, hb, hnot⟩
    rw [hid] at hb
    have hmem := mem_stageFormats hchunk
    rw [h.formats chunk hchunk, ← hserves.buffers _ _ hb] at hmem
    simp [hmem] at hnot
  refine ⟨decoded, ?_⟩
  unfold checkObservationBatch
  rw [if_neg (not_not.mpr hrunning)]
  refine bind_eq_ok.mpr ⟨configured, hconfigured, ?_⟩
  dsimp only
  rw [hunknown, List.dedup_nil, List.insertionSort_nil, if_neg (not_not.mpr rfl)]
  refine bind_eq_ok.mpr ⟨decoded, hdecoded, ?_⟩
  rw [hwithin]
  dsimp only
  rw [hbuffers]
  rfl

/-- Audio of the formats leaves buffers of the formats. -/
theorem formats_writeAllAudio {state : RunApiState}
    {decoded : List (AudioChunkObservationRequest × List UInt8)}
    (hdecoded : ∀ p ∈ decoded, p.1.format = formats p.1.stage)
    (hbuffers : ∀ stage b, state.audioBuffers run.runId stage = some b → b.format = formats stage) :
    ∀ stage b, (writeAllAudio state run decoded).2.1.audioBuffers run.runId stage = some b →
      b.format = formats stage := by
  induction decoded generalizing state run with
  | nil => exact hbuffers
  | cons p rest ih =>
      obtain ⟨chunk, pcm⟩ := p
      obtain ⟨hfirst, hrest⟩ := List.forall_mem_cons.mp hdecoded
      rw [writeAllAudio]
      cases hwrite : writeObservedAudio state run chunk pcm with
      | error e => exact hbuffers
      | ok written =>
          unfold writeObservedAudio at hwrite
          dsimp only at hwrite
          split at hwrite
          · cases hwrite
          cases hwrite
          have hid : ∀ recording, (run.putRecording recording).runId = run.runId := fun _ => rfl
          refine ih hrest fun stage b hb => ?_
          simp only [hid, Function.update_self] at hb
          by_cases hstage : stage = chunk.stage
          · subst hstage
            rw [Function.update_self] at hb
            cases hb
            exact hfirst
          · rw [Function.update_of_ne hstage] at hb
            exact hbuffers stage b hb

theorem audioBuffers_ingest {state : RunApiState} {written : StoredRun}
    {decoded : List (AudioChunkObservationRequest × List UInt8)}
    (hget : server.repository.get request.runId = some run)
    (hcheck : checkObservationBatch server run request = .ok decoded)
    (hwrite : writeAllAudio server run decoded = (.ok (), state, written)) (unavailable : Bool) :
    (ingestObservationBatch server request unavailable).2.audioBuffers = state.audioBuffers := by
  simp only [ingestObservationBatch, hget, hcheck, hwrite]
  cases hsave : state.save (written.addObservations request) unavailable with
  | error e => rfl
  | ok saved =>
      unfold RunApiState.save at hsave
      split_ifs at hsave
      cases hstore : state.repository.save (written.addObservations request) with
      | error e => simp [hstore, Except.map] at hsave
      | ok store =>
          rw [hstore] at hsave
          cases hsave
          rfl

/-- A request that such a server receives is answered with success, or fails in the database; the
server stays as it is described. -/
theorem serves_ingest (hserves : Serves configured formats k server)
    (hparse : Uuid.parse request.runId = some k) (h : RequestKnown configured formats request) :
    (∃ response state, ingestObservationBatch server request false = (.ok response, state)) ∧
      ∀ unavailable, Serves configured formats k (ingestObservationBatch server request unavailable).2 := by
  obtain ⟨run, hfind, hrunning, hconfigured⟩ := hserves.stored
  have hget : server.repository.get request.runId = some run := by
    rw [RunStore.get, hparse, Option.bind_some, hfind]
  have hid : run.runId = k.str := RunStore.runId_of_find? hfind
  obtain ⟨decoded, hcheck⟩ := exists_checkObservationBatch hserves hfind h
  have hdecoded : ∀ p ∈ decoded, p.1.format = formats p.1.stage := by
    obtain ⟨-, hfst, -, -⟩ := checkObservationBatch_spec hcheck
    exact fun p hp => h.formats p.1 (hfst ▸ List.mem_map_of_mem hp)
  obtain ⟨run', decoded', state, written, hget', hcheck', hwrite, -, -, hanswer⟩ :=
    ingest_of_accepts ⟨run, decoded, hget, hcheck⟩
  cases hget.symm.trans hget'
  cases hcheck.symm.trans hcheck'
  refine ⟨hanswer, fun unavailable => ⟨?_, ?_⟩⟩
  · obtain ⟨-, hsame⟩ | ⟨-, recordings, hfound⟩ := @find?_ingest server request unavailable k run hparse hfind
    · rw [hsame]
      exact hserves.stored
    · exact ⟨_, hfound, hrunning, hconfigured⟩
  · have hformats := @formats_writeAllAudio formats run server decoded hdecoded
    rw [hwrite, hid] at hformats
    rw [audioBuffers_ingest hget hcheck hwrite]
    exact hformats hserves.buffers

/-- A request of an unknown stage, or with audio of another format than what is buffered, is refused,
and changes nothing: it is refused again whenever it is sent. -/
theorem refused_of_mismatch (hparse : Uuid.parse request.runId = some k)
    (hserves : Serves configured formats k server)
    (h : (∃ stage ∈ request.referencedStages, stage ∉ configured) ∨
      ∃ chunk ∈ request.audioChunks, ∃ b, server.audioBuffers k.str chunk.stage = some b ∧
        b.format ≠ chunk.format) (unavailable : Bool) :
    (ingestObservationBatch server request unavailable).1.toOption = none ∧
      (ingestObservationBatch server request unavailable).2 = server := by
  obtain ⟨run, hfind, -, hconfigured⟩ := hserves.stored
  have hget : server.repository.get request.runId = some run := by
    rw [RunStore.get, hparse, Option.bind_some, hfind]
  have hid : run.runId = k.str := RunStore.runId_of_find? hfind
  have hcheck : ∀ decoded, checkObservationBatch server run request ≠ .ok decoded := by
    intro decoded hok
    rcases h with ⟨stage, hstage, hunknown⟩ | ⟨chunk, hchunk, b, hb, hformat⟩
    · unfold checkObservationBatch at hok
      split_ifs at hok with hrunning
      obtain ⟨names, hnames, hok⟩ := bind_eq_ok.mp hok
      cases hconfigured.symm.trans hnames
      dsimp only at hok
      split_ifs at hok with hnone
      have hmem : stage ∈ (request.referencedStages.filter fun s => s ∉ configured).dedup.insertionSort
          (· ≤ ·) := by
        rw [List.mem_insertionSort, List.mem_dedup, List.mem_filter]
        exact ⟨hstage, decide_eq_true hunknown⟩
      rw [not_not.mp hnone] at hmem
      cases hmem
    · obtain ⟨-, -, -, hfits⟩ := checkObservationBatch_spec hok
      exact hformat (hfits.buffers chunk hchunk b (hid ▸ hb))
  cases hresult : checkObservationBatch server run request with
  | error e => simp [ingestObservationBatch, hget, hresult, Except.toOption]
  | ok decoded => exact absurd hresult (hcheck decoded)

end Server

/-! ## Requests -/

section Requests

variable {parses : Datetime → Bool} {configured : List String} {formats : String → ℕ × ℕ}
  {b : ObservationBatch Item} {request : ObservationBatchRequest}

theorem validateReferenceText_eq_strip {value text fieldName : String}
    (h : validateReferenceText value fieldName = .ok text) : text = Text.strip value := by
  unfold validateReferenceText at h
  split at h
  · exact (Except.ok.inj h).symm
  · cases h

/-- A stage that may be absent is stripped. -/
theorem strip_of_validateOptional {validate : String → Except RequestError String}
    (hstrip : ∀ value text, validate value = .ok text → text = Text.strip value)
    {value text : Option String} (h : validateOptional validate value = .ok text) :
    text = value.map Text.strip := by
  cases value with
  | none =>
      cases h
      rfl
  | some value =>
      cases hvalid : validate value with
      | error e => simp [validateOptional, hvalid, Except.map] at h
      | ok found =>
          simp only [validateOptional, hvalid, Except.map, Except.ok.injEq] at h
          rw [← h, hstrip value found hvalid]
          rfl

theorem stage_of_validateMetric {m : MetricPoint} {r : MetricObservationRequest}
    (h : validateMetric parses m = .ok r) : r.stage = m.stage.map Text.strip := by
  simp only [validateMetric, bind_eq_ok] at h
  obtain ⟨value, -, ts, -, stage, hstage, name, -, h⟩ := h
  cases h
  exact strip_of_validateOptional (fun _ _ => validateReferenceText_eq_strip) hstage

theorem stage_of_validateAudioChunk {c : AudioChunk} {r : AudioChunkObservationRequest}
    (h : validateAudioChunk parses c = .ok r) :
    r.stage = Text.strip c.stage ∧ r.format = (c.sampleRateHz, c.channels) := by
  simp only [validateAudioChunk, bind_eq_ok] at h
  obtain ⟨-, -, -, -, -, -, ts, -, stage, hstage, h⟩ := h
  cases h
  exact ⟨validateReferenceText_eq_strip hstage, rfl⟩

theorem stage_of_validateTimelineEvent {e : TimelineEvent} {r : TimelineEventObservationRequest}
    (h : validateTimelineEvent parses e = .ok r) : r.stage = e.stage.map Text.strip := by
  simp only [validateTimelineEvent, bind_eq_ok] at h
  obtain ⟨-, -, -, -, ts, -, eventId, -, name, -, clockDomain, -, direction, -, stage, hstage,
    streamAlias, -, source, -, correlationAlias, -, attributes, -, h⟩ := h
  cases h
  exact strip_of_validateOptional (fun _ _ => validateText_eq_strip) hstage

theorem metrics_of_validateBatch (h : validateBatch parses b = .ok request) :
    List.Forall₂ (fun m r => validateMetric parses m = .ok r) (b.items .metrics) request.metrics := by
  simp only [validateBatch, bind_eq_ok] at h
  obtain ⟨-, -, -, -, -, -, -, -, -, -, metrics, hmetrics, audioChunks, -, sipEvents, -, rtpStats, -,
    timelineEvents, -, h⟩ := h
  split at h
  · cases h
  · split at h
    · cases h
      exact mapM_eq_ok_iff.mp hmetrics
    · cases h

/-- The request of a batch of known items that is accepted. -/
theorem requestKnown_of_validateBatch (hknown : StagesKnown configured formats b.items)
    (hvalid : validateBatch parses b = .ok request)
    (hdecodes : ∀ chunk ∈ request.audioChunks, ∃ pcm, decodeAudioChunk chunk = .ok pcm) :
    RequestKnown configured formats request where
  decodes := hdecodes
  formats := by
    intro r hr
    obtain ⟨c, hc, hchunk⟩ := exists_mem_of_forall₂ (validateBatch_spec hvalid).1 hr
    obtain ⟨hstage, hformat⟩ := stage_of_validateAudioChunk hchunk
    rw [hformat, hstage]
    exact (hknown.audio c hc).2
  stages := by
    intro stage hstage
    simp only [ObservationBatchRequest.referencedStages, List.mem_append, List.mem_filterMap,
      List.mem_map] at hstage
    rcases hstage with (⟨r, hr, hname⟩ | ⟨r, hr, rfl⟩) | ⟨r, hr, hname⟩
    · obtain ⟨m, hm, hmetric⟩ := exists_mem_of_forall₂ (metrics_of_validateBatch hvalid) hr
      rw [stage_of_validateMetric hmetric] at hname
      obtain ⟨original, horiginal, rfl⟩ := Option.map_eq_some_iff.mp hname
      exact hknown.metrics m hm original horiginal
    · obtain ⟨c, hc, hchunk⟩ := exists_mem_of_forall₂ (validateBatch_spec hvalid).1 hr
      rw [(stage_of_validateAudioChunk hchunk).1]
      exact (hknown.audio c hc).1
    · obtain ⟨e, he, hevent⟩ := exists_mem_of_forall₂ (validateBatch_spec hvalid).2 hr
      rw [stage_of_validateTimelineEvent hevent] at hname
      obtain ⟨original, horiginal, rfl⟩ := Option.map_eq_some_iff.mp hname
      exact hknown.timeline e he original horiginal

end Requests

/-! ## Runs -/

/-- What holds in a run of servable calls. -/
structure ServedInv {n : ℕ} (parses : Datetime → Bool) (configured : List String)
    (formats : String → ℕ × ℕ) (runId : String) (k : Uuid) (d : Deployment n) : Prop where
  sessions : ∀ i, SessionInv parses (d.sessions i)
  runId_eq : ∀ i, (d.sessions i).queue.runId = runId
  known : ∀ i, StagesKnown configured formats (d.sessions i).queue.observed
  server : Serves configured formats k d.server

section Runs

variable {n : ℕ} {math : FloatMath} {parses : Datetime → Bool} {configured : List String}
  {formats : String → ℕ × ℕ} {runId : String} {k : Uuid} {d : Deployment n} {l : DeploymentStep n}

theorem StagesKnown.of_drawn {observed : ∀ k, List (Item k)} {b : ObservationBatch Item}
    (h : StagesKnown configured formats observed) (hdrawn : b.DrawnFrom observed) :
    StagesKnown configured formats b.items := by
  have hmem : ∀ {k} {x : Item k}, x ∈ b.items k → x ∈ observed k := by
    intro k x hx
    exact Multiset.mem_coe.mp (Multiset.mem_of_le (hdrawn k) (Multiset.mem_coe.mpr hx))
  exact ⟨fun m hm => h.metrics m (hmem hm), fun c hc => h.audio c (hmem hc),
    fun e he => h.timeline e (hmem he)⟩

/-- A batch of an observer is accepted, and the server that gets it stays as it is described. -/
theorem receive_of_inv (hparse : Uuid.parse runId = some k)
    (h : ServedInv parses configured formats runId k d) {i : Fin n} {b : ObservationBatch Item}
    (hsend : b.Sendable) (hdrawn : b.DrawnFrom (d.sessions i).queue.observed)
    (hid : b.runId = (d.sessions i).queue.runId) :
    Accepted parses b ∧ (receive parses d.server b false).1 = true ∧
      ∀ unavailable, Serves configured formats k (receive parses d.server b unavailable).2 := by
  have haccepted := accepted_of_inv (h.sessions i) hsend hdrawn
  obtain ⟨request, hvalid, hdecodes⟩ := id haccepted
  have hknown := requestKnown_of_validateBatch ((h.known i).of_drawn hdrawn) hvalid hdecodes
  have hrun : Uuid.parse request.runId = some k := by
    rw [runId_of_validateBatch hvalid, hid, h.runId_eq i, hparse]
  obtain ⟨⟨response, state, hanswer⟩, hserves⟩ := serves_ingest h.server hrun hknown
  refine ⟨haccepted, ?_, fun unavailable => ?_⟩
  · simp [receive, hvalid, hanswer, Except.toOption]
  · simp only [receive, hvalid]
    exact hserves unavailable

theorem servedInv_step {i : Fin n} {l : SessionStep} {server : RunApiState}
    (h : ServedInv parses configured formats runId k d)
    (hl : ((d.sessions i).call math l).isSome = true →
      DeliverableCall parses (d.sessions i).collector l ∧ ServedCall configured formats l)
    (hserver : Serves configured formats k server) :
    ServedInv parses configured formats runId k ⟨d.step math i l, server⟩ where
  sessions := forall_step (P := fun _ s => SessionInv parses s) h.sessions
    (sessionInv_next (fun hcall => (hl hcall).1) (h.sessions i))
  runId_eq := forall_step (P := fun _ s => s.queue.runId = runId) h.runId_eq
    (Session.runId_next.trans (h.runId_eq i))
  known := forall_step (P := fun _ s => StagesKnown configured formats s.queue.observed) h.known (by
    have hobserved : ((d.sessions i).next math l).queue.observed =
        fun k => (d.sessions i).queue.observed k ++ (d.sessions i).newItems math l k :=
      funext fun _ => Session.observed_next _
    rw [hobserved]
    exact (h.known i).append (stagesKnown_newItems fun hcall => (hl hcall).2))
  server := hserver

theorem servedInv_next (hparse : Uuid.parse runId = some k)
    (hl : Servable math parses configured formats d l)
    (h : ServedInv parses configured formats runId k d) :
    ServedInv parses configured formats runId k (Deployment.next math parses d l) := by
  cases l with
  | session i l => exact servedInv_step h hl h.server
  | post i f arrives unavailable answered =>
      rw [Deployment.next]
      cases hbatch : (d.sessions i).queue.nextBatch f with
      | none => exact h
      | some b =>
          have hsound := (h.sessions i).sound
          have hbounded : (d.sessions i).queue.AllBatches ObservationBatch.Sendable := hsound.bounded
          obtain ⟨-, -, hserves⟩ := receive_of_inv hparse h (hbounded.nextBatch hbatch)
            (hsound.drawn.nextBatch hbatch) (hsound.addressed.nextBatch hbatch)
          refine servedInv_step h (fun hcall => by cases hcall) ?_
          cases arrives with
          | false => exact h.server
          | true => exact hserves unavailable

/-- **Deliverable observations.** Any observers of a run, whose calls meet the limits of the server,
name configured stages and give the audio of a stage one format, and any flushes and requests: every
batch that is handed to the transport or waits for it validates, its audio decodes, and a request
with it is answered with success while the database is available. -/
theorem batches_stored (server : RunApiState) (hparse : Uuid.parse runId = some k)
    (hserver : Serves configured formats k server) (ls : List (DeploymentStep n))
    (h : (deploymentMachine math parses n).Along (Servable math parses configured formats)
      (.new runId server) ls) (i : Fin n) :
    (((deploymentMachine math parses n).exec (.new runId server) ls).sessions i).queue.AllBatches
      fun b => Accepted parses b ∧
        (receive parses ((deploymentMachine math parses n).exec (.new runId server) ls).server b
          false).1 = true := by
  have hinv : ServedInv parses configured formats runId k
      ((deploymentMachine math parses n).exec (.new runId server) ls) :=
    Machine.Along.invariant (fun _ _ hl hs => servedInv_next hparse hl hs) h
      ⟨fun _ => sessionInv_new runId, fun _ => rfl, fun _ => stagesKnown_noItems, hserver⟩
  have hsound := (hinv.sessions i).sound
  have hbatch : ∀ b : ObservationBatch Item, b.Sendable →
      b.DrawnFrom (((deploymentMachine math parses n).exec (.new runId server) ls).sessions
        i).queue.observed →
      b.runId = (((deploymentMachine math parses n).exec (.new runId server) ls).sessions
        i).queue.runId →
      Accepted parses b ∧ (receive parses ((deploymentMachine math parses n).exec (.new runId server)
        ls).server b false).1 = true := by
    intro b hsend hdrawn hid
    obtain ⟨haccepted, hanswer, -⟩ := receive_of_inv hparse hinv hsend hdrawn hid
    exact ⟨haccepted, hanswer⟩
  exact ⟨fun b hb => hbatch b (hsound.bounded.1 b hb) (hsound.drawn.1 b hb) (hsound.addressed.1 b hb),
    fun p hp b hb => hbatch b (hsound.bounded.2 p hp b hb) (hsound.drawn.2 p hp b hb)
      (hsound.addressed.2 p hp b hb)⟩

end Runs

/-- One silent sample at the stage of the stored run. -/
def servedAudio : StageAudio := ⟨"agc", [0, 0], [0, 0], 8000, 1, none, true, .utc 0⟩

theorem serves_observedState :
    Serves ["agc"] (fun _ => (8000, 1)) (Uuid.ofNat 1) observedState := by
  have hfound : ((observedState.repository.find? (Uuid.ofNat 1)).map fun run =>
      (decide (run.status = .running), (configuredStageNames run).toOption)) =
        some (true, some ["agc"]) := by decide +kernel
  obtain ⟨run, hrun, hprops⟩ := Option.map_eq_some_iff.mp hfound
  obtain ⟨hrunning, hnames⟩ := Prod.mk.inj hprops
  refine ⟨⟨run, hrun, of_decide_eq_true hrunning, ?_⟩, by simp [observedState]⟩
  cases hconfigured : configuredStageNames run with
  | error e => simp [hconfigured, Except.toOption] at hnames
  | ok names =>
      rw [hconfigured, Except.toOption, Option.some.injEq] at hnames
      rw [hnames]

theorem batches_stored_silence :
    (((deploymentMachine silence (fun _ => true) 1).exec (.new (Uuid.ofNat 1).str observedState)
      [.session 0 (.stageAudio servedAudio), .session 0 .flush]).sessions 0).queue.AllBatches
        fun b => Accepted (fun _ => true) b ∧
          (receive (fun _ => true) ((deploymentMachine silence (fun _ => true) 1).exec
            (.new (Uuid.ofNat 1).str observedState)
            [.session 0 (.stageAudio servedAudio), .session 0 .flush]).server b false).1 = true := by
  refine @batches_stored 1 silence (fun _ => true) _ _ (Uuid.ofNat 1).str _ observedState
    (by decide +kernel) serves_observedState
    [.session 0 (.stageAudio servedAudio), .session 0 .flush] ?_ 0
  rw [Machine.along_cons, Machine.along_cons]
  refine ⟨fun _ => ⟨⟨rfl, by decide +kernel, by simp [servedAudio], fun _ => by decide, ?_⟩,
    by decide +kernel, fun _ => rfl⟩, fun _ => ⟨trivial, trivial⟩, trivial⟩
  intro hincident
  have hnone : (Collector.incident (Session.new (Uuid.ofNat 1).str).collector servedAudio).isSome =
      false := by decide +kernel
  exact absurd (hnone.symm.trans hincident) (by decide)

end VoxBench.Observability
