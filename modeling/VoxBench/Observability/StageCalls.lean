import VoxBench.Lib.History
import VoxBench.Observability.Discontinuity
import Mathlib.Data.List.DropRight

/-!
# The calls of a stage

Between the calls for a stage the observer keeps the format of the last one, its last frame,
a frame count and the time of the last incident. A call in the same format goes on from
there; a call in another format begins anew. What is kept is hence about the calls of the
current format: those after the last change.

## Main definitions

* `observeAll math stage c as` — the observer after some calls, with a record of those that
  it accepted for the stage.
* `currentFormat a calls` — the calls that a call in the format of `a` goes on from.

## Main results

* `tracks_observeAll` — what the observer keeps, in terms of these calls.
* `strongest_of_chunks` — while the format stays, the observer scans chunks, and the
  strongest of what it finds is what one call on the whole stream finds.
-/

namespace VoxBench.Observability

open VoxBench.Lib VoxBench.Media

namespace StageAudio

/-- What `observe_stage_audio` does not raise on. -/
structure Accepted (a : StageAudio) : Prop where
  rate_pos : 0 < a.sampleRateHz
  channels_pos : 0 < a.channels
  output_whole : WholeFrames a.channels.toNat a.outputPcm
  input_even : a.inputPcm.length % 2 = 0

def SameFormat (a b : StageAudio) : Prop :=
  a.sampleRateHz = b.sampleRateHz ∧ a.channels = b.channels

instance decidableSameFormat (a b : StageAudio) : Decidable (SameFormat a b) :=
  inferInstanceAs (Decidable (_ ∧ _))

def frames (a : StageAudio) : ℕ := a.outputPcm.length / 2 / a.channels.toNat

theorem sameFormat_congr {a b : StageAudio} (h : SameFormat a b) (d : StageAudio) :
    SameFormat a d ↔ SameFormat b d := by
  unfold SameFormat
  rw [h.1, h.2]

end StageAudio

namespace Collector

/-! ## What a call goes on from -/

def frameOffset (c : Collector) (a : StageAudio) : ℕ :=
  ((c.priorStage a).map StagePcmState.mediaFrameOffset).getD 0

def finalSamples (c : Collector) (a : StageAudio) : List ℤ :=
  ((c.priorStage a).map StagePcmState.finalSamples).getD []

def lastIncidentMs (c : Collector) (a : StageAudio) : Option ℚ :=
  (c.priorStage a).bind StagePcmState.lastIncidentMs

/-- What the detector finds in the chunk. -/
def finding (c : Collector) (a : StageAudio) : Option (ℕ × ℚ × ℕ) :=
  detectPcmS16leDiscontinuity (unpackSamples a.outputPcm) a.channels.toNat
    (asPreviousSamples (c.finalSamples a))

/-- The incident is the finding, unless the last incident is too close. -/
theorem incident_eq (c : Collector) (a : StageAudio) :
    c.incident a =
      match c.finding a with
      | none => none
      | some (frameOffset, magnitude, channel) =>
          let mediaTimeMs := framesMs (c.frameOffset a + frameOffset) a.sampleRateHz.toNat
          if (c.lastIncidentMs a).all fun last => nearest (mediaTimeMs - last) ≥ 5 then
            some (mediaTimeMs, magnitude, channel)
          else none := by
  unfold incident finding finalSamples asPreviousSamples frameOffset lastIncidentMs
  cases c.priorStage a <;> rfl

/-- The timeline events of a call. -/
def incidentEvents (c : Collector) (a : StageAudio) : List TimelineEvent :=
  match c.incident a with
  | none => []
  | some (mediaTimeMs, magnitude, channel) =>
      [discontinuityEvent (c.ordinal .pcmDiscontinuity) a mediaTimeMs magnitude channel]

theorem observeStageAudio_of_accepted (math : FloatMath) (c : Collector) {a : StageAudio}
    (h : a.Accepted) :
    ∃ items c', c.observeStageAudio math a = .ok (items, c') ∧
      items .timelineEvents = c.incidentEvents a ∧
      c'.stagePcmState = Function.update c.stagePcmState a.stage (some (c.nextStage a)) := by
  have heven := h.output_whole.even
  obtain ⟨inputRms, hinput⟩ : ∃ q, pcmS16leRms math a.inputPcm = .ok q := by
    unfold pcmS16leRms
    rw [if_neg (by simp [h.input_even])]
    dsimp only
    split
    · exact ⟨_, rfl⟩
    · exact ⟨_, rfl⟩
  obtain ⟨outputRms, houtput⟩ : ∃ q, pcmS16leRms math a.outputPcm = .ok q := by
    unfold pcmS16leRms
    rw [if_neg (by simp [heven])]
    dsimp only
    split
    · exact ⟨_, rfl⟩
    · exact ⟨_, rfl⟩
  obtain ⟨quality, hquality⟩ : ∃ q, pcmS16leQuality math a.outputPcm = .ok q := by
    unfold pcmS16leQuality
    rw [if_neg (by simp [heven])]
    dsimp only
    split
    · exact ⟨_, rfl⟩
    · exact ⟨_, rfl⟩
  have hrate := h.rate_pos
  have hchannels := h.channels_pos
  have hwhole : a.outputPcm.length % (2 * a.channels.toNat) = 0 := h.output_whole
  unfold observeStageAudio
  rw [if_neg (by omega), if_neg (by omega), if_neg (by simp [hwhole]), hinput, houtput, hquality]
  exact ⟨_, _, rfl, rfl, rfl⟩

/-- The state of the stage in the format of `a`, after an accepted call `b`. -/
theorem priorStage_update {c c' : Collector} {a b : StageAudio}
    (ha : 0 < a.sampleRateHz ∧ 0 < a.channels) (hb : 0 < b.sampleRateHz ∧ 0 < b.channels)
    (hstage : a.stage = b.stage)
    (h : c'.stagePcmState = Function.update c.stagePcmState b.stage (some (c.nextStage b))) :
    c'.priorStage a = if a.SameFormat b then some (c.nextStage b) else none := by
  have hformat : ((c.nextStage b).sampleRateHz = a.sampleRateHz.toNat ∧
      (c.nextStage b).channels = a.channels.toNat) ↔ a.SameFormat b := by
    simp only [nextStage, StageAudio.SameFormat]
    omega
  rw [priorStage, h, hstage, Function.update_self]
  by_cases hsame : a.SameFormat b
  · rw [if_pos hsame, Option.filter_some_pos (by simpa using hformat.mpr hsame)]
  · rw [if_neg hsame, Option.filter_some_neg (by simpa using mt hformat.mp hsame)]

theorem priorStage_update_of_ne {c c' : Collector} {a b : StageAudio} (hstage : a.stage ≠ b.stage)
    (h : c'.stagePcmState = Function.update c.stagePcmState b.stage (some (c.nextStage b))) :
    c'.priorStage a = c.priorStage a := by
  rw [priorStage, priorStage, h, Function.update_of_ne hstage]

end Collector

/-! ## The record of a stage -/

/-- The media time that an event tells. -/
def mediaTimeMs (event : TimelineEvent) : Option ℚ :=
  match event.attributes.lookup "media_time_ms" with
  | some (.float t) => some t
  | _ => none

/-- An accepted call: where it began in the format, what the detector found in it and the
events that it queued. -/
structure StageCall where
  audio : StageAudio
  frameOffset : ℕ
  finding : Option (ℕ × ℚ × ℕ)
  events : List TimelineEvent

/-- A call, with the record of the stage. -/
def observe (math : FloatMath) (stage : String) (s : Collector × List StageCall)
    (a : StageAudio) : Collector × List StageCall :=
  match s.1.observeStageAudio math a with
  | .error _ => s
  | .ok (items, c) =>
      (c, if a.stage = stage then
        s.2 ++ [⟨a, s.1.frameOffset a, s.1.finding a, items .timelineEvents⟩] else s.2)

def observeAll (math : FloatMath) (stage : String) (c : Collector) (as : List StageAudio) :
    Collector × List StageCall :=
  as.foldl (observe math stage) (c, [])

/-- The media times of the incidents that some calls reported. -/
def mediaTimes (calls : List StageCall) : List ℚ :=
  calls.flatMap fun call => call.events.filterMap mediaTimeMs

/-- The last calls that have the format of `a`. -/
def currentFormat (a : StageAudio) (calls : List StageCall) : List StageCall :=
  calls.rtakeWhile fun call => a.SameFormat call.audio

/-- The scan of the audio of some calls. -/
def scanCalls (channels : ℕ) (calls : List StageCall) : ChunkScan :=
  scan channels (calls.map fun call => call.audio.outputPcm)

/-- The call is what the observer makes of its audio after the calls before it. -/
structure Follows (before : List StageCall) (call : StageCall) : Prop where
  rate_pos : 0 < call.audio.sampleRateHz
  channels_pos : 0 < call.audio.channels
  whole : WholeFrames call.audio.channels.toNat call.audio.outputPcm
  frameOffset : call.frameOffset =
    (scanCalls call.audio.channels.toNat (currentFormat call.audio before)).frames
  finding : call.finding = detectPcmS16leDiscontinuity (unpackSamples call.audio.outputPcm)
    call.audio.channels.toNat
    (asPreviousSamples
      (scanCalls call.audio.channels.toNat (currentFormat call.audio before)).carry)
  reported : call.events.filterMap mediaTimeMs =
    match call.finding with
    | none => []
    | some (frameOffset, _, _) =>
        let mediaTimeMs :=
          Collector.framesMs (call.frameOffset + frameOffset) call.audio.sampleRateHz.toNat
        if (mediaTimes (currentFormat call.audio before)).getLast?.all fun last =>
            nearest (mediaTimeMs - last) ≥ 5 then
          [mediaTimeMs]
        else []

/-- The observer knows the calls of the current format. -/
structure Tracks (stage : String) (c : Collector) (calls : List StageCall) : Prop where
  finalSamples : ∀ a : StageAudio, a.stage = stage → 0 < a.sampleRateHz ∧ 0 < a.channels →
    c.finalSamples a = (scanCalls a.channels.toNat (currentFormat a calls)).carry
  frameOffset : ∀ a : StageAudio, a.stage = stage → 0 < a.sampleRateHz ∧ 0 < a.channels →
    c.frameOffset a = (scanCalls a.channels.toNat (currentFormat a calls)).frames
  lastIncidentMs : ∀ a : StageAudio, a.stage = stage → 0 < a.sampleRateHz ∧ 0 < a.channels →
    c.lastIncidentMs a = (mediaTimes (currentFormat a calls)).getLast?

theorem currentFormat_snoc (a : StageAudio) (calls : List StageCall) (call : StageCall) :
    currentFormat a (calls ++ [call]) =
      if a.SameFormat call.audio then currentFormat call.audio calls ++ [call] else [] := by
  rw [currentFormat, List.rtakeWhile_concat]
  by_cases hsame : a.SameFormat call.audio
  · rw [if_pos (by simpa using hsame), if_pos hsame, currentFormat]
    simp only [StageAudio.sameFormat_congr hsame]
  · rw [if_neg (by simpa using hsame), if_neg hsame]

theorem mediaTimes_append (before calls : List StageCall) :
    mediaTimes (before ++ calls) = mediaTimes before ++ mediaTimes calls := List.flatMap_append

theorem scanCalls_snoc (channels : ℕ) (calls : List StageCall) (call : StageCall) :
    scanCalls channels (calls ++ [call]) =
      (scanCalls channels calls).next channels call.audio.outputPcm := by
  rw [scanCalls, List.map_append, List.map_singleton, scan_snoc, scanCalls]

theorem mediaTimeMs_discontinuityEvent (ordinal : ℕ) (a : StageAudio) (t magnitude : ℚ)
    (channel : ℕ) : mediaTimeMs (Collector.discontinuityEvent ordinal a t magnitude channel) = some t := by
  simp [mediaTimeMs, Collector.discontinuityEvent]

/-! ## What the observer keeps -/

section Run

variable {math : FloatMath} {stage : String} {c : Collector} {calls : List StageCall}
  {as : List StageAudio}

theorem tracks_nil (h : c.stagePcmState stage = none) : Tracks stage c [] := by
  have hprior : ∀ a : StageAudio, a.stage = stage → c.priorStage a = none := by
    intro a ha
    rw [Collector.priorStage, ha, h, Option.filter_none]
  constructor
  · intro a ha _
    rw [Collector.finalSamples, hprior a ha]
    rfl
  · intro a ha _
    rw [Collector.frameOffset, hprior a ha]
    rfl
  · intro a ha _
    rw [Collector.lastIncidentMs, hprior a ha]
    rfl

/-- A recorded call follows from the calls that the observer knows. -/
theorem Tracks.follows (h : Tracks stage c calls) {a : StageAudio} (hstage : a.stage = stage)
    (hpos : 0 < a.sampleRateHz ∧ 0 < a.channels) (hwhole : WholeFrames a.channels.toNat a.outputPcm) :
    Follows calls ⟨a, c.frameOffset a, c.finding a, c.incidentEvents a⟩ where
  rate_pos := hpos.1
  channels_pos := hpos.2
  whole := hwhole
  frameOffset := h.frameOffset a hstage hpos
  finding := by rw [Collector.finding, h.finalSamples a hstage hpos]
  reported := by
    rw [← h.lastIncidentMs a hstage hpos, Collector.incidentEvents, Collector.incident_eq]
    cases c.finding a with
    | none => rfl
    | some found =>
        dsimp only
        split <;> rename_i hincident <;> split at hincident
        · cases hincident
        · rename_i hclose
          rw [if_neg hclose]
          rfl
        · rename_i hfar
          obtain ⟨rfl, -⟩ := Prod.mk.inj (Option.some.inj hincident)
          rw [if_pos hfar, List.filterMap_cons, mediaTimeMs_discontinuityEvent]
          rfl
        · cases hincident

theorem mediaTimes_snoc (calls : List StageCall) (call : StageCall) :
    mediaTimes (calls ++ [call]) = mediaTimes calls ++ call.events.filterMap mediaTimeMs := by
  simp [mediaTimes]

/-- The last incident is the one of the call, if it has one. -/
theorem lastIncidentMs_nextStage (c : Collector) (b : StageAudio) :
    (c.nextStage b).lastIncidentMs =
      ((c.incidentEvents b).filterMap mediaTimeMs).getLast?.or (c.lastIncidentMs b) := by
  unfold Collector.nextStage Collector.incidentEvents
  cases c.incident b with
  | none => rfl
  | some incident =>
      dsimp only
      rw [List.filterMap_cons, mediaTimeMs_discontinuityEvent]
      rfl

/-- An accepted call for the stage is known from then on. -/
theorem Tracks.snoc (h : Tracks stage c calls) {b : StageAudio} (hstage : b.stage = stage)
    (hpos : 0 < b.sampleRateHz ∧ 0 < b.channels) {c' : Collector}
    (hnext : c'.stagePcmState =
      Function.update c.stagePcmState b.stage (some (c.nextStage b))) :
    Tracks stage c' (calls ++ [⟨b, c.frameOffset b, c.finding b, c.incidentEvents b⟩]) := by
  have hprior : ∀ a : StageAudio, a.stage = stage → 0 < a.sampleRateHz ∧ 0 < a.channels →
      c'.priorStage a = if a.SameFormat b then some (c.nextStage b) else none :=
    fun a ha hapos => Collector.priorStage_update hapos hpos (ha.trans hstage.symm) hnext
  constructor
  · intro a ha hapos
    rw [Collector.finalSamples, hprior a ha hapos, currentFormat_snoc]
    by_cases hsame : a.SameFormat b
    · rw [if_pos hsame, if_pos hsame, scanCalls_snoc, hsame.2]
      unfold ChunkScan.next
      rw [← h.finalSamples b hstage hpos]
      rfl
    · rw [if_neg hsame, if_neg hsame]
      rfl
  · intro a ha hapos
    rw [Collector.frameOffset, hprior a ha hapos, currentFormat_snoc]
    by_cases hsame : a.SameFormat b
    · rw [if_pos hsame, if_pos hsame, scanCalls_snoc, hsame.2]
      unfold ChunkScan.next
      rw [← h.frameOffset b hstage hpos]
      rfl
    · rw [if_neg hsame, if_neg hsame]
      rfl
  · intro a ha hapos
    rw [Collector.lastIncidentMs, hprior a ha hapos, currentFormat_snoc]
    by_cases hsame : a.SameFormat b
    · rw [if_pos hsame, if_pos hsame, mediaTimes_snoc, List.getLast?_append, Option.bind_some,
        lastIncidentMs_nextStage, h.lastIncidentMs b hstage hpos]
    · rw [if_neg hsame, if_neg hsame]
      rfl

/-- A call for another stage leaves the stage alone. -/
theorem Tracks.other (h : Tracks stage c calls) {b : StageAudio} (hstage : b.stage ≠ stage)
    {c' : Collector}
    (hnext : c'.stagePcmState =
      Function.update c.stagePcmState b.stage (some (c.nextStage b))) :
    Tracks stage c' calls := by
  have hprior : ∀ a : StageAudio, a.stage = stage → c'.priorStage a = c.priorStage a :=
    fun a ha => Collector.priorStage_update_of_ne (by rw [ha]; exact hstage.symm) hnext
  constructor
  · intro a ha hapos
    rw [Collector.finalSamples, hprior a ha]
    exact h.finalSamples a ha hapos
  · intro a ha hapos
    rw [Collector.frameOffset, hprior a ha]
    exact h.frameOffset a ha hapos
  · intro a ha hapos
    rw [Collector.lastIncidentMs, hprior a ha]
    exact h.lastIncidentMs a ha hapos

/-- What a call does to the record. -/
theorem observe_spec (math : FloatMath) (stage : String) (s : Collector × List StageCall)
    (a : StageAudio) :
    observe math stage s a = s ∨
      ∃ c, (0 < a.sampleRateHz ∧ 0 < a.channels) ∧ WholeFrames a.channels.toNat a.outputPcm ∧
        c.stagePcmState =
          Function.update s.1.stagePcmState a.stage (some (s.1.nextStage a)) ∧
        observe math stage s a =
          (c, if a.stage = stage then
            s.2 ++ [⟨a, s.1.frameOffset a, s.1.finding a, s.1.incidentEvents a⟩] else s.2) := by
  cases hcall : s.1.observeStageAudio math a with
  | error e =>
      left
      simp only [observe, hcall]
  | ok call =>
      right
      obtain ⟨hrate, hchannels, hwhole, inputRms, outputRms, quality, hitems⟩ :=
        observeStageAudio_eq_ok hcall
      refine ⟨call.2, ⟨hrate, hchannels⟩, hwhole, by rw [hitems], ?_⟩
      simp only [observe, hcall]
      rw [hitems]
      rfl

/-- What the observer keeps for a stage, and what it made of every call. -/
theorem tracks_observeAll (math : FloatMath) (h : c.stagePcmState stage = none)
    (as : List StageAudio) :
    Tracks stage (observeAll math stage c as).1 (observeAll math stage c as).2 ∧
      Throughout Follows (observeAll math stage c as).2 := by
  induction as using List.reverseRecOn with
  | nil => exact ⟨tracks_nil h, throughout_nil⟩
  | append_singleton as a ih =>
      obtain ⟨htracks, hfollows⟩ := ih
      have hsnoc : observeAll math stage c (as ++ [a]) =
          observe math stage (observeAll math stage c as) a := List.foldl_concat ..
      rw [hsnoc]
      rcases observe_spec math stage (observeAll math stage c as) a with
        hskip | ⟨c', hpos, hwhole, hnext, hobserve⟩
      · rw [hskip]
        exact ⟨htracks, hfollows⟩
      · rw [hobserve]
        by_cases hstage : a.stage = stage
        · rw [if_pos hstage]
          refine ⟨htracks.snoc hstage hpos hnext, throughout_snoc.mpr ⟨hfollows, ?_⟩⟩
          exact htracks.follows hstage hpos hwhole
        · rw [if_neg hstage]
          exact ⟨htracks.other hstage hnext, hfollows⟩

/-! ## One format -/

/-- What the detector found in some calls, at the offset where each of them began. -/
def streamFindings (calls : List StageCall) : List (ℕ × ℚ × ℕ) :=
  calls.flatMap fun call => (call.finding.map (shift call.frameOffset)).toList

/-- Calls that all have one format are scanned as the chunks of a stream. -/
theorem streamFindings_eq_scan {rate channels : ℤ} (h : Throughout Follows calls)
    (hformat : ∀ call ∈ calls, call.audio.sampleRateHz = rate ∧ call.audio.channels = channels) :
    streamFindings calls = (scanCalls channels.toNat calls).found := by
  induction calls using List.reverseRecOn with
  | nil => rfl
  | append_singleton calls call ih =>
      obtain ⟨hcalls, hcall⟩ := throughout_snoc.mp h
      have hbefore := ih hcalls fun d hd => hformat d (List.mem_append_left _ hd)
      obtain ⟨hrate, hchannels⟩ := hformat call (List.mem_append_right _ List.mem_cons_self)
      have hcurrent : currentFormat call.audio calls = calls := by
        rw [currentFormat, List.rtakeWhile_eq_self_iff]
        intro d hd
        obtain ⟨hdrate, hdchannels⟩ := hformat d (List.mem_append_left _ hd)
        simp [StageAudio.SameFormat, hrate, hchannels, hdrate, hdchannels]
      have hoffset := hcall.frameOffset
      have hfinding := hcall.finding
      rw [hcurrent, hchannels] at hoffset hfinding
      rw [scanCalls_snoc, streamFindings, List.flatMap_append]
      unfold ChunkScan.next
      rw [← hfinding, ← hoffset, ← hbefore]
      simp [streamFindings]

/-- When every call for the stage is accepted, all of them are recorded. -/
theorem audio_observeAll (h : ∀ a ∈ as, a.stage = stage → a.Accepted) :
    (observeAll math stage c as).2.map StageCall.audio =
      as.filter fun a => a.stage = stage := by
  induction as using List.reverseRecOn with
  | nil => rfl
  | append_singleton as a ih =>
      have hbefore := ih fun b hb => h b (List.mem_append_left _ hb)
      have hsnoc : observeAll math stage c (as ++ [a]) =
          observe math stage (observeAll math stage c as) a := List.foldl_concat ..
      rw [hsnoc, List.filter_append, ← hbefore]
      by_cases hstage : a.stage = stage
      · have haccepted := h a (List.mem_append_right _ List.mem_cons_self) hstage
        obtain ⟨items, c', hcall, -⟩ := (observeAll math stage c as).1.observeStageAudio_of_accepted
          math haccepted
        simp [observe, hcall, hstage]
      · have hrecord : (observe math stage (observeAll math stage c as) a).2 =
            (observeAll math stage c as).2 := by
          unfold observe
          split
          · rfl
          · exact if_neg hstage
        simp [hrecord, hstage]

end Run

/-- A stream of whole frames in chunks: the strongest of what the detector finds in the
chunks, with the last frame carried, is what it finds in the stream. The observer finds the
same in the calls for a stage, whatever calls for other stages stand between them. -/
theorem strongest_of_chunks {channels : ℕ} (hchannels : 0 < channels) {chunks : List (List UInt8)}
    (hwhole : ∀ chunk ∈ chunks, WholeFrames channels chunk) :
    strongest (scan channels chunks).found =
        detectPcmS16leDiscontinuity (unpackSamples chunks.flatten) channels none ∧
      ∀ (math : FloatMath) (stage : String) (c : Collector) (rate : ℤ) (as : List StageAudio),
        c.stagePcmState stage = none → 0 < rate →
        (∀ a ∈ as, a.stage = stage →
          a.sampleRateHz = rate ∧ a.channels = channels ∧ a.inputPcm.length % 2 = 0) →
        ((as.filter fun a => a.stage = stage).map StageAudio.outputPcm) = chunks →
        streamFindings (observeAll math stage c as).2 = (scan channels chunks).found := by
  refine ⟨strongest_scan hchannels hwhole, ?_⟩
  intro math stage c rate as hnew hrate hformat hchunks
  have haccepted : ∀ a ∈ as, a.stage = stage → a.Accepted := by
    intro a ha hstage
    obtain ⟨harate, hachannels, heven⟩ := hformat a ha hstage
    have hmem : a.outputPcm ∈ chunks := by
      rw [← hchunks]
      exact List.mem_map_of_mem (List.mem_filter.mpr ⟨ha, by simpa using hstage⟩)
    refine ⟨by omega, by omega, ?_, heven⟩
    rw [hachannels]
    exact hwhole _ hmem
  have haudio := @audio_observeAll math stage c as haccepted
  have hcalls : ∀ call ∈ (observeAll math stage c as).2,
      call.audio.sampleRateHz = rate ∧ call.audio.channels = channels := by
    intro call hcall
    have hmem : call.audio ∈ as.filter fun a => a.stage = stage :=
      haudio ▸ List.mem_map_of_mem hcall
    obtain ⟨ha, hstage⟩ := List.mem_filter.mp hmem
    obtain ⟨harate, hachannels, -⟩ := hformat _ ha (by simpa using hstage)
    exact ⟨harate, hachannels⟩
  rw [streamFindings_eq_scan (tracks_observeAll math hnew as).2 hcalls, scanCalls, ← hchunks,
    ← haudio, List.map_map]
  rfl

/-- Some mono audio at 8 kHz. -/
def monoAudio (stage : String) (outputPcm : List UInt8) : StageAudio where
  stage := stage
  inputPcm := []
  outputPcm := outputPcm
  sampleRateHz := 8000
  channels := 1
  gainApplied := none
  recordOutput := false
  ts := ⟨0, some 0⟩

/-- A jump from 0 to 8192 between two chunks, with an empty one and a call for another stage
between them. -/
theorem strongest_of_chunks_three :
    strongest (scan 1 [[0, 0], [], [0, 32]]).found = some (1, 1 / 4, 0) ∧
      streamFindings (observeAll ⟨id, id⟩ "tts" {} [monoAudio "tts" [0, 0], monoAudio "tts" [],
        monoAudio "agc" [0, 100], monoAudio "tts" [0, 32]]).2 = [(1, 1 / 4, 0)] := by
  obtain ⟨hstrongest, hobserver⟩ :=
    @strongest_of_chunks 1 (by decide) [[0, 0], [], [0, 32]] (by decide)
  constructor
  · rw [hstrongest]
    decide +kernel
  · rw [hobserver ⟨id, id⟩ "tts" {} 8000 _ rfl (by decide) (by decide) (by decide)]
    decide +kernel

end VoxBench.Observability
