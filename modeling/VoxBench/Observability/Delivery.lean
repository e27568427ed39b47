import VoxBench.Observability.Payload
import VoxBench.Telephony.Loopback

/-!
# Deliverable observations

One observer with its queue and its RTP taps: the calls that it accepts, and flushes that
interleave with them. The observer and the server check an observation independently of
each other; what the observer lets pass and the server refuses is put back in front of
everything else by every flush.

## Main definitions

* `sessionMachine` — calls and flushes.
* `Deliverable` — what a call has to meet on top of the observer's own checks.
* `Numbered` — events with the ids below the ordinals of an observer.

## Main results

* `accepted_of_inv` — the server accepts every batch of items of deliverable calls.
* `deliverable_processAudio_iff` — the frame types of a loopback call that can be delivered.
* `loopback_audio_rejected` — audio of a loopback call that it does not accept.
-/

namespace VoxBench.Observability

open VoxBench.Lib VoxBench.ControlPlane VoxBench.Telephony

/-- An observer with its queue, and the taps that feed it. -/
structure Session where
  collector : Collector
  queue : ObserverState Item
  taps : ℕ → Option RtpPacketTapAdapter

/-- A new observer for a run. -/
def Session.new (runId : String) : Session := ⟨{}, .new runId, fun _ => none⟩

inductive SessionStep where
  | stageAudio (a : StageAudio)
  | rtpPacket (packet : RtpPacket)
  | captureHealth (snapshot : RtpCaptureHealthSnapshot)
  /-- A tap, as its constructor returns it. -/
  | newTap (i : ℕ) (tap : RtpPacketTapAdapter)
  | datagram (i : ℕ) (bytes : List UInt8) (ts : Datetime)
  | captureDrop (i : ℕ) (count : ℤ)
  | reportHealth (i : ℕ) (ts : Datetime)
  /-- A step of a flush. -/
  | flush
  | send (f : ℕ) (delivers : Bool)
  | restore (f : ℕ)

namespace Session

/-- What the call of a step queues and the collector after it, if the call does not raise. -/
def call (math : FloatMath) (s : Session) :
    SessionStep → Option ((∀ k, List (Item k)) × Collector)
  | .stageAudio a => (s.collector.observeStageAudio math a).toOption
  | .rtpPacket packet => some (s.collector.observeRtpPacket packet)
  | .captureHealth snapshot => some (s.collector.observeRtpCaptureHealth snapshot)
  | .datagram i bytes ts => (s.taps i).bind fun tap =>
      (tap.observeDatagram bytes ts).1.toOption.map s.collector.observeRtpPacket
  | .reportHealth i ts => (s.taps i).map fun tap =>
      s.collector.observeRtpCaptureHealth (tap.reportHealth ts).1
  | _ => none

/-- The taps after a step. -/
def nextTaps (s : Session) : SessionStep → ℕ → Option RtpPacketTapAdapter
  | .newTap i tap => Function.update s.taps i (some tap)
  | .datagram i bytes ts =>
      Function.update s.taps i ((s.taps i).map fun tap => (tap.observeDatagram bytes ts).2)
  | .captureDrop i count =>
      Function.update s.taps i
        ((s.taps i).map fun tap => (tap.recordCaptureDrop count).toOption.getD tap)
  | .reportHealth i ts =>
      Function.update s.taps i ((s.taps i).map fun tap => (tap.reportHealth ts).2)
  | _ => s.taps

/-- What a step does to the queue. -/
def queueStep (math : FloatMath) (s : Session) : SessionStep → Option (ObserverStep Item)
  | .flush => some .flush
  | .send f delivers => some (.send f delivers)
  | .restore f => some (.restore f)
  | l => (s.call math l).map fun call => .observe call.1

/-- A step; a call that raises queues nothing. -/
def next (math : FloatMath) (s : Session) (l : SessionStep) : Session where
  collector := ((s.call math l).map Prod.snd).getD s.collector
  queue := ((s.queueStep math l).map ((flushMachine Item).next s.queue)).getD s.queue
  taps := s.nextTaps l

/-- The family of the event that a step records, if it does. -/
def emits (math : FloatMath) (s : Session) : SessionStep → Option EventFamily
  | .stageAudio a =>
      if (s.collector.observeStageAudio math a).toOption.isSome ∧
          (s.collector.incident a).isSome then
        some .pcmDiscontinuity
      else none
  | .rtpPacket _ => some .rtpPacket
  | .captureHealth _ => some .rtpCaptureHealth
  | .datagram i bytes ts => (s.taps i).bind fun tap =>
      (tap.observeDatagram bytes ts).1.toOption.map fun _ => .rtpPacket
  | .reportHealth i _ => (s.taps i).map fun _ => .rtpCaptureHealth
  | _ => none

end Session

def sessionMachine (math : FloatMath) : Machine Session SessionStep where
  init s := ∃ runId, s = .new runId
  enabled _ _ := True
  next := Session.next math

/-- The server accepts a batch: it validates, and its audio decodes. -/
def Accepted (parses : Datetime → Bool) (b : ObservationBatch Item) : Prop :=
  ∃ request, validateBatch parses b = .ok request ∧
    ∀ chunk ∈ request.audioChunks, ∃ pcm, decodeAudioChunk chunk = .ok pcm

/-- What stage audio has to meet: a timestamp that the server reads, a stage without URL or
Slack markers, a finite gain; if it is recorded, a rate from 8 to 48 kHz, at most two
channels and at most 1,050,000 bytes; and if it reports a discontinuity, a stage whose name
fits into the correlation alias. -/
structure DeliverableAudio (parses : Datetime → Bool) (c : Collector) (a : StageAudio) : Prop where
  ts : parses (timestamp a.ts) = true
  stage : Unmarked a.stage
  gain : ∀ g ∈ a.gainApplied, ∃ q, g = .finite q
  audio : Collector.recorded a = true →
    (8000 ≤ a.sampleRateHz ∧ a.sampleRateHz ≤ 48000) ∧ a.channels ≤ 2 ∧
      a.outputPcm.length ≤ 1050000
  event : (c.incident a).isSome = true → a.stage ≠ "" ∧
    (Collector.discontinuityAlias a.stage (c.ordinal .pcmDiscontinuity)).length ≤ 128

/-- The server can read the timestamp, and the ordinal fits into the event id. -/
def DeliverableEvent (parses : Datetime → Bool) (c : Collector) (family : EventFamily)
    (ts : Datetime) : Prop :=
  parses (timestamp ts) = true ∧ (eventId family (c.ordinal family)).length ≤ 128

/-- What the call of a step has to meet. -/
def DeliverableCall (parses : Datetime → Bool) (c : Collector) : SessionStep → Prop
  | .stageAudio a => DeliverableAudio parses c a
  | .rtpPacket packet => DeliverableEvent parses c .rtpPacket packet.ts
  | .captureHealth snapshot => DeliverableEvent parses c .rtpCaptureHealth snapshot.ts
  | .datagram _ _ ts => DeliverableEvent parses c .rtpPacket ts
  | .reportHealth _ ts => DeliverableEvent parses c .rtpCaptureHealth ts
  | _ => True

/-- The step makes no call, its call raises, or it can be delivered. -/
def Deliverable (math : FloatMath) (parses : Datetime → Bool) (s : Session) (l : SessionStep) :
    Prop :=
  (s.call math l).isSome = true → DeliverableCall parses s.collector l

/-! ## Items of deliverable calls -/

/-- An event that the server accepts under its id. -/
def EventOk (parses : Datetime → Bool) (e : TimelineEvent) : Prop :=
  ∃ r, validateTimelineEvent parses e = .ok r ∧ r.eventId = e.eventId

/-- Items that the server accepts one by one. -/
structure ItemsOk (parses : Datetime → Bool) (items : ∀ k, List (Item k)) : Prop where
  metrics : ∀ m ∈ items .metrics, ∃ r, validateMetric parses m = .ok r
  audio : ∀ c ∈ items .audioChunks,
    ∃ r, validateAudioChunk parses c = .ok r ∧ ∃ pcm, decodeAudioChunk r = .ok pcm
  sip : items .sipEvents = []
  rtp : items .rtpStats = []
  timeline : ∀ e ∈ items .timelineEvents, EventOk parses e

theorem itemsOk_noItems {parses : Datetime → Bool} : ItemsOk parses noItems :=
  ⟨by simp [noItems], by simp [noItems], rfl, rfl, by simp [noItems]⟩

theorem ItemsOk.append {parses : Datetime → Bool} {xs ys : ∀ k, List (Item k)}
    (hx : ItemsOk parses xs) (hy : ItemsOk parses ys) :
    ItemsOk parses fun k => xs k ++ ys k where
  metrics m hm := (List.mem_append.mp hm).elim (hx.metrics m) (hy.metrics m)
  audio c hc := (List.mem_append.mp hc).elim (hx.audio c) (hy.audio c)
  sip := by rw [hx.sip, hy.sip, List.append_nil]
  rtp := by rw [hx.rtp, hy.rtp, List.append_nil]
  timeline e he := (List.mem_append.mp he).elim (hx.timeline e) (hy.timeline e)

section Calls

variable {math : FloatMath} {parses : Datetime → Bool} {c : Collector}

theorem itemsOk_eventItems {e : TimelineEvent} (h : EventOk parses e) :
    ItemsOk parses (Collector.eventItems e) where
  metrics := by simp [Collector.eventItems]
  audio := by simp [Collector.eventItems]
  sip := rfl
  rtp := rfl
  timeline := by simpa [Collector.eventItems] using h

/-- The id of an event fits. -/
theorem textOk_eventId {family : EventFamily} {n : ℕ} (h : (eventId family n).length ≤ 128) :
    TextOk (eventId family n) 128 := by
  refine ⟨?_, h, unmarked_eventId family n⟩
  have hlength : family.text.length ≤ (eventId family n).length := by
    rw [eventId, String.length_append]
    omega
  have hpos : 1 ≤ family.text.length := by cases family <;> decide
  omega

/-- A constant key with a value that is not a text. -/
theorem attribute_of_key {key : String} {item : AttrValue}
    (hkey : Unmarked key ∧ Text.strip key ≠ "" ∧ (Text.strip key).length ≤ 64)
    (hitem : ∀ text, item ≠ .str text) : ∃ r, validateAttribute (key, item) = .ok r :=
  exists_validateAttribute hkey.1 hkey.2 fun text htext => absurd htext (hitem text)

/-- A constant key with a constant text. -/
theorem attribute_of_text {key text : String}
    (hkey : Unmarked key ∧ Text.strip key ≠ "" ∧ (Text.strip key).length ≤ 64)
    (htext : Unmarked text ∧ (Text.strip text).length ≤ 256) :
    ∃ r, validateAttribute (key, .str text) = .ok r := by
  refine exists_validateAttribute hkey.1 hkey.2 fun text' htext' => ?_
  cases htext'
  exact htext

theorem textOk_direction (d : RtpDirection) : TextOk (directionText d) 32 := by
  cases d <;> decide +kernel

theorem eventOk_rtpPacket {n : ℕ} {packet : RtpPacket} (hts : parses (timestamp packet.ts) = true)
    (hid : (eventId .rtpPacket n).length ≤ 128) :
    EventOk parses (Collector.rtpPacketEvent n packet) := by
  refine exists_validateTimelineEvent packet.uncertainty_nonneg hts (textOk_eventId hid)
    (strip_eventId _ _) (show TextOk "rtp.packet_arrived" 128 by decide +kernel)
    packet.domain_safe.textOk ?_ ?_ ?_
    (show TextOk "rtp_packet_header_observer" 128 by decide +kernel) ?_
    (by simp [Collector.rtpPacketEvent]) ?_
  · intro d hd
    cases hd
    exact textOk_direction _
  · intro s hs
    cases hs
  · intro a ha
    cases ha
    exact packet.alias_safe.textOk
  · intro a ha
    cases ha
    exact packet.alias_safe.textOk
  · intro a ha
    simp only [Collector.rtpPacketEvent, List.mem_cons, List.not_mem_nil, or_false] at ha
    rcases ha with rfl | rfl | rfl | rfl | rfl <;>
      exact attribute_of_key (by decide +kernel) (by simp)

theorem textOk_continuity (c : CaptureContinuity) :
    Unmarked c.text ∧ (Text.strip c.text).length ≤ 256 := by
  cases c <;> decide +kernel

theorem eventOk_captureHealth {n : ℕ} {snapshot : RtpCaptureHealthSnapshot}
    (hts : parses (timestamp snapshot.ts) = true)
    (hid : (eventId .rtpCaptureHealth n).length ≤ 128) :
    EventOk parses (Collector.captureHealthEvent n snapshot) := by
  refine exists_validateTimelineEvent snapshot.uncertainty_nonneg hts (textOk_eventId hid)
    (strip_eventId _ _) (show TextOk "rtp.capture_health_reported" 128 by decide +kernel)
    snapshot.domain_safe.textOk ?_ ?_ ?_
    (show TextOk "rtp_packet_tap_adapter" 128 by decide +kernel) ?_
    (by simp [Collector.captureHealthEvent]) ?_
  · intro d hd
    cases hd
    exact textOk_direction _
  · intro s hs
    cases hs
  · intro a ha
    cases ha
    exact snapshot.alias_safe.textOk
  · intro a ha
    cases ha
    exact snapshot.alias_safe.textOk
  · intro a ha
    simp only [Collector.captureHealthEvent, List.mem_cons, List.not_mem_nil, or_false] at ha
    rcases ha with rfl | rfl | rfl | rfl | rfl | rfl
    · exact attribute_of_key (by decide +kernel) (by simp)
    · exact attribute_of_key (by decide +kernel) (by simp)
    · exact attribute_of_key (by decide +kernel) (by simp)
    · exact attribute_of_key (by decide +kernel) (by simp)
    · exact attribute_of_text (by decide +kernel) (textOk_continuity _)
    · exact attribute_of_key (by decide +kernel) (by simp)

theorem exists_validate_stageMetrics {a : StageAudio} (h : DeliverableAudio parses c a)
    (inputRms outputRms : ℚ) (quality : ℚ × ℚ × ℚ) :
    ∀ m ∈ Collector.stageMetrics math a inputRms outputRms quality,
      ∃ r, validateMetric parses m = .ok r := by
  have hstage : ∀ s ∈ some a.stage, Unmarked s := by
    intro s hs
    cases hs
    exact h.stage
  intro m hm
  simp only [Collector.stageMetrics, List.mem_append, List.mem_cons, List.not_mem_nil, or_false,
    Option.mem_toList, Option.map_eq_some_iff] at hm
  rcases hm with (rfl | rfl | rfl | rfl | rfl | rfl | rfl) | ⟨g, hg, rfl⟩
  · exact exists_validateMetric rfl h.ts hstage (show Unmarked "input_rms" by decide +kernel)
  · exact exists_validateMetric rfl h.ts hstage (show Unmarked "output_rms" by decide +kernel)
  · exact exists_validateMetric rfl h.ts hstage (show Unmarked "delta_db" by decide +kernel)
  · exact exists_validateMetric rfl h.ts hstage (show Unmarked "sample_peak_dbfs" by decide +kernel)
  · exact exists_validateMetric rfl h.ts hstage
      (show Unmarked "full_scale_sample_pct" by decide +kernel)
  · exact exists_validateMetric rfl h.ts hstage
      (show Unmarked "silence_sample_pct" by decide +kernel)
  · exact exists_validateMetric rfl h.ts hstage
      (show Unmarked "audio_chunk_duration_ms" by decide +kernel)
  · obtain ⟨q, rfl⟩ := h.gain g hg
    exact exists_validateMetric rfl h.ts hstage (show Unmarked "gain_applied" by decide +kernel)

theorem length_discontinuityAlias (stage : String) (n : ℕ) :
    (Collector.discontinuityAlias stage n).length = 19 + stage.length + n.repr.length := by
  have hhead : "pcm-discontinuity:".length = 18 := by decide
  have hcolon : ":".length = 1 := by decide
  unfold Collector.discontinuityAlias
  rw [String.length_append, String.length_append, String.length_append, hhead, hcolon]
  omega

theorem eventOk_discontinuity {a : StageAudio} {n channel : ℕ} {mediaTimeMs magnitude : ℚ}
    (hts : parses (timestamp a.ts) = true) (hstage : Unmarked a.stage) (hne : a.stage ≠ "")
    (halias : (Collector.discontinuityAlias a.stage n).length ≤ 128) :
    EventOk parses (Collector.discontinuityEvent n a mediaTimeMs magnitude channel) := by
  -- the alias is longer than the id
  have hid : (eventId .pcmDiscontinuity n).length = 18 + n.repr.length :=
    String.length_append _ _
  rw [length_discontinuityAlias] at halias
  have hpos : 1 ≤ a.stage.length := by
    by_contra hzero
    exact hne (String.length_eq_zero_iff.mp (by omega))
  refine exists_validateTimelineEvent (by simp [Collector.discontinuityEvent]) hts
    (textOk_eventId (by omega)) (strip_eventId _ _)
    (show TextOk "stage.pcm_discontinuity_detected" 128 by decide +kernel)
    (show TextOk "control_plane_wall" 64 by decide +kernel) ?_ ?_ ?_
    (show TextOk "pcm_adjacent_delta_detector" 128 by decide +kernel) ?_
    (by simp [Collector.discontinuityEvent]) ?_
  · intro d hd
    cases hd
  · intro s hs
    cases hs
    exact ⟨hpos, by omega, hstage⟩
  · intro s hs
    cases hs
  · intro s hs
    cases hs
    refine ⟨?_, ?_, unmarked_discontinuityAlias hstage⟩
    · rw [length_discontinuityAlias]
      omega
    · rw [length_discontinuityAlias]
      exact halias
  · intro e he
    simp only [Collector.discontinuityEvent, List.mem_cons, List.not_mem_nil, or_false] at he
    rcases he with rfl | rfl | rfl | rfl | rfl | rfl | rfl | rfl | rfl | rfl | rfl | rfl
    · exact attribute_of_key (by decide +kernel) (by simp)
    · exact attribute_of_key (by decide +kernel) (by simp)
    · exact attribute_of_key (by decide +kernel) (by simp)
    · exact attribute_of_text (by decide +kernel) (by decide +kernel)
    · exact attribute_of_text (by decide +kernel) (by decide +kernel)
    · exact attribute_of_key (by decide +kernel) (by simp)
    · exact attribute_of_key (by decide +kernel) (by simp)
    · exact attribute_of_key (by decide +kernel) (by simp)
    · exact attribute_of_key (by decide +kernel) (by simp)
    · exact attribute_of_text (by decide +kernel) (by decide +kernel)
    · exact attribute_of_key (by decide +kernel) (by simp)
    · exact attribute_of_key (by decide +kernel) (by simp)

theorem itemsOk_stageItems {a : StageAudio} (h : DeliverableAudio parses c a)
    (hchannels : 0 < a.channels) (hframes : a.outputPcm.length % (2 * a.channels.toNat) = 0)
    (inputRms outputRms : ℚ) (quality : ℚ × ℚ × ℚ) :
    ItemsOk parses (c.stageItems math a inputRms outputRms quality) where
  metrics := exists_validate_stageMetrics h inputRms outputRms quality
  audio := by
    intro chunk hchunk
    simp only [Collector.stageItems] at hchunk
    split at hchunk
    · rename_i hrecorded
      rw [List.mem_singleton] at hchunk
      subst hchunk
      obtain ⟨⟨hlo, hhi⟩, hstereo, hlength⟩ := h.audio hrecorded
      have hne : a.outputPcm ≠ [] := by
        simp only [Collector.recorded, Bool.and_eq_true, decide_eq_true_eq] at hrecorded
        exact hrecorded.2
      have hrates : 8000 ≤ a.sampleRateHz.toNat ∧ a.sampleRateHz.toNat ≤ 48000 := by omega
      have hcount : 1 ≤ a.channels.toNat ∧ a.channels.toNat ≤ 2 := by omega
      obtain ⟨r, hr, hdecode⟩ := exists_validateAudioChunk
        (c := ⟨a.stage, a.outputPcm, a.sampleRateHz.toNat, a.channels.toNat, a.ts⟩) hne hframes
        hlength hrates hcount h.ts h.stage
      exact ⟨r, hr, _, hdecode⟩
    · cases hchunk
  sip := rfl
  rtp := rfl
  timeline := by
    intro e he
    simp only [Collector.stageItems] at he
    split at he
    · cases he
    · rename_i mediaTimeMs magnitude channel hincident
      rw [List.mem_singleton] at he
      subst he
      obtain ⟨hne, halias⟩ := h.event (by simp [hincident])
      exact eventOk_discontinuity h.ts h.stage hne halias

end Calls

/-! ## One step -/

/-- The events have exactly the ids below the ordinals, each once. -/
structure Numbered (ordinal : EventFamily → ℕ) (events : List TimelineEvent) : Prop where
  nodup : (events.map TimelineEvent.eventId).Nodup
  mem_iff : ∀ id, id ∈ events.map TimelineEvent.eventId ↔
    ∃ family n, n < ordinal family ∧ id = eventId family n

theorem numbered_nil : Numbered (fun _ => 0) [] := ⟨by simp, by simp⟩

/-- An event under the next ordinal of its family. -/
theorem numbered_concat {ordinal : EventFamily → ℕ} {events : List TimelineEvent}
    {family : EventFamily} {e : TimelineEvent} (h : Numbered ordinal events)
    (he : e.eventId = eventId family (ordinal family)) :
    Numbered (Function.update ordinal family (ordinal family + 1)) (events ++ [e]) := by
  constructor
  · rw [List.map_append, List.map_singleton, List.nodup_append_comm, List.singleton_append,
      List.nodup_cons]
    refine ⟨fun hmem => ?_, h.nodup⟩
    obtain ⟨family', n, hn, hid⟩ := (h.mem_iff _).mp hmem
    rw [he] at hid
    obtain ⟨rfl, rfl⟩ := eventId_inj hid
    exact absurd hn (lt_irrefl _)
  · intro id
    rw [List.map_append, List.map_singleton, List.mem_append, List.mem_singleton, h.mem_iff, he]
    constructor
    · rintro (⟨family', n, hn, rfl⟩ | rfl)
      · refine ⟨family', n, ?_, rfl⟩
        by_cases hfamily : family' = family
        · subst hfamily
          rw [Function.update_self]
          omega
        · rwa [Function.update_of_ne hfamily]
      · exact ⟨family, ordinal family, by simp, rfl⟩
    · rintro ⟨family', n, hn, rfl⟩
      by_cases hfamily : family' = family
      · subst hfamily
        rw [Function.update_self] at hn
        rcases Nat.lt_succ_iff_lt_or_eq.mp hn with hlt | rfl
        · exact .inl ⟨family', n, hlt, rfl⟩
        · exact .inr rfl
      · rw [Function.update_of_ne hfamily] at hn
        exact .inl ⟨family', n, hn, rfl⟩

namespace Session

variable {math : FloatMath} {parses : Datetime → Bool} {s : Session} {l : SessionStep}

/-- What a step queues. -/
def newItems (math : FloatMath) (s : Session) (l : SessionStep) : ∀ k, List (Item k) :=
  ((s.call math l).map Prod.fst).getD noItems

theorem observed_next (k : ObservationKind) :
    (s.next math l).queue.observed k = s.queue.observed k ++ s.newItems math l k := by
  have hcall : s.queueStep math l = (s.call math l).map (fun call => .observe call.1) →
      (s.next math l).queue.observed k = s.queue.observed k ++ s.newItems math l k := by
    intro h
    rw [next, h, newItems]
    cases s.call math l with
    | none => exact (List.append_nil _).symm
    | some call => rfl
  cases l with
  | flush => exact Observability.observed_next (l := .flush) k
  | send f delivers => exact Observability.observed_next (l := .send f delivers) k
  | restore f => exact Observability.observed_next (l := .restore f) k
  | _ => exact hcall rfl

theorem sound_next (h : s.queue.Sound) : (s.next math l).queue.Sound := by
  rw [next]
  cases s.queueStep math l with
  | none => exact h
  | some q => exact Observability.sound_next h

/-- A step records one event under the next ordinal of its family, or none. -/
theorem emits_spec (math : FloatMath) (s : Session) (l : SessionStep) :
    (s.emits math l = none ∧ s.newItems math l .timelineEvents = [] ∧
      (s.next math l).collector.ordinal = s.collector.ordinal) ∨
    ∃ family e, s.emits math l = some family ∧ s.newItems math l .timelineEvents = [e] ∧
      e.eventId = eventId family (s.collector.ordinal family) ∧
      (s.next math l).collector.ordinal =
        Function.update s.collector.ordinal family (s.collector.ordinal family + 1) := by
  cases l with
  | stageAudio a =>
      cases hcall : s.collector.observeStageAudio math a with
      | error e =>
          refine .inl ⟨?_, ?_, ?_⟩ <;> simp [emits, newItems, next, call, hcall, noItems,
            Except.toOption]
      | ok call =>
          obtain ⟨-, -, -, inputRms, outputRms, quality, rfl⟩ := observeStageAudio_eq_ok hcall
          cases hincident : s.collector.incident a with
          | none =>
              refine .inl ⟨?_, ?_, ?_⟩ <;> simp [emits, newItems, next, Session.call, hcall,
                hincident, Except.toOption, Collector.stageItems]
          | some found =>
              refine .inr ⟨.pcmDiscontinuity, Collector.discontinuityEvent
                (s.collector.ordinal .pcmDiscontinuity) a found.1 found.2.1 found.2.2, ?_, ?_, rfl,
                ?_⟩ <;> simp [emits, newItems, next, Session.call, hcall, hincident,
                Except.toOption, Collector.stageItems, Collector.bump]
  | rtpPacket packet => exact .inr ⟨.rtpPacket, _, rfl, rfl, rfl, rfl⟩
  | captureHealth snapshot => exact .inr ⟨.rtpCaptureHealth, _, rfl, rfl, rfl, rfl⟩
  | datagram i bytes ts =>
      cases htap : s.taps i with
      | none => refine .inl ⟨?_, ?_, ?_⟩ <;> simp [emits, newItems, next, call, htap, noItems]
      | some tap =>
          cases hpacket : (tap.observeDatagram bytes ts).1 with
          | error e =>
              refine .inl ⟨?_, ?_, ?_⟩ <;> simp [emits, newItems, next, call, htap, hpacket,
                noItems, Except.toOption]
          | ok packet =>
              refine .inr ⟨.rtpPacket, Collector.rtpPacketEvent (s.collector.ordinal .rtpPacket)
                packet, ?_, ?_, rfl, ?_⟩ <;> simp [emits, newItems, next, call, htap, hpacket,
                Except.toOption, Collector.observeRtpPacket, Collector.eventItems, Collector.bump]
  | reportHealth i ts =>
      cases htap : s.taps i with
      | none => refine .inl ⟨?_, ?_, ?_⟩ <;> simp [emits, newItems, next, call, htap, noItems]
      | some tap =>
          refine .inr ⟨.rtpCaptureHealth, Collector.captureHealthEvent
            (s.collector.ordinal .rtpCaptureHealth) (tap.reportHealth ts).1, ?_, ?_, rfl, ?_⟩ <;>
            simp [emits, newItems, next, call, htap, Collector.observeRtpCaptureHealth,
              Collector.eventItems, Collector.bump]
  | newTap i tap | captureDrop i count | flush | send f delivers | restore f =>
      exact .inl ⟨rfl, rfl, rfl⟩

theorem numbered_next (h : Numbered s.collector.ordinal (s.queue.observed .timelineEvents)) :
    Numbered (s.next math l).collector.ordinal
      ((s.next math l).queue.observed .timelineEvents) := by
  rw [observed_next]
  obtain ⟨-, hitems, hordinal⟩ | ⟨family, e, -, hitems, he, hordinal⟩ := emits_spec math s l
  · rw [hitems, hordinal]
    simpa using h
  · rw [hitems, hordinal]
    exact numbered_concat h he

/-- A decoded packet has the time of its datagram. -/
theorem ts_of_observeDatagram {tap : RtpPacketTapAdapter} {bytes : List UInt8} {ts : Datetime}
    {packet : RtpPacket} (h : (tap.observeDatagram bytes ts).1 = .ok packet) : packet.ts = ts := by
  unfold RtpPacketTapAdapter.observeDatagram at h
  split at h
  · cases h
  · rename_i decoded hdecoded
    cases h
    unfold rtpPacketFromDatagram at hdecoded
    split at hdecoded
    · split at hdecoded
      · cases hdecoded
      · cases hdecoded
        rfl
    · cases hdecoded

/-- What a deliverable call queues passes. -/
theorem itemsOk_newItems (hl : Deliverable math parses s l) :
    ItemsOk parses (s.newItems math l) := by
  cases l with
  | stageAudio a =>
      cases hcall : s.collector.observeStageAudio math a with
      | error e =>
          have hnone : s.newItems math (.stageAudio a) = noItems := by
            simp [newItems, call, hcall, Except.toOption]
          rw [hnone]
          exact itemsOk_noItems
      | ok out =>
          have hsome : s.newItems math (.stageAudio a) = out.1 := by
            simp [newItems, call, hcall, Except.toOption]
          obtain ⟨-, hchannels, hframes, inputRms, outputRms, quality, rfl⟩ :=
            observeStageAudio_eq_ok hcall
          rw [hsome]
          have hdeliverable := hl (by simp [call, hcall, Except.toOption])
          exact itemsOk_stageItems hdeliverable hchannels hframes inputRms outputRms quality
  | rtpPacket packet =>
      obtain ⟨hts, hid⟩ := hl rfl
      exact itemsOk_eventItems (eventOk_rtpPacket hts hid)
  | captureHealth snapshot =>
      obtain ⟨hts, hid⟩ := hl rfl
      exact itemsOk_eventItems (eventOk_captureHealth hts hid)
  | datagram i bytes ts =>
      rw [Deliverable, call] at hl
      rw [newItems, call]
      cases htap : s.taps i with
      | none => exact itemsOk_noItems
      | some tap =>
          rw [htap] at hl
          dsimp only [Option.bind_some] at hl ⊢
          cases hpacket : (tap.observeDatagram bytes ts).1 with
          | error e => exact itemsOk_noItems
          | ok packet =>
              have hts := ts_of_observeDatagram hpacket
              subst hts
              rw [hpacket] at hl
              obtain ⟨hts, hid⟩ := hl rfl
              exact itemsOk_eventItems (eventOk_rtpPacket hts hid)
  | reportHealth i ts =>
      rw [Deliverable, call] at hl
      rw [newItems, call]
      cases htap : s.taps i with
      | none => exact itemsOk_noItems
      | some tap =>
          rw [htap] at hl
          obtain ⟨hts, hid⟩ := hl rfl
          exact itemsOk_eventItems (eventOk_captureHealth hts hid)
  | newTap i tap | captureDrop i count | flush | send f delivers | restore f =>
      exact itemsOk_noItems

end Session

/-! ## Runs -/

/-- Everything observed passes, and the events have ids of their own. -/
structure SessionInv (parses : Datetime → Bool) (s : Session) : Prop where
  sound : s.queue.Sound
  items : ItemsOk parses s.queue.observed
  numbered : Numbered s.collector.ordinal (s.queue.observed .timelineEvents)

section Runs

variable {math : FloatMath} {parses : Datetime → Bool} {s : Session} {l : SessionStep}

theorem sessionInv_new (runId : String) : SessionInv parses (.new runId) :=
  ⟨sound_new runId, itemsOk_noItems, numbered_nil⟩

theorem sessionInv_next (hl : Deliverable math parses s l) (h : SessionInv parses s) :
    SessionInv parses (s.next math l) where
  sound := Session.sound_next h.sound
  items := by
    have hobserved : (s.next math l).queue.observed =
        fun k => s.queue.observed k ++ s.newItems math l k := funext fun _ => Session.observed_next _
    rw [hobserved]
    exact h.items.append (Session.itemsOk_newItems hl)
  numbered := Session.numbered_next h.numbered

/-- A batch of observed items passes. -/
theorem accepted_of_inv (h : SessionInv parses s) {b : ObservationBatch Item} (hsend : b.Sendable)
    (hdrawn : b.DrawnFrom s.queue.observed) : Accepted parses b := by
  have hmem : ∀ {k} {x : Item k}, x ∈ b.items k → x ∈ s.queue.observed k := by
    intro k x hx
    exact Multiset.mem_coe.mp (Multiset.mem_of_le (hdrawn k) (Multiset.mem_coe.mpr hx))
  have hids : ((b.items .timelineEvents).map TimelineEvent.eventId).Nodup := by
    have hle := Multiset.map_le_map (f := TimelineEvent.eventId) (hdrawn .timelineEvents)
    rw [Multiset.map_coe, Multiset.map_coe] at hle
    exact Multiset.coe_nodup.mp (Multiset.nodup_of_le hle (Multiset.coe_nodup.mpr h.numbered.nodup))
  have hempty : ∀ {k} {x : Item k}, x ∈ b.items k → s.queue.observed k ≠ [] :=
    fun hx => List.ne_nil_of_mem (hmem hx)
  obtain ⟨request, hrequest⟩ := exists_validateBatch hsend
    (fun m hm => h.items.metrics m (hmem hm))
    (fun c hc => (h.items.audio c (hmem hc)).imp fun _ hr => hr.1)
    (fun e he => absurd h.items.sip (hempty he)) (fun r hr => absurd h.items.rtp (hempty hr))
    (fun e he => h.items.timeline e (hmem he)) hids
  refine ⟨request, hrequest, fun chunk hchunk => ?_⟩
  obtain ⟨c, hc, hvalid⟩ := exists_mem_of_forall₂ (validateBatch_spec hrequest).1 hchunk
  obtain ⟨r, hr, hdecode⟩ := h.items.audio c (hmem hc)
  rw [hr] at hvalid
  cases hvalid
  exact hdecode

end Runs

/-- `sqrt` and `log10` of silence. -/
def silence : FloatMath := ⟨fun _ => 0, fun _ => 0⟩

/-- One silent sample at a stage. -/
def silentAudio (sampleRateHz : ℕ) : StageAudio :=
  ⟨"resampler", [0, 0], [0, 0], sampleRateHz, 1, none, true, .utc 0⟩

/-! ## Loopback calls -/

section Loopback

variable {math : FloatMath} {parses : Datetime → Bool} {settings : LoopbackSettings}
  {pcm : List UInt8} {ts : ℕ → Datetime} {frameType rate : ℕ}

/-- What the calls for a frame have in common. -/
theorem processAudio_spec {calls : List StageAudio}
    (h : processAudio math settings rate pcm ts = .ok calls) :
    calls ≠ [] ∧ ∀ a ∈ calls, a.outputPcm.length = pcm.length ∧ a.sampleRateHz = rate ∧
      a.channels = 1 ∧ a.recordOutput = true ∧ (∃ i, a.ts = ts i) ∧
      (∀ g ∈ a.gainApplied, ∃ q, g = .finite q) ∧
      a.stage ∈ ["resampler", "agc", "limiter", "serializer"] := by
  unfold processAudio at h
  rw [bind_eq_ok] at h
  obtain ⟨⟨agcOutput, gain⟩, hagc, h⟩ := h
  rw [bind_eq_ok] at h
  obtain ⟨limited, hlimited, h⟩ := h
  cases h
  have hlength : agcOutput.length = pcm.length := length_applyAgc hagc
  have heven : agcOutput.length % 2 = 0 := by
    rw [hlength]
    exact even_of_applyAgc hagc
  have hlength' : limited.length = pcm.length := (length_applyLimiter heven hlimited).trans hlength
  refine ⟨by simp, fun a ha => ?_⟩
  simp only [List.mem_cons, List.not_mem_nil, or_false] at ha
  rcases ha with rfl | rfl | rfl | rfl
  · exact ⟨rfl, rfl, rfl, rfl, ⟨0, rfl⟩, by simp, by simp⟩
  · exact ⟨hlength, rfl, rfl, rfl, ⟨1, rfl⟩, by simp, by simp⟩
  · exact ⟨hlength', rfl, rfl, rfl, ⟨2, rfl⟩, by simp, by simp⟩
  · exact ⟨hlength', rfl, rfl, rfl, ⟨3, rfl⟩, by simp, by simp⟩

/-- The audio of a frame can be delivered unless the rate of its type is above 48 kHz. -/
theorem deliverable_processAudio_iff {calls : List StageAudio} {c : Collector}
    (hcalls : processAudio math settings rate pcm ts = .ok calls)
    (hrate : audioTypeSampleRates frameType = some rate) (hpcm : pcm ≠ [])
    (hpayload : pcm.length ≤ 0xFFFF) (hts : ∀ i, parses (timestamp (ts i)) = true)
    (hordinal : (c.ordinal .pcmDiscontinuity).repr.length ≤ 99) :
    (∀ a ∈ calls, DeliverableAudio parses c a) ↔ frameType ≤ 0x16 := by
  obtain ⟨hcalled, hspec⟩ := processAudio_spec hcalls
  have htype : 8000 ≤ rate ∧ (rate ≤ 48000 ↔ frameType ≤ 0x16) := by
    unfold audioTypeSampleRates at hrate
    split at hrate <;> first | cases hrate; omega | cases hrate
  rw [← htype.2]
  constructor
  · intro h
    obtain ⟨a, ha⟩ := List.exists_mem_of_ne_nil calls hcalled
    obtain ⟨hlength, hsame, -, hrecord, -⟩ := hspec a ha
    have hne : a.outputPcm ≠ [] := by
      rw [← List.length_pos_iff, hlength, List.length_pos_iff]
      exact hpcm
    have haudio := (h a ha).audio (by simp [Collector.recorded, hrecord, hne])
    rw [hsame] at haudio
    omega
  · intro hle a ha
    obtain ⟨hlength, hsame, hchannels, -, ⟨i, hi⟩, hgain, hstage⟩ := hspec a ha
    have hname : Unmarked a.stage ∧ a.stage ≠ "" ∧ a.stage.length ≤ 10 := by
      simp only [List.mem_cons, List.not_mem_nil, or_false] at hstage
      rcases hstage with hstage | hstage | hstage | hstage <;> rw [hstage] <;> decide +kernel
    refine ⟨hi ▸ hts i, hname.1, hgain, fun _ => ?_, fun _ => ⟨hname.2.1, ?_⟩⟩
    · rw [hsame, hchannels, hlength]
      omega
    · rw [length_discontinuityAlias]
      omega

end Loopback

/-- The calls for a silent frame at 96 kHz. -/
def frameCalls : List StageAudio :=
  [silentAudio 96000,
    ⟨"agc", [0, 0], [0, 0], 96000, 1, some (.finite 1), true, .utc 0⟩,
    ⟨"limiter", [0, 0], [0, 0], 96000, 1, none, true, .utc 0⟩,
    ⟨"serializer", [0, 0], [0, 0], 96000, 1, none, true, .utc 0⟩]

/-- A silent frame at 96 kHz passes every check of the observer, and a flush makes a batch of
it that the server does not accept. -/
theorem loopback_audio_rejected :
    ∃ calls, audioTypeSampleRates 0x17 = some 96000 ∧
      processAudio silence {} 96000 [0, 0] (fun _ => .utc 0) = .ok calls ∧
      (sessionMachine silence).Along (fun s l => (s.queueStep silence l).isSome = true)
        (.new "run") (calls.map .stageAudio ++ [.flush]) ∧
      ¬ ((sessionMachine silence).exec (.new "run")
        (calls.map .stageAudio ++ [.flush])).queue.AllBatches (Accepted fun _ => true) := by
  have hrejected : (((sessionMachine silence).exec (.new "run")
      (frameCalls.map .stageAudio ++ [.flush])).queue.flushes.flatMap FlushPhase.batches).any
        (fun b => (b.items .audioChunks).any fun c =>
          (validateAudioChunk (fun _ => true) c).toOption.isNone) = true := by decide +kernel
  refine ⟨frameCalls, rfl, by decide +kernel, by decide +kernel, ?_⟩
  rintro ⟨-, hflushes⟩
  obtain ⟨b, hb, hchunks⟩ := List.any_eq_true.mp hrejected
  obtain ⟨c, hc, hnone⟩ := List.any_eq_true.mp hchunks
  obtain ⟨p, hp, hbp⟩ := List.mem_flatMap.mp hb
  obtain ⟨request, hrequest, -⟩ := hflushes p hp b hbp
  obtain ⟨r, -, hr⟩ := exists_mem_of_forall₂ (validateBatch_spec hrequest).1.flip hc
  rw [hr] at hnone
  cases hnone

end VoxBench.Observability
