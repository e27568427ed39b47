import VoxBench.Lib.Traverse
import VoxBench.Telephony.Packetization
import Mathlib.Data.Finset.Card
import Mathlib.Tactic.Ring

/-!
# What a barge-in discards

A barge-in empties the packet buffer, waits for the lock of the playback queue and drains it;
until then the pump may take frames. The report is put together from the observations of the
drained frames and from the sources of the buffer, with the events of some of the frames.

## Main definitions

* `DiscardFigures.Accounts` — what the figures say of the removed audio.
* `Evidence` — the frame events are those of some of the removed frames.

## Main results

* `discard_accounting` — the report of a barge-in accounts for everything that it removed.
-/

namespace VoxBench.Telephony

open VoxBench.Lib VoxBench.ControlPlane VoxBench.Media VoxBench.Observability

/-! ## Frames in the queue -/

/-- The ordinal of a frame, as its observation has it. -/
def TracedFrame.ordinal (f : TracedFrame) : Option ℕ :=
  f.frame.playbackObservation.map PlaybackFrameObservation.frameOrdinal

/-- The frames of the queue, and the one about to enter it. -/
def Bridge.queue (s : Bridge) : List TracedFrame :=
  s.playback.frames ++ s.producer.frame?.toList

/-- The frames of the queue are as they were cut, in the order of their ordinals. -/
structure Queued (env : BridgeEnv) (s : Bridge) : Prop where
  cut : ∀ f ∈ s.queue, f.Cut env s.packetBytes
  increasing : (s.queue.filterMap TracedFrame.ordinal).Pairwise (· < ·)
  bounded : ∀ n ∈ s.queue.filterMap TracedFrame.ordinal, n ≤ s.frameOrdinal

@[simp] theorem ordinal_noteDepth (depth : ℕ) (f : TracedFrame) :
    (f.noteDepth depth).ordinal = f.ordinal := by
  simp [TracedFrame.ordinal, TracedFrame.noteDepth, Function.comp_def]

theorem TracedFrame.Cut.noteDepth {env : BridgeEnv} {m : ℕ} {f : TracedFrame} (h : f.Cut env m)
    (depth : ℕ) : (f.noteDepth depth).Cut env m := by
  obtain ⟨hpayload, hsize, hnonempty, o, ho, hcovers, hrms, hsignal⟩ := h
  refine ⟨hpayload, hsize, hnonempty, { o with queueDepthAfterEnqueue := depth }, ?_, hcovers,
    hrms, hsignal⟩
  simp [TracedFrame.noteDepth, ho]

section Queue

variable {env : BridgeEnv} {s s' : Bridge}

/-- Frames may leave the queue. -/
theorem Queued.of_sublist (h : Queued env s) (hqueue : s'.queue.Sublist s.queue)
    (hrate : s'.audio.telephonyRate = s.audio.telephonyRate)
    (hordinal : s.frameOrdinal ≤ s'.frameOrdinal) : Queued env s' := by
  constructor
  · intro f hf
    rw [packetBytes_eq hrate]
    exact h.cut f (hqueue.subset hf)
  · exact h.increasing.sublist (hqueue.filterMap _)
  · intro n hn
    exact (h.bounded n ((hqueue.filterMap _).subset hn)).trans hordinal

/-- The frames of the queue stay or leave it, and so does the one about to enter it. -/
theorem Queued.keep (h : Queued env s) (hframes : s'.playback.frames.Sublist s.playback.frames)
    (hframe : ∀ f ∈ s'.producer.frame?, f ∈ s.producer.frame?)
    (hrate : s'.audio.telephonyRate = s.audio.telephonyRate)
    (hordinal : s'.frameOrdinal = s.frameOrdinal) : Queued env s' := by
  refine h.of_sublist ?_ hrate hordinal.ge
  apply hframes.append
  cases hf : s'.producer.frame? with
  | none => simp
  | some f =>
      have hmem := hframe f hf
      rw [Option.mem_def] at hmem
      simp [hmem]

theorem Queued.put (h : Queued env s) {f : TracedFrame} (hproducer : s.producer = .putting f) :
    Queued env (s.put f) := by
  have hqueue : s.queue = s.playback.frames ++ [f] := by
    simp [Bridge.queue, hproducer, ProducerPhase.frame?]
  have hput : (s.put f).queue =
      s.playback.kept ++ [s.playback.noted TracedFrame.noteDepth f] := by
    simp [Bridge.queue, Bridge.put, PlaybackBuffer.put, ProducerPhase.frame?]
  have hkept : (s.playback.kept ++ [f]).Sublist s.queue := by
    rw [hqueue, ← s.playback.evicted_append_kept, List.append_assoc]
    exact List.sublist_append_right _ _
  have hordinals : (s.put f).queue.filterMap TracedFrame.ordinal =
      (s.playback.kept ++ [f]).filterMap TracedFrame.ordinal := by
    rw [hput, List.filterMap_append, List.filterMap_append]
    simp [PlaybackBuffer.noted, List.filterMap_cons]
  constructor
  · intro g hg
    rw [hput] at hg
    rcases List.mem_append.mp hg with hg | hg
    · exact h.cut g (hkept.subset (List.mem_append_left _ hg))
    · obtain rfl := List.mem_singleton.mp hg
      exact (h.cut f (by simp [hqueue])).noteDepth _
  · rw [hordinals]
    exact h.increasing.sublist (hkept.filterMap _)
  · rw [hordinals]
    intro n hn
    exact h.bounded n ((hkept.filterMap _).subset hn)

/-- A round of the loop takes no frame or the next one. -/
theorem pack_cases (s : Bridge) (enqueuedAt : Datetime) (enqueuedMonotonic : ℚ) :
    let s' := s.pack env enqueuedAt enqueuedMonotonic
    s'.playback.frames = s.playback.frames ∧
      (s'.producer.frame? = none ∧ s'.frameOrdinal = s.frameOrdinal ∨
        ∃ f, s'.producer = .putting f ∧ f.ordinal = some (s.frameOrdinal + 1) ∧
          s'.frameOrdinal = s.frameOrdinal + 1) := by
  unfold Bridge.pack
  split
  · exact ⟨rfl, .inl ⟨rfl, rfl⟩⟩
  · dsimp only
    split
    · exact ⟨rfl, .inl ⟨rfl, rfl⟩⟩
    · split
      · exact ⟨rfl, .inr ⟨_, rfl, rfl, rfl⟩⟩
      · exact ⟨rfl, .inl ⟨rfl, rfl⟩⟩
      · exact ⟨rfl, .inl ⟨rfl, rfl⟩⟩

theorem Queued.pack (h : Queued env s) (hpacked : Packed env s) (hproducer : s.producer = .packing)
    (enqueuedAt : Datetime) (enqueuedMonotonic : ℚ) :
    Queued env (s.pack env enqueuedAt enqueuedMonotonic) := by
  have hrate := @telephonyRate_pack env s enqueuedAt enqueuedMonotonic
  have hpacked' := hpacked.pack enqueuedAt enqueuedMonotonic
  have hcases := @pack_cases env s enqueuedAt enqueuedMonotonic
  generalize s.pack env enqueuedAt enqueuedMonotonic = s' at *
  obtain ⟨hframes, ⟨hframe, hordinal⟩ | ⟨f, hputting, hf, hordinal⟩⟩ := hcases
  · exact h.keep (hframes ▸ List.Sublist.refl _) (by simp [hframe]) hrate hordinal
  · have hqueue : s'.queue = s.queue ++ [f] := by
      simp [Bridge.queue, hframes, hproducer, hputting, ProducerPhase.frame?]
    constructor
    · intro g hg
      rw [hqueue] at hg
      rcases List.mem_append.mp hg with hg | hg
      · rw [packetBytes_eq hrate]
        exact h.cut g hg
      · obtain rfl := List.mem_singleton.mp hg
        exact hpacked'.cut g (List.mem_of_getLast? (hpacked'.putting g (by rw [hputting]; rfl)))
    · rw [hqueue, List.filterMap_append, List.pairwise_append]
      refine ⟨h.increasing, by simp [hf], ?_⟩
      intro n hn n' hn'
      obtain rfl : n' = s.frameOrdinal + 1 := by simpa [hf] using hn'
      exact Nat.lt_succ_of_le (h.bounded n hn)
    · intro n hn
      rw [hqueue, List.filterMap_append] at hn
      rw [hordinal]
      rcases List.mem_append.mp hn with hn | hn
      · exact (h.bounded n hn).trans (Nat.le_succ _)
      · obtain rfl : n = s.frameOrdinal + 1 := by simpa [hf] using hn
        exact le_rfl

theorem Queued.fail (h : Queued env s) (e : ProducerError) : Queued env (s.fail e) := by
  refine h.keep (List.Sublist.refl _) ?_ rfl rfl
  simp [Bridge.fail, Bridge.endProducer, ProducerPhase.frame?]

theorem setItem_keeps (s : Bridge) (item : Option (String × ℤ)) :
    (s.setItem item).playback = s.playback ∧ (s.setItem item).frameOrdinal = s.frameOrdinal := by
  unfold Bridge.setItem
  split <;> exact ⟨rfl, rfl⟩

/-- A message with audio does not touch the queue. -/
theorem Queued.receiveAudio (h : Queued env s) (message : ProviderAudio) (receivedAt : Datetime)
    (receivedMonotonic : ℚ) (hproducer : s.producer = .receiving) :
    Queued env (s.receiveAudio env message receivedAt receivedMonotonic) := by
  unfold Bridge.receiveAudio
  split
  · exact h.fail _
  · dsimp only
    have hcount (recentChunks : List ProviderAudioChunkObservation) :
        Queued env { s with chunkOrdinal := s.chunkOrdinal + 1, recentChunks } :=
      h.keep (List.Sublist.refl _) (fun f hf => hf) rfl rfl
    split
    · exact (hcount s.recentChunks).fail _
    · rename_i observation _
      generalize hcounted : ({ s with
        chunkOrdinal := s.chunkOrdinal + 1
        recentChunks := lastSlice 256 (s.recentChunks ++ [observation]) } : Bridge) = counted
      have hreceiving : counted.producer = .receiving := by
        rw [← hcounted]
        exact hproducer
      have hitem : Queued env (counted.setItem message.item) := by
        obtain ⟨hplayback, hordinal⟩ := setItem_keeps counted message.item
        have hc := hcount (lastSlice 256 (s.recentChunks ++ [observation]))
        rw [hcounted] at hc
        refine hc.keep (hplayback ▸ List.Sublist.refl _) ?_ (telephonyRate_setItem _ _) hordinal
        simp [producer_setItem, hreceiving, ProducerPhase.frame?]
      split
      · exact hitem.fail _
      · split
        · refine hitem.keep (List.Sublist.refl _) ?_ rfl rfl
          simp [Bridge.extend, ProducerPhase.frame?]
        · exact hitem.keep (List.Sublist.refl _) (fun f hf => hf) rfl rfl

theorem queued_next (l : BridgeStep) (hpacked : Packed env s) (h : Queued env s) :
    Queued env (s.next env l) := by
  have hrate := @telephonyRate_next env s l
  have heffect := bridgeEffect_next env s l
  generalize s.next env l = s' at hrate heffect
  cases heffect with
  | ignored => exact h
  | receiveAudio hproducer message receivedAt receivedMonotonic =>
      exact h.receiveAudio message receivedAt receivedMonotonic hproducer
  | pack hproducer enqueuedAt enqueuedMonotonic =>
      exact h.pack hpacked hproducer enqueuedAt enqueuedMonotonic
  | put hproducer => exact h.put hproducer
  | inputSpeechStopped hproducer now =>
      exact h.keep (List.Sublist.refl _) (fun f hf => hf) hrate rfl
  | beginBargeIn hproducer trigger receivedAt receivedMonotonic now =>
      refine h.keep (List.Sublist.refl _) ?_ hrate rfl
      simp [Bridge.beginBargeIn, ProducerPhase.frame?]
  | truncate hproducer path ts now =>
      refine h.keep (List.Sublist.refl _) ?_ rfl rfl
      simp [Bridge.truncate, ProducerPhase.frame?]
  | clear hproducer requested ts now =>
      refine h.keep (List.Sublist.refl _) ?_ hrate rfl
      simp [Bridge.clear, Bridge.observing, ProducerPhase.frame?]
  | drain hproducer cleared completed =>
      have hdrained : Queued env { s with playback := s.playback.drain.2 } :=
        h.keep (List.nil_sublist _) (fun f hf => hf) rfl rfl
      unfold Bridge.drain
      dsimp only
      split
      · exact hdrained.fail _
      · refine hdrained.keep (List.Sublist.refl _) ?_ rfl rfl
        simp [ProducerPhase.frame?]
  | streamEnds =>
      refine h.keep (List.Sublist.refl _) ?_ rfl rfl
      simp [Bridge.endProducer, ProducerPhase.frame?]
  | fail => exact h.fail _
  | take hpump =>
      unfold Bridge.take
      split
      · rename_i f playback hget
        refine h.keep ?_ (fun f hf => hf) rfl rfl
        rw [PlaybackBuffer.frames_of_get hget]
        exact List.sublist_cons_self _ _
      · exact h
  | written hpump nowMonotonic now =>
      exact h.keep (List.Sublist.refl _) (fun f hf => hf) hrate rfl
  | playedOut hpump nowMonotonic now =>
      exact h.keep (List.Sublist.refl _) (fun f hf => hf) rfl rfl
  | outputEnds now => exact h.keep (List.Sublist.refl _) (fun f hf => hf) hrate rfl
  | failOutput => exact h.keep (List.Sublist.refl _) (fun f hf => hf) rfl rfl

theorem queued_reachable (hs : (bridgeMachine env).Reachable s) : Queued env s := by
  have hboth : Packed env s ∧ Queued env s := by
    refine Machine.Reachable.invariant (I := fun s => Packed env s ∧ Queued env s) ?_ ?_ hs
    · rintro s ⟨audio, -, rfl⟩
      have hqueue : Bridge.queue { audio } = [] := rfl
      refine ⟨Packed.of_cleared rfl rfl (by simp), ?_, ?_, ?_⟩ <;> simp [hqueue]
    · intro s l _ h
      exact ⟨packed_next l h.1, queued_next l h.1 h.2⟩
  exact hboth.2

end Queue

/-! ## The report -/

/-- Whether the RMS of the audio exceeds the noise floor. -/
def isSignal (env : BridgeEnv) (pcm : List UInt8) : Bool :=
  match pcmS16leRms env.math pcm with
  | .ok rms => env.settings.noiseFloor < rms
  | .error _ => false

/-- The removed audio, a part for every frame and one for the packet buffer. -/
def removedParts (removed : List TracedFrame) (rest : List (ℕ × UInt8)) : List (List UInt8) :=
  removed.map (fun f => f.frame.payload) ++ [rest.map Prod.snd]

/-- What the figures say of the removed frames and of the rest, which has no frame. -/
structure DiscardFigures.Accounts (env : BridgeEnv) (rate : ℕ) (removed : List TracedFrame)
    (rest : List (ℕ × UInt8)) (d : DiscardFigures) : Prop where
  droppedFrames : d.droppedFrames = removed.length
  queueDepthBeforeClear : d.queueDepthBeforeClear = removed.length
  discardedAudioMs : d.discardedAudioMs =
    round3 (audioMs (removed.map fun f => f.frame.payload).flatten rate)
  partialAudioMs : d.partialAudioMs = round3 (audioMs (rest.map Prod.snd) rate)
  discardedTotalAudioMs : d.discardedTotalAudioMs =
    round3 (audioMs (removedParts removed rest).flatten rate)
  discardedSignalBearingFrames : d.discardedSignalBearingFrames =
    removed.countP fun f => isSignal env f.frame.payload
  discardedSignalBearingAudioMs : d.discardedSignalBearingAudioMs =
    round3 (audioMs ((removedParts removed rest).filter (isSignal env)).flatten rate)
  evidenceFrames : d.evidenceFramesRecorded + d.evidenceFramesOmitted = removed.length
  discardedProviderChunks : d.discardedProviderChunks =
    ((removed.flatMap TracedFrame.origin ++ rest).map Prod.fst).dedup.length

/-- The event reports the frame. -/
def TracedFrame.Reported (f : TracedFrame) (e : TimelineEvent) : Prop :=
  ∃ n : ℕ, f.ordinal = some n ∧ ("frame_ordinal", .int n) ∈ e.attributes

/-- The frame events are those of some of the removed frames, no two of which have the same
ordinal. -/
def Evidence (removed : List TracedFrame) (recorded : ℕ) (events : List TimelineEvent) : Prop :=
  let frameEvents := events.filter fun e => e.name = BargeInControl.frameEventName
  frameEvents.length = recorded ∧ ∃ selected : List TracedFrame, selected.Sublist removed ∧
    (selected.filterMap TracedFrame.ordinal).Nodup ∧
    List.Forall₂ TracedFrame.Reported selected frameEvents

/-! ## Figures -/

theorem audioMs_append (pcm pcm' : List UInt8) (rate : ℕ) :
    audioMs (pcm ++ pcm') rate = audioMs pcm rate + audioMs pcm' rate := by
  unfold audioMs
  rw [List.length_append, Nat.cast_add]
  ring

@[simp] theorem audioMs_nil (rate : ℕ) : audioMs [] rate = 0 := by simp [audioMs]

theorem framesMs_eq (ctx : EvidenceContext) (frames : List OutputFrame) :
    BargeInControl.framesMs ctx frames =
      audioMs (frames.map fun frame => frame.payload).flatten ctx.telephonyRate := by
  unfold BargeInControl.framesMs
  induction frames with
  | nil => simp
  | cons frame frames ih => simp [audioMs_append, ih]

section Figures

variable {env : BridgeEnv} {m : ℕ} {removed : List TracedFrame}

theorem TracedFrame.Cut.bearsSignal {f : TracedFrame} (h : f.Cut env m) :
    BargeInControl.bearsSignal f.frame = isSignal env f.frame.payload := by
  obtain ⟨-, -, -, o, ho, -, hrms, hsignal⟩ := h
  simp [BargeInControl.bearsSignal, isSignal, ho, hrms, hsignal]

theorem TracedFrame.Cut.isSome {f : TracedFrame} (h : f.Cut env m) :
    f.frame.playbackObservation.isSome := by
  obtain ⟨-, -, -, o, ho, -⟩ := h
  simp [ho]

/-- Every removed frame was observed. -/
theorem length_observations (hcut : ∀ f ∈ removed, f.Cut env m) :
    (BargeInControl.observations (removed.map TracedFrame.frame)).length = removed.length := by
  unfold BargeInControl.observations
  rw [List.filterMap_map, List.filterMap_length_eq_length]
  exact fun f hf => (hcut f hf).isSome

theorem mem_chunkOrdinals (hcut : ∀ f ∈ removed, f.Cut env m) (n : ℕ) :
    n ∈ ((BargeInControl.observations (removed.map TracedFrame.frame)).map
        PlaybackFrameObservation.sourceWindow).flatMap ProviderAudioSourceWindow.chunkOrdinals ↔
      n ∈ (removed.flatMap TracedFrame.origin).map Prod.fst := by
  simp only [BargeInControl.observations, List.mem_flatMap, List.mem_map, List.mem_filterMap]
  constructor
  · rintro ⟨_, ⟨o, ⟨_, ⟨f, hf, rfl⟩, ho⟩, rfl⟩, hn⟩
    obtain ⟨-, -, -, o', ho', hcovers, -⟩ := hcut f hf
    obtain rfl : o' = o := Option.some.inj (ho'.symm.trans ho)
    obtain ⟨byte, hbyte, rfl⟩ := List.mem_map.mp ((hcovers.2 n).mp hn)
    exact ⟨byte, ⟨f, hf, hbyte⟩, rfl⟩
  · rintro ⟨byte, ⟨f, hf, hbyte⟩, rfl⟩
    obtain ⟨-, -, -, o, ho, hcovers, -⟩ := hcut f hf
    exact ⟨_, ⟨o, ⟨_, ⟨f, hf, rfl⟩, ho⟩, rfl⟩,
      (hcovers.2 _).mpr (List.mem_map_of_mem hbyte)⟩

/-- The sample of the frame events leaves out the others. -/
theorem boundedEvidence_sublist {α : Type} {values : List α} {limit : ℕ} (h : 2 ≤ limit) :
    (boundedEvidence values limit).Sublist values := by
  unfold boundedEvidence
  split
  · exact List.nil_sublist _
  · split
    · exact List.Sublist.refl _
    · -- the last values begin after the first ones
      have htail : limit - (limit + 1) / 2 ≠ 0 := by omega
      have hhead : (limit + 1) / 2 ≤ values.length - (limit - (limit + 1) / 2) := by omega
      have hsub : (values.take ((limit + 1) / 2) ++
          values.drop (values.length - (limit - (limit + 1) / 2))).Sublist
          (values.take ((limit + 1) / 2) ++ values.drop ((limit + 1) / 2)) :=
        (List.drop_sublist_drop_left _ hhead).append_left _
      rw [List.take_append_drop] at hsub
      simpa only [lastSlice, if_neg htail] using hsub

theorem figures_accounts (control : BargeInControl) {ctx : EvidenceContext}
    {rest : List (ℕ × UInt8)} {window : Option ProviderAudioSourceWindow} {signal : Bool}
    (hcut : ∀ f ∈ removed, f.Cut env m)
    (hwindow : ∀ n, n ∈ window.toList.flatMap ProviderAudioSourceWindow.chunkOrdinals ↔
      n ∈ rest.map Prod.fst)
    (hsignal : signal = (decide (rest.map Prod.snd ≠ []) && isSignal env (rest.map Prod.snd))) :
    (control.figures ctx (removed.map TracedFrame.frame) (rest.map Prod.snd) window
      signal).Accounts env ctx.telephonyRate removed rest := by
  have hmap : (removed.map TracedFrame.frame).map (fun frame => frame.payload) =
      removed.map fun f => f.frame.payload := by
    rw [List.map_map]
    rfl
  have hframes : BargeInControl.framesMs ctx (removed.map TracedFrame.frame) =
      audioMs (removed.map fun f => f.frame.payload).flatten ctx.telephonyRate := by
    rw [framesMs_eq, hmap]
  constructor
  · simp [BargeInControl.figures]
  · simp [BargeInControl.figures]
  · simp only [BargeInControl.figures, hframes]
  · rfl
  · simp only [BargeInControl.figures, hframes, removedParts, List.flatten_append]
    simp [audioMs_append]
  · simp only [BargeInControl.figures, BargeInControl.observations, List.filterMap_map,
      List.countP_filterMap]
    apply List.countP_congr
    intro f hf
    have hbears := (hcut f hf).bearsSignal
    obtain ⟨-, -, -, o, ho, -⟩ := hcut f hf
    rw [← hbears]
    simp [BargeInControl.bearsSignal, ho]
  · have hfilter : ((removed.map TracedFrame.frame).filter BargeInControl.bearsSignal).map
        (fun frame => frame.payload) =
        (removed.map fun f => f.frame.payload).filter (isSignal env) := by
      rw [List.filter_map, List.filter_map, List.map_map]
      congr 1
      apply List.filter_congr
      intro f hf
      exact (hcut f hf).bearsSignal
    have hparts : audioMs ((removedParts removed rest).filter (isSignal env)).flatten
        ctx.telephonyRate =
        audioMs ((removed.map fun f => f.frame.payload).filter (isSignal env)).flatten
          ctx.telephonyRate + if signal then audioMs (rest.map Prod.snd) ctx.telephonyRate else 0 := by
      rw [removedParts, List.filter_append, List.flatten_append, audioMs_append, hsignal]
      congr 1
      by_cases hempty : rest.map Prod.snd = []
      · rw [hempty]
        cases hrest : isSignal env [] <;> simp [hrest]
      · cases hrest : isSignal env (rest.map Prod.snd) <;> simp [hempty, hrest]
    simp only [BargeInControl.figures]
    rw [framesMs_eq, hfilter, hparts]
  · simp only [BargeInControl.figures, length_observations hcut]
    omega
  · simp only [BargeInControl.figures]
    rw [← List.card_toFinset, ← List.card_toFinset]
    congr 1
    ext n
    rw [List.mem_toFinset, List.mem_toFinset, List.flatMap_append, List.mem_append,
      mem_chunkOrdinals hcut n, hwindow n, List.map_append, List.mem_append]

end Figures

/-! ## Events -/

section Events

variable {env : BridgeEnv} {m : ℕ} (control : BargeInControl) (ctx : EvidenceContext)

theorem frameEvent_spec {o : PlaybackFrameObservation}
    (h : o.sourceWindow.chunkOrdinals ≠ []) :
    ∃ e, control.frameEvent ctx o = .ok e ∧ e.name = BargeInControl.frameEventName ∧
      ("frame_ordinal", .int o.frameOrdinal) ∈ e.attributes := by
  unfold BargeInControl.frameEvent
  rw [List.head?_eq_some_head h, List.getLast?_eq_some_getLast h]
  exact ⟨_, rfl, rfl, List.mem_cons_self⟩

/-- The window of audio that is not empty has chunks. -/
theorem ProviderAudioSourceWindow.Covers.ne_nil {window : ProviderAudioSourceWindow}
    {tags : List ℕ} (h : window.Covers tags) (htags : tags ≠ []) : window.chunkOrdinals ≠ [] := by
  obtain ⟨n, hn⟩ := List.exists_mem_of_ne_nil tags htags
  exact List.ne_nil_of_mem ((h.2 n).mpr hn)

theorem TracedFrame.Cut.frameEvent {f : TracedFrame} (h : f.Cut env m)
    {o : PlaybackFrameObservation} (ho : f.frame.playbackObservation = some o) :
    ∃ e, control.frameEvent ctx o = .ok e ∧ e.name = BargeInControl.frameEventName ∧
      f.Reported e := by
  obtain ⟨-, -, hnonempty, o', ho', hcovers, -⟩ := h
  obtain rfl : o' = o := Option.some.inj (ho'.symm.trans ho)
  obtain ⟨e, he, hname, hordinal⟩ :=
    frameEvent_spec control ctx (hcovers.ne_nil (by simpa using hnonempty))
  exact ⟨e, he, hname, o'.frameOrdinal, by simp [TracedFrame.ordinal, ho], hordinal⟩

/-- Every frame that was cut has an event. -/
theorem mapM_frameEvent {frames : List TracedFrame} (hcut : ∀ f ∈ frames, f.Cut env m) :
    ∃ frameEvents, (frames.filterMap fun f => f.frame.playbackObservation).mapM
        (control.frameEvent ctx) = .ok frameEvents ∧
      List.Forall₂ TracedFrame.Reported frames frameEvents ∧
      ∀ e ∈ frameEvents, e.name = BargeInControl.frameEventName := by
  induction frames with
  | nil => exact ⟨[], rfl, .nil, by simp⟩
  | cons f frames ih =>
      obtain ⟨frameEvents, hevents, hreported, hnames⟩ :=
        ih fun f hf => hcut f (List.mem_cons_of_mem _ hf)
      have hf := hcut f List.mem_cons_self
      obtain ⟨o, ho⟩ := Option.isSome_iff_exists.mp hf.isSome
      obtain ⟨e, he, hname, hreport⟩ := hf.frameEvent control ctx ho
      refine ⟨e :: frameEvents, ?_, .cons hreport hreported, ?_⟩
      · simp only [List.filterMap_cons, ho, List.mapM_cons, he, hevents]
        rfl
      · intro e' he'
        rcases List.mem_cons.mp he' with rfl | he'
        · exact hname
        · exact hnames e' he'

/-- The observations of the sample are those of some of the frames. -/
theorem selected_frames (removed : List TracedFrame) :
    ∃ selected : List TracedFrame, selected.Sublist removed ∧
      boundedEvidence (BargeInControl.observations (removed.map TracedFrame.frame))
        bargeInFrameEvidenceLimit = selected.filterMap fun f => f.frame.playbackObservation := by
  apply List.sublist_filterMap_iff.mp
  have hobservations : BargeInControl.observations (removed.map TracedFrame.frame) =
      removed.filterMap fun f => f.frame.playbackObservation := List.filterMap_map
  rw [← hobservations]
  exact boundedEvidence_sublist (by decide)

theorem partialRms_spec {pcm : List UInt8} (heven : pcm.length % 2 = 0)
    (hmath : ctx.math = env.math) (hfloor : ctx.noiseFloor = env.settings.noiseFloor) :
    ∃ rms, BargeInControl.partialRms ctx pcm = .ok rms ∧
      decide (pcm ≠ [] ∧ ctx.noiseFloor < rms) = (decide (pcm ≠ []) && isSignal env pcm) := by
  unfold BargeInControl.partialRms
  by_cases hempty : pcm = []
  · exact ⟨0, if_pos hempty, by simp [hempty]⟩
  · obtain ⟨rms, hrms⟩ : ∃ rms, pcmS16leRms env.math pcm = .ok rms := by
      unfold pcmS16leRms
      rw [if_neg (by omega)]
      dsimp only
      split
      · exact ⟨_, rfl⟩
      · exact ⟨_, rfl⟩
    refine ⟨rms, ?_, by simp [isSignal, hrms, hempty, hfloor]⟩
    rw [if_neg hempty, hmath, hrms]
    rfl

theorem partialEvents_spec {pcm : List UInt8} {window : Option ProviderAudioSourceWindow}
    (heven : pcm.length % 2 = 0)
    (hwindow : ∀ w, window = some w → pcm ≠ [] → w.chunkOrdinals ≠ []) (rms : ℚ)
    (signalBearing : Bool) :
    ∃ events, control.partialEvents ctx pcm window rms signalBearing = .ok events ∧
      ∀ e ∈ events, e.name ≠ BargeInControl.frameEventName := by
  unfold BargeInControl.partialEvents
  cases window with
  | none => exact ⟨[], rfl, by simp⟩
  | some w =>
      by_cases hempty : pcm = []
      · exact ⟨[], if_pos hempty, by simp⟩
      · have hordinals := hwindow w rfl hempty
        obtain ⟨quality, hquality⟩ : ∃ quality, pcmS16leQuality ctx.math pcm = .ok quality := by
          unfold pcmS16leQuality
          rw [if_neg (by omega)]
          dsimp only
          split
          · exact ⟨_, rfl⟩
          · exact ⟨_, rfl⟩
        dsimp only
        rw [if_neg hempty, BargeInControl.partialEvent, hquality,
          List.head?_eq_some_head hordinals, List.getLast?_eq_some_getLast hordinals]
        refine ⟨_, rfl, ?_⟩
        intro e he
        obtain rfl := List.mem_singleton.mp he
        simp [bridgeEvent, BargeInControl.frameEventName]

end Events

/-! ## The barge-in -/

section BargeIn

variable {env : BridgeEnv} {s : Bridge}

/-- The steps of the pump. -/
def BridgeStep.OfPump : BridgeStep → Prop
  | .take | .written _ _ | .playedOut _ _ | .outputEnds _ | .failOutput => True
  | _ => False

/-- The pump leaves the producer and the packets alone. -/
theorem pump_next {l : BridgeStep} (h : l.OfPump) :
    (s.next env l).producer = s.producer ∧ (s.next env l).packets = s.packets := by
  have heffect := bridgeEffect_next env s l
  generalize s.next env l = s' at heffect
  cases heffect with
  | ignored | written | playedOut | outputEnds | failOutput => exact ⟨rfl, rfl⟩
  | take hpump =>
      unfold Bridge.take
      split <;> exact ⟨rfl, rfl⟩
  | _ => exact h.elim

theorem pump_run {ls : List BridgeStep} (hls : ∀ l ∈ ls, l.OfPump) :
    ((bridgeMachine env).exec s ls).producer = s.producer ∧
      ((bridgeMachine env).exec s ls).packets = s.packets := by
  induction ls generalizing s with
  | nil => exact ⟨rfl, rfl⟩
  | cons l ls ih =>
      obtain ⟨hproducer, hpackets⟩ := @pump_next env s l (hls l List.mem_cons_self)
      have hrest := @ih (s.next env l) fun l hl => hls l (List.mem_cons_of_mem _ hl)
      exact ⟨hrest.1.trans hproducer, hrest.2.trans hpackets⟩

theorem telephonyRate_run (ls : List BridgeStep) :
    ((bridgeMachine env).exec s ls).audio.telephonyRate = s.audio.telephonyRate := by
  induction ls generalizing s with
  | nil => rfl
  | cons l ls ih => exact ih.trans (telephonyRate_next s l)

/-- The report on frames as they were cut, and on audio with the window of its chunks. -/
theorem evidence_spec {m : ℕ} {removed : List TracedFrame} (hcut : ∀ f ∈ removed, f.Cut env m)
    (hincreasing : (removed.filterMap TracedFrame.ordinal).Pairwise (· < ·))
    {rest : List (ℕ × UInt8)} {window : Option ProviderAudioSourceWindow}
    (heven : (rest.map Prod.snd).length % 2 = 0)
    (hwindow : ∀ n, n ∈ window.toList.flatMap ProviderAudioSourceWindow.chunkOrdinals ↔
      n ∈ rest.map Prod.fst) (control : BargeInControl) (ctx : EvidenceContext)
    (hmath : ctx.math = env.math) (hfloor : ctx.noiseFloor = env.settings.noiseFloor) :
    ∃ events figures,
      control.observeBargeInAudioEvidence ctx (removed.map TracedFrame.frame)
        (rest.map Prod.snd) window = .ok (events, figures) ∧
      figures.Accounts env ctx.telephonyRate removed rest ∧
      Evidence removed figures.evidenceFramesRecorded events := by
  obtain ⟨selected, hselected, hsample⟩ := selected_frames removed
  obtain ⟨frameEvents, hframes, hreported, hnames⟩ := mapM_frameEvent control ctx
    fun f hf => hcut f (hselected.subset hf)
  obtain ⟨rms, hrms, hsignal⟩ := partialRms_spec ctx heven hmath hfloor
  have hordinals : ∀ w, window = some w → rest.map Prod.snd ≠ [] → w.chunkOrdinals ≠ [] := by
    rintro w rfl hne hnil
    obtain ⟨byte, hbyte⟩ := List.exists_mem_of_ne_nil rest fun h => hne (by rw [h]; rfl)
    have hmem := (hwindow byte.1).mpr (List.mem_map_of_mem hbyte)
    simp [hnil] at hmem
  obtain ⟨partialEvents, hrest, hother⟩ := partialEvents_spec control ctx heven hordinals rms (decide (rest.map Prod.snd ≠ [] ∧ ctx.noiseFloor < rms))
  refine ⟨(boundedEvidence (control.recentChunks ctx) bargeInChunkEvidenceLimit).map
    (control.chunkEvent ctx) ++ frameEvents ++ partialEvents, _, ?_,
    figures_accounts control hcut hwindow hsignal, ?_⟩
  · unfold BargeInControl.observeBargeInAudioEvidence
    rw [hsample, hframes, hrms]
    dsimp only [Bind.bind, Except.bind]
    rw [hrest]
    rfl
  · -- the events of chunks and of the rest have names of their own
    have hchunks : ((boundedEvidence (control.recentChunks ctx) bargeInChunkEvidenceLimit).map
        (control.chunkEvent ctx)).filter (fun e => e.name = BargeInControl.frameEventName) = [] := by
      rw [List.filter_eq_nil_iff]
      intro e he
      obtain ⟨chunk, -, rfl⟩ := List.mem_map.mp he
      simp [BargeInControl.chunkEvent, bridgeEvent, BargeInControl.frameEventName]
    have hself : frameEvents.filter (fun e => e.name = BargeInControl.frameEventName) =
        frameEvents := List.filter_eq_self.mpr (by simpa using hnames)
    have hnone : partialEvents.filter (fun e => e.name = BargeInControl.frameEventName) = [] :=
      List.filter_eq_nil_iff.mpr (by simpa using hother)
    have hfilter : ((boundedEvidence (control.recentChunks ctx) bargeInChunkEvidenceLimit).map
        (control.chunkEvent ctx) ++ frameEvents ++ partialEvents).filter
          (fun e => e.name = BargeInControl.frameEventName) = frameEvents := by
      rw [List.filter_append, List.filter_append, hchunks, hself, hnone, List.nil_append,
        List.append_nil]
    have hcount : (selected.filterMap fun f => f.frame.playbackObservation).length =
        selected.length :=
      List.filterMap_length_eq_length.mpr fun f hf => (hcut f (hselected.subset hf)).isSome
    refine ⟨?_, selected, hselected, ?_, ?_⟩
    · rw [hfilter, ← hreported.length_eq, ← hcount]
      simp only [BargeInControl.figures, hsample]
    · exact (hincreasing.sublist (hselected.filterMap _)).imp fun h => h.ne
    · rwa [hfilter]

/-- The queue is drained and reported. -/
theorem drain_next {b : BargeInProgress} {position : Option PlaybackPosition}
    {audio : PartialAudio} {writtenAudioMs : ℚ} {events : List TimelineEvent}
    {figures : DiscardFigures}
    (hphase : s.producer = .draining b position audio writtenAudioMs)
    (hevidence : s.evidence env b audio writtenAudioMs s.playback.frames = .ok (events, figures))
    (cleared completed : Datetime) :
    (s.next env (.drain cleared completed)).packets = s.packets ∧
      (s.next env (.drain cleared completed)).playback.frames = [] ∧
      ∃ queueCleared bargeInCompleted : TimelineEvent,
        (s.next env (.drain cleared completed)).events =
          s.events ++ events ++ [queueCleared, bargeInCompleted] ∧
        queueCleared.name = "playback_queue_cleared" ∧
        queueCleared.attributes = figures.attributes := by
  have hevidence' : { s with playback := s.playback.drain.2 }.evidence env b audio writtenAudioMs
      s.playback.drain.1 = .ok (events, figures) := hevidence
  simp only [Bridge.next, hphase]
  unfold Bridge.drain
  dsimp only
  rw [hevidence']
  exact ⟨rfl, rfl, _, _, rfl, rfl, rfl⟩

end BargeIn

/-- A barge-in clears the packet buffer, and later, after any steps of the pump, drains the
queue: then nothing is left, and the report accounts for the frames and the bytes that were
removed. -/
theorem discard_accounting {env : BridgeEnv} {s : Bridge} (hs : (bridgeMachine env).Reachable s)
    {b : BargeInProgress} {position : Option PlaybackPosition}
    (hphase : s.producer = .truncating b position) (requested : Bool) (ts now : Datetime)
    {ks : List BridgeStep} (hks : ∀ l ∈ ks, l.OfPump) (cleared completed : Datetime) :
    let t := (bridgeMachine env).exec s (.clear requested ts now :: ks)
    let t' := t.next env (.drain cleared completed)
    t'.packets.packetBuffer = [] ∧ t'.packets.packetSources = [] ∧ t'.playback.frames = [] ∧
      s.packets.packetBuffer = s.waiting.map Prod.snd ∧
      ∃ (events : List TimelineEvent) (queueCleared bargeInCompleted : TimelineEvent)
        (figures : DiscardFigures),
        t'.events = t.events ++ events ++ [queueCleared, bargeInCompleted] ∧
        queueCleared.name = "playback_queue_cleared" ∧
        queueCleared.attributes = figures.attributes ∧
        figures.Accounts env s.audio.telephonyRate t.playback.frames s.waiting ∧
        Evidence t.playback.frames figures.evidenceFramesRecorded events := by
  intro t t'
  have hpacked := packed_reachable hs
  have hqueued : Queued env t := queued_reachable (hs.run (Machine.along_true _ _))
  have hclear : s.next env (.clear requested ts now) = s.clear b position requested ts now := by
    simp only [Bridge.next, hphase]
  have ht : t = (bridgeMachine env).exec (s.clear b position requested ts now) ks :=
    congrArg (fun s' => (bridgeMachine env).exec s' ks) hclear
  obtain ⟨hproducer, hpackets⟩ := @pump_run env (s.clear b position requested ts now) ks hks
  rw [← ht] at hproducer hpackets
  have hrate : t.audio.telephonyRate = s.audio.telephonyRate := telephonyRate_run _
  have hcut : ∀ f ∈ t.playback.frames, f.Cut env t.packetBytes := fun f hf =>
    hqueued.cut f (List.mem_append_left _ hf)
  have hincreasing : (t.playback.frames.filterMap TracedFrame.ordinal).Pairwise (· < ·) :=
    hqueued.increasing.sublist ((List.sublist_append_left _ _).filterMap _)
  have hwindow : ∀ n, n ∈ (bufferedSourceWindow s.packets.packetSources).toList.flatMap
      ProviderAudioSourceWindow.chunkOrdinals ↔ n ∈ s.waiting.map Prod.fst := by
    intro n
    rw [← hpacked.tags]
    rcases bufferedSourceWindow_spec hpacked.sources with ⟨hnone, htags⟩ | ⟨w, hsome, hcovers⟩
    · simp [hnone, htags]
    · simp [hsome, hcovers.2 n]
  -- the report is about what the buffer had and what the queue still has
  obtain ⟨events, figures, hevidence, haccounts, hevents⟩ :=
    evidence_spec hcut hincreasing (hpacked.buffer ▸ hpacked.even) hwindow
      { correlationAlias := b.correlationAlias, receivedAt := b.receivedAt,
        receivedMonotonic := b.receivedMonotonic,
        writtenAudioMsBefore := s.audio.burst.writtenAudioMs }
      { math := env.math, noiseFloor := env.settings.noiseFloor,
        telephonyRate := t.audio.telephonyRate, streamAlias := env.streamAlias,
        recentChunks := t.recentChunks } rfl rfl
  rw [← hpacked.buffer] at hevidence
  rw [hrate] at haccounts
  obtain ⟨hpackets', hframes, queueCleared, bargeInCompleted, hlog, hname, hattributes⟩ :=
    drain_next hproducer hevidence cleared completed
  rw [hpackets] at hpackets'
  refine ⟨?_, ?_, hframes, hpacked.buffer, events, queueCleared, bargeInCompleted, figures, hlog,
    hname, hattributes, haccounts, hevents⟩
  · exact congrArg PacketState.packetBuffer hpackets'
  · exact congrArg PacketState.packetSources hpackets'

/-- Two packets in the queue and 80 bytes after them, when the caller interrupts. -/
def queuedPackets : List BridgeStep :=
  [.receiveAudio ⟨List.replicate 720 0, 8000, 1, "pcm16", none, none⟩ (.utc 0) 0,
    .pack (.utc 0) 0, .put, .pack (.utc 0) 0, .put, .pack (.utc 0) 0,
    .beginBargeIn .interrupted (.utc 5) (5 / 1000) (.utc 5),
    .truncate .providerInterrupted (.utc 5) (5 / 1000)]

/-- The call with those packets, where silence needs no mathematics. -/
def queuedCall : Bridge :=
  (bridgeMachine { math := ⟨id, id⟩ }).exec { audio := .initial "a" "b" } queuedPackets

/-- The pump takes one of the packets while the drain waits. -/
theorem discard_accounting_queuedCall :
    let t := (bridgeMachine { math := ⟨id, id⟩ }).exec queuedCall [.clear false (.utc 6) (.utc 6), .take]
    t.playback.frames.length = 1 ∧ queuedCall.packets.packetBuffer.length = 80 ∧
      ∃ figures : DiscardFigures, figures.Accounts { math := ⟨id, id⟩ }
        queuedCall.audio.telephonyRate t.playback.frames queuedCall.waiting := by
  refine ⟨by decide +kernel, by decide +kernel, ?_⟩
  have hreachable : (bridgeMachine { math := ⟨id, id⟩ }).Reachable queuedCall :=
    ⟨_, queuedPackets, ⟨_, rfl, rfl⟩, Machine.along_true _ _, rfl⟩
  have hphase : queuedCall.producer = .truncating ⟨"barge-in-b-1", .utc 5, 5 / 1000, 2,
      .providerInterrupted⟩ none := by decide +kernel
  have hks : ∀ l ∈ [BridgeStep.take], l.OfPump := by
    intro l hl
    obtain rfl := List.mem_singleton.mp hl
    trivial
  obtain ⟨-, -, -, -, events, queueCleared, bargeInCompleted, figures, -, -, -, haccounts, -⟩ :=
    discard_accounting hreachable hphase false (.utc 6) (.utc 6) hks (.utc 7) (.utc 7)
  exact ⟨figures, haccounts⟩

end VoxBench.Telephony
