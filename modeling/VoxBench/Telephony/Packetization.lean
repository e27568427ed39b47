import VoxBench.Lib.Slices
import VoxBench.Telephony.Bridge

/-!
# Packetization

The packet buffer and the queue of its sources are two views of the processed audio that has
not been cut into packets yet. Chunks and packets need not align: a packet can have bytes of
many chunks and a chunk can give bytes to many packets.

## Main results

* `packetization` — the two views agree, the sources never run short, and the packets are the
  consecutive slices of the processed audio, with exactly the chunks of their bytes.
-/

namespace VoxBench.Telephony

open VoxBench.Lib VoxBench.ControlPlane VoxBench.Media VoxBench.Observability

/-- A frame of `m` bytes as the producer cuts it: its bytes, their chunks, and what was
measured of them. -/
structure TracedFrame.Cut (env : BridgeEnv) (m : ℕ) (f : TracedFrame) : Prop where
  payload : f.frame.payload = f.origin.map Prod.snd
  size : f.origin.length = m
  nonempty : f.origin ≠ []
  observed : ∃ o, f.frame.playbackObservation = some o ∧
    o.sourceWindow.Covers (f.origin.map Prod.fst) ∧
    pcmS16leRms env.math f.frame.payload = .ok o.outputRms ∧
    o.signalBearing = decide (env.settings.noiseFloor < o.outputRms)

/-- The packet buffer and the sources are what waits of the processed audio, after the
frames that were cut from it. -/
structure Packed (env : BridgeEnv) (s : Bridge) : Prop where
  sources : SourcesOk s.packets.packetSources
  bounded : ∀ source ∈ s.packets.packetSources, source.chunkOrdinal ≤ s.chunkOrdinal
  consumed : s.packetBytes * s.packets.packed.length ≤ s.packets.stream.length
  buffer : s.packets.packetBuffer = s.waiting.map Prod.snd
  tags : chunkTags s.packets.packetSources = s.waiting.map Prod.fst
  even : s.packets.packetBuffer.length % 2 = 0
  slices : ∀ i f, s.packets.packed[i]? = some f →
    f.origin = slice s.packetBytes i s.packets.stream
  cut : ∀ f ∈ s.packets.packed, f.Cut env s.packetBytes
  putting : ∀ f ∈ s.producer.frame?, s.packets.packed.getLast? = some f
  noUnderrun : s.producer ≠ .ended (some (.packets underrun))

/-! ## The size of a packet -/

section PacketBytes

variable {env : BridgeEnv} (s : Bridge)

theorem packetBytes_eq {s s' : Bridge} (h : s'.audio.telephonyRate = s.audio.telephonyRate) :
    s'.packetBytes = s.packetBytes := by
  unfold Bridge.packetBytes
  rw [h]

@[simp] theorem telephonyRate_setItem (item : Option (String × ℤ)) :
    (s.setItem item).audio.telephonyRate = s.audio.telephonyRate := by
  unfold Bridge.setItem
  split <;> rfl

theorem telephonyRate_receiveAudio (message : ProviderAudio) (receivedAt : Datetime)
    (receivedMonotonic : ℚ) :
    (s.receiveAudio env message receivedAt receivedMonotonic).audio.telephonyRate =
      s.audio.telephonyRate := by
  unfold Bridge.receiveAudio
  split
  · rfl
  · dsimp only
    split
    · rfl
    · split
      · exact telephonyRate_setItem _ _
      · split
        · exact telephonyRate_setItem _ _
        · exact telephonyRate_setItem _ _

theorem telephonyRate_pack (enqueuedAt : Datetime) (enqueuedMonotonic : ℚ) :
    (s.pack env enqueuedAt enqueuedMonotonic).audio.telephonyRate = s.audio.telephonyRate := by
  unfold Bridge.pack
  split
  · rfl
  · dsimp only
    split
    · rfl
    · split <;> rfl

theorem telephonyRate_next (l : BridgeStep) :
    (s.next env l).audio.telephonyRate = s.audio.telephonyRate := by
  have heffect := bridgeEffect_next env s l
  generalize s.next env l = s' at heffect
  cases heffect with
  | ignored | put | truncate | streamEnds | fail | playedOut | failOutput => rfl
  | receiveAudio h message receivedAt receivedMonotonic =>
      exact telephonyRate_receiveAudio s message receivedAt receivedMonotonic
  | pack h enqueuedAt enqueuedMonotonic => exact telephonyRate_pack s enqueuedAt enqueuedMonotonic
  | inputSpeechStopped h now => exact CallAudio.telephonyRate_endCallerSpeech _ _ _ _
  | beginBargeIn h trigger receivedAt receivedMonotonic now =>
      exact CallAudio.telephonyRate_beginBargeIn _ _ _ _
  | clear h requested ts now => exact CallAudio.telephonyRate_endAssistantPlayback _ _ _
  | drain h cleared completed =>
      simp only [Bridge.drain]
      split <;> rfl
  | take h =>
      simp only [Bridge.take]
      split <;> rfl
  | written h nowMonotonic now => exact CallAudio.telephonyRate_markOutputStarted _ _ _ _
  | outputEnds now => exact CallAudio.telephonyRate_endAssistantPlayback _ _ _

end PacketBytes

/-! ## What keeps the packets -/

section Steps

variable {env : BridgeEnv} {s s' : Bridge}

/-- Steps that leave the packets alone. -/
theorem Packed.keep (h : Packed env s) (hrate : s'.audio.telephonyRate = s.audio.telephonyRate)
    (hpackets : s'.packets = s.packets) (hordinal : s.chunkOrdinal ≤ s'.chunkOrdinal)
    (hframe : ∀ f ∈ s'.producer.frame?, f ∈ s.producer.frame?)
    (herror : s'.producer ≠ .ended (some (.packets underrun))) : Packed env s' := by
  have hbytes := packetBytes_eq hrate
  have hwaiting : s'.waiting = s.waiting := by
    unfold Bridge.waiting
    rw [hbytes, hpackets]
  constructor
  · rw [hpackets]
    exact h.sources
  · rw [hpackets]
    exact fun source hsource => (h.bounded source hsource).trans hordinal
  · rw [hbytes, hpackets]
    exact h.consumed
  · rw [hwaiting, hpackets]
    exact h.buffer
  · rw [hwaiting, hpackets]
    exact h.tags
  · rw [hpackets]
    exact h.even
  · rw [hbytes, hpackets]
    exact h.slices
  · rw [hbytes, hpackets]
    exact h.cut
  · rw [hpackets]
    exact fun f hf => h.putting f (hframe f hf)
  · exact herror

/-- Nothing waits, and nothing has been cut. -/
theorem Packed.of_cleared (hpackets : s.packets = {}) (hframe : s.producer.frame? = none)
    (herror : s.producer ≠ .ended (some (.packets underrun))) : Packed env s := by
  have hwaiting : s.waiting = [] := by
    unfold Bridge.waiting
    rw [hpackets]
    exact List.drop_nil
  constructor
  · rw [hpackets]
    exact .nil
  · simp [hpackets]
  · simp [hpackets]
  · simp [hwaiting, hpackets]
  · simp [hwaiting, hpackets]
  · simp [hpackets]
  · simp [hpackets]
  · simp [hpackets]
  · simp [hframe]
  · exact herror

/-- Gain control and limiter keep the number of bytes, which is even. -/
theorem levelAudio_spec {resampled limited : List UInt8}
    (h : Bridge.levelAudio env resampled = .ok (some limited)) :
    limited ≠ [] ∧ limited.length % 2 = 0 := by
  unfold Bridge.levelAudio at h
  split at h
  · cases h
  · rename_i hne
    simp only [bind_eq_ok, liftError_eq_ok] at h
    obtain ⟨⟨agcOutput, gain⟩, hagc, limited', hlimited, hret⟩ := h
    obtain rfl : limited' = limited := by simpa [pure, Except.pure] using hret
    have heven := even_of_applyAgc hagc
    have hlength : limited'.length = resampled.length := by
      have hagcLength : agcOutput.length = resampled.length := length_applyAgc hagc
      rw [← hagcLength]
      exact length_applyLimiter (hagcLength ▸ heven) hlimited
    rw [hlength]
    exact ⟨fun hnil => hne (List.length_eq_zero_iff.mp (by simpa [hnil] using hlength.symm)), heven⟩

theorem processAudio_spec {message : ProviderAudio} {limited : List UInt8}
    {resampler : Σ rates : Rates, Pcm16MonoStreamResampler rates}
    (h : s.processAudio env message = .ok (some limited, resampler)) :
    limited ≠ [] ∧ limited.length % 2 = 0 := by
  unfold Bridge.processAudio at h
  simp only [bind_eq_ok] at h
  obtain ⟨_, _, _, _, processed, hlevel, hret⟩ := h
  obtain ⟨rfl, -⟩ : processed = some limited ∧ _ := by simpa [pure, Except.pure] using hret
  exact levelAudio_spec hlevel

/-- A new chunk joins what waits. -/
theorem Packed.extend (h : Packed env s) {limited : List UInt8} (hne : limited ≠ [])
    (heven : limited.length % 2 = 0)
    (hnew : ∀ source ∈ s.packets.packetSources, source.chunkOrdinal < s.chunkOrdinal)
    (receivedAt : Datetime) (receivedMonotonic : ℚ) :
    Packed env (s.extend limited receivedAt receivedMonotonic) := by
  have hbytes : (s.extend limited receivedAt receivedMonotonic).packetBytes = s.packetBytes :=
    packetBytes_eq rfl
  have hwaiting : (s.extend limited receivedAt receivedMonotonic).waiting =
      s.waiting ++ limited.map fun byte => (s.chunkOrdinal, byte) := by
    unfold Bridge.waiting
    rw [hbytes]
    exact List.drop_append_of_le_length h.consumed
  have hpos : 0 < limited.length := List.length_pos_iff.mpr hne
  constructor
  · constructor
    · intro source hsource
      rcases List.mem_append.mp hsource with hsource | hsource
      · exact h.sources.positive source hsource
      · obtain rfl := List.mem_singleton.mp hsource
        exact hpos
    · simp only [Bridge.extend, List.map_append, List.map_cons, List.map_nil]
      rw [List.pairwise_append]
      refine ⟨h.sources.increasing, List.pairwise_singleton _ _, ?_⟩
      intro a ha b hb
      obtain ⟨source, hsource, rfl⟩ := List.mem_map.mp ha
      obtain rfl := List.mem_singleton.mp hb
      exact hnew source hsource
  · intro source hsource
    rcases List.mem_append.mp hsource with hsource | hsource
    · exact h.bounded source hsource
    · obtain rfl := List.mem_singleton.mp hsource
      exact le_rfl
  · rw [hbytes]
    simp only [Bridge.extend, List.length_append]
    exact h.consumed.trans (Nat.le_add_right _ _)
  · rw [hwaiting]
    simp [Bridge.extend, h.buffer, Function.comp_def]
  · rw [hwaiting]
    simp [Bridge.extend, h.tags, Function.comp_def, List.map_const']
  · simp only [Bridge.extend, List.length_append]
    have := h.even
    omega
  · intro i f hf
    rw [hbytes, h.slices i f hf]
    have hi : i < s.packets.packed.length := (List.getElem?_eq_some_iff.mp hf).1
    refine (slice_append_of_le ?_).symm
    calc (i + 1) * s.packetBytes ≤ s.packets.packed.length * s.packetBytes :=
          Nat.mul_le_mul_right _ hi
      _ = s.packetBytes * s.packets.packed.length := Nat.mul_comm _ _
      _ ≤ s.packets.stream.length := h.consumed
  · rw [hbytes]
    exact h.cut
  · intro f hf
    cases hf
  · simp [Bridge.extend]

end Steps

/-! ## The sources never run short -/

section NoUnderrun

variable {ε α β : Type}

/-- Whatever stops the computation, it is not the queue of sources. -/
def NoUnderrun (x : Except ProducerError α) : Prop := ∀ e, x = .error e → e ≠ .packets underrun

theorem noUnderrun_ok (a : α) : NoUnderrun (Except.ok a) := nofun

theorem noUnderrun_liftError {f : ε → ProducerError} (hf : ∀ e, f e ≠ .packets underrun)
    (x : Except ε α) : NoUnderrun (liftError f x) := by
  intro e h
  cases x with
  | error cause =>
      obtain rfl : f cause = e := by simpa [liftError, Except.mapError] using h
      exact hf cause
  | ok a => cases h

theorem NoUnderrun.bind {x : Except ProducerError α} {f : α → Except ProducerError β}
    (hx : NoUnderrun x) (hf : ∀ a, NoUnderrun (f a)) : NoUnderrun (x >>= f) := by
  intro e h
  cases x with
  | error cause =>
      obtain rfl : cause = e := by simpa [Bind.bind, Except.bind] using h
      exact hx cause rfl
  | ok a => exact hf a e h

theorem noUnderrun_mapM {f : α → Except ProducerError β} (hf : ∀ a, NoUnderrun (f a))
    (xs : List α) : NoUnderrun (xs.mapM f) := by
  induction xs with
  | nil => exact noUnderrun_ok []
  | cons x xs ih =>
      rw [List.mapM_cons]
      exact (hf x).bind fun y => ih.bind fun ys => noUnderrun_ok (y :: ys)

theorem noUnderrun_observeChunk (env : BridgeEnv) (s : Bridge) (message : ProviderAudio)
    (receivedAt : Datetime) (receivedMonotonic : ℚ) :
    NoUnderrun (s.observeChunk env message receivedAt receivedMonotonic) := by
  unfold Bridge.observeChunk
  split
  · intro e h
    cases h
    simp
  · exact (noUnderrun_liftError (by simp) _).bind fun rms =>
      (noUnderrun_liftError (by simp) _).bind fun quality => noUnderrun_ok _

theorem noUnderrun_processAudio (env : BridgeEnv) (s : Bridge) (message : ProviderAudio) :
    NoUnderrun (s.processAudio env message) := by
  have hmake : NoUnderrun ((liftError .pcm (Rates.make message.sampleRate s.audio.telephonyRate)).map
      fun rates => (⟨rates, {}⟩ : Σ rates : Rates, Pcm16MonoStreamResampler rates)) :=
    (noUnderrun_liftError (by simp) _).bind fun rates => noUnderrun_ok _
  have hresampler : NoUnderrun (s.resamplerFor message.sampleRate) := by
    unfold Bridge.resamplerFor
    dsimp only
    split
    · split
      · exact noUnderrun_ok _
      · exact hmake
    · exact hmake
  have hlevel : ∀ resampled, NoUnderrun (Bridge.levelAudio env resampled) := by
    intro resampled
    unfold Bridge.levelAudio
    split
    · exact noUnderrun_ok none
    · exact (noUnderrun_liftError (by simp) _).bind fun agc =>
        (noUnderrun_liftError (by simp) _).bind fun limited => noUnderrun_ok _
  exact hresampler.bind fun resampler => (noUnderrun_liftError (by simp) _).bind fun processed =>
    (hlevel processed.1).bind fun limited => noUnderrun_ok _

theorem noUnderrun_frameEvent (control : BargeInControl) (ctx : EvidenceContext)
    (o : PlaybackFrameObservation) : NoUnderrun (control.frameEvent ctx o) := by
  unfold BargeInControl.frameEvent
  split
  · exact noUnderrun_ok _
  · intro e h
    cases h
    simp [underrun]

theorem noUnderrun_partialEvent (control : BargeInControl) (ctx : EvidenceContext)
    (pcm : List UInt8) (window : ProviderAudioSourceWindow) (rms : ℚ) (signalBearing : Bool) :
    NoUnderrun (control.partialEvent ctx pcm window rms signalBearing) := by
  unfold BargeInControl.partialEvent
  refine (noUnderrun_liftError (by simp) _).bind fun quality => ?_
  split
  · exact noUnderrun_ok _
  · intro e h
    cases h
    simp [underrun]

theorem noUnderrun_evidence (env : BridgeEnv) (s : Bridge) (b : BargeInProgress)
    (audio : PartialAudio) (writtenAudioMs : ℚ) (frames : List TracedFrame) :
    NoUnderrun (s.evidence env b audio writtenAudioMs frames) := by
  unfold Bridge.evidence BargeInControl.observeBargeInAudioEvidence
  refine (noUnderrun_mapM (noUnderrun_frameEvent _ _) _).bind fun frameEvents =>
    NoUnderrun.bind ?_ fun rms => NoUnderrun.bind ?_ fun partialEvents => noUnderrun_ok _
  · unfold BargeInControl.partialRms
    split
    · exact noUnderrun_ok 0
    · exact noUnderrun_liftError (by simp) _
  · unfold BargeInControl.partialEvents
    split
    · split
      · exact noUnderrun_ok []
      · exact NoUnderrun.bind (noUnderrun_partialEvent _ _ _ _ _ _) fun event =>
          noUnderrun_ok [event]
    · exact noUnderrun_ok []

end NoUnderrun

/-! ## The audio path -/

section AudioPath

variable {env : BridgeEnv} {s : Bridge}

theorem chunkOrdinal_setItem (item : Option (String × ℤ)) :
    (s.setItem item).chunkOrdinal = s.chunkOrdinal := by
  unfold Bridge.setItem
  split <;> rfl

theorem producer_setItem (item : Option (String × ℤ)) :
    (s.setItem item).producer = s.producer := by
  unfold Bridge.setItem
  split <;> rfl

theorem packets_setItem (s : Bridge) (item : Option (String × ℤ)) :
    (s.setItem item).packets = {} ∨ (s.setItem item).packets = s.packets := by
  unfold Bridge.setItem
  split
  · exact .inl rfl
  · exact .inr rfl

theorem Packed.fail (h : Packed env s) {e : ProducerError} (he : e ≠ .packets underrun) :
    Packed env (s.fail e) := by
  refine h.keep rfl rfl le_rfl ?_ ?_
  · simp [Bridge.fail, Bridge.endProducer, ProducerPhase.frame?]
  · simpa [Bridge.fail, Bridge.endProducer] using he

theorem Packed.setItem (h : Packed env s) (hproducer : s.producer = .receiving)
    (item : Option (String × ℤ)) : Packed env (s.setItem item) := by
  have hphase : (s.setItem item).producer = .receiving := by rw [producer_setItem, hproducer]
  rcases packets_setItem s item with hcleared | hkept
  · apply Packed.of_cleared hcleared
    · rw [hphase]
      rfl
    · simp [hphase]
  · refine h.keep (telephonyRate_setItem s item) hkept (chunkOrdinal_setItem item).ge ?_ ?_
    · simp [hphase, ProducerPhase.frame?]
    · simp [hphase]

/-- A message with audio: an ordinal of its own, then perhaps a clearing, then its bytes. -/
theorem Packed.receiveAudio (h : Packed env s) (hproducer : s.producer = .receiving)
    (message : ProviderAudio) (receivedAt : Datetime) (receivedMonotonic : ℚ) :
    Packed env (s.receiveAudio env message receivedAt receivedMonotonic) := by
  unfold Bridge.receiveAudio
  split
  · exact h.fail (by simp)
  · dsimp only
    have hcount : Packed env { s with chunkOrdinal := s.chunkOrdinal + 1 } := by
      refine h.keep rfl rfl (Nat.le_succ _) ?_ ?_
      · intro f hf
        exact hf
      · exact h.noUnderrun
    cases hchunk : { s with chunkOrdinal := s.chunkOrdinal + 1 }.observeChunk env message receivedAt
        receivedMonotonic with
    | error e => exact hcount.fail (noUnderrun_observeChunk env _ message _ _ e hchunk)
    | ok observation =>
        dsimp only
        -- the chunk is new to the queue, whether or not the queue is cleared
        generalize hs' : Bridge.setItem _ message.item = s'
        have hitem : Packed env s' := by
          rw [← hs']
          refine Packed.setItem ?_ ?_ message.item
          · refine hcount.keep rfl rfl le_rfl ?_ ?_
            · intro f hf
              exact hf
            · exact h.noUnderrun
          · exact hproducer
        have hordinal : s'.chunkOrdinal = s.chunkOrdinal + 1 := by
          rw [← hs', chunkOrdinal_setItem]
        have hnew : ∀ source ∈ s'.packets.packetSources,
            source.chunkOrdinal < s'.chunkOrdinal := by
          intro source hsource
          rw [hordinal]
          rw [← hs'] at hsource
          rcases packets_setItem _ message.item with hcleared | hkept
          · rw [hcleared] at hsource
            cases hsource
          · rw [hkept] at hsource
            exact Nat.lt_succ_of_le (h.bounded source hsource)
        cases hprocess : s'.processAudio env message with
        | error e => exact hitem.fail (noUnderrun_processAudio env _ message e hprocess)
        | ok result =>
            obtain ⟨processed, resampler⟩ := result
            dsimp only
            have hresampler : Packed env { s' with resampler := some resampler } := by
              refine hitem.keep rfl rfl le_rfl ?_ ?_
              · intro f hf
                exact hf
              · exact hitem.noUnderrun
            cases processed with
            | none => exact hresampler
            | some limited =>
                obtain ⟨hne, heven⟩ := processAudio_spec hprocess
                exact hresampler.extend hne heven hnew receivedAt receivedMonotonic

/-- The next slice of what waits becomes a frame. -/
theorem Packed.cutFrame (h : Packed env s) {s' : Bridge} {f : TracedFrame}
    {rest : List BufferedProviderAudioSource} (hwaiting : s.packetBytes ≤ s.waiting.length)
    (hf : f.Cut env s.packetBytes) (horigin : f.origin = s.waiting.take s.packetBytes)
    (hsources : SourcesOk rest)
    (hrest : chunkTags rest = (chunkTags s.packets.packetSources).drop s.packetBytes)
    (hbounded : ∀ source ∈ rest, source.chunkOrdinal ≤ s.chunkOrdinal)
    (hrate : s'.audio.telephonyRate = s.audio.telephonyRate)
    (hordinal : s'.chunkOrdinal = s.chunkOrdinal) (hproducer : s'.producer = .putting f)
    (hpackets : s'.packets =
      { packetBuffer := s.packets.packetBuffer.drop s.packetBytes
        packetSources := rest
        stream := s.packets.stream
        packed := s.packets.packed ++ [f] }) : Packed env s' := by
  have hbytes := packetBytes_eq hrate
  -- what waits is the stream without the frames cut before and the new one
  have hdrop : s'.waiting = s.waiting.drop s.packetBytes := by
    rw [Bridge.waiting, hbytes, hpackets, List.length_append, List.length_singleton, Nat.mul_succ,
      ← List.drop_drop]
    rfl
  have hlength : s.waiting.length =
      s.packets.stream.length - s.packetBytes * s.packets.packed.length := List.length_drop
  constructor
  · rwa [hpackets]
  · rwa [hpackets, hordinal]
  · have hconsumed := h.consumed
    rw [hbytes, hpackets, List.length_append, List.length_singleton, Nat.mul_succ]
    dsimp only
    omega
  · rw [hdrop, hpackets, List.map_drop, ← h.buffer]
  · rw [hdrop, hpackets, List.map_drop, ← h.tags, ← hrest]
  · have heven := h.even
    have hpacket : s.packetBytes % 2 = 0 := Nat.mul_mod_left _ 2
    rw [hpackets, List.length_drop]
    omega
  · intro i f' hf'
    rw [hpackets] at hf' ⊢
    rw [hbytes]
    rcases Nat.lt_trichotomy i s.packets.packed.length with hlt | heq | hgt
    · rw [List.getElem?_append_left hlt] at hf'
      exact h.slices i f' hf'
    · subst heq
      obtain rfl : f = f' := by simpa using hf'
      rw [horigin, Bridge.waiting, slice, Nat.mul_comm]
    · rw [List.getElem?_eq_none (by rw [List.length_append]; exact hgt)] at hf'
      cases hf'
  · intro f' hf'
    rw [hbytes]
    rw [hpackets] at hf'
    rcases List.mem_append.mp hf' with hf' | hf'
    · exact h.cut f' hf'
    · obtain rfl := List.mem_singleton.mp hf'
      exact hf
  · intro f' hf'
    rw [hproducer] at hf'
    obtain rfl : f = f' := by simpa [ProducerPhase.frame?] using hf'
    rw [hpackets]
    simp
  · simp [hproducer]

/-- A round of the loop cuts a frame, or too little waits for one. -/
theorem Packed.pack (h : Packed env s) (enqueuedAt : Datetime) (enqueuedMonotonic : ℚ) :
    Packed env (s.pack env enqueuedAt enqueuedMonotonic) := by
  unfold Bridge.pack
  split
  · refine h.keep rfl rfl le_rfl ?_ ?_
    · simp [ProducerPhase.frame?]
    · simp
  · rename_i hlength
    by_cases hzero : s.packetBytes = 0
    · -- packets of no bytes cannot be consumed
      simp only [consumeBufferedSources, hzero, if_true]
      exact h.fail (by simp [underrun])
    have hpos : 0 < s.packetBytes := Nat.pos_of_ne_zero hzero
    have hwaiting : s.packetBytes ≤ s.waiting.length := by
      rw [h.buffer, List.length_map] at hlength
      omega
    have htags : s.packetBytes ≤ (chunkTags s.packets.packetSources).length := by
      rwa [h.tags, List.length_map]
    obtain ⟨window, rest, hconsume, hcovers, hrest, hsources, hsublist⟩ :=
      consumeBufferedSources_spec h.sources hpos htags
    have hbounded : ∀ source ∈ rest, source.chunkOrdinal ≤ s.chunkOrdinal := by
      intro source hsource
      have hmem := hsublist.subset (List.mem_map_of_mem hsource)
      obtain ⟨source', hsource', hordinal⟩ := List.mem_map.mp hmem
      exact hordinal ▸ h.bounded source' hsource'
    have hpayload : s.packets.packetBuffer.take s.packetBytes =
        (s.waiting.take s.packetBytes).map Prod.snd := by
      rw [h.buffer, List.map_take]
    rw [hconsume]
    dsimp only
    cases hrms : pcmS16leRms env.math (s.packets.packetBuffer.take s.packetBytes) with
    | error e => exact h.fail (by simp)
    | ok outputRms =>
        cases hquality : pcmS16leQuality env.math (s.packets.packetBuffer.take s.packetBytes) with
        | error e => exact h.fail (by simp)
        | ok quality =>
            dsimp only
            refine h.cutFrame hwaiting ?_ rfl hsources hrest hbounded rfl rfl rfl rfl
            constructor
            · exact hpayload
            · exact List.length_take_of_le hwaiting
            · apply List.ne_nil_of_length_pos
              rwa [List.length_take_of_le hwaiting]
            · refine ⟨_, rfl, ?_, hrms, rfl⟩
              rwa [List.map_take, ← h.tags]

end AudioPath

/-! ## Every step -/

section Run

variable {env : BridgeEnv} {s : Bridge}

/-- A barge-in starts with an empty packet buffer. -/
theorem Packed.clear (b : BargeInProgress) (position : Option PlaybackPosition)
    (requested : Bool) (ts now : Datetime) :
    Packed env (s.clear b position requested ts now) := by
  apply Packed.of_cleared
  · rfl
  · rfl
  · simp [Bridge.clear]

theorem Packed.drain (h : Packed env s) (b : BargeInProgress)
    (position : Option PlaybackPosition) (audio : PartialAudio) (writtenAudioMs : ℚ)
    (cleared completed : Datetime) :
    Packed env (s.drain env b position audio writtenAudioMs cleared completed) := by
  unfold Bridge.drain
  dsimp only
  have hdrained : Packed env { s with playback := s.playback.drain.2 } := by
    refine h.keep rfl rfl le_rfl ?_ h.noUnderrun
    intro f hf
    exact hf
  split
  · rename_i e herror
    exact hdrained.fail (noUnderrun_evidence env _ b audio writtenAudioMs _ e herror)
  · refine hdrained.keep rfl rfl le_rfl ?_ ?_
    · simp [ProducerPhase.frame?]
    · simp

/-- The steps of the pump. -/
theorem Packed.of_pump (h : Packed env s) {s' : Bridge}
    (hrate : s'.audio.telephonyRate = s.audio.telephonyRate) (hpackets : s'.packets = s.packets)
    (hordinal : s'.chunkOrdinal = s.chunkOrdinal) (hproducer : s'.producer = s.producer) :
    Packed env s' := by
  refine h.keep hrate hpackets hordinal.ge ?_ ?_
  · rw [hproducer]
    exact fun f hf => hf
  · rw [hproducer]
    exact h.noUnderrun

theorem packed_next (l : BridgeStep) (h : Packed env s) : Packed env (s.next env l) := by
  have hrate := @telephonyRate_next env s l
  have heffect := bridgeEffect_next env s l
  generalize s.next env l = s' at hrate heffect
  cases heffect with
  | ignored => exact h
  | receiveAudio hproducer message receivedAt receivedMonotonic =>
      exact h.receiveAudio hproducer message receivedAt receivedMonotonic
  | pack hproducer enqueuedAt enqueuedMonotonic => exact h.pack enqueuedAt enqueuedMonotonic
  | put hproducer =>
      refine h.keep rfl rfl le_rfl ?_ ?_
      · simp [Bridge.put, ProducerPhase.frame?]
      · simp [Bridge.put]
  | inputSpeechStopped hproducer now => exact h.of_pump hrate rfl rfl rfl
  | beginBargeIn hproducer trigger receivedAt receivedMonotonic now =>
      refine h.keep hrate rfl le_rfl ?_ ?_
      · simp [Bridge.beginBargeIn, ProducerPhase.frame?]
      · simp [Bridge.beginBargeIn]
  | truncate hproducer path ts now =>
      refine h.keep rfl rfl le_rfl ?_ ?_
      · simp [Bridge.truncate, ProducerPhase.frame?]
      · simp [Bridge.truncate]
  | clear hproducer requested ts now => exact Packed.clear _ _ requested ts now
  | drain hproducer cleared completed => exact h.drain _ _ _ _ cleared completed
  | streamEnds =>
      refine h.keep rfl rfl le_rfl ?_ ?_
      · simp [Bridge.endProducer, ProducerPhase.frame?]
      · simp [Bridge.endProducer]
  | fail => exact h.fail (by simp)
  | take hpump =>
      unfold Bridge.take
      split
      · exact h.of_pump rfl rfl rfl rfl
      · exact h
  | written hpump nowMonotonic now => exact h.of_pump hrate rfl rfl rfl
  | playedOut hpump nowMonotonic now => exact h.of_pump rfl rfl rfl rfl
  | outputEnds now => exact h.of_pump hrate rfl rfl rfl
  | failOutput => exact h.of_pump rfl rfl rfl rfl

theorem packed_reachable (hs : (bridgeMachine env).Reachable s) : Packed env s := by
  refine hs.invariant ?_ fun s l _ h => packed_next l h
  rintro s ⟨audio, -, rfl⟩
  exact Packed.of_cleared rfl rfl (by simp)

end Run

/-! ## Accounting -/

/-- The frame has the `i`-th slice of the stream, and the chunks that gave bytes to it, in
order. -/
def TracedFrame.Carries (m i : ℕ) (stream : List (ℕ × UInt8)) (f : TracedFrame) : Prop :=
  f.frame.payload = (slice m i stream).map Prod.snd ∧ f.frame.payload.length = m ∧
    ∃ o, f.frame.playbackObservation = some o ∧ o.sourceWindow.chunkOrdinals.Pairwise (· < ·) ∧
      ∀ ordinal, ordinal ∈ o.sourceWindow.chunkOrdinals ↔
        ∃ byte, (ordinal, byte) ∈ slice m i stream

theorem Packed.carries {env : BridgeEnv} {s : Bridge} (h : Packed env s) {i : ℕ}
    {f : TracedFrame} (hf : s.packets.packed[i]? = some f) :
    f.Carries s.packetBytes i s.packets.stream := by
  have horigin := h.slices i f hf
  obtain ⟨hpayload, hsize, -, o, ho, hcovers, -⟩ := h.cut f (List.mem_of_getElem? hf)
  refine ⟨horigin ▸ hpayload, ?_, o, ho, hcovers.1, ?_⟩
  · rw [hpayload, List.length_map, hsize]
  · intro ordinal
    rw [hcovers.2 ordinal, ← horigin, List.mem_map]
    simp

/-- Whatever the provider sends, the sources account for every byte of the packet buffer and
never run short. The frames of one stream carry its consecutive slices, the frame about to
enter the queue the last of them; the packet buffer has the rest. -/
theorem packetization {env : BridgeEnv} {s : Bridge} (hs : (bridgeMachine env).Reachable s) :
    (s.packets.packetSources.map BufferedProviderAudioSource.remainingBytes).sum =
        s.packets.packetBuffer.length ∧
      s.producer ≠ .ended (some (.packets underrun)) ∧
      s.packets.packetBuffer =
        (s.packets.stream.drop (s.packetBytes * s.packets.packed.length)).map Prod.snd ∧
      (∀ (i : ℕ) (f : TracedFrame), s.packets.packed[i]? = some f →
        f.Carries s.packetBytes i s.packets.stream) ∧
      ∀ f, s.producer = .putting f → s.packets.packed.getLast? = some f := by
  have hpacked := packed_reachable hs
  refine ⟨?_, hpacked.noUnderrun, hpacked.buffer, fun i f hf => hpacked.carries hf, ?_⟩
  · rw [← length_chunkTags, hpacked.tags, hpacked.buffer, List.length_map, List.length_map]
  · intro f hf
    exact hpacked.putting f (by rw [hf]; rfl)

/-- Two silent chunks, neither of which is enough for a packet. -/
def silentChunks : List BridgeStep :=
  [.receiveAudio ⟨List.replicate 200 0, 8000, 1, "pcm16", none, none⟩ (.utc 0) 0,
    .pack (.utc 0) 0,
    .receiveAudio ⟨List.replicate 200 0, 8000, 1, "pcm16", none, none⟩ (.utc 1) 1,
    .pack (.utc 1) 1]

/-- The call with those chunks, where silence needs no mathematics. -/
def silentCall : Bridge :=
  (bridgeMachine { math := ⟨id, id⟩ }).exec { audio := .initial "a" "b" } silentChunks

theorem packetization_silentCall :
    silentCall.packets.packetBuffer.length = 80 ∧ silentCall.packets.packed.length = 1 ∧
      ∀ f, silentCall.packets.packed[0]? = some f →
        f.Carries silentCall.packetBytes 0 silentCall.packets.stream := by
  have hreachable : (bridgeMachine { math := ⟨id, id⟩ }).Reachable silentCall :=
    ⟨_, silentChunks, ⟨_, rfl, rfl⟩, Machine.along_true _ _, rfl⟩
  have hpackets := packetization hreachable
  exact ⟨by decide +kernel, by decide +kernel, hpackets.2.2.2.1 0⟩

end VoxBench.Telephony
