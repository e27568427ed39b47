import VoxBench.Lib.Machine
import VoxBench.Telephony.BargeIn
import VoxBench.Telephony.PlaybackBuffer

/-!
# The bridge between a provider and the socket

`_produce_provider_audio` works through the messages of the provider and puts frames into the
playback buffer; `_pump_output` takes them out, writes them to the socket and reports them to
the session. The machine has both, cut where they wait for something: the producer before
each `put`, in a barge-in for the provider to be interrupted, for the truncation and for the
lock of the queue; the pump for a frame, for its write and for its duration.

A frame carries, beside what the source has in it, the bytes that it was cut from with the
chunks they belong to. The state also keeps what has happened: the processed audio since the
buffer was last cleared, the provider items that were left, and the positions that were
written and played.

An exception that does not come from the audio is the step `fail`. Stage audio and metrics that
the producer only observes are left out.

## Main definitions

* `Bridge.receiveAudio`, `pack`, `put` — the audio path of the producer.
* `Bridge.beginBargeIn`, `truncate`, `clear`, `drain` — a barge-in.
* `Bridge.take`, `written`, `playedOut` — the pump.
* `bridgeMachine` — the steps of both tasks in any order.
* `BridgeEffect` — what each step can do.
-/

namespace VoxBench.Telephony

open VoxBench.Lib VoxBench.ControlPlane VoxBench.Media VoxBench.Observability

/-! ## Messages and frames -/

/-- `AudioChunk` of a provider. -/
structure ProviderAudio where
  pcm : List UInt8
  sampleRate : ℤ
  channels : ℤ := 1
  encoding : String := "pcm16"
  itemId : Option String := none
  contentIndex : Option ℤ := none
  deriving DecidableEq, Repr

/-- The provider item of a message. -/
def ProviderAudio.item (message : ProviderAudio) : Option (String × ℤ) :=
  match message.itemId, message.contentIndex with
  | some itemId, some contentIndex => some (itemId, contentIndex)
  | _, _ => none

/-- A frame, and the processed bytes that it was cut from, each with its chunk. -/
structure TracedFrame where
  frame : OutputFrame
  origin : List (ℕ × UInt8)
  deriving DecidableEq, Repr

/-- The playback position of a frame. -/
def TracedFrame.position (f : TracedFrame) : Option PlaybackPosition := f.frame.playbackPosition

/-- A `put` notes the depth of the queue in the observation of the frame. -/
def TracedFrame.noteDepth (depth : ℕ) (f : TracedFrame) : TracedFrame :=
  { f with frame := { f.frame with
      playbackObservation := f.frame.playbackObservation.map fun o =>
        { o with queueDepthAfterEnqueue := depth } } }

/-! ## State -/

/-- How the provider was interrupted. -/
inductive InterruptPath where
  | providerInterrupted
  | providerAuto
  | providerRequest
  | unobserved
  deriving DecidableEq, Repr

def InterruptPath.text : InterruptPath → String
  | .providerInterrupted => "provider-interrupted"
  | .providerAuto => "provider-auto"
  | .providerRequest => "provider-request"
  | .unobserved => "unobserved"

/-- A barge-in in progress; `step` numbers its next event. -/
structure BargeInProgress where
  correlationAlias : String
  receivedAt : Datetime
  receivedMonotonic : ℚ
  step : ℕ
  interruptPath : InterruptPath := .unobserved
  deriving DecidableEq, Repr

/-- What a barge-in has taken off the packet buffer, with its origin. -/
structure PartialAudio where
  pcm : List UInt8
  window : Option ProviderAudioSourceWindow
  origin : List (ℕ × UInt8)
  deriving DecidableEq, Repr

/-- Where the producer waits. -/
inductive ProducerPhase where
  | receiving
  /-- In the loop that cuts packets. -/
  | packing
  | putting (frame : TracedFrame)
  | interrupting (b : BargeInProgress)
  | truncating (b : BargeInProgress) (position : Option PlaybackPosition)
  | draining (b : BargeInProgress) (position : Option PlaybackPosition) (audio : PartialAudio)
      (writtenAudioMs : ℚ)
  | ended (error : Option ProducerError)
  deriving DecidableEq, Repr

/-- The frame between the packet buffer and the queue. -/
def ProducerPhase.frame? : ProducerPhase → Option TracedFrame
  | .putting frame => some frame
  | _ => none

/-- Where the pump waits. -/
inductive PumpPhase where
  | idle
  | writing (frame : TracedFrame)
  | playing (frame : TracedFrame)
  | ended
  deriving DecidableEq, Repr

/-- What waits for a packet, beside the processed audio that it comes from. -/
structure PacketState where
  packetBuffer : List UInt8 := []
  packetSources : List BufferedProviderAudioSource := []
  /-- The processed audio since the packet buffer was last cleared. -/
  stream : List (ℕ × UInt8) := []
  /-- The frames cut since then. -/
  packed : List TracedFrame := []
  deriving DecidableEq, Repr

structure Bridge where
  audio : CallAudio
  resampler : Option (Σ rates : Rates, Pcm16MonoStreamResampler rates) := none
  chunkOrdinal : ℕ := 0
  frameOrdinal : ℕ := 0
  recentChunks : List ProviderAudioChunkObservation := []
  packets : PacketState := {}
  playback : PlaybackBuffer TracedFrame := {}
  producer : ProducerPhase := .receiving
  pump : PumpPhase := .idle
  events : List TimelineEvent := []
  /-- The provider items that were left. -/
  left : List (String × ℤ) := []
  /-- The positions of the frames written to the socket. -/
  writtenPositions : List PlaybackPosition := []
  /-- The positions of the frames marked as played since the last barge-in. -/
  playedPositions : List PlaybackPosition := []

/-- What does not change in a call: the mathematics, the audio settings and the alias of the
output stream. -/
structure BridgeEnv where
  math : FloatMath
  settings : LoopbackSettings := {}
  streamAlias : String := "provider-output"

namespace Bridge

variable (env : BridgeEnv) (s : Bridge)

/-- The bytes of a packet: `round(telephony_rate * 0.02) * 2`. -/
def packetBytes : ℕ := (roundHalfEven ((s.audio.telephonyRate : ℚ) / 50)).toNat * 2

/-- The processed audio that waits for a packet. -/
def waiting : List (ℕ × UInt8) :=
  s.packets.stream.drop (s.packetBytes * s.packets.packed.length)

/-- The producer ends, and closes the playback buffer. -/
def endProducer (e : Option ProducerError) : Bridge :=
  { s with producer := .ended e, playback := s.playback.close }

/-- The producer is stopped by an exception. -/
def fail (e : ProducerError) : Bridge := s.endProducer (some e)

/-- The session goes on as `result` and observes its events. -/
def observing (result : CallAudio × List TimelineEvent) : Bridge :=
  { s with audio := result.1, events := s.events ++ result.2 }

/-! ## The audio path of the producer -/

/-- The observation of a provider chunk. -/
def observeChunk (message : ProviderAudio) (receivedAt : Datetime) (receivedMonotonic : ℚ) :
    Except ProducerError ProviderAudioChunkObservation := do
  if message.sampleRate = 0 then throw .zeroDivision
  let rms ← liftError .observer (pcmS16leRms env.math message.pcm)
  let (_, _, silencePct) ← liftError .observer (pcmS16leQuality env.math message.pcm)
  return {
    ordinal := s.chunkOrdinal, receivedAt, receivedMonotonic,
    durationMs := message.pcm.length / (2 * message.sampleRate) * 1000, rms,
    silenceSamplePct := silencePct, signalBearing := env.settings.noiseFloor < rms }

/-- A new item clears the packet buffer and starts a new resampler. -/
def setItem (item : Option (String × ℤ)) : Bridge :=
  if item ≠ s.audio.positions.currentItem then
    { s with
      packets := {}
      audio := { s.audio with positions := s.audio.positions.setItem item }
      resampler := none
      left := s.left ++ s.audio.positions.currentItem.toList }
  else s

/-- The resampler for the rate of a message. -/
def resamplerFor (sampleRate : ℤ) :
    Except ProducerError (Σ rates : Rates, Pcm16MonoStreamResampler rates) :=
  let make := (liftError .pcm (Rates.make sampleRate s.audio.telephonyRate)).map fun rates =>
    (⟨rates, {}⟩ : Σ rates : Rates, Pcm16MonoStreamResampler rates)
  match s.resampler with
  | some resampler => if (resampler.1.inputRate : ℤ) = sampleRate then .ok resampler else make
  | none => make

/-- Gain control and limiter, unless the resampler returned nothing. -/
def levelAudio (resampled : List UInt8) : Except ProducerError (Option (List UInt8)) :=
  if resampled = [] then .ok none
  else do
    let (agcOutput, _) ← liftError .observer (applyAgc env.math env.settings resampled)
    let limited ← liftError .observer (applyLimiter env.settings agcOutput)
    return some limited

/-- The processed audio, if any, and the resampler afterwards. -/
def processAudio (message : ProviderAudio) : Except ProducerError
    (Option (List UInt8) × Σ rates : Rates, Pcm16MonoStreamResampler rates) := do
  let ⟨rates, resampler⟩ ← s.resamplerFor message.sampleRate
  let (resampled, resampler) ← liftError .pcm (resampler.process message.pcm)
  let limited ← levelAudio env resampled
  return (limited, ⟨rates, resampler⟩)

/-- The processed audio of the current chunk joins the packet buffer. -/
def extend (limited : List UInt8) (receivedAt : Datetime) (receivedMonotonic : ℚ) : Bridge :=
  { s with
    packets :=
      { packetBuffer := s.packets.packetBuffer ++ limited
        packetSources := s.packets.packetSources ++
          [{ chunkOrdinal := s.chunkOrdinal, receivedAt, receivedMonotonic,
             remainingBytes := limited.length }]
        stream := s.packets.stream ++ limited.map fun byte => (s.chunkOrdinal, byte)
        packed := s.packets.packed }
    producer := .packing }

/-- A message with audio, up to the loop that cuts packets. -/
def receiveAudio (message : ProviderAudio) (receivedAt : Datetime) (receivedMonotonic : ℚ) :
    Bridge :=
  if message.encoding ≠ "pcm16" ∨ message.channels ≠ 1 then
    s.fail (.valueError "provider output must be mono pcm16")
  else
    let s := { s with chunkOrdinal := s.chunkOrdinal + 1 }
    match s.observeChunk env message receivedAt receivedMonotonic with
    | .error e => s.fail e
    | .ok observation =>
        let s := { s with recentChunks := lastSlice 256 (s.recentChunks ++ [observation]) }
        let s := s.setItem message.item
        match s.processAudio env message with
        | .error e => s.fail e
        | .ok (processed, resampler) =>
            let s := { s with resampler := some resampler }
            match processed with
            | some limited => s.extend limited receivedAt receivedMonotonic
            | none => s

/-- A round of the loop that cuts packets. -/
def pack (enqueuedAt : Datetime) (enqueuedMonotonic : ℚ) : Bridge :=
  if s.packets.packetBuffer.length < s.packetBytes then { s with producer := .receiving }
  else
    let payload := s.packets.packetBuffer.take s.packetBytes
    match consumeBufferedSources s.packets.packetSources s.packetBytes with
    | .error e => s.fail (.packets e)
    | .ok (sourceWindow, packetSources) =>
        let (playbackPosition, positions) := s.audio.positions.next
        match pcmS16leRms env.math payload, pcmS16leQuality env.math payload with
        | .ok outputRms, .ok quality =>
            let frame : TracedFrame :=
              { frame :=
                  { frameType := 0x10, payload, playbackPosition
                    playbackObservation := some
                      { frameOrdinal := s.frameOrdinal + 1, sourceWindow, enqueuedAt,
                        enqueuedMonotonic, outputRms, silenceSamplePct := quality.2.2,
                        signalBearing := env.settings.noiseFloor < outputRms } }
                origin := s.waiting.take s.packetBytes }
            { s with
              packets :=
                { packetBuffer := s.packets.packetBuffer.drop s.packetBytes
                  packetSources
                  stream := s.packets.stream
                  packed := s.packets.packed ++ [frame] }
              audio := { s.audio with positions }
              frameOrdinal := s.frameOrdinal + 1
              producer := .putting frame }
        | .error e, _ | _, .error e => s.fail (.observer e)

/-- `playback.put`. -/
def put (frame : TracedFrame) : Bridge :=
  { s with
    playback := (s.playback.put TracedFrame.noteDepth frame).2
    producer := .packing }

/-! ## A barge-in -/

/-- The beginning of a barge-in, until the provider is interrupted. -/
def beginBargeIn (trigger : BargeInTrigger) (receivedAt : Datetime) (receivedMonotonic : ℚ)
    (now : Datetime) : Bridge :=
  { s.observing (s.audio.beginBargeIn trigger receivedAt now) with
    producer := .interrupting
      { correlationAlias := s.audio.bargeInAlias (s.audio.speech.bargeInSequence + 1)
        receivedAt, receivedMonotonic, step := 2 } }

/-- The event of an interruption that was seen. -/
def interruptEvent (b : BargeInProgress) (path : InterruptPath) (ts : Datetime) :
    List TimelineEvent :=
  match path with
  | .providerAuto =>
      [CallAudio.bargeInEvent b.correlationAlias b.step "provider_auto_interrupt_confirmed"
        .provider none [] ts]
  | .providerRequest =>
      [CallAudio.bargeInEvent b.correlationAlias b.step "provider_interrupt_requested"
        .provider none [] ts]
  | .providerInterrupted | .unobserved => []

/-- The provider is interrupted, and the position for `truncate_audio` is taken. -/
def truncate (b : BargeInProgress) (path : InterruptPath) (ts : Datetime) (now : ℚ) : Bridge :=
  let events := interruptEvent b path ts
  { s with
    events := s.events ++ events
    producer := .truncating { b with step := b.step + events.length, interruptPath := path }
      (s.audio.positions.truncatePosition now) }

/-- The truncation was requested or not; the playback ends, the positions are reset and the
packet buffer is cleared. -/
def clear (b : BargeInProgress) (position : Option PlaybackPosition) (requested : Bool)
    (ts now : Datetime) : Bridge :=
  let events :=
    match position with
    | some position =>
        if requested then
          [CallAudio.bargeInEvent b.correlationAlias b.step "provider_truncate_requested"
            .provider none [("played_audio_end_ms", .int position.audioEndMs)] ts]
        else []
    | none => []
  let audio : PartialAudio :=
    { pcm := s.packets.packetBuffer
      window := bufferedSourceWindow s.packets.packetSources
      origin := s.waiting }
  { { s with events := s.events ++ events }.observing (s.audio.cutPlayback now) with
    resampler := none
    packets := {}
    left := s.left ++ s.audio.positions.currentItem.toList
    playedPositions := []
    producer := .draining { b with step := b.step + events.length } position audio
      s.audio.burst.writtenAudioMs }

/-- The evidence of a barge-in in progress. -/
def evidence (b : BargeInProgress) (audio : PartialAudio) (writtenAudioMs : ℚ)
    (frames : List TracedFrame) : Except ProducerError (List TimelineEvent × DiscardFigures) :=
  BargeInControl.observeBargeInAudioEvidence
    { correlationAlias := b.correlationAlias, receivedAt := b.receivedAt,
      receivedMonotonic := b.receivedMonotonic, writtenAudioMsBefore := writtenAudioMs }
    { math := env.math, noiseFloor := env.settings.noiseFloor,
      telephonyRate := s.audio.telephonyRate, streamAlias := env.streamAlias,
      recentChunks := s.recentChunks }
    (frames.map TracedFrame.frame) audio.pcm audio.window

/-- The attributes of the last event of a barge-in. -/
def completedAttributes (b : BargeInProgress) (position : Option PlaybackPosition)
    (writtenAudioMs : ℚ) (figures : DiscardFigures) : List (String × AttrValue) :=
  [("interrupt_path", .str b.interruptPath.text),
    ("played_audio_end_ms",
      match position with
      | some position => .int position.audioEndMs
      | none => .null),
    ("dropped_frames", .int figures.droppedFrames),
    ("discarded_audio_ms", .float figures.discardedAudioMs),
    ("discarded_signal_bearing_audio_ms", .float figures.discardedSignalBearingAudioMs),
    ("provider_chunks_last_30ms", .int figures.providerChunksLast30ms),
    ("provider_chunks_last_100ms", .int figures.providerChunksLast100ms),
    ("first_discarded_audio_lead_ms",
      match figures.firstDiscardedAudioLeadMs with
      | some lead => .float lead
      | none => .null),
    ("written_audio_ms_before_control", .float writtenAudioMs),
    ("remote_playout_observed", .bool false)]

/-- The playback queue is drained, and the barge-in is reported. -/
def drain (b : BargeInProgress) (position : Option PlaybackPosition) (audio : PartialAudio)
    (writtenAudioMs : ℚ) (cleared completed : Datetime) : Bridge :=
  let drained := s.playback.drain
  let s := { s with playback := drained.2 }
  match s.evidence env b audio writtenAudioMs drained.1 with
  | .error e => s.fail e
  | .ok (events, figures) =>
      { s with
        events := s.events ++ events ++
          [CallAudio.bargeInEvent b.correlationAlias b.step "playback_queue_cleared" .buffer
              (some "assistant_to_caller") figures.attributes cleared,
            CallAudio.bargeInEvent b.correlationAlias (b.step + 1) "barge_in_completed"
              .conversation (some "caller_to_assistant")
              (completedAttributes b position writtenAudioMs figures) completed]
        producer := .receiving }

/-! ## The pump -/

/-- `anext(stream)`: the oldest frame, if there is one. -/
def take : Bridge :=
  match s.playback.get with
  | (.returns (some frame), playback) => { s with playback, pump := .writing frame }
  | _ => s

/-- The frame is written to the socket, and `mark_output_started` is called. -/
def written (frame : TracedFrame) (nowMonotonic : ℚ) (now : Datetime) : Bridge :=
  { s.observing (s.audio.markOutputStarted frame.frame nowMonotonic now) with
    pump := .playing frame
    writtenPositions := s.writtenPositions ++ frame.position.toList }

/-- The duration of the frame is over, and `mark_output_played` is called. -/
def playedOut (frame : TracedFrame) (nowMonotonic : ℚ) (now : Datetime) : Bridge :=
  { s with
    audio := s.audio.markOutputPlayed frame.frame nowMonotonic now
    pump := .idle
    playedPositions := s.playedPositions ++ frame.position.toList }

end Bridge

/-! ## The machine -/

/-- A step of the producer or of the pump. -/
inductive BridgeStep where
  | receiveAudio (message : ProviderAudio) (receivedAt : Datetime) (receivedMonotonic : ℚ)
  | pack (enqueuedAt : Datetime) (enqueuedMonotonic : ℚ)
  | put
  | inputSpeechStopped (now : Datetime)
  | beginBargeIn (trigger : BargeInTrigger) (receivedAt : Datetime) (receivedMonotonic : ℚ)
      (now : Datetime)
  | truncate (path : InterruptPath) (ts : Datetime) (now : ℚ)
  | clear (requested : Bool) (ts now : Datetime)
  | drain (cleared completed : Datetime)
  | streamEnds
  /-- The producer is stopped by an exception of the provider or of the observer. -/
  | fail
  | take
  | written (nowMonotonic : ℚ) (now : Datetime)
  | playedOut (nowMonotonic : ℚ) (now : Datetime)
  | outputEnds (now : Datetime)
  /-- The pump is stopped by an exception. -/
  | failOutput

/-- A step that does not fit the phase of its task does nothing. -/
def Bridge.next (env : BridgeEnv) (s : Bridge) : BridgeStep → Bridge
  | .receiveAudio message receivedAt receivedMonotonic =>
      match s.producer with
      | .receiving => s.receiveAudio env message receivedAt receivedMonotonic
      | _ => s
  | .pack enqueuedAt enqueuedMonotonic =>
      match s.producer with
      | .packing => s.pack env enqueuedAt enqueuedMonotonic
      | _ => s
  | .put =>
      match s.producer with
      | .putting frame => s.put frame
      | _ => s
  | .inputSpeechStopped now =>
      match s.producer with
      | .receiving => s.observing (s.audio.inputSpeechStopped now)
      | _ => s
  | .beginBargeIn trigger receivedAt receivedMonotonic now =>
      match s.producer with
      | .receiving => s.beginBargeIn trigger receivedAt receivedMonotonic now
      | _ => s
  | .truncate path ts now =>
      match s.producer with
      | .interrupting b => s.truncate b path ts now
      | _ => s
  | .clear requested ts now =>
      match s.producer with
      | .truncating b position => s.clear b position requested ts now
      | _ => s
  | .drain cleared completed =>
      match s.producer with
      | .draining b position audio writtenAudioMs =>
          s.drain env b position audio writtenAudioMs cleared completed
      | _ => s
  | .streamEnds => s.endProducer none
  | .fail => s.fail .external
  | .take =>
      match s.pump with
      | .idle => s.take
      | _ => s
  | .written nowMonotonic now =>
      match s.pump with
      | .writing frame => s.written frame nowMonotonic now
      | _ => s
  | .playedOut nowMonotonic now =>
      match s.pump with
      | .playing frame => s.playedOut frame nowMonotonic now
      | _ => s
  | .outputEnds now =>
      { s.observing (s.audio.markOutputEnded "stream_ended" now) with pump := .ended }
  | .failOutput => { s with pump := .ended }

/-- What a step does: the effect of its task where it fits the phase, and else nothing. -/
inductive BridgeEffect (env : BridgeEnv) (s : Bridge) : BridgeStep → Bridge → Prop
  | ignored (l : BridgeStep) : BridgeEffect env s l s
  | receiveAudio (h : s.producer = .receiving) (message : ProviderAudio) (receivedAt : Datetime)
      (receivedMonotonic : ℚ) :
      BridgeEffect env s (.receiveAudio message receivedAt receivedMonotonic)
        (s.receiveAudio env message receivedAt receivedMonotonic)
  | pack (h : s.producer = .packing) (enqueuedAt : Datetime) (enqueuedMonotonic : ℚ) :
      BridgeEffect env s (.pack enqueuedAt enqueuedMonotonic)
        (s.pack env enqueuedAt enqueuedMonotonic)
  | put {frame : TracedFrame} (h : s.producer = .putting frame) :
      BridgeEffect env s .put (s.put frame)
  | inputSpeechStopped (h : s.producer = .receiving) (now : Datetime) :
      BridgeEffect env s (.inputSpeechStopped now) (s.observing (s.audio.inputSpeechStopped now))
  | beginBargeIn (h : s.producer = .receiving) (trigger : BargeInTrigger) (receivedAt : Datetime)
      (receivedMonotonic : ℚ) (now : Datetime) :
      BridgeEffect env s (.beginBargeIn trigger receivedAt receivedMonotonic now)
        (s.beginBargeIn trigger receivedAt receivedMonotonic now)
  | truncate {b : BargeInProgress} (h : s.producer = .interrupting b) (path : InterruptPath)
      (ts : Datetime) (now : ℚ) :
      BridgeEffect env s (.truncate path ts now) (s.truncate b path ts now)
  | clear {b : BargeInProgress} {position : Option PlaybackPosition}
      (h : s.producer = .truncating b position) (requested : Bool) (ts now : Datetime) :
      BridgeEffect env s (.clear requested ts now) (s.clear b position requested ts now)
  | drain {b : BargeInProgress} {position : Option PlaybackPosition} {audio : PartialAudio}
      {writtenAudioMs : ℚ} (h : s.producer = .draining b position audio writtenAudioMs)
      (cleared completed : Datetime) :
      BridgeEffect env s (.drain cleared completed)
        (s.drain env b position audio writtenAudioMs cleared completed)
  | streamEnds : BridgeEffect env s .streamEnds (s.endProducer none)
  | fail : BridgeEffect env s .fail (s.fail .external)
  | take (h : s.pump = .idle) : BridgeEffect env s .take s.take
  | written {frame : TracedFrame} (h : s.pump = .writing frame) (nowMonotonic : ℚ)
      (now : Datetime) :
      BridgeEffect env s (.written nowMonotonic now) (s.written frame nowMonotonic now)
  | playedOut {frame : TracedFrame} (h : s.pump = .playing frame) (nowMonotonic : ℚ)
      (now : Datetime) :
      BridgeEffect env s (.playedOut nowMonotonic now) (s.playedOut frame nowMonotonic now)
  | outputEnds (now : Datetime) :
      BridgeEffect env s (.outputEnds now)
        { s.observing (s.audio.markOutputEnded "stream_ended" now) with pump := .ended }
  | failOutput : BridgeEffect env s .failOutput { s with pump := .ended }

theorem bridgeEffect_next (env : BridgeEnv) (s : Bridge) (l : BridgeStep) :
    BridgeEffect env s l (s.next env l) := by
  cases l with
  | receiveAudio message receivedAt receivedMonotonic =>
      simp only [Bridge.next]
      split
      · exact .receiveAudio (by assumption) message receivedAt receivedMonotonic
      · exact .ignored _
  | pack enqueuedAt enqueuedMonotonic =>
      simp only [Bridge.next]
      split
      · exact .pack (by assumption) enqueuedAt enqueuedMonotonic
      · exact .ignored _
  | put =>
      simp only [Bridge.next]
      split
      · exact .put (by assumption)
      · exact .ignored _
  | inputSpeechStopped now =>
      simp only [Bridge.next]
      split
      · exact .inputSpeechStopped (by assumption) now
      · exact .ignored _
  | beginBargeIn trigger receivedAt receivedMonotonic now =>
      simp only [Bridge.next]
      split
      · exact .beginBargeIn (by assumption) trigger receivedAt receivedMonotonic now
      · exact .ignored _
  | truncate path ts now =>
      simp only [Bridge.next]
      split
      · exact .truncate (by assumption) path ts now
      · exact .ignored _
  | clear requested ts now =>
      simp only [Bridge.next]
      split
      · exact .clear (by assumption) requested ts now
      · exact .ignored _
  | drain cleared completed =>
      simp only [Bridge.next]
      split
      · exact .drain (by assumption) cleared completed
      · exact .ignored _
  | streamEnds => exact .streamEnds
  | fail => exact .fail
  | take =>
      simp only [Bridge.next]
      split
      · exact .take (by assumption)
      · exact .ignored _
  | written nowMonotonic now =>
      simp only [Bridge.next]
      split
      · exact .written (by assumption) nowMonotonic now
      · exact .ignored _
  | playedOut nowMonotonic now =>
      simp only [Bridge.next]
      split
      · exact .playedOut (by assumption) nowMonotonic now
      · exact .ignored _
  | outputEnds now => exact .outputEnds now
  | failOutput => exact .failOutput

/-- A call from its first message on. -/
def bridgeMachine (env : BridgeEnv) : Machine Bridge BridgeStep where
  init s := ∃ audio : CallAudio, audio.positions = {} ∧ s = { audio }
  enabled _ _ := True
  next := Bridge.next env

end VoxBench.Telephony
