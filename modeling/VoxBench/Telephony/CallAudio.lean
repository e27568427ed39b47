import VoxBench.Observability.Observer
import VoxBench.Telephony.Framing

/-!
# The audio of a realtime call

What a `RealtimeCallSession` keeps about the audio that it plays and hears: the burst of
assistant audio in progress, the caller's speech as the provider reports it, and the
playback positions with which the provider is told how much of an item was heard.

Two tasks work on it. The pump reports every frame that it writes to the socket; the
producer works through the messages of the provider. A function that observes timeline
events returns them. Clock readings are arguments, and arithmetic is exact.

## Main definitions

* `PlaybackPositions` — `effective`, `truncatePosition`, `next`, and what the pump reports.
* `CallAudio` — `markOutputStarted`, `markOutputPlayed`, `markOutputEnded`, the speech
  events of the provider, and `endCall`.
-/

namespace VoxBench.Telephony

open VoxBench.Lib VoxBench.ControlPlane VoxBench.Observability

/-! ## Frames -/

structure PlaybackPosition where
  itemId : String
  contentIndex : ℤ
  audioEndMs : ℤ
  deriving DecidableEq, Repr

/-- The provider item of a position. -/
def PlaybackPosition.item (p : PlaybackPosition) : String × ℤ := (p.itemId, p.contentIndex)

/-- `_ProviderAudioSourceWindow`. -/
structure ProviderAudioSourceWindow where
  chunkOrdinals : List ℕ
  firstReceivedAt : Datetime
  firstReceivedMonotonic : ℚ
  lastReceivedMonotonic : ℚ
  deriving DecidableEq, Repr

/-- `_PlaybackFrameObservation`. -/
structure PlaybackFrameObservation where
  frameOrdinal : ℕ
  sourceWindow : ProviderAudioSourceWindow
  enqueuedAt : Datetime
  enqueuedMonotonic : ℚ
  outputRms : ℚ
  silenceSamplePct : ℚ
  signalBearing : Bool
  queueDepthAfterEnqueue : ℕ := 0
  deriving DecidableEq, Repr

/-- An `AudioSocketFrame` on its way to the caller. -/
structure OutputFrame extends AudioSocketFrame where
  playbackPosition : Option PlaybackPosition := none
  playbackObservation : Option PlaybackFrameObservation := none
  deriving DecidableEq, Repr

/-- The milliseconds of 16-bit mono audio at a sample rate. -/
def audioMs (pcm : List UInt8) (sampleRate : ℕ) : ℚ := pcm.length / (2 * sampleRate) * 1000

/-! ## Playback positions -/

/-- The playback positions of a session; an item is `(item_id, content_index)`. -/
structure PlaybackPositions where
  last : Option PlaybackPosition := none
  lastEnqueued : Option PlaybackPosition := none
  inflight : Option PlaybackPosition := none
  inflightStartedAt : Option ℚ := none
  currentItem : Option (String × ℤ) := none
  deriving DecidableEq, Repr

/-- `int(value)`. -/
def pyInt (value : ℚ) : ℤ := if 0 ≤ value then ⌊value⌋ else ⌈value⌉

namespace PlaybackPositions

/-- `_effective_playback_position`. -/
def effective (p : PlaybackPositions) (now : ℚ) : Option PlaybackPosition :=
  match p.inflight, p.inflightStartedAt with
  | some inflight, some startedAt =>
      let frameStartMs :=
        match p.last with
        | some last =>
            if last.item = inflight.item then last.audioEndMs
            else max 0 (inflight.audioEndMs - 20)
        | none => max 0 (inflight.audioEndMs - 20)
      let elapsedMs := max 0 (pyInt ((now - startedAt) * 1000))
      some { inflight with audioEndMs := min inflight.audioEndMs (frameStartMs + elapsedMs) }
  | _, _ => p.last

/-- The position that a barge-in passes to `truncate_audio`. -/
def truncatePosition (p : PlaybackPositions) (now : ℚ) : Option PlaybackPosition :=
  let position := p.effective now
  match p.currentItem with
  | some item =>
      if position.map PlaybackPosition.item = some item then position
      else some { itemId := item.1, contentIndex := item.2, audioEndMs := 0 }
  | none => position

/-- `_next_playback_position`, which is called only while an item is current. -/
def next (p : PlaybackPositions) : Option PlaybackPosition × PlaybackPositions :=
  match p.currentItem with
  | some item =>
      let audioEndMs :=
        match p.lastEnqueued with
        | some position => if position.item = item then position.audioEndMs else 0
        | none => 0
      let position : PlaybackPosition :=
        { itemId := item.1, contentIndex := item.2, audioEndMs := audioEndMs + 20 }
      (some position, { p with lastEnqueued := some position })
  | none => (none, p)

/-- The item of the message that arrives. -/
def setItem (p : PlaybackPositions) (item : Option (String × ℤ)) : PlaybackPositions :=
  if item ≠ p.currentItem then { p with lastEnqueued := none, currentItem := item } else p

/-- The end of `mark_output_played`. -/
def played (p : PlaybackPositions) (position : Option PlaybackPosition) : PlaybackPositions :=
  match position with
  | some position =>
      if p.currentItem = some position.item then
        let p := { p with last := some position }
        if p.inflight = some position then { p with inflight := none, inflightStartedAt := none }
        else p
      else p
  | none => p

/-- The end of `mark_output_started`. -/
def started (p : PlaybackPositions) (position : Option PlaybackPosition) (now : ℚ) :
    PlaybackPositions :=
  match position with
  | some position => { p with inflight := some position, inflightStartedAt := some now }
  | none => p

end PlaybackPositions

/-! ## Bursts and speech -/

/-- A timeline event of the bridge. -/
def bridgeEvent (eventId : String) (category : TimelineCategory) (name : String)
    (correlationAlias : String) (direction : Option String)
    (attributes : List (String × AttrValue)) (ts : Datetime) : TimelineEvent :=
  { eventId, category, name, source := "audiosocket_bridge",
    correlationAlias := some correlationAlias, clockDomain := "control_plane_wall",
    alignmentUncertaintyMs := none, direction, stage := none, streamAlias := none,
    attributes, ts }

/-- The burst of assistant audio in progress. -/
structure PlaybackBurst where
  sequence : ℕ := 0
  activeAlias : Option String := none
  writtenAudioMs : ℚ := 0
  lastPlayedAt : Option ℚ := none
  lastPlayedTs : Option Datetime := none
  lastFrameDurationMs : Option ℚ := none
  deriving DecidableEq, Repr

/-- The caller's speech, and the number of barge-ins. -/
structure CallerSpeech where
  bargeInSequence : ℕ := 0
  activeAlias : Option String := none
  deriving DecidableEq, Repr

/-- What a session keeps about the audio of its call. -/
structure CallAudio where
  telephonyRate : ℕ := 8000
  telephonyRate_pos : 0 < telephonyRate := by decide
  playbackSessionAlias : String
  bargeInSessionAlias : String
  burst : PlaybackBurst := {}
  speech : CallerSpeech := {}
  positions : PlaybackPositions := {}
  closed : Bool := false

/-- The two kinds of provider events that begin a barge-in. -/
inductive BargeInTrigger where
  | inputSpeechStarted
  | interrupted
  deriving DecidableEq, Repr

namespace CallAudio

/-- A session that has its two aliases. -/
def initial (playbackSessionAlias bargeInSessionAlias : String) : CallAudio :=
  { playbackSessionAlias, bargeInSessionAlias }

def frameDurationMs (s : CallAudio) (frame : OutputFrame) : ℚ :=
  audioMs frame.payload s.telephonyRate

/-- The alias of the `n`-th burst. -/
def playbackAlias (s : CallAudio) (n : ℕ) : String :=
  "assistant-playback-" ++ s.playbackSessionAlias ++ "-" ++ n.repr

/-- The alias of the `n`-th barge-in. -/
def bargeInAlias (s : CallAudio) (n : ℕ) : String :=
  "barge-in-" ++ s.bargeInSessionAlias ++ "-" ++ n.repr

/-- `_end_assistant_playback`. -/
def endAssistantPlayback (s : CallAudio) (ts : Datetime) (stopReason : String) :
    CallAudio × List TimelineEvent :=
  match s.burst.activeAlias with
  | some correlationAlias =>
      ({ s with burst := { sequence := s.burst.sequence } },
        [bridgeEvent (correlationAlias ++ ":stop") .conversation "assistant_playback_stopped"
          correlationAlias (some "assistant_to_caller")
          [("written_audio_ms", .float s.burst.writtenAudioMs), ("stop_reason", .str stopReason)]
          ts])
  | none => (s, [])

/-- The time since the last frame was played exceeds the duration of that frame. -/
def mediaGap (s : CallAudio) (now : ℚ) : Bool :=
  match s.burst.activeAlias, s.burst.lastPlayedAt, s.burst.lastFrameDurationMs with
  | some _, some playedAt, some durationMs => durationMs < (now - playedAt) * 1000
  | _, _, _ => false

/-- The part of `mark_output_started` that begins a burst. -/
def beginAssistantPlayback (s : CallAudio) (frame : OutputFrame) (now : Datetime) :
    CallAudio × List TimelineEvent :=
  match s.burst.activeAlias with
  | some _ => (s, [])
  | none =>
      let correlationAlias := s.playbackAlias (s.burst.sequence + 1)
      ({ s with burst :=
          { sequence := s.burst.sequence + 1, activeAlias := some correlationAlias } },
        [bridgeEvent (correlationAlias ++ ":start") .conversation "assistant_playback_started"
          correlationAlias (some "assistant_to_caller")
          [("frame_duration_ms", .float (s.frameDurationMs frame))] now])

/-- `mark_output_started`, with the two clock readings. -/
def markOutputStarted (s : CallAudio) (frame : OutputFrame) (nowMonotonic : ℚ) (now : Datetime) :
    CallAudio × List TimelineEvent :=
  let stopped :=
    if s.mediaGap nowMonotonic then
      s.endAssistantPlayback (s.burst.lastPlayedTs.getD now) "media_gap"
    else (s, [])
  let begun := stopped.1.beginAssistantPlayback frame now
  let s := begun.1
  ({ s with
      burst := { s.burst with writtenAudioMs := s.burst.writtenAudioMs + s.frameDurationMs frame }
      positions := s.positions.started frame.playbackPosition nowMonotonic },
    stopped.2 ++ begun.2)

/-- `mark_output_played`, with the two clock readings. -/
def markOutputPlayed (s : CallAudio) (frame : OutputFrame) (nowMonotonic : ℚ) (now : Datetime) :
    CallAudio :=
  let burst :=
    if s.burst.activeAlias.isSome then
      { s.burst with
        lastPlayedAt := some nowMonotonic
        lastPlayedTs := some now
        lastFrameDurationMs := some (s.frameDurationMs frame) }
    else s.burst
  { s with burst, positions := s.positions.played frame.playbackPosition }

/-- `mark_output_ended`. -/
def markOutputEnded (s : CallAudio) (stopReason : String) (now : Datetime) :
    CallAudio × List TimelineEvent :=
  s.endAssistantPlayback (s.burst.lastPlayedTs.getD now) stopReason

/-- `_end_caller_speech`. -/
def endCallerSpeech (s : CallAudio) (completionObserved : Bool) (stopReason : String)
    (now : Datetime) : CallAudio × List TimelineEvent :=
  match s.speech.activeAlias with
  | some correlationAlias =>
      ({ s with speech := { s.speech with activeAlias := none } },
        [bridgeEvent (correlationAlias ++ ":caller-speech-stopped") .conversation
          "provider_input_speech_stopped" correlationAlias (some "caller_to_assistant")
          [("completion_observed", .bool completionObserved), ("stop_reason", .str stopReason)]
          now])
  | none => (s, [])

/-- The provider event `input_speech_stopped`. -/
def inputSpeechStopped (s : CallAudio) (now : Datetime) : CallAudio × List TimelineEvent :=
  s.endCallerSpeech true "provider_speech_stopped" now

/-- `_observe_barge_in_event`. -/
def bargeInEvent (correlationAlias : String) (step : ℕ) (name : String)
    (category : TimelineCategory) (direction : Option String)
    (attributes : List (String × AttrValue)) (ts : Datetime) : TimelineEvent :=
  bridgeEvent (correlationAlias ++ ":" ++ step.repr) category name correlationAlias direction
    attributes ts

/-- The beginning of a barge-in, up to the first request to the provider. -/
def beginBargeIn (s : CallAudio) (trigger : BargeInTrigger) (controlReceivedAt now : Datetime) :
    CallAudio × List TimelineEvent :=
  match trigger with
  | .inputSpeechStarted =>
      let ended := s.endCallerSpeech false "superseded_by_new_start" now
      let s := ended.1
      let correlationAlias := s.bargeInAlias (s.speech.bargeInSequence + 1)
      ({ s with speech :=
          { bargeInSequence := s.speech.bargeInSequence + 1
            activeAlias := some correlationAlias } },
        ended.2 ++ [bargeInEvent correlationAlias 1 "provider_input_speech_started" .conversation
          (some "caller_to_assistant") [] controlReceivedAt])
  | .interrupted =>
      let correlationAlias := s.bargeInAlias (s.speech.bargeInSequence + 1)
      ({ s with speech := { s.speech with bargeInSequence := s.speech.bargeInSequence + 1 } },
        [bargeInEvent correlationAlias 1 "provider_interrupted" .provider
          (some "caller_to_assistant") [] controlReceivedAt])

/-- The end of the playback in a barge-in, with the reset of all positions. -/
def cutPlayback (s : CallAudio) (now : Datetime) : CallAudio × List TimelineEvent :=
  let stopped := s.endAssistantPlayback now "barge_in"
  ({ stopped.1 with positions := {} }, stopped.2)

/-- The timeline events of `close`. -/
def endCall (s : CallAudio) (speechEnd playbackEnd : Datetime) : CallAudio × List TimelineEvent :=
  if s.closed then (s, [])
  else
    let speech := { s with closed := true }.endCallerSpeech false "call_closed" speechEnd
    let playback := speech.1.markOutputEnded "call_closed" playbackEnd
    (playback.1, speech.2 ++ playback.2)

/-! ## What the functions leave alone -/

section Frame

variable (s : CallAudio) (frame : OutputFrame) (ts : Datetime) (reason : String)

@[simp] theorem telephonyRate_endAssistantPlayback :
    (s.endAssistantPlayback ts reason).1.telephonyRate = s.telephonyRate := by
  unfold endAssistantPlayback
  split <;> rfl
@[simp] theorem speech_endAssistantPlayback :
    (s.endAssistantPlayback ts reason).1.speech = s.speech := by
  unfold endAssistantPlayback
  split <;> rfl
@[simp] theorem positions_endAssistantPlayback :
    (s.endAssistantPlayback ts reason).1.positions = s.positions := by
  unfold endAssistantPlayback
  split <;> rfl
@[simp] theorem closed_endAssistantPlayback :
    (s.endAssistantPlayback ts reason).1.closed = s.closed := by
  unfold endAssistantPlayback
  split <;> rfl
@[simp] theorem bargeInSessionAlias_endAssistantPlayback :
    (s.endAssistantPlayback ts reason).1.bargeInSessionAlias = s.bargeInSessionAlias := by
  unfold endAssistantPlayback
  split <;> rfl
@[simp] theorem activeAlias_endAssistantPlayback :
    (s.endAssistantPlayback ts reason).1.burst.activeAlias = none := by
  unfold endAssistantPlayback
  split
  · rfl
  · assumption

@[simp] theorem telephonyRate_beginAssistantPlayback :
    (s.beginAssistantPlayback frame ts).1.telephonyRate = s.telephonyRate := by
  unfold beginAssistantPlayback
  split <;> rfl
@[simp] theorem speech_beginAssistantPlayback :
    (s.beginAssistantPlayback frame ts).1.speech = s.speech := by
  unfold beginAssistantPlayback
  split <;> rfl
@[simp] theorem positions_beginAssistantPlayback :
    (s.beginAssistantPlayback frame ts).1.positions = s.positions := by
  unfold beginAssistantPlayback
  split <;> rfl
@[simp] theorem closed_beginAssistantPlayback :
    (s.beginAssistantPlayback frame ts).1.closed = s.closed := by
  unfold beginAssistantPlayback
  split <;> rfl
@[simp] theorem bargeInSessionAlias_beginAssistantPlayback :
    (s.beginAssistantPlayback frame ts).1.bargeInSessionAlias = s.bargeInSessionAlias := by
  unfold beginAssistantPlayback
  split <;> rfl

@[simp] theorem telephonyRate_markOutputStarted (now : ℚ) :
    (s.markOutputStarted frame now ts).1.telephonyRate = s.telephonyRate := by
  unfold markOutputStarted
  dsimp only
  rw [telephonyRate_beginAssistantPlayback]
  split
  · rw [telephonyRate_endAssistantPlayback]
  · rfl
@[simp] theorem speech_markOutputStarted (now : ℚ) :
    (s.markOutputStarted frame now ts).1.speech = s.speech := by
  unfold markOutputStarted
  dsimp only
  rw [speech_beginAssistantPlayback]
  split
  · rw [speech_endAssistantPlayback]
  · rfl
@[simp] theorem positions_markOutputStarted (now : ℚ) :
    (s.markOutputStarted frame now ts).1.positions =
      s.positions.started frame.playbackPosition now := by
  unfold markOutputStarted
  dsimp only
  rw [positions_beginAssistantPlayback]
  split
  · rw [positions_endAssistantPlayback]
  · rfl
@[simp] theorem closed_markOutputStarted (now : ℚ) :
    (s.markOutputStarted frame now ts).1.closed = s.closed := by
  unfold markOutputStarted
  dsimp only
  rw [closed_beginAssistantPlayback]
  split
  · rw [closed_endAssistantPlayback]
  · rfl
@[simp] theorem bargeInSessionAlias_markOutputStarted (now : ℚ) :
    (s.markOutputStarted frame now ts).1.bargeInSessionAlias = s.bargeInSessionAlias := by
  unfold markOutputStarted
  dsimp only
  rw [bargeInSessionAlias_beginAssistantPlayback]
  split
  · rw [bargeInSessionAlias_endAssistantPlayback]
  · rfl

@[simp] theorem telephonyRate_endCallerSpeech (completionObserved : Bool) :
    (s.endCallerSpeech completionObserved reason ts).1.telephonyRate = s.telephonyRate := by
  unfold endCallerSpeech
  split <;> rfl
@[simp] theorem positions_endCallerSpeech (completionObserved : Bool) :
    (s.endCallerSpeech completionObserved reason ts).1.positions = s.positions := by
  unfold endCallerSpeech
  split <;> rfl
@[simp] theorem burst_endCallerSpeech (completionObserved : Bool) :
    (s.endCallerSpeech completionObserved reason ts).1.burst = s.burst := by
  unfold endCallerSpeech
  split <;> rfl
@[simp] theorem closed_endCallerSpeech (completionObserved : Bool) :
    (s.endCallerSpeech completionObserved reason ts).1.closed = s.closed := by
  unfold endCallerSpeech
  split <;> rfl
@[simp] theorem playbackSessionAlias_endCallerSpeech (completionObserved : Bool) :
    (s.endCallerSpeech completionObserved reason ts).1.playbackSessionAlias =
      s.playbackSessionAlias := by
  unfold endCallerSpeech
  split <;> rfl

@[simp] theorem telephonyRate_beginBargeIn (trigger : BargeInTrigger) (now : Datetime) :
    (s.beginBargeIn trigger now ts).1.telephonyRate = s.telephonyRate := by
  cases trigger with
  | inputSpeechStarted => exact telephonyRate_endCallerSpeech _ _ _ _
  | interrupted => rfl
@[simp] theorem positions_beginBargeIn (trigger : BargeInTrigger) (now : Datetime) :
    (s.beginBargeIn trigger now ts).1.positions = s.positions := by
  cases trigger with
  | inputSpeechStarted => exact positions_endCallerSpeech _ _ _ _
  | interrupted => rfl
@[simp] theorem burst_beginBargeIn (trigger : BargeInTrigger) (now : Datetime) :
    (s.beginBargeIn trigger now ts).1.burst = s.burst := by
  cases trigger with
  | inputSpeechStarted => exact burst_endCallerSpeech _ _ _ _
  | interrupted => rfl
@[simp] theorem closed_beginBargeIn (trigger : BargeInTrigger) (now : Datetime) :
    (s.beginBargeIn trigger now ts).1.closed = s.closed := by
  cases trigger with
  | inputSpeechStarted => exact closed_endCallerSpeech _ _ _ _
  | interrupted => rfl
@[simp] theorem playbackSessionAlias_beginBargeIn (trigger : BargeInTrigger) (now : Datetime) :
    (s.beginBargeIn trigger now ts).1.playbackSessionAlias = s.playbackSessionAlias := by
  cases trigger with
  | inputSpeechStarted => exact playbackSessionAlias_endCallerSpeech _ _ _ _
  | interrupted => rfl

end Frame

end CallAudio

end VoxBench.Telephony
