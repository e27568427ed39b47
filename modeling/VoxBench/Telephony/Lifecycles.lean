import VoxBench.Lib.Episodes
import VoxBench.Lib.Machine
import VoxBench.Telephony.CallAudio

/-!
# The lifecycles of a call

The pump, the provider events, barge-ins and the end of the call report to a session in any
order. The trace has the timeline events that the session observes and, between them, the
frames that the pump starts.

## Main results

* `lifecycles` — playback bursts and caller utterances are episodes of the trace: they do
  not overlap, they have aliases of their own, a burst ends with the duration of its frames,
  and none is open when the call is over.
-/

namespace VoxBench.Telephony

open VoxBench.Lib VoxBench.ControlPlane VoxBench.Observability

/-- A call to the session. -/
inductive CallAudioStep where
  | outputStarted (frame : OutputFrame) (nowMonotonic : ℚ) (now : Datetime)
  | outputPlayed (frame : OutputFrame) (nowMonotonic : ℚ) (now : Datetime)
  | outputEnded (now : Datetime)
  | inputSpeechStopped (now : Datetime)
  | beginBargeIn (trigger : BargeInTrigger) (controlReceivedAt now : Datetime)
  | cutPlayback (now : Datetime)
  /-- Another timeline event of the session, such as the evidence of a barge-in. -/
  | observe (event : TimelineEvent)
  /-- The producer moves the playback positions. -/
  | setPositions (positions : PlaybackPositions)
  | endCall (speechEnd playbackEnd : Datetime)

/-- The other event of a step. -/
def CallAudioStep.event? : CallAudioStep → Option TimelineEvent
  | .observe event => some event
  | _ => none

/-- What the trace records. -/
inductive TraceEntry where
  | event (event : TimelineEvent)
  /-- A frame is started. -/
  | frame (durationMs : ℚ)

/-- The session and the trace so far. -/
structure TracedCall where
  audio : CallAudio
  trace : List TraceEntry := []

/-- The names of the events that begin and end the episodes. -/
def lifecycleNames : List String :=
  ["assistant_playback_started", "assistant_playback_stopped", "provider_input_speech_started",
    "provider_input_speech_stopped"]

namespace TracedCall

/-- The session goes on as `result` and observes its events. -/
def observing (s : TracedCall) (result : CallAudio × List TimelineEvent) : TracedCall :=
  { audio := result.1, trace := s.trace ++ result.2.map .event }

def next (s : TracedCall) : CallAudioStep → TracedCall
  | .outputStarted frame nowMonotonic now =>
      let s' := s.observing (s.audio.markOutputStarted frame nowMonotonic now)
      { s' with trace := s'.trace ++ [.frame (s.audio.frameDurationMs frame)] }
  | .outputPlayed frame nowMonotonic now =>
      { s with audio := s.audio.markOutputPlayed frame nowMonotonic now }
  | .outputEnded now => s.observing (s.audio.markOutputEnded "stream_ended" now)
  | .inputSpeechStopped now => s.observing (s.audio.inputSpeechStopped now)
  | .beginBargeIn trigger controlReceivedAt now =>
      s.observing (s.audio.beginBargeIn trigger controlReceivedAt now)
  | .cutPlayback now => s.observing (s.audio.cutPlayback now)
  | .observe event => s.observing (s.audio, [event])
  | .setPositions positions => { s with audio := { s.audio with positions } }
  | .endCall speechEnd playbackEnd => s.observing (s.audio.endCall speechEnd playbackEnd)

end TracedCall

/-- A call from its first frame on. Nothing happens after its end. -/
def callAudioMachine : Machine TracedCall CallAudioStep where
  init s := s.trace = [] ∧ s.audio.burst = {} ∧ s.audio.speech = {} ∧ s.audio.closed = false
  enabled s l := s.audio.closed = false ∧ ∀ event ∈ l.event?, event.name ∉ lifecycleNames
  next := TracedCall.next

instance (s : TracedCall) (l : CallAudioStep) : Decidable (callAudioMachine.enabled s l) :=
  inferInstanceAs (Decidable (s.audio.closed = false ∧
    ∀ event ∈ l.event?, event.name ∉ lifecycleNames))

/-! ## Episodes of the trace -/

/-- The marks of the playback: the bursts are known by their alias and end with their
`written_audio_ms`. -/
def playbackMark : TraceEntry → Option (Mark (Option String) ℚ (Option AttrValue))
  | .frame durationMs => some (.item durationMs)
  | .event e =>
      if e.name = "assistant_playback_started" then some (.start e.correlationAlias)
      else if e.name = "assistant_playback_stopped" then
        some (.stop e.correlationAlias (e.attributes.lookup "written_audio_ms"))
      else none

/-- The marks of the caller's speech. -/
def speechMark : TraceEntry → Option (Mark (Option String) Empty Unit)
  | .frame _ => none
  | .event e =>
      if e.name = "provider_input_speech_started" then some (.start e.correlationAlias)
      else if e.name = "provider_input_speech_stopped" then some (.stop e.correlationAlias ())
      else none

/-- The result of a burst: the duration of its frames. -/
def writtenAudio (durations : List ℚ) : Option AttrValue := some (.float durations.sum)

section Aliases

theorem append_repr_inj {head : String} {m n : ℕ} (h : head ++ m.repr = head ++ n.repr) :
    m = n :=
  Text.repr_inj (congrArg String.toList ((String.append_right_inj head).mp h))

variable (a : CallAudio)

theorem playbackAlias_inj {m n : ℕ} (h : a.playbackAlias m = a.playbackAlias n) : m = n := by
  unfold CallAudio.playbackAlias at h
  exact append_repr_inj h

theorem bargeInAlias_inj {m n : ℕ} (h : a.bargeInAlias m = a.bargeInAlias n) : m = n := by
  unfold CallAudio.bargeInAlias at h
  exact append_repr_inj h

end Aliases

/-- The bursts of a trace: the open one is the active one of the session. -/
structure Bursts (a : CallAudio) (trace : List TraceEntry)
    (done : List (Episode (Option String) ℚ)) (current : Option (Episode (Option String) ℚ)) :
    Prop where
  log : EpisodeLog writtenAudio (trace.filterMap playbackMark) done current
  active : current.map Episode.key = a.burst.activeAlias.map some
  written : ∀ e ∈ current, a.burst.writtenAudioMs = e.items.sum
  numbered : ∀ e ∈ done ++ current.toList,
    ∃ n ≤ a.burst.sequence, e.key = some (a.playbackAlias n)

/-- The utterances of a trace: the open one is the active one of the session. -/
structure Utterances (a : CallAudio) (trace : List TraceEntry)
    (done : List (Episode (Option String) Empty))
    (current : Option (Episode (Option String) Empty)) : Prop where
  log : EpisodeLog (fun _ => ()) (trace.filterMap speechMark) done current
  active : current.map Episode.key = a.speech.activeAlias.map some
  numbered : ∀ e ∈ done ++ current.toList,
    ∃ n ≤ a.speech.bargeInSequence, e.key = some (a.bargeInAlias n)

/-! ## The playback -/

section Playback

variable {a a' : CallAudio} {trace : List TraceEntry}
  {done : List (Episode (Option String) ℚ)} {current : Option (Episode (Option String) ℚ)}

/-- What leaves the burst alone and shows no mark of the playback. -/
theorem Bursts.keep {entries : List TraceEntry} (h : Bursts a trace done current)
    (hsequence : a'.burst.sequence = a.burst.sequence)
    (hactive : a'.burst.activeAlias = a.burst.activeAlias)
    (hwritten : a'.burst.writtenAudioMs = a.burst.writtenAudioMs)
    (hsession : a'.playbackSessionAlias = a.playbackSessionAlias)
    (hentries : entries.filterMap playbackMark = []) :
    Bursts a' (trace ++ entries) done current := by
  have halias : a'.playbackAlias = a.playbackAlias := by
    unfold CallAudio.playbackAlias
    rw [hsession]
  constructor
  · rw [List.filterMap_append, hentries, List.append_nil]
    exact h.log
  · rw [hactive]
    exact h.active
  · rw [hwritten]
    exact h.written
  · rw [hsequence, halias]
    exact h.numbered

theorem Bursts.endAssistantPlayback (h : Bursts a trace done current) (ts : Datetime)
    (stopReason : String) :
    ∃ done', Bursts (a.endAssistantPlayback ts stopReason).1
      (trace ++ (a.endAssistantPlayback ts stopReason).2.map .event) done' none := by
  have hactive := h.active
  cases hcurrent : current with
  | none =>
      subst hcurrent
      have hnone : a.burst.activeAlias = none := by simpa using hactive.symm
      have hsame : a.endAssistantPlayback ts stopReason = (a, []) := by
        simp [CallAudio.endAssistantPlayback, hnone]
      rw [hsame]
      exact ⟨done, by simpa using h⟩
  | some e =>
      subst hcurrent
      obtain ⟨playbackAlias, halias, hkey⟩ : ∃ playbackAlias,
          a.burst.activeAlias = some playbackAlias ∧ some playbackAlias = e.key := by
        simpa using hactive.symm
      refine ⟨done ++ [e], ?_⟩
      simp only [CallAudio.endAssistantPlayback, halias]
      constructor
      · have hlog := h.log.stop
        simp only [List.filterMap_append, List.map_cons, List.map_nil]
        convert hlog using 2
        simp [playbackMark, bridgeEvent, hkey, writtenAudio, h.written e rfl]
      · rfl
      · intro e' he'
        cases he'
      · intro e' he'
        exact h.numbered e' (by simpa using he')

theorem Bursts.beginAssistantPlayback (h : Bursts a trace done current) (frame : OutputFrame)
    (now : Datetime) :
    ∃ e, Bursts (a.beginAssistantPlayback frame now).1
      (trace ++ (a.beginAssistantPlayback frame now).2.map .event) done (some e) := by
  have hactive := h.active
  cases hcurrent : current with
  | some e =>
      subst hcurrent
      obtain ⟨playbackAlias, halias, -⟩ : ∃ playbackAlias,
          a.burst.activeAlias = some playbackAlias ∧ some playbackAlias = e.key := by
        simpa using hactive.symm
      have hsame : a.beginAssistantPlayback frame now = (a, []) := by
        simp [CallAudio.beginAssistantPlayback, halias]
      rw [hsame]
      exact ⟨e, by simpa using h⟩
  | none =>
      subst hcurrent
      have hnone : a.burst.activeAlias = none := by simpa using hactive.symm
      have hnumbered := h.numbered
      simp only [Option.toList_none, List.append_nil] at hnumbered
      refine ⟨⟨some (a.playbackAlias (a.burst.sequence + 1)), []⟩, ?_⟩
      simp only [CallAudio.beginAssistantPlayback, hnone]
      constructor
      · have hfresh : some (a.playbackAlias (a.burst.sequence + 1)) ∉ done.map Episode.key := by
          rw [List.mem_map]
          rintro ⟨e, he, hkey⟩
          obtain ⟨n, hn, hkey'⟩ := hnumbered e he
          have := playbackAlias_inj a (Option.some.inj (hkey'.symm.trans hkey))
          omega
        have hlog := h.log.start hfresh
        simp only [List.filterMap_append, List.map_cons, List.map_nil]
        convert hlog using 2
        simp [playbackMark, bridgeEvent]
      · rfl
      · intro e he
        obtain rfl := Option.mem_some_iff.mp he
        rfl
      · intro e he
        rw [List.mem_append] at he
        rcases he with he | he
        · obtain ⟨n, hn, hkey⟩ := hnumbered e he
          exact ⟨n, Nat.le_succ_of_le hn, hkey⟩
        · obtain rfl : e = ⟨some (a.playbackAlias (a.burst.sequence + 1)), []⟩ := by simpa using he
          exact ⟨_, le_rfl, rfl⟩

/-- A frame joins the open burst. -/
theorem Bursts.frame {e : Episode (Option String) ℚ} (h : Bursts a trace done (some e))
    (durationMs : ℚ)
    (hburst : a'.burst = { a.burst with writtenAudioMs := a.burst.writtenAudioMs + durationMs })
    (hsession : a'.playbackSessionAlias = a.playbackSessionAlias) :
    Bursts a' (trace ++ [.frame durationMs]) done
      (some { e with items := e.items ++ [durationMs] }) := by
  have halias : a'.playbackAlias = a.playbackAlias := by
    unfold CallAudio.playbackAlias
    rw [hsession]
  constructor
  · rw [List.filterMap_append]
    exact h.log.item durationMs
  · rw [hburst]
    exact h.active
  · intro e' he'
    obtain rfl := Option.mem_some_iff.mp he'
    rw [hburst]
    simp [h.written e rfl]
  · rw [hburst, halias]
    intro e' he'
    rw [List.mem_append] at he'
    rcases he' with he' | he'
    · exact h.numbered e' (List.mem_append_left _ he')
    · obtain rfl : e' = { e with items := e.items ++ [durationMs] } := by simpa using he'
      exact h.numbered e (by simp)

theorem Bursts.markOutputStarted (h : Bursts a trace done current) (frame : OutputFrame)
    (nowMonotonic : ℚ) (now : Datetime) :
    ∃ done' e, Bursts (a.markOutputStarted frame nowMonotonic now).1
      (trace ++ (a.markOutputStarted frame nowMonotonic now).2.map .event ++
        [.frame (a.frameDurationMs frame)]) done' (some e) := by
  obtain ⟨stopped, hstopped⟩ : ∃ stopped, stopped = if a.mediaGap nowMonotonic then
      a.endAssistantPlayback (a.burst.lastPlayedTs.getD now) "media_gap" else (a, []) := ⟨_, rfl⟩
  have hstop : stopped.1.telephonyRate = a.telephonyRate ∧
      ∃ done' current', Bursts stopped.1 (trace ++ stopped.2.map .event) done' current' := by
    rw [hstopped]
    split
    · obtain ⟨done', hdone⟩ := h.endAssistantPlayback (a.burst.lastPlayedTs.getD now) "media_gap"
      exact ⟨by simp, done', none, hdone⟩
    · exact ⟨rfl, done, current, by simpa using h⟩
  obtain ⟨hrate, done', current', hburst⟩ := hstop
  obtain ⟨e, hbegun⟩ := hburst.beginAssistantPlayback frame now
  have hduration : (stopped.1.beginAssistantPlayback frame now).1.frameDurationMs frame =
      a.frameDurationMs frame := by
    simp only [CallAudio.frameDurationMs, CallAudio.telephonyRate_beginAssistantPlayback, hrate]
  refine ⟨done', { e with items := e.items ++ [a.frameDurationMs frame] }, ?_⟩
  have hframe := @Bursts.frame _ (a.markOutputStarted frame nowMonotonic now).1 _ _ _ hbegun
    (a.frameDurationMs frame)
    (by simp only [CallAudio.markOutputStarted, ← hstopped, hduration])
    (by simp only [CallAudio.markOutputStarted, ← hstopped])
  simpa only [CallAudio.markOutputStarted, ← hstopped, List.map_append, List.append_assoc]
    using hframe

end Playback

/-! ## The caller's speech -/

section Speech

variable {a a' : CallAudio} {trace : List TraceEntry}
  {done : List (Episode (Option String) Empty)} {current : Option (Episode (Option String) Empty)}

/-- What leaves the speech alone and shows no mark of it. -/
theorem Utterances.keep {entries : List TraceEntry} (h : Utterances a trace done current)
    (hspeech : a'.speech = a.speech) (hsession : a'.bargeInSessionAlias = a.bargeInSessionAlias)
    (hentries : entries.filterMap speechMark = []) :
    Utterances a' (trace ++ entries) done current := by
  have halias : a'.bargeInAlias = a.bargeInAlias := by
    unfold CallAudio.bargeInAlias
    rw [hsession]
  constructor
  · rw [List.filterMap_append, hentries, List.append_nil]
    exact h.log
  · rw [hspeech]
    exact h.active
  · rw [hspeech, halias]
    exact h.numbered

theorem Utterances.endCallerSpeech (h : Utterances a trace done current)
    (completionObserved : Bool) (reason : String) (now : Datetime) :
    ∃ done', Utterances (a.endCallerSpeech completionObserved reason now).1
      (trace ++ (a.endCallerSpeech completionObserved reason now).2.map .event) done' none := by
  have hactive := h.active
  cases hcurrent : current with
  | none =>
      subst hcurrent
      have hnone : a.speech.activeAlias = none := by simpa using hactive.symm
      have hsame : a.endCallerSpeech completionObserved reason now = (a, []) := by
        simp [CallAudio.endCallerSpeech, hnone]
      rw [hsame]
      exact ⟨done, by simpa using h⟩
  | some e =>
      subst hcurrent
      obtain ⟨bargeInAlias, halias, hkey⟩ : ∃ bargeInAlias,
          a.speech.activeAlias = some bargeInAlias ∧ some bargeInAlias = e.key := by
        simpa using hactive.symm
      refine ⟨done ++ [e], ?_⟩
      simp only [CallAudio.endCallerSpeech, halias]
      constructor
      · have hlog := h.log.stop
        simp only [List.filterMap_append, List.map_cons, List.map_nil]
        convert hlog using 2
        simp [speechMark, bridgeEvent, hkey]
      · rfl
      · intro e' he'
        exact h.numbered e' (by simpa using he')

/-- A barge-in takes the next number, and begins an utterance if the caller speaks. -/
theorem Utterances.beginBargeIn (h : Utterances a trace done current)
    (trigger : BargeInTrigger) (controlReceivedAt now : Datetime) :
    ∃ done' current', Utterances (a.beginBargeIn trigger controlReceivedAt now).1
      (trace ++ (a.beginBargeIn trigger controlReceivedAt now).2.map .event) done' current' := by
  cases trigger with
  | interrupted =>
      refine ⟨done, current, ?_⟩
      constructor
      · rw [List.filterMap_append]
        have hnone : ((a.beginBargeIn .interrupted controlReceivedAt now).2.map
            TraceEntry.event).filterMap speechMark = [] := by
          simp [CallAudio.beginBargeIn, CallAudio.bargeInEvent, bridgeEvent, speechMark]
        rw [hnone, List.append_nil]
        exact h.log
      · exact h.active
      · intro e he
        obtain ⟨n, hn, hkey⟩ := h.numbered e he
        exact ⟨n, Nat.le_succ_of_le hn, hkey⟩
  | inputSpeechStarted =>
      obtain ⟨done', hended⟩ := h.endCallerSpeech false "superseded_by_new_start" now
      have hnumbered := hended.numbered
      simp only [Option.toList_none, List.append_nil] at hnumbered
      generalize hs : a.endCallerSpeech false "superseded_by_new_start" now = ended at hended hnumbered
      refine ⟨done', some ⟨some (ended.1.bargeInAlias (ended.1.speech.bargeInSequence + 1)), []⟩, ?_⟩
      simp only [CallAudio.beginBargeIn, hs]
      constructor
      · have hfresh : some (ended.1.bargeInAlias (ended.1.speech.bargeInSequence + 1)) ∉
            done'.map Episode.key := by
          rw [List.mem_map]
          rintro ⟨e, he, hkey⟩
          obtain ⟨n, hn, hkey'⟩ := hnumbered e he
          have := bargeInAlias_inj _ (Option.some.inj (hkey'.symm.trans hkey))
          omega
        have hlog := hended.log.start hfresh
        simp only [List.map_append, ← List.append_assoc, List.map_cons, List.map_nil]
        rw [List.filterMap_append]
        convert hlog using 2
        simp [speechMark, CallAudio.bargeInEvent, bridgeEvent]
      · rfl
      · intro e he
        rw [List.mem_append] at he
        rcases he with he | he
        · obtain ⟨n, hn, hkey⟩ := hnumbered e he
          exact ⟨n, Nat.le_succ_of_le hn, hkey⟩
        · obtain rfl : e = ⟨some (ended.1.bargeInAlias (ended.1.speech.bargeInSequence + 1)), []⟩ := by
            simpa using he
          exact ⟨_, le_rfl, rfl⟩

end Speech

/-! ## Every call -/

section Marks

variable (a : CallAudio)

theorem speechMark_endAssistantPlayback (ts : Datetime) (stopReason : String) :
    ((a.endAssistantPlayback ts stopReason).2.map TraceEntry.event).filterMap speechMark = [] := by
  unfold CallAudio.endAssistantPlayback
  split <;> simp [speechMark, bridgeEvent]

theorem speechMark_markOutputStarted (frame : OutputFrame) (nowMonotonic : ℚ) (now : Datetime)
    (durationMs : ℚ) :
    ((a.markOutputStarted frame nowMonotonic now).2.map TraceEntry.event ++
      [TraceEntry.frame durationMs]).filterMap speechMark = [] := by
  have hbegin : ∀ a : CallAudio, ((a.beginAssistantPlayback frame now).2.map
      TraceEntry.event).filterMap speechMark = [] := by
    intro a
    unfold CallAudio.beginAssistantPlayback
    split <;> simp [speechMark, bridgeEvent]
  unfold CallAudio.markOutputStarted
  simp only [List.map_append, List.filterMap_append, hbegin]
  split
  · rw [speechMark_endAssistantPlayback]
    rfl
  · rfl

theorem playbackMark_endCallerSpeech (completionObserved : Bool) (reason : String)
    (now : Datetime) :
    ((a.endCallerSpeech completionObserved reason now).2.map TraceEntry.event).filterMap
      playbackMark = [] := by
  unfold CallAudio.endCallerSpeech
  split <;> simp [playbackMark, bridgeEvent]

theorem playbackMark_beginBargeIn (trigger : BargeInTrigger) (controlReceivedAt now : Datetime) :
    ((a.beginBargeIn trigger controlReceivedAt now).2.map TraceEntry.event).filterMap
      playbackMark = [] := by
  cases trigger with
  | interrupted =>
      simp [CallAudio.beginBargeIn, CallAudio.bargeInEvent, bridgeEvent, playbackMark]
  | inputSpeechStarted =>
      simp only [CallAudio.beginBargeIn, List.map_append, List.filterMap_append,
        playbackMark_endCallerSpeech]
      simp [CallAudio.bargeInEvent, bridgeEvent, playbackMark]

end Marks

/-- The episodes of both kinds, none of them open in a call that is over. -/
structure Lifecycle (s : TracedCall) : Prop where
  bursts : ∃ done current, Bursts s.audio s.trace done current
  utterances : ∃ done current, Utterances s.audio s.trace done current
  closed : s.audio.closed = true →
    s.audio.burst.activeAlias = none ∧ s.audio.speech.activeAlias = none

theorem lifecycle_init {s : TracedCall} (h : callAudioMachine.init s) : Lifecycle s := by
  obtain ⟨htrace, hburst, hspeech, -⟩ := h
  refine ⟨⟨[], none, ?_⟩, ⟨[], none, ?_⟩, fun _ => by rw [hburst, hspeech]; exact ⟨rfl, rfl⟩⟩
  · refine ⟨by rw [htrace]; exact .nil, by rw [hburst]; rfl, ?_, by simp⟩
    intro e he
    cases he
  · exact ⟨by rw [htrace]; exact .nil, by rw [hspeech]; rfl, by simp⟩

/-- A call to the session that is still open after it. -/
theorem Lifecycle.of_open {s : TracedCall} (hopen : s.audio.closed = false)
    (hbursts : ∃ done current, Bursts s.audio s.trace done current)
    (hutterances : ∃ done current, Utterances s.audio s.trace done current) : Lifecycle s :=
  ⟨hbursts, hutterances, fun hclosed => by simp [hopen] at hclosed⟩

theorem lifecycle_next {s : TracedCall} {l : CallAudioStep} (hen : callAudioMachine.enabled s l)
    (hs : Lifecycle s) : Lifecycle (callAudioMachine.next s l) := by
  obtain ⟨hopen, hname⟩ := hen
  obtain ⟨⟨bursts, burst, hbursts⟩, ⟨utterances, utterance, hutterances⟩, -⟩ := hs
  cases l with
  | outputStarted frame nowMonotonic now =>
      obtain ⟨done, e, hstarted⟩ := hbursts.markOutputStarted frame nowMonotonic now
      have hkeep := @Utterances.keep _ (s.audio.markOutputStarted frame nowMonotonic now).1
        _ _ _ _ hutterances (by simp) (by simp) (speechMark_markOutputStarted s.audio frame
          nowMonotonic now (s.audio.frameDurationMs frame))
      rw [← List.append_assoc] at hkeep
      refine .of_open ?_ ⟨done, some e, hstarted⟩ ⟨utterances, utterance, hkeep⟩
      exact (CallAudio.closed_markOutputStarted _ _ _ _).trans hopen
  | outputPlayed frame nowMonotonic now =>
      refine .of_open hopen ⟨bursts, burst, ?_⟩
        ⟨utterances, utterance, ⟨hutterances.log, hutterances.active, hutterances.numbered⟩⟩
      have hkeep := @Bursts.keep _ (s.audio.markOutputPlayed frame nowMonotonic now) _ _ _ []
        hbursts
      rw [List.append_nil] at hkeep
      unfold CallAudio.markOutputPlayed at hkeep
      exact hkeep (by split <;> rfl) (by split <;> rfl) (by split <;> rfl) rfl rfl
  | outputEnded now =>
      obtain ⟨done, hended⟩ := hbursts.endAssistantPlayback (s.audio.burst.lastPlayedTs.getD now)
        "stream_ended"
      refine .of_open ?_ ⟨done, none, hended⟩ ⟨utterances, utterance, ?_⟩
      · exact (CallAudio.closed_endAssistantPlayback _ _ _).trans hopen
      · exact hutterances.keep (CallAudio.speech_endAssistantPlayback _ _ _)
          (CallAudio.bargeInSessionAlias_endAssistantPlayback _ _ _)
          (speechMark_endAssistantPlayback _ _ _)
  | inputSpeechStopped now =>
      obtain ⟨done, hended⟩ := hutterances.endCallerSpeech true "provider_speech_stopped" now
      have hburst := CallAudio.burst_endCallerSpeech s.audio now "provider_speech_stopped" true
      refine .of_open ?_ ⟨bursts, burst, ?_⟩ ⟨done, none, hended⟩
      · exact (CallAudio.closed_endCallerSpeech _ _ _ _).trans hopen
      · exact hbursts.keep (congrArg _ hburst) (congrArg _ hburst) (congrArg _ hburst)
          (CallAudio.playbackSessionAlias_endCallerSpeech _ _ _ _)
          (playbackMark_endCallerSpeech _ _ _ _)
  | beginBargeIn trigger controlReceivedAt now =>
      obtain ⟨done, current, hbegun⟩ := hutterances.beginBargeIn trigger controlReceivedAt now
      have hburst := CallAudio.burst_beginBargeIn s.audio now trigger controlReceivedAt
      refine .of_open ?_ ⟨bursts, burst, ?_⟩ ⟨done, current, hbegun⟩
      · exact (CallAudio.closed_beginBargeIn _ _ _ _).trans hopen
      · exact hbursts.keep (congrArg _ hburst) (congrArg _ hburst) (congrArg _ hburst)
          (CallAudio.playbackSessionAlias_beginBargeIn _ _ _ _)
          (playbackMark_beginBargeIn _ _ _ _)
  | cutPlayback now =>
      obtain ⟨done, hended⟩ := hbursts.endAssistantPlayback now "barge_in"
      refine .of_open ?_
        ⟨done, none, ⟨hended.log, hended.active, hended.written, hended.numbered⟩⟩
        ⟨utterances, utterance, ?_⟩
      · exact (CallAudio.closed_endAssistantPlayback _ _ _).trans hopen
      · exact hutterances.keep (CallAudio.speech_endAssistantPlayback _ _ _)
          (CallAudio.bargeInSessionAlias_endAssistantPlayback _ _ _)
          (speechMark_endAssistantPlayback _ _ _)
  | observe event =>
      have hother := hname event rfl
      simp only [lifecycleNames, List.mem_cons, List.not_mem_nil, or_false, not_or] at hother
      exact .of_open hopen
        ⟨bursts, burst, hbursts.keep rfl rfl rfl rfl (by simp [playbackMark, hother])⟩
        ⟨utterances, utterance, hutterances.keep rfl rfl (by simp [speechMark, hother])⟩
  | setPositions positions =>
      exact .of_open hopen
        ⟨bursts, burst, ⟨hbursts.log, hbursts.active, hbursts.written, hbursts.numbered⟩⟩
        ⟨utterances, utterance, ⟨hutterances.log, hutterances.active, hutterances.numbered⟩⟩
  | endCall speechEnd playbackEnd =>
      -- the speech ends first, then the playback, of the session that is closed
      have hclosedBursts : Bursts { s.audio with closed := true } s.trace bursts burst :=
        ⟨hbursts.log, hbursts.active, hbursts.written, hbursts.numbered⟩
      have hclosedUtterances :
          Utterances { s.audio with closed := true } s.trace utterances utterance :=
        ⟨hutterances.log, hutterances.active, hutterances.numbered⟩
      obtain ⟨done, hspeech⟩ := hclosedUtterances.endCallerSpeech false "call_closed" speechEnd
      have hnext : s.audio.endCall speechEnd playbackEnd =
          let speech :=
            { s.audio with closed := true }.endCallerSpeech false "call_closed" speechEnd
          let playback := speech.1.markOutputEnded "call_closed" playbackEnd
          (playback.1, speech.2 ++ playback.2) := by
        simp [CallAudio.endCall, hopen]
      have hkept : Bursts
          ({ s.audio with closed := true }.endCallerSpeech false "call_closed" speechEnd).1
          (s.trace ++ ({ s.audio with closed := true }.endCallerSpeech false "call_closed"
            speechEnd).2.map .event) bursts burst :=
        hclosedBursts.keep (by simp) (by simp) (by simp) (by simp)
          (playbackMark_endCallerSpeech _ _ _ _)
      generalize { s.audio with closed := true }.endCallerSpeech false "call_closed" speechEnd =
        speech at hspeech hkept hnext
      obtain ⟨done', hplayback⟩ := hkept.endAssistantPlayback
        (speech.1.burst.lastPlayedTs.getD playbackEnd) "call_closed"
      have hquiet : speech.1.speech.activeAlias = none := by simpa using hspeech.active.symm
      have hkeep := @Utterances.keep _ (speech.1.markOutputEnded "call_closed" playbackEnd).1
        _ _ _ _ hspeech (by simp [CallAudio.markOutputEnded]) (by simp [CallAudio.markOutputEnded])
        (speechMark_endAssistantPlayback speech.1 (speech.1.burst.lastPlayedTs.getD playbackEnd)
          "call_closed")
      change Lifecycle (s.observing (s.audio.endCall speechEnd playbackEnd))
      rw [hnext]
      refine ⟨⟨done', none, ?_⟩, ⟨done, none, ?_⟩, fun _ => ⟨?_, ?_⟩⟩
      · simpa only [TracedCall.observing, CallAudio.markOutputEnded, List.map_append,
          List.append_assoc] using hplayback
      · simpa only [TracedCall.observing, CallAudio.markOutputEnded, List.map_append,
          List.append_assoc] using hkeep
      · exact CallAudio.activeAlias_endAssistantPlayback _ _ _
      · exact (congrArg _ (CallAudio.speech_endAssistantPlayback _ _ _)).trans hquiet

/-- In every order of what happens to a call, its playback bursts and the caller's
utterances are episodes of the trace: starts and stops alternate with equal aliases, no
alias is used twice, a burst stops with the duration of the frames that were started in it,
and in a call that is over every start has its stop. -/
theorem lifecycles {s : TracedCall} (hs : callAudioMachine.Reachable s) :
    (∃ bursts burst, EpisodeLog writtenAudio (s.trace.filterMap playbackMark) bursts burst ∧
      (s.audio.closed = true → burst = none)) ∧
    ∃ utterances utterance,
      EpisodeLog (fun _ => ()) (s.trace.filterMap speechMark) utterances utterance ∧
      (s.audio.closed = true → utterance = none) := by
  have hinv : Lifecycle s :=
    hs.invariant (fun _ => lifecycle_init) fun _ _ => lifecycle_next
  obtain ⟨bursts, burst, hbursts⟩ := hinv.bursts
  obtain ⟨utterances, utterance, hutterances⟩ := hinv.utterances
  refine ⟨⟨bursts, burst, hbursts.log, fun hclosed => ?_⟩,
    ⟨utterances, utterance, hutterances.log, fun hclosed => ?_⟩⟩
  · simpa [(hinv.closed hclosed).1] using hbursts.active
  · simpa [(hinv.closed hclosed).2] using hutterances.active

/-- A burst that a speaking caller cuts off. -/
def interruptedCall : List CallAudioStep :=
  [.outputStarted { frameType := 0x10, payload := [0, 0] } 0 (.utc 0),
    .beginBargeIn .inputSpeechStarted (.utc 10) (.utc 10), .cutPlayback (.utc 10),
    .endCall (.utc 20) (.utc 20)]

/-- The trace of that call. -/
def interruptedTrace : TracedCall :=
  callAudioMachine.exec ⟨.initial "a" "b", []⟩ interruptedCall

theorem lifecycles_interruptedCall :
    ∃ bursts, EpisodeLog writtenAudio (interruptedTrace.trace.filterMap playbackMark)
      bursts none := by
  have hreachable : callAudioMachine.Reachable interruptedTrace :=
    ⟨_, interruptedCall, ⟨rfl, rfl, rfl, rfl⟩, by decide +kernel, rfl⟩
  obtain ⟨⟨bursts, burst, hlog, hover⟩, -⟩ := lifecycles hreachable
  obtain rfl := hover (by decide +kernel)
  exact ⟨bursts, hlog⟩

end VoxBench.Telephony
