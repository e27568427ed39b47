import VoxBench.ControlPlane.Ingest
import VoxBench.Observability.Observer
import VoxBench.Lib.Traverse

/-!
# Batches on the wire

An observer's batch is sent as JSON and validated against `ObservationBatchRequest` before
the handler sees it. The validation is written against the server's models, independently
of what the observer checks. Which timestamps the datetime parser accepts is a parameter.

## Main definitions

* `validateMetric`, `validateAudioChunk`, `validateTimelineEvent` — one item.
* `validateBatch` — a whole request.

## Main results

* `exists_validateBatch` — what it takes for a batch to pass.
-/

namespace VoxBench.Observability

open VoxBench.Lib VoxBench.ControlPlane

/-! ## Texts -/

/-- Why a request is answered with 422: a constraint of a field, or a `ValueError` of a
validator. -/
inductive RequestError where
  | constraint (field : String)
  | valueError (message : String)
  deriving DecidableEq, Repr

/-- `SENSITIVE_TEXT_MARKERS`. -/
def sensitiveTextMarkers : List String := ["http://", "https://", "<@", "slack://"]

/-- The text has none of the markers, in whatever case. -/
def Unmarked (value : String) : Prop :=
  ∀ marker ∈ sensitiveTextMarkers, ¬ Text.Contains (Text.lower (Text.strip value).toList) marker

instance (value : String) : Decidable (Unmarked value) :=
  inferInstanceAs (Decidable (∀ marker ∈ sensitiveTextMarkers,
    ¬ Text.Contains (Text.lower (Text.strip value).toList) marker))

/-- `_validate_reference_text`. -/
def validateReferenceText (value fieldName : String) : Except RequestError String :=
  if Unmarked value then .ok (Text.strip value)
  else .error (.valueError (fieldName ++ " must use an alias/reference, not a URL or Slack ID"))

/-- A text field with its length constraints. -/
def validateText (value fieldName : String) (maxLength : ℕ) : Except RequestError String :=
  if 1 ≤ value.length ∧ value.length ≤ maxLength then validateReferenceText value fieldName
  else .error (.constraint fieldName)

/-- A check of a field that may be absent. -/
def validateOptional {α β : Type} (validate : α → Except RequestError β) :
    Option α → Except RequestError (Option β)
  | none => .ok none
  | some value => (validate value).map some

/-- A constraint on a field. -/
def require (fieldName : String) (holds : Bool) : Except RequestError Unit :=
  if holds then .ok () else .error (.constraint fieldName)

/-- A float with `allow_inf_nan=False`. -/
def validateFloat (fieldName : String) (value : PyFloat) : Except RequestError ℚ :=
  match value with
  | .finite q => .ok q
  | _ => .error (.constraint fieldName)

/-- `_timestamp`: a naive time is sent as UTC. -/
def timestamp (ts : Datetime) : Datetime := ⟨ts.wall, some (ts.utcoffset.getD 0)⟩

/-! ## Items -/

section Items

variable (parses : Datetime → Bool)

/-- The `ts` of a payload, if the datetime parser accepts it. -/
def validateTs (ts : Datetime) : Except RequestError Datetime :=
  if parses (timestamp ts) then .ok (timestamp ts) else .error (.constraint "ts")

/-- `MetricObservationRequest`. -/
def validateMetric (m : MetricPoint) : Except RequestError MetricObservationRequest := do
  let value ← validateFloat "value" m.value
  let ts ← validateTs parses m.ts
  let stage ← validateOptional (validateReferenceText · "stage") m.stage
  let name ← validateReferenceText m.name "name"
  return { stage, name, value, ts }

/-- `AudioChunkObservationRequest`. -/
def validateAudioChunk (c : AudioChunk) : Except RequestError AudioChunkObservationRequest := do
  let pcmS16leBase64 := Base64.encode c.pcmS16le
  require "pcm_s16le_base64" (pcmS16leBase64.length ≤ 1400000)
  require "sample_rate_hz" (8000 ≤ c.sampleRateHz ∧ c.sampleRateHz ≤ 48000)
  require "channels" (1 ≤ c.channels ∧ c.channels ≤ 2)
  let ts ← validateTs parses c.ts
  let stage ← validateReferenceText c.stage "stage"
  return { stage, pcmS16leBase64, sampleRateHz := c.sampleRateHz, channels := c.channels, ts }

/-- `SipEventObservationRequest`. -/
def validateSipEvent (e : SipEvent) : Except RequestError SipEventObservationRequest := do
  let ts ← validateTs parses e.ts
  let callId ← validateOptional (validateReferenceText · "call_id") e.callId
  let method ← validateReferenceText e.method "method"
  let summaryAlias ← validateOptional (validateReferenceText · "summary_alias") e.summaryAlias
  return { callId, method, direction := e.direction, ts, statusCode := e.statusCode, summaryAlias }

/-- A measurement with its bounds. -/
def validateMeasure (fieldName : String) (upper : Option ℚ) (value : PyFloat) :
    Except RequestError ℚ := do
  let q ← validateFloat fieldName value
  require fieldName (0 ≤ q ∧ ∀ u ∈ upper, q ≤ u)
  return q

/-- `RtpStatObservationRequest`. -/
def validateRtpStats (r : RtpStats) : Except RequestError RtpStatObservationRequest := do
  let ts ← validateTs parses r.ts
  let jitterMs ← validateOptional (validateMeasure "jitter_ms" none) r.jitterMs
  let lossPct ← validateOptional (validateMeasure "loss_pct" (some 100)) r.lossPct
  let mos ← validateOptional (validateMeasure "mos" (some 5)) r.mos
  let rttMs ← validateOptional (validateMeasure "rtt_ms" none) r.rttMs
  return { ts, jitterMs, lossPct, mos, direction := r.direction, rttMs }

/-- One attribute of `validate_attributes`. -/
def validateAttribute (entry : String × AttrValue) : Except RequestError (String × AttrValue) := do
  let safeKey ← validateReferenceText entry.1 "attributes key"
  if safeKey = "" ∨ safeKey.length > 64 then
    .error (.valueError "attribute keys must contain 1 to 64 characters")
  else
    match entry.2 with
    | .str text => do
        let item ← validateReferenceText text ("attribute '" ++ safeKey ++ "'")
        if item.length > 256 then
          .error (.valueError "string attribute values must not exceed 256 characters")
        else return (safeKey, .str item)
    | item => return (safeKey, item)

/-- `TimelineEventObservationRequest`. -/
def validateTimelineEvent (e : TimelineEvent) :
    Except RequestError TimelineEventObservationRequest := do
  require "alignment_uncertainty_ms" (∀ q ∈ e.alignmentUncertaintyMs, 0 ≤ q)
  require "attributes" (e.attributes.length ≤ 16)
  let ts ← validateTs parses e.ts
  let eventId ← validateText e.eventId "event_id" 128
  let name ← validateText e.name "name" 128
  let clockDomain ← validateText e.clockDomain "clock_domain" 64
  let direction ← validateOptional (validateText · "direction" 32) e.direction
  let stage ← validateOptional (validateText · "stage" 255) e.stage
  let streamAlias ← validateOptional (validateText · "stream_alias" 128) e.streamAlias
  let source ← validateText e.source "source" 128
  let correlationAlias ←
    validateOptional (validateText · "correlation_alias" 128) e.correlationAlias
  let attributes ← e.attributes.mapM validateAttribute
  return { eventId, category := e.category, name, ts, clockDomain,
           alignmentUncertaintyMs := e.alignmentUncertaintyMs, direction, stage, streamAlias,
           source, correlationAlias, attributes }

/-- `ObservationBatchRequest`. -/
def validateBatch (b : ObservationBatch Item) : Except RequestError ObservationBatchRequest := do
  require "metrics" ((b.items .metrics).length ≤ 500)
  require "audio_chunks" ((b.items .audioChunks).length ≤ 64)
  require "sip_events" ((b.items .sipEvents).length ≤ 64)
  require "rtp_stats" ((b.items .rtpStats).length ≤ 64)
  require "timeline_events" ((b.items .timelineEvents).length ≤ 128)
  let metrics ← (b.items .metrics).mapM (validateMetric parses)
  let audioChunks ← (b.items .audioChunks).mapM (validateAudioChunk parses)
  let sipEvents ← (b.items .sipEvents).mapM (validateSipEvent parses)
  let rtpStats ← (b.items .rtpStats).mapM (validateRtpStats parses)
  let timelineEvents ← (b.items .timelineEvents).mapM (validateTimelineEvent parses)
  if b.itemCount = 0 then .error (.valueError "at least one observation is required")
  else if h : (timelineEvents.map TimelineEventObservationRequest.eventId).Nodup then
    return { runId := b.runId, metrics, audioChunks, sipEvents, rtpStats, timelineEvents,
             events_unique := h }
  else .error (.valueError "timeline event_id values must be unique within a batch")

end Items

/-! ## Texts that pass -/

section Texts

variable {value stage : String} {maxLength n : ℕ}

/-- A text within its length and without markers. -/
structure TextOk (value : String) (maxLength : ℕ) : Prop where
  nonempty : 1 ≤ value.length
  short : value.length ≤ maxLength
  unmarked : Unmarked value

instance (value : String) (maxLength : ℕ) : Decidable (TextOk value maxLength) :=
  decidable_of_iff (1 ≤ value.length ∧ value.length ≤ maxLength ∧ Unmarked value)
    ⟨fun ⟨h₁, h₂, h₃⟩ => ⟨h₁, h₂, h₃⟩, fun ⟨h₁, h₂, h₃⟩ => ⟨h₁, h₂, h₃⟩⟩

theorem validateReferenceText_eq_ok (h : Unmarked value) (fieldName : String) :
    validateReferenceText value fieldName = .ok (Text.strip value) := if_pos h

theorem validateText_eq_ok (h : TextOk value maxLength) (fieldName : String) :
    validateText value fieldName maxLength = .ok (Text.strip value) := by
  rw [validateText, if_pos ⟨h.nonempty, h.short⟩, validateReferenceText_eq_ok h.unmarked]

theorem SafeReference.textOk (h : SafeReference value maxLength) : TextOk value maxLength := by
  refine ⟨?_, h.short, ?_⟩
  · by_contra hzero
    have hlength : value.length = 0 := by omega
    exact h.nonempty (String.length_eq_zero_iff.mp hlength)
  · intro marker hmarker
    rw [h.stripped]
    exact h.unmarked marker hmarker

/-- Every marker has a slash or an at sign, and ends with it. -/
theorem marker_spec {marker : String} (h : marker ∈ sensitiveTextMarkers) :
    ∃ text last, marker.toList = text ++ [last] ∧ (last = '/' ∨ last = '@') ∧
      ∀ c ∈ marker.toList, Text.isSpace c = false := by
  simp only [sensitiveTextMarkers, List.mem_cons, List.not_mem_nil, or_false] at h
  rcases h with rfl | rfl | rfl | rfl
  · exact ⟨"http:/".toList, '/', by decide, .inl rfl, by decide⟩
  · exact ⟨"https:/".toList, '/', by decide, .inl rfl, by decide⟩
  · exact ⟨"<".toList, '@', by decide, .inr rfl, by decide⟩
  · exact ⟨"slack:/".toList, '/', by decide, .inl rfl, by decide⟩

/-- Text without those two characters has no marker. -/
theorem unmarked_of_chars (hstrip : Text.strip value = value)
    (h : ∀ c ∈ Text.lower value.toList, c ≠ '/' ∧ c ≠ '@') : Unmarked value := by
  intro marker hmarker hcontains
  rw [hstrip] at hcontains
  obtain ⟨text, last, hlast, hchar, -⟩ := marker_spec hmarker
  have hmem : last ∈ Text.lower value.toList := by
    refine hcontains.subset ?_
    rw [hlast]
    simp
  rcases hchar with rfl | rfl
  · exact (h _ hmem).1 rfl
  · exact (h _ hmem).2 rfl

/-- A text that starts with a letter and ends with a number is not stripped. -/
theorem strip_append_repr {text : String} (htext : ∃ c rest, text.toList = c :: rest ∧
    Text.isSpace c = false) : Text.strip (text ++ n.repr) = text ++ n.repr := by
  obtain ⟨c, rest, hc, hspace⟩ := htext
  apply Text.strip_eq_self
  · intro d hd
    rw [String.toList_append, hc] at hd
    cases hd
    exact hspace
  · intro d hd
    rw [String.toList_append, List.getLast?_append_of_ne_nil _ (Text.repr_toList_ne_nil n)] at hd
    exact (Text.digit_spec (Text.isDigit_of_mem_repr (List.mem_of_getLast? hd))).1

theorem lower_repr (n : ℕ) : Text.lower n.repr.toList = n.repr.toList := by
  have hall : ∀ c ∈ n.repr.toList, Text.lowerChar c = [c] := fun c hc =>
    (Text.digit_spec (Text.isDigit_of_mem_repr hc)).2.1
  rw [Text.lower, List.flatMap_congr hall]
  simp

theorem strip_eventId (family : EventFamily) (n : ℕ) :
    Text.strip (eventId family n) = eventId family n := by
  cases family with
  | rtpPacket => exact strip_append_repr ⟨'r', "tp-packet:".toList, by decide, by decide⟩
  | rtpCaptureHealth =>
      exact strip_append_repr ⟨'r', "tp-capture-health:".toList, by decide, by decide⟩
  | pcmDiscontinuity =>
      exact strip_append_repr ⟨'p', "cm-discontinuity:".toList, by decide, by decide⟩

theorem unmarked_eventId (family : EventFamily) (n : ℕ) : Unmarked (eventId family n) := by
  apply unmarked_of_chars (strip_eventId family n)
  intro c hc
  rw [eventId_toList, Text.lower, List.flatMap_append, List.mem_append] at hc
  rcases hc with hc | hc
  · have hall : ∀ c ∈ family.text.toList.flatMap Text.lowerChar, c ≠ '/' ∧ c ≠ '@' := by
      cases family <;> decide
    exact hall c hc
  · have hc' : c ∈ n.repr.toList := by
      rw [← lower_repr]
      exact hc
    have hnot := (Text.digit_spec (Text.isDigit_of_mem_repr hc')).2.2
    simp only [List.mem_cons, not_or] at hnot
    exact ⟨hnot.1, hnot.2.1⟩

/-- An occurrence that ends with a character of the first part lies in it. -/
theorem infix_of_last_notMem {text x y : List Char} {last : Char} (hlast : last ∉ y)
    (h : text ++ [last] <:+: x ++ y) : text ++ [last] <:+: x := by
  rcases Text.infix_append_cases h with hin | hin | ⟨m₁, m₂, hm, -, hne, -, hpre⟩
  · exact hin
  · exact absurd (hin.subset (by simp)) hlast
  · have hmem : last ∈ m₂ := by
      have hlast? := congrArg List.getLast? hm
      rw [List.getLast?_append_of_ne_nil _ hne, List.getLast?_concat] at hlast?
      exact List.mem_of_getLast? hlast?.symm
    exact absurd (hpre.subset hmem) hlast

theorem lowerChar_of_isSpace {c : Char} (h : Text.isSpace c = true) : Text.lowerChar c = [c] := by
  simp only [Text.isSpace, Bool.or_eq_true, Bool.and_eq_true, decide_eq_true_eq] at h
  have hupper : ¬ ('A' ≤ c ∧ c ≤ 'Z') := by
    rintro ⟨hlo, hhi⟩
    have hlo' : 65 ≤ c.toNat := hlo
    have hhi' : c.toNat ≤ 90 := hhi
    omega
  rw [Text.lowerChar, if_neg hupper, if_neg (by omega), if_neg (by omega)]

/-- Spaces around a text do not hide a marker. -/
theorem not_contains_lower {marker : String} (hmarker : marker ∈ sensitiveTextMarkers)
    (h : Unmarked value) : ¬ marker.toList <:+: Text.lower value.toList := by
  intro hcontains
  obtain ⟨text, last, hlast, -, hspaces⟩ := marker_spec hmarker
  have hne : marker.toList ≠ [] := by simp [hlast]
  obtain ⟨before, after, hvalue, hbefore, hafter⟩ := Text.exists_stripChars value.toList
  have hlower : ∀ cs : List Char, (∀ c ∈ cs, Text.isSpace c = true) → Text.lower cs = cs := by
    intro cs hcs
    rw [Text.lower, List.flatMap_congr fun c hc => lowerChar_of_isSpace (hcs c hc)]
    simp
  have hnot : ∀ cs : List Char, (∀ c ∈ cs, Text.isSpace c = true) → ∀ c ∈ cs, c ∉ marker.toList := by
    intro cs hcs c hc hmem
    have hspace := hcs c hc
    rw [hspaces c hmem] at hspace
    cases hspace
  rw [hvalue, Text.lower, List.flatMap_append, List.flatMap_append] at hcontains
  change marker.toList <:+: Text.lower before ++ Text.lower _ ++ Text.lower after at hcontains
  rw [hlower before hbefore, hlower after hafter] at hcontains
  have hcore := Text.infix_of_infix_append_left hne (hnot before hbefore)
    (Text.infix_of_infix_append_right hne (hnot after hafter) hcontains)
  apply h marker hmarker
  rw [Text.Contains, Text.strip, String.toList_ofList]
  exact hcore

/-- The alias of a discontinuity has no marker that the stage has not. -/
theorem unmarked_discontinuityAlias (h : Unmarked stage) :
    Unmarked (Collector.discontinuityAlias stage n) := by
  have hcolon : ":".toList = [':'] := by decide
  have hhead : "pcm-discontinuity:".toList = 'p' :: "cm-discontinuity:".toList := by decide
  have hlist : (Collector.discontinuityAlias stage n).toList =
      "pcm-discontinuity:".toList ++ (stage.toList ++ ':' :: n.repr.toList) := by
    unfold Collector.discontinuityAlias
    rw [String.toList_append, String.toList_append, String.toList_append, List.append_assoc,
      List.append_assoc, hcolon, List.singleton_append]
  have hstrip : Text.strip (Collector.discontinuityAlias stage n) =
      Collector.discontinuityAlias stage n := by
    refine strip_append_repr ⟨'p', "cm-discontinuity:".toList ++ stage.toList ++ [':'], ?_, by decide⟩
    rw [String.toList_append, String.toList_append, hcolon, hhead, List.cons_append,
      List.cons_append]
  intro marker hmarker hcontains
  rw [hstrip, Text.Contains, hlist, Text.lower, List.flatMap_append, List.flatMap_append]
    at hcontains
  obtain ⟨text, last, hlast, hchar, -⟩ := marker_spec hmarker
  -- no proper beginning of a marker ends the fixed part
  have hborder : ∀ m ∈ sensitiveTextMarkers, ∀ k < m.toList.length, 0 < k →
      ¬ m.toList.take k <:+ "pcm-discontinuity:".toList.flatMap Text.lowerChar := by
    decide +kernel
  have hfixed : ∀ m ∈ sensitiveTextMarkers,
      ¬ m.toList <:+: "pcm-discontinuity:".toList.flatMap Text.lowerChar := by decide +kernel
  have hnumber : last ∉ (':' :: n.repr.toList).flatMap Text.lowerChar := by
    have hdigits : (':' :: n.repr.toList).flatMap Text.lowerChar = ':' :: n.repr.toList := by
      rw [List.flatMap_cons, show Text.lowerChar ':' = [':'] by decide]
      exact congrArg _ (lower_repr n)
    rw [hdigits]
    intro hmem
    rcases List.mem_cons.mp hmem with rfl | hmem
    · rcases hchar with hchar | hchar <;> cases hchar
    · have hnot := (Text.digit_spec (Text.isDigit_of_mem_repr hmem)).2.2
      rcases hchar with rfl | rfl <;> simp at hnot
  rcases Text.infix_append_cases hcontains with hin | hin | ⟨m₁, m₂, hm, hne, hne', hsuffix, -⟩
  · exact hfixed marker hmarker hin
  · rw [hlast] at hin
    have hstage := infix_of_last_notMem hnumber hin
    rw [← hlast] at hstage
    exact not_contains_lower hmarker h hstage
  · have hlength : m₁.length < marker.toList.length := by
      have := List.length_pos_of_ne_nil hne'
      rw [hm, List.length_append]
      omega
    refine hborder marker hmarker m₁.length hlength (List.length_pos_of_ne_nil hne) ?_
    rw [hm, List.take_left]
    exact hsuffix

end Texts

/-! ## Items that pass -/

section Passing

variable {parses : Datetime → Bool}

theorem validateTs_eq_ok {ts : Datetime} (h : parses (timestamp ts) = true) :
    validateTs parses ts = .ok (timestamp ts) := if_pos h

theorem require_eq_ok {fieldName : String} {holds : Bool} (h : holds = true) :
    require fieldName holds = .ok () := if_pos h

/-- A check of a field that may be absent passes when it passes on the value. -/
theorem exists_validateOptional {α β : Type} {validate : α → Except RequestError β} {o : Option α}
    (h : ∀ a ∈ o, ∃ b, validate a = .ok b) : ∃ o', validateOptional validate o = .ok o' := by
  cases o with
  | none => exact ⟨none, rfl⟩
  | some a =>
      obtain ⟨b, hb⟩ := h a rfl
      exact ⟨some b, by simp [validateOptional, hb, Except.map]⟩

theorem exists_validateMetric {m : MetricPoint} {q : ℚ} (hvalue : m.value = .finite q)
    (hts : parses (timestamp m.ts) = true) (hstage : ∀ s ∈ m.stage, Unmarked s)
    (hname : Unmarked m.name) : ∃ r, validateMetric parses m = .ok r := by
  obtain ⟨stage, hstage⟩ := exists_validateOptional
    fun s hs => ⟨_, validateReferenceText_eq_ok (hstage s hs) "stage"⟩
  refine ⟨⟨stage, Text.strip m.name, q, timestamp m.ts⟩, ?_⟩
  simp [validateMetric, hvalue, validateFloat, validateTs_eq_ok hts, hstage,
    validateReferenceText_eq_ok hname, bind, Except.bind, pure, Except.pure]

/-- A chunk passes, and what is decoded of it is what was sent. -/
theorem exists_validateAudioChunk {c : AudioChunk} (hpcm : c.pcmS16le ≠ [])
    (hframes : c.pcmS16le.length % (2 * c.channels) = 0) (hlength : c.pcmS16le.length ≤ 1050000)
    (hrate : 8000 ≤ c.sampleRateHz ∧ c.sampleRateHz ≤ 48000)
    (hchannels : 1 ≤ c.channels ∧ c.channels ≤ 2) (hts : parses (timestamp c.ts) = true)
    (hstage : Unmarked c.stage) :
    ∃ r, validateAudioChunk parses c = .ok r ∧ decodeAudioChunk r = .ok c.pcmS16le := by
  have hbase64 : (Base64.encode c.pcmS16le).length ≤ 1400000 := by
    rw [Base64.length_encode]
    omega
  refine ⟨⟨Text.strip c.stage, Base64.encode c.pcmS16le, c.sampleRateHz, c.channels,
    timestamp c.ts⟩, ?_, ?_⟩
  · simp [validateAudioChunk, require, hbase64, hrate, hchannels, validateTs_eq_ok hts,
      validateReferenceText_eq_ok hstage, bind, Except.bind, pure, Except.pure]
  · simp [decodeAudioChunk, hpcm, hframes]

/-- An attribute with a short, unmarked key and, if it is a text, an unmarked text. -/
theorem exists_validateAttribute {key : String} {item : AttrValue} (hkey : Unmarked key)
    (hlength : Text.strip key ≠ "" ∧ (Text.strip key).length ≤ 64)
    (hitem : ∀ text, item = .str text → Unmarked text ∧ (Text.strip text).length ≤ 256) :
    ∃ r, validateAttribute (key, item) = .ok r := by
  have hfits : ¬ (Text.strip key = "" ∨ (Text.strip key).length > 64) := by
    rintro (hempty | hlong)
    · exact hlength.1 hempty
    · omega
  cases item with
  | str text =>
      obtain ⟨htext, hshort⟩ := hitem text rfl
      have hshort' : ¬ (Text.strip text).length > 256 := by omega
      refine ⟨(Text.strip key, .str (Text.strip text)), ?_⟩
      simp [validateAttribute, validateReferenceText_eq_ok hkey, hfits, hshort',
        validateReferenceText_eq_ok htext, bind, Except.bind, pure, Except.pure]
  | int n => exact ⟨(Text.strip key, .int n), by
      simp [validateAttribute, validateReferenceText_eq_ok hkey, hfits, bind, Except.bind, pure,
        Except.pure]⟩
  | float q => exact ⟨(Text.strip key, .float q), by
      simp [validateAttribute, validateReferenceText_eq_ok hkey, hfits, bind, Except.bind, pure,
        Except.pure]⟩
  | bool b => exact ⟨(Text.strip key, .bool b), by
      simp [validateAttribute, validateReferenceText_eq_ok hkey, hfits, bind, Except.bind, pure,
        Except.pure]⟩
  | null => exact ⟨(Text.strip key, .null), by
      simp [validateAttribute, validateReferenceText_eq_ok hkey, hfits, bind, Except.bind, pure,
        Except.pure]⟩

/-- An event whose texts fit passes, with its id. -/
theorem exists_validateTimelineEvent {e : TimelineEvent}
    (huncertainty : ∀ q ∈ e.alignmentUncertaintyMs, 0 ≤ q)
    (hts : parses (timestamp e.ts) = true) (hid : TextOk e.eventId 128)
    (hstrip : Text.strip e.eventId = e.eventId) (hname : TextOk e.name 128)
    (hdomain : TextOk e.clockDomain 64) (hdirection : ∀ d ∈ e.direction, TextOk d 32)
    (hstage : ∀ s ∈ e.stage, TextOk s 255) (hstream : ∀ a ∈ e.streamAlias, TextOk a 128)
    (hsource : TextOk e.source 128) (hcorrelation : ∀ a ∈ e.correlationAlias, TextOk a 128)
    (hcount : e.attributes.length ≤ 16)
    (hattributes : ∀ a ∈ e.attributes, ∃ r, validateAttribute a = .ok r) :
    ∃ r, validateTimelineEvent parses e = .ok r ∧ r.eventId = e.eventId := by
  obtain ⟨direction, hdirection⟩ := exists_validateOptional
    fun d hd => ⟨_, validateText_eq_ok (hdirection d hd) "direction"⟩
  obtain ⟨stage, hstage⟩ := exists_validateOptional
    fun s hs => ⟨_, validateText_eq_ok (hstage s hs) "stage"⟩
  obtain ⟨streamAlias, hstream⟩ := exists_validateOptional
    fun a ha => ⟨_, validateText_eq_ok (hstream a ha) "stream_alias"⟩
  obtain ⟨correlationAlias, hcorrelation⟩ := exists_validateOptional
    fun a ha => ⟨_, validateText_eq_ok (hcorrelation a ha) "correlation_alias"⟩
  obtain ⟨attributes, hattributes⟩ := exists_mapM hattributes
  refine ⟨⟨e.eventId, e.category, Text.strip e.name, timestamp e.ts, Text.strip e.clockDomain,
    e.alignmentUncertaintyMs, direction, stage, streamAlias, Text.strip e.source,
    correlationAlias, attributes⟩, ?_, rfl⟩
  simp only [validateTimelineEvent, require_eq_ok (decide_eq_true huncertainty),
    require_eq_ok (decide_eq_true hcount), validateTs_eq_ok hts, validateText_eq_ok hid, hstrip,
    validateText_eq_ok hname, validateText_eq_ok hdomain, hdirection, hstage, hstream,
    validateText_eq_ok hsource, hcorrelation, hattributes, bind, Except.bind, pure, Except.pure]

/-! ## Batches -/

variable {b : ObservationBatch Item} {request : ObservationBatchRequest}

/-- What a request that passed has of the audio and the timeline of its batch. -/
theorem validateBatch_spec (h : validateBatch parses b = .ok request) :
    List.Forall₂ (fun c r => validateAudioChunk parses c = .ok r) (b.items .audioChunks)
        request.audioChunks ∧
      List.Forall₂ (fun e r => validateTimelineEvent parses e = .ok r) (b.items .timelineEvents)
        request.timelineEvents := by
  simp only [validateBatch, bind_eq_ok] at h
  obtain ⟨-, -, -, -, -, -, -, -, -, -, metrics, -, audioChunks, haudio, sipEvents, -, rtpStats, -,
    timelineEvents, htimeline, h⟩ := h
  split at h
  · cases h
  · split at h
    · cases h
      exact ⟨mapM_eq_ok_iff.mp haudio, mapM_eq_ok_iff.mp htimeline⟩
    · cases h

theorem runId_of_validateBatch (h : validateBatch parses b = .ok request) :
    request.runId = b.runId := by
  simp only [validateBatch, bind_eq_ok] at h
  obtain ⟨-, -, -, -, -, -, -, -, -, -, metrics, -, audioChunks, -, sipEvents, -, rtpStats, -,
    timelineEvents, -, h⟩ := h
  split at h
  · cases h
  · split at h
    · cases h
      rfl
    · cases h

/-- Validation keeps the ids of events whose ids it does not strip. -/
theorem map_eventId_of_forall₂ {events : List TimelineEvent}
    {requests : List TimelineEventObservationRequest}
    (h : List.Forall₂ (fun e r => validateTimelineEvent parses e = .ok r) events requests)
    (hid : ∀ e ∈ events, ∀ r, validateTimelineEvent parses e = .ok r → r.eventId = e.eventId) :
    requests.map TimelineEventObservationRequest.eventId = events.map TimelineEvent.eventId := by
  induction h with
  | nil => rfl
  | @cons e r events requests her hrest ih =>
      rw [List.map_cons, List.map_cons, hid e List.mem_cons_self r her,
        ih fun e he => hid e (List.mem_cons_of_mem _ he)]

/-- A bounded batch of items that pass, with event ids of their own, passes. -/
theorem exists_validateBatch (hsend : b.Sendable)
    (hmetrics : ∀ m ∈ b.items .metrics, ∃ r, validateMetric parses m = .ok r)
    (haudio : ∀ c ∈ b.items .audioChunks, ∃ r, validateAudioChunk parses c = .ok r)
    (hsip : ∀ e ∈ b.items .sipEvents, ∃ r, validateSipEvent parses e = .ok r)
    (hrtp : ∀ r ∈ b.items .rtpStats, ∃ r', validateRtpStats parses r = .ok r')
    (htimeline : ∀ e ∈ b.items .timelineEvents,
      ∃ r, validateTimelineEvent parses e = .ok r ∧ r.eventId = e.eventId)
    (hids : ((b.items .timelineEvents).map TimelineEvent.eventId).Nodup) :
    ∃ request, validateBatch parses b = .ok request := by
  obtain ⟨metrics, hmetrics⟩ := exists_mapM hmetrics
  obtain ⟨audioChunks, haudio⟩ := exists_mapM haudio
  obtain ⟨sipEvents, hsip⟩ := exists_mapM hsip
  obtain ⟨rtpStats, hrtp⟩ := exists_mapM hrtp
  obtain ⟨timelineEvents, hevents⟩ := exists_mapM fun e he =>
    (htimeline e he).imp fun _ h => h.1
  have hunique : (timelineEvents.map TimelineEventObservationRequest.eventId).Nodup := by
    rw [map_eventId_of_forall₂ (mapM_eq_ok_iff.mp hevents)]
    · exact hids
    · intro e he r hr
      obtain ⟨r', hr', hid⟩ := htimeline e he
      rw [hr'] at hr
      cases hr
      exact hid
  have hcount : b.itemCount ≠ 0 := Nat.ne_of_gt hsend.1
  have hlength₁ : (b.items .metrics).length ≤ 500 := hsend.2 .metrics
  have hlength₂ : (b.items .audioChunks).length ≤ 64 := hsend.2 .audioChunks
  have hlength₃ : (b.items .sipEvents).length ≤ 64 := hsend.2 .sipEvents
  have hlength₄ : (b.items .rtpStats).length ≤ 64 := hsend.2 .rtpStats
  have hlength₅ : (b.items .timelineEvents).length ≤ 128 := hsend.2 .timelineEvents
  refine ⟨⟨b.runId, metrics, audioChunks, sipEvents, rtpStats, timelineEvents, hunique⟩, ?_⟩
  simp only [validateBatch, require_eq_ok (decide_eq_true hlength₁),
    require_eq_ok (decide_eq_true hlength₂), require_eq_ok (decide_eq_true hlength₃),
    require_eq_ok (decide_eq_true hlength₄), require_eq_ok (decide_eq_true hlength₅), hmetrics,
    haudio, hsip, hrtp, hevents, bind, Except.bind, pure, Except.pure]
  rw [if_neg hcount, dif_pos hunique]

end Passing

end VoxBench.Observability
