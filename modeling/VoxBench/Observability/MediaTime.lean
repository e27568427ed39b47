import VoxBench.Observability.StageCalls
import Mathlib.Algebra.Order.BigOperators.Group.List

/-!
# Media time

The incidents of a stage are placed by cumulative media time: the duration of the audio of
the stage before the flagged frame. Incidents less than 5 ms apart are one. The observer
counts frames, and starts to count again when the sample rate or the number of channels
changes; it also forgets the last incident. The times are hence right as long as nothing is
flagged after audio in an earlier format. They are floats, and so is the time between two of
them: where that is 5 ms, or nearly, a rounding can decide whether the second is one more.

## Main definitions

* `CumulativeMediaTime calls` — what the incidents of a stage promise.
* `FlaggedInFirstFormat calls` — nothing is flagged after audio in an earlier format.
* `RoundedAlike calls` — the floats are 5 ms apart when the durations are.

## Main results

* `cumulativeMediaTime_iff` — the promise is kept when both hold, and otherwise only where a
  float is too coarse for the audio in the earlier formats.
-/

namespace VoxBench.Observability

open VoxBench.Lib VoxBench.Media

/-! ## The promise -/

/-- The duration of some calls. -/
def elapsedMs (calls : List StageCall) : ℚ :=
  (calls.map fun call => (call.audio.frames : ℚ) / call.audio.sampleRateHz.toNat * 1000).sum

/-- The duration of the audio of the stage before the flagged frame. -/
def dueMs (before : List StageCall) (call : StageCall) : Option ℚ :=
  call.finding.map fun found =>
    elapsedMs before + (found.1 : ℚ) / call.audio.sampleRateHz.toNat * 1000

/-- A duration as the observer computes it, from its seconds. -/
def shownMs (t : ℚ) : ℚ := nearest (nearest (t / 1000) * 1000)

/-- The due times of the flagged chunks. -/
def dueTimes (calls : List StageCall) : List ℚ :=
  gather (fun before call => (dueMs before call).toList) calls

/-- The due times of the chunks that were reported. -/
def reportedDueTimes (calls : List StageCall) : List ℚ :=
  gather (fun before call =>
    if call.events.filterMap mediaTimeMs = [] then [] else (dueMs before call).toList) calls

/-- Incidents are placed by the audio of the stage before them, and only those less than 5 ms
after the last one are left out. -/
structure CumulativeMediaTime (calls : List StageCall) : Prop where
  cumulative : Throughout
    (fun before call => ∀ t ∈ call.events.filterMap mediaTimeMs,
      (dueMs before call).map shownMs = some t) calls
  increasing : (mediaTimes calls).Pairwise (· < ·)
  spaced : (reportedDueTimes calls).IsChain fun t u => 5 ≤ u - t
  suppressed : Throughout
    (fun before call => ∀ t, dueMs before call = some t → call.events.filterMap mediaTimeMs = [] →
      ∃ last, (reportedDueTimes before).getLast? = some last ∧ last < t ∧ t - last < 5) calls

/-- The calls before the last change of the format, for a call in the format of `a`. -/
def earlierFormats (a : StageAudio) (calls : List StageCall) : List StageCall :=
  calls.rdropWhile fun call => a.SameFormat call.audio

/-- No call in an earlier format had audio. -/
def FirstFormat (before : List StageCall) (call : StageCall) : Prop :=
  ∀ d ∈ earlierFormats call.audio before, d.audio.outputPcm = []

/-- Flagged chunks are in the first format that had audio. -/
def FlaggedInFirstFormat (calls : List StageCall) : Prop :=
  Throughout (fun before call => call.finding ≠ none → FirstFormat before call) calls

/-- The times that are at least 5 ms after the last one kept before them. -/
def spacedTimes (times : List ℚ) : List ℚ :=
  times.foldl (fun kept t => if kept.getLast?.all fun last => 5 ≤ t - last then kept ++ [t] else kept)
    []

/-- At each flagged chunk the floats are 5 ms apart when the durations are, for the last chunk
before it that the durations keep. -/
def RoundedAlike (calls : List StageCall) : Prop :=
  Throughout (fun before call => ∀ t, dueMs before call = some t →
    ∀ last, (spacedTimes (dueTimes before)).getLast? = some last →
      (5 ≤ nearest (shownMs t - shownMs last) ↔ 5 ≤ t - last)) calls

theorem earlierFormats_append_currentFormat (a : StageAudio) (calls : List StageCall) :
    earlierFormats a calls ++ currentFormat a calls = calls :=
  List.rdropWhile_append_rtakeWhile ..

theorem sameFormat_of_mem_currentFormat {a : StageAudio} {calls : List StageCall}
    {d : StageCall} (h : d ∈ currentFormat a calls) : a.SameFormat d.audio := by
  simpa using List.mem_rtakeWhile_imp h

/-! ## Durations -/

theorem elapsedMs_append (before calls : List StageCall) :
    elapsedMs (before ++ calls) = elapsedMs before + elapsedMs calls := by
  simp [elapsedMs]

theorem elapsedMs_nonneg (calls : List StageCall) : 0 ≤ elapsedMs calls := by
  apply List.sum_nonneg
  intro q hq
  obtain ⟨call, -, rfl⟩ := List.mem_map.mp hq
  positivity

/-- Calls without audio take no time. -/
theorem elapsedMs_eq_zero {calls : List StageCall} (h : ∀ d ∈ calls, d.audio.outputPcm = []) :
    elapsedMs calls = 0 := by
  apply List.sum_eq_zero
  intro q hq
  obtain ⟨call, hcall, rfl⟩ := List.mem_map.mp hq
  simp [StageAudio.frames, h call hcall]

/-- In one format the frames tell the duration. -/
theorem elapsedMs_eq_frames {a : StageAudio} {calls : List StageCall}
    (h : ∀ d ∈ calls, a.SameFormat d.audio) :
    elapsedMs calls =
      ((scanCalls a.channels.toNat calls).frames : ℚ) / a.sampleRateHz.toNat * 1000 := by
  induction calls using List.reverseRecOn with
  | nil => simp [elapsedMs, scanCalls]
  | append_singleton calls call ih =>
      have hcalls := ih fun d hd => h d (List.mem_append_left _ hd)
      obtain ⟨hrate, hchannels⟩ := h call (List.mem_append_right _ List.mem_cons_self)
      rw [elapsedMs_append, hcalls, scanCalls_snoc, ChunkScan.next]
      simp only [elapsedMs, List.map_cons, List.map_nil, List.sum_cons, List.sum_nil,
        StageAudio.frames, ← hrate, ← hchannels]
      push_cast
      ring

/-! ## Findings -/

/-- A flagged frame is one of the chunk. -/
theorem detect_lt {samples : List ℤ} {channels : ℕ} {previousSamples : Option (List ℤ)}
    {found : ℕ × ℚ × ℕ}
    (h : detectPcmS16leDiscontinuity samples channels previousSamples = some found) :
    found.1 < samples.length / channels := by
  rw [detect_eq_strongest] at h
  obtain ⟨p, hp, hdelta⟩ := List.mem_filterMap.mp (List.argmax_mem h)
  have hposition := deltaAt_position hdelta
  rw [← hposition] at hp
  exact (mem_positions.mp hp).1

section Call

variable {before calls : List StageCall} {call : StageCall}

theorem Follows.finding_lt (h : Follows before call) {found : ℕ × ℚ × ℕ}
    (hfound : call.finding = some found) : found.1 < call.audio.frames := by
  have hlt := detect_lt (h.finding.symm.trans hfound)
  rwa [length_unpackSamples] at hlt

/-- Nothing is found in no audio. -/
theorem Follows.finding_eq_none (h : Follows before call) (hempty : call.audio.outputPcm = []) :
    call.finding = none := by
  cases hfound : call.finding with
  | none => rfl
  | some found =>
      have hlt := h.finding_lt hfound
      simp [StageAudio.frames, hempty] at hlt

theorem Follows.frames_pos (h : Follows before call) (hne : call.audio.outputPcm ≠ []) :
    0 < call.audio.frames := by
  have hsamples := List.length_pos_iff.mpr (mt h.whole.unpackSamples_eq_nil_iff.mp hne)
  rw [h.whole.length_samples] at hsamples
  exact Nat.pos_of_mul_pos_right hsamples

/-- The duration of the audio in the format of the chunk before the flagged frame. -/
def formatMs (call : StageCall) : Option ℚ :=
  call.finding.map fun found =>
    ((call.frameOffset + found.1 : ℕ) : ℚ) / call.audio.sampleRateHz.toNat * 1000

theorem framesMs_eq_shownMs (frames rate : ℕ) :
    Collector.framesMs frames rate = shownMs ((frames : ℚ) / rate * 1000) := by
  rw [Collector.framesMs, shownMs, mul_div_cancel_right₀ _ (by norm_num)]

/-- What a call reports: its finding, unless it is too close to the last incident in the
format. -/
theorem Follows.reported_eq (h : Follows before call) :
    call.events.filterMap mediaTimeMs =
      (((formatMs call).map shownMs).filter fun t =>
        (mediaTimes (currentFormat call.audio before)).getLast?.all fun last =>
          nearest (t - last) ≥ 5).toList := by
  rw [h.reported, formatMs]
  cases call.finding with
  | none => rfl
  | some found =>
      dsimp only
      rw [Option.map_some, Option.map_some, Option.filter_some, framesMs_eq_shownMs]
      split
      · rfl
      · rfl

/-- The observer leaves out the audio in earlier formats. -/
theorem dueMs_eq (h : Follows before call) :
    dueMs before call =
      (formatMs call).map (elapsedMs (earlierFormats call.audio before) + ·) := by
  have hcurrent := @elapsedMs_eq_frames call.audio (currentFormat call.audio before)
    fun d hd => sameFormat_of_mem_currentFormat hd
  have helapsed : elapsedMs before = elapsedMs (earlierFormats call.audio before) +
      (call.frameOffset : ℚ) / call.audio.sampleRateHz.toNat * 1000 := by
    rw [h.frameOffset, ← hcurrent, ← elapsedMs_append, earlierFormats_append_currentFormat]
  unfold dueMs formatMs
  rw [helapsed, Option.map_map]
  apply congrArg (Option.map · call.finding)
  funext found
  simp only [Function.comp_apply]
  push_cast
  ring

/-- Without audio in earlier formats there are no incidents from them. -/
theorem mediaTimes_currentFormat (hbefore : Throughout Follows before)
    (hfirst : FirstFormat before call) :
    mediaTimes (currentFormat call.audio before) = mediaTimes before := by
  have hsplit := earlierFormats_append_currentFormat call.audio before
  have hnone : mediaTimes (earlierFormats call.audio before) = [] := by
    apply List.flatMap_eq_nil_iff.mpr
    intro d hd
    have hmem : d ∈ before := by
      rw [← hsplit]
      exact List.mem_append_left _ hd
    obtain ⟨_, hfollows⟩ := hbefore.exists_of_mem hmem
    rw [hfollows.reported, hfollows.finding_eq_none (hfirst d hd)]
  conv_rhs => rw [← hsplit, mediaTimes_append, hnone, List.nil_append]

/-- In the first format with audio the observer reports what is due, unless it is too close. -/
theorem Follows.reported_of_firstFormat (h : Follows before call)
    (hbefore : Throughout Follows before) (hfirst : call.finding ≠ none → FirstFormat before call) :
    call.events.filterMap mediaTimeMs =
      (((dueMs before call).map shownMs).filter fun t =>
        (mediaTimes before).getLast?.all fun last => nearest (t - last) ≥ 5).toList := by
  rw [h.reported_eq, dueMs_eq h]
  by_cases hfound : call.finding = none
  · simp [formatMs, hfound]
  · have hfirst := hfirst hfound
    rw [mediaTimes_currentFormat hbefore hfirst, elapsedMs_eq_zero hfirst]
    simp only [zero_add, Option.map_id']

/-- A flagged frame is due before the end of its chunk. -/
theorem Follows.due_lt (h : Follows before call) {t : ℚ} (hdue : dueMs before call = some t) :
    elapsedMs before ≤ t ∧ t < elapsedMs (before ++ [call]) := by
  obtain ⟨found, hfound, rfl⟩ := Option.map_eq_some_iff.mp hdue
  have hlt : (found.1 : ℚ) < call.audio.frames := by exact_mod_cast h.finding_lt hfound
  have hrate : (0 : ℚ) < call.audio.sampleRateHz.toNat := by
    have := h.rate_pos
    exact_mod_cast (by omega : 0 < call.audio.sampleRateHz.toNat)
  constructor
  · have : (0 : ℚ) ≤ (found.1 : ℚ) / call.audio.sampleRateHz.toNat * 1000 := by positivity
    linarith
  · rw [elapsedMs_append]
    simp only [elapsedMs, List.map_cons, List.map_nil, List.sum_cons, List.sum_nil, add_zero]
    gcongr

/-! ## Keeping the promise -/

theorem spacedTimes_snoc (times : List ℚ) (t : ℚ) : spacedTimes (times ++ [t]) =
    if (spacedTimes times).getLast?.all fun last => 5 ≤ t - last then spacedTimes times ++ [t]
    else spacedTimes times := by
  rw [spacedTimes, List.foldl_append]
  rfl

theorem isChain_spacedTimes (times : List ℚ) :
    (spacedTimes times).IsChain fun t u => 5 ≤ u - t := by
  induction times using List.reverseRecOn with
  | nil => exact List.IsChain.nil
  | append_singleton times t ih =>
      rw [spacedTimes_snoc]
      split
      · rename_i hall
        refine List.isChain_append.mpr ⟨ih, List.isChain_singleton _, fun last hlast u hu => ?_⟩
        obtain rfl := Option.some.inj hu
        rw [Option.mem_def.mp hlast] at hall
        simpa using hall
      · exact ih

/-- A call reports its due time as a float, or nothing. -/
theorem reported_cases (hbefore : Throughout Follows calls) (h : Follows calls call)
    (hfirst : call.finding ≠ none → FirstFormat calls call) :
    (dueMs calls call = none ∧ call.events.filterMap mediaTimeMs = []) ∨
    ∃ t, dueMs calls call = some t ∧
      ((call.events.filterMap mediaTimeMs = [shownMs t] ∧
          ∀ last ∈ (mediaTimes calls).getLast?, 5 ≤ nearest (shownMs t - last)) ∨
        (call.events.filterMap mediaTimeMs = [] ∧
          ∃ last, (mediaTimes calls).getLast? = some last ∧ nearest (shownMs t - last) < 5)) := by
  have hreported := h.reported_of_firstFormat hbefore hfirst
  cases hdue : dueMs calls call with
  | none =>
      left
      rw [hdue] at hreported
      exact ⟨rfl, hreported⟩
  | some t =>
      refine Or.inr ⟨t, rfl, ?_⟩
      rw [hdue, Option.map_some, Option.filter_some] at hreported
      cases hlast : (mediaTimes calls).getLast? with
      | none =>
          left
          rw [hlast] at hreported
          exact ⟨hreported, by simp⟩
      | some last =>
          rw [hlast, Option.all_some] at hreported
          by_cases hfar : 5 ≤ nearest (shownMs t - last)
          · left
            rw [decide_eq_true hfar] at hreported
            refine ⟨hreported, fun l hl => ?_⟩
            obtain rfl := Option.some.inj hl
            exact hfar
          · right
            rw [decide_eq_false hfar] at hreported
            exact ⟨hreported, last, rfl, not_le.mp hfar⟩

theorem reportedDueTimes_snoc (calls : List StageCall) (call : StageCall) :
    reportedDueTimes (calls ++ [call]) = reportedDueTimes calls ++
      if call.events.filterMap mediaTimeMs = [] then [] else (dueMs calls call).toList :=
  gather_snoc calls call

theorem dueTimes_snoc (calls : List StageCall) (call : StageCall) :
    dueTimes (calls ++ [call]) = dueTimes calls ++ (dueMs calls call).toList :=
  gather_snoc calls call

/-- What is reported in the first format: the due times as floats, in order, each before the end
of the audio. -/
theorem reported_of_flagged (hcalls : Throughout Follows calls)
    (hflagged : FlaggedInFirstFormat calls) :
    mediaTimes calls = (reportedDueTimes calls).map shownMs ∧
      (mediaTimes calls).IsChain (· < ·) ∧ ∀ t ∈ reportedDueTimes calls, t < elapsedMs calls := by
  induction calls using List.reverseRecOn with
  | nil => exact ⟨rfl, List.IsChain.nil, by simp [reportedDueTimes]⟩
  | append_singleton calls call ih =>
      obtain ⟨hbefore, hcall⟩ := throughout_snoc.mp hcalls
      obtain ⟨hflaggedBefore, hfirst⟩ := throughout_snoc.mp hflagged
      obtain ⟨htimes, hincreasing, hbound⟩ := ih hbefore hflaggedBefore
      have hlater : ∀ t ∈ reportedDueTimes calls, t < elapsedMs (calls ++ [call]) := by
        intro t ht
        have hlt := hbound t ht
        have hnonneg := elapsedMs_nonneg [call]
        rw [elapsedMs_append]
        linarith
      rw [mediaTimes_snoc, reportedDueTimes_snoc]
      rcases reported_cases hbefore hcall hfirst with
        ⟨hdue, hnone⟩ | ⟨t, hdue, ⟨hsome, hfar⟩ | ⟨hnone, -⟩⟩
      · rw [hnone, if_pos rfl, List.append_nil, List.append_nil]
        exact ⟨htimes, hincreasing, hlater⟩
      · rw [hsome, if_neg (by simp), hdue, Option.toList_some, List.map_append, htimes,
          List.map_singleton]
        rw [htimes] at hincreasing hfar
        refine ⟨rfl, ?_, ?_⟩
        · refine List.isChain_append.mpr ⟨hincreasing, List.isChain_singleton _, ?_⟩
          intro last hlast u hu
          obtain rfl := Option.some.inj hu
          have hpos : (0 : ℚ) < nearest (shownMs t - last) := by linarith [hfar last hlast]
          linarith [pos_of_nearest_pos hpos]
        · intro u hu
          rcases List.mem_append.mp hu with hu | hu
          · exact hlater u hu
          · rw [List.mem_singleton.mp hu]
            exact (hcall.due_lt hdue).2
      · rw [hnone, if_pos rfl, List.append_nil, List.append_nil]
        exact ⟨htimes, hincreasing, hlater⟩

/-- The reported times are those that the durations keep, when the roundings agree. -/
theorem reportedDueTimes_eq (hcalls : Throughout Follows calls)
    (hflagged : FlaggedInFirstFormat calls) (halike : RoundedAlike calls) :
    reportedDueTimes calls = spacedTimes (dueTimes calls) := by
  induction calls using List.reverseRecOn with
  | nil => rfl
  | append_singleton calls call ih =>
      obtain ⟨hbefore, hcall⟩ := throughout_snoc.mp hcalls
      obtain ⟨hflaggedBefore, hfirst⟩ := throughout_snoc.mp hflagged
      obtain ⟨halikeBefore, hround⟩ := throughout_snoc.mp halike
      have hsame := ih hbefore hflaggedBefore halikeBefore
      have htimes := (reported_of_flagged hbefore hflaggedBefore).1
      rw [hsame] at htimes
      rw [reportedDueTimes_snoc, dueTimes_snoc, hsame]
      rcases reported_cases hbefore hcall hfirst with
        ⟨hdue, hnone⟩ | ⟨t, hdue, ⟨hsome, hfar⟩ | ⟨hnone, last, hlast, hnear⟩⟩
      · rw [hnone, if_pos rfl, hdue, Option.toList_none, List.append_nil, List.append_nil]
      · rw [hsome, if_neg (by simp), hdue, Option.toList_some, spacedTimes_snoc, if_pos]
        cases hlast : (spacedTimes (dueTimes calls)).getLast? with
        | none => rfl
        | some last =>
            rw [htimes, List.getLast?_map, hlast] at hfar
            have hkept := (hround t hdue last hlast).mp (hfar _ rfl)
            simpa using hkept
      · rw [hnone, if_pos rfl, hdue, Option.toList_some, spacedTimes_snoc, if_neg, List.append_nil]
        rw [htimes, List.getLast?_map] at hlast
        obtain ⟨due, hdueLast, rfl⟩ := Option.map_eq_some_iff.mp hlast
        rw [hdueLast, Option.all_some, decide_eq_true_eq]
        exact fun hkept => absurd ((hround t hdue due hdueLast).mpr hkept) (not_le.mpr hnear)

theorem cumulative_of_flagged (hcalls : Throughout Follows calls)
    (hflagged : FlaggedInFirstFormat calls) :
    Throughout (fun before call => ∀ t ∈ call.events.filterMap mediaTimeMs,
      (dueMs before call).map shownMs = some t) calls := by
  induction calls using List.reverseRecOn with
  | nil => exact throughout_nil
  | append_singleton calls call ih =>
      obtain ⟨hbefore, hcall⟩ := throughout_snoc.mp hcalls
      obtain ⟨hflaggedBefore, hfirst⟩ := throughout_snoc.mp hflagged
      refine throughout_snoc.mpr ⟨ih hbefore hflaggedBefore, fun u hu => ?_⟩
      rcases reported_cases hbefore hcall hfirst with
        ⟨-, hnone⟩ | ⟨t, hdue, ⟨hsome, -⟩ | ⟨hnone, -⟩⟩
      · rw [hnone] at hu
        cases hu
      · rw [hsome, List.mem_singleton] at hu
        rw [hdue, hu, Option.map_some]
      · rw [hnone] at hu
        cases hu

theorem suppressed_of_flagged (hcalls : Throughout Follows calls)
    (hflagged : FlaggedInFirstFormat calls) (halike : RoundedAlike calls) :
    Throughout (fun before call => ∀ t, dueMs before call = some t →
      call.events.filterMap mediaTimeMs = [] →
        ∃ last, (reportedDueTimes before).getLast? = some last ∧ last < t ∧ t - last < 5) calls := by
  induction calls using List.reverseRecOn with
  | nil => exact throughout_nil
  | append_singleton calls call ih =>
      obtain ⟨hbefore, hcall⟩ := throughout_snoc.mp hcalls
      obtain ⟨hflaggedBefore, hfirst⟩ := throughout_snoc.mp hflagged
      obtain ⟨halikeBefore, hround⟩ := throughout_snoc.mp halike
      refine throughout_snoc.mpr ⟨ih hbefore hflaggedBefore halikeBefore, fun u hu hnone => ?_⟩
      obtain ⟨htimes, -, hbound⟩ := reported_of_flagged hbefore hflaggedBefore
      have hsame := reportedDueTimes_eq hbefore hflaggedBefore halikeBefore
      rcases reported_cases hbefore hcall hfirst with
        ⟨hdue, -⟩ | ⟨t, hdue, ⟨hsome, -⟩ | ⟨-, shown, hshown, hnear⟩⟩
      · rw [hdue] at hu
        cases hu
      · rw [hsome] at hnone
        cases hnone
      · obtain rfl := Option.some.inj (hdue.symm.trans hu)
        rw [htimes, List.getLast?_map] at hshown
        obtain ⟨last, hlast, rfl⟩ := Option.map_eq_some_iff.mp hshown
        refine ⟨last, hlast, ?_, ?_⟩
        · exact (hbound last (List.mem_of_getLast? hlast)).trans_le (hcall.due_lt hdue).1
        · rw [hsame] at hlast
          by_contra hfar
          exact absurd ((hround t hdue last hlast).mpr (not_lt.mp hfar)) (not_le.mpr hnear)

/-- The promise is kept in the first format where the roundings agree. -/
theorem cumulativeMediaTime_of_flagged (hcalls : Throughout Follows calls)
    (hflagged : FlaggedInFirstFormat calls) (halike : RoundedAlike calls) :
    CumulativeMediaTime calls where
  cumulative := cumulative_of_flagged hcalls hflagged
  increasing := List.isChain_iff_pairwise.mp (reported_of_flagged hcalls hflagged).2.1
  spaced := by
    rw [reportedDueTimes_eq hcalls hflagged halike]
    exact isChain_spacedTimes (dueTimes calls)
  suppressed := suppressed_of_flagged hcalls hflagged halike

/-! ## Breaking it -/

/-- The promise was kept before the last call. -/
theorem CumulativeMediaTime.of_snoc (h : CumulativeMediaTime (calls ++ [call])) :
    CumulativeMediaTime calls where
  cumulative := (throughout_snoc.mp h.cumulative).1
  increasing := (List.pairwise_append.mp (mediaTimes_snoc calls call ▸ h.increasing)).1
  spaced := (List.isChain_append.mp (reportedDueTimes_snoc calls call ▸ h.spaced)).1
  suppressed := (throughout_snoc.mp h.suppressed).1

/-- In the first format a promise that is kept leaves the roundings no choice. -/
theorem roundedAlike_of_cumulativeMediaTime (hcalls : Throughout Follows calls)
    (hflagged : FlaggedInFirstFormat calls) (hpromise : CumulativeMediaTime calls) :
    RoundedAlike calls := by
  induction calls using List.reverseRecOn with
  | nil => exact throughout_nil
  | append_singleton calls call ih =>
      obtain ⟨hbefore, hcall⟩ := throughout_snoc.mp hcalls
      obtain ⟨hflaggedBefore, hfirst⟩ := throughout_snoc.mp hflagged
      have halike := ih hbefore hflaggedBefore hpromise.of_snoc
      have hsame := reportedDueTimes_eq hbefore hflaggedBefore halike
      have htimes := (reported_of_flagged hbefore hflaggedBefore).1
      refine throughout_snoc.mpr ⟨halike, fun t hdue last hlast => ?_⟩
      rw [← hsame] at hlast
      have hshown : (mediaTimes calls).getLast? = some (shownMs last) := by
        rw [htimes, List.getLast?_map, hlast, Option.map_some]
      rcases reported_cases hbefore hcall hfirst with
        ⟨hnone, -⟩ | ⟨u, hdue', ⟨hsome, hfar⟩ | ⟨hnone, last', hlast', hnear⟩⟩
      · rw [hdue] at hnone
        cases hnone
      · obtain rfl := Option.some.inj (hdue.symm.trans hdue')
        -- a chunk that is reported is 5 ms after the last one
        refine iff_of_true (hfar _ hshown) ?_
        have hspaced := hpromise.spaced
        rw [reportedDueTimes_snoc, hsome, if_neg (by simp), hdue, Option.toList_some] at hspaced
        exact (List.isChain_append.mp hspaced).2.2 last hlast t rfl
      · obtain rfl := Option.some.inj (hdue.symm.trans hdue')
        obtain rfl := Option.some.inj (hshown.symm.trans hlast')
        -- a chunk that is left out is less than 5 ms after the last one
        obtain ⟨due, hdueLast, -, hclose⟩ :=
          (throughout_snoc.mp hpromise.suppressed).2 t hdue hnone
        obtain rfl := Option.some.inj (hlast.symm.trans hdueLast)
        exact iff_of_false (not_le.mpr hnear) (not_le.mpr hclose)

/-- Inside the current format the earlier ones stay what they are. -/
theorem earlierFormats_of_currentFormat {a : StageAudio} {part : List StageCall}
    (h : ∀ d ∈ part, a.SameFormat d.audio) (calls : List StageCall) :
    earlierFormats a (earlierFormats a calls ++ part) = earlierFormats a calls := by
  induction part using List.reverseRecOn with
  | nil =>
      rw [List.append_nil]
      exact List.rdropWhile_idempotent ..
  | append_singleton part d ih =>
      have hd := h d (List.mem_append_right _ List.mem_cons_self)
      rw [← List.append_assoc, earlierFormats, List.rdropWhile_concat_pos _ _ _ (by simpa using hd)]
      exact ih fun e he => h e (List.mem_append_left _ he)

theorem earlierFormats_congr {a b : StageAudio} (h : a.SameFormat b) (calls : List StageCall) :
    earlierFormats a calls = earlierFormats b calls := by
  unfold earlierFormats
  simp only [StageAudio.sameFormat_congr h]

/-- With audio in an earlier format, an incident of the current format is flagged outside the
first format. -/
theorem mediaTimes_currentFormat_eq_nil (hcalls : Throughout Follows calls)
    (hflagged : FlaggedInFirstFormat calls) (hnot : ¬ FirstFormat calls call) :
    mediaTimes (currentFormat call.audio calls) = [] := by
  apply List.flatMap_eq_nil_iff.mpr
  intro e he
  by_contra hreported
  obtain ⟨part, rest, hpart⟩ := List.append_of_mem he
  have hsame : ∀ d ∈ currentFormat call.audio calls, call.audio.SameFormat d.audio :=
    fun d hd => sameFormat_of_mem_currentFormat hd
  have hsplit : calls = (earlierFormats call.audio calls ++ part) ++ e :: rest := by
    rw [List.append_assoc, ← hpart, earlierFormats_append_currentFormat]
  have hfollows := hcalls _ _ _ hsplit
  have hfound : e.finding ≠ none := by
    intro hnone
    rw [hfollows.reported, hnone] at hreported
    exact hreported rfl
  have hfirst := hflagged _ _ _ hsplit hfound
  apply hnot
  rw [FirstFormat, ← earlierFormats_congr (hsame e he),
    earlierFormats_of_currentFormat fun d hd => hsame d (hpart ▸ List.mem_append_left _ hd)] at hfirst
  exact hfirst

/-- Audio in an earlier format takes time. -/
theorem elapsedMs_earlierFormats_pos (hcalls : Throughout Follows calls)
    (hnot : ¬ FirstFormat calls call) : 0 < elapsedMs (earlierFormats call.audio calls) := by
  simp only [FirstFormat, not_forall] at hnot
  obtain ⟨d, hd, hne⟩ := hnot
  have hmem : d ∈ calls := by
    rw [← earlierFormats_append_currentFormat call.audio calls]
    exact List.mem_append_left _ hd
  obtain ⟨_, hfollows⟩ := hcalls.exists_of_mem hmem
  obtain ⟨before, after, hsplit⟩ := List.append_of_mem hd
  have hframes : (0 : ℚ) < d.audio.frames := by exact_mod_cast hfollows.frames_pos hne
  have hrate : (0 : ℚ) < d.audio.sampleRateHz.toNat := by
    have := hfollows.rate_pos
    exact_mod_cast (by omega : 0 < d.audio.sampleRateHz.toNat)
  have hd : 0 < elapsedMs [d] := by
    simp only [elapsedMs, List.map_cons, List.map_nil, List.sum_cons, List.sum_nil, add_zero]
    positivity
  have hbefore := elapsedMs_nonneg before
  have hafter := elapsedMs_nonneg after
  have hcons : d :: after = [d] ++ after := rfl
  rw [hsplit, hcons, elapsedMs_append, elapsedMs_append]
  linarith

/-- A chunk is flagged where its float does not tell the audio in earlier formats. -/
def IndistinctFormats (calls : List StageCall) : Prop :=
  ∃ before call after, calls = before ++ call :: after ∧ ∃ t u, formatMs call = some t ∧
    dueMs before call = some u ∧ t < u ∧ shownMs t = shownMs u

theorem IndistinctFormats.snoc (h : IndistinctFormats calls) (call : StageCall) :
    IndistinctFormats (calls ++ [call]) := by
  obtain ⟨before, c, after, rfl, hsame⟩ := h
  exact ⟨before, c, after ++ [call], by simp, hsame⟩

/-- The first chunk flagged after audio in an earlier format is reported, at the time of its own
format. -/
theorem flagged_of_cumulativeMediaTime (hcalls : Throughout Follows calls)
    (hpromise : CumulativeMediaTime calls) :
    FlaggedInFirstFormat calls ∨ IndistinctFormats calls := by
  induction calls using List.reverseRecOn with
  | nil => exact Or.inl throughout_nil
  | append_singleton calls call ih =>
      obtain ⟨hbefore, hcall⟩ := throughout_snoc.mp hcalls
      rcases ih hbefore hpromise.of_snoc with hflagged | hindistinct
      · by_cases hfirst : call.finding ≠ none → FirstFormat calls call
        · exact Or.inl (throughout_snoc.mpr ⟨hflagged, hfirst⟩)
        right
        obtain ⟨hfound, hnot⟩ := Classical.not_imp.mp hfirst
        obtain ⟨found, hfound⟩ := Option.ne_none_iff_exists'.mp hfound
        obtain ⟨t, ht⟩ : ∃ t, formatMs call = some t :=
          ⟨_, by rw [formatMs, hfound, Option.map_some]⟩
        have hreported := hcall.reported_eq
        rw [mediaTimes_currentFormat_eq_nil hbefore hflagged hnot, ht] at hreported
        have hmem : shownMs t ∈ call.events.filterMap mediaTimeMs := by
          rw [hreported]
          simp
        have hdue := dueMs_eq hcall
        have hpos := elapsedMs_earlierFormats_pos hbefore hnot
        have hshown := (throughout_snoc.mp hpromise.cumulative).2 _ hmem
        rw [ht, Option.map_some] at hdue
        rw [hdue, Option.map_some, Option.some_inj] at hshown
        exact ⟨calls, call, [], rfl, t, _, ht, hdue, by linarith, hshown.symm⟩
      · exact Or.inr (hindistinct.snoc call)

end Call

/-- For every stage and every sequence of calls, from a new observer: the incidents of the
stage are placed by its cumulative media time and deduplicated by it when no chunk is flagged
after audio of the stage in an earlier format and the roundings agree with the durations. They
are not when that fails, unless audio in an earlier format is too short for the float. -/
theorem cumulativeMediaTime_iff (math : FloatMath) (stage : String) (as : List StageAudio) :
    let calls := (observeAll math stage {} as).2
    (FlaggedInFirstFormat calls ∧ RoundedAlike calls → CumulativeMediaTime calls) ∧
      (CumulativeMediaTime calls →
        (FlaggedInFirstFormat calls ∧ RoundedAlike calls) ∨ IndistinctFormats calls) := by
  have hcalls := (@tracks_observeAll stage {} math rfl as).2
  refine ⟨fun h => cumulativeMediaTime_of_flagged hcalls h.1 h.2, fun hpromise => ?_⟩
  rcases flagged_of_cumulativeMediaTime hcalls hpromise with hflagged | hindistinct
  · exact Or.inl ⟨hflagged, roundedAlike_of_cumulativeMediaTime hcalls hflagged hpromise⟩
  · exact Or.inr hindistinct

/-- A click in the second frame at 8 kHz and then one in the second frame at 16 kHz: the
second incident is placed before the first. -/
theorem not_cumulativeMediaTime :
    ¬ CumulativeMediaTime (observeAll ⟨id, id⟩ "tts" {} [monoAudio "tts" [0, 0, 0, 64],
      { monoAudio "tts" [0, 0, 0, 64] with sampleRateHz := 16000 }]).2 := by
  intro h
  have htimes : mediaTimes (observeAll ⟨id, id⟩ "tts" {} [monoAudio "tts" [0, 0, 0, 64],
      { monoAudio "tts" [0, 0, 0, 64] with sampleRateHz := 16000 }]).2 = [1 / 8, 1 / 16] := by
    decide +kernel
  have hincreasing := h.increasing
  rw [htimes] at hincreasing
  exact absurd hincreasing (by decide +kernel)

end VoxBench.Observability
