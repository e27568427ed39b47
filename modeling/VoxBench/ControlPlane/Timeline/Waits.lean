import VoxBench.ControlPlane.Timeline.Responses

/-!
# Waiting for the first output

Each response claims the first playback burst that is left between its start and the start
of the next response. Nothing follows the last response, but the code bounds it by the end
of the timeline, which is not yet known while a run is live.

## Main definitions

* `Associated` — the association as the rule has it.
* `leftForLast` — the bursts that are left for the last response.
* `LastWithinTimeline` — the end of the timeline does not cut the last wait short.

## Main results

* `startWaits_eq_waitsOf` — claimed bursts can be taken off the list.
* `waits_iff` — the association follows the rule exactly when the last wait is within the
  timeline.
-/

namespace VoxBench.ControlPlane

open VoxBench.Lib

/-! ## The rule -/

def AssistantOutputStartWaitEvidence.playbackAlias (w : AssistantOutputStartWaitEvidence) :
    Option String := w.assistantPlayback.map CorrelatedActivityEvidence.correlationAlias

/-- The burst is not associated with an earlier response, and it starts between the starts of
the response and of the next one. -/
structure Candidate (playbacks : List CorrelatedActivityEvidence)
    (before : List AssistantOutputStartWaitEvidence) (wait : AssistantOutputStartWaitEvidence)
    (next : Option AssistantOutputStartWaitEvidence) (item : CorrelatedActivityEvidence) : Prop where
  mem : item ∈ playbacks
  free : ∀ earlier ∈ before, earlier.playbackAlias ≠ some item.correlationAlias
  after_start : wait.providerResponse.startMs ≤ item.startMs
  before_next : ∀ later ∈ next, item.startMs ≤ later.providerResponse.startMs

/-- The association as the rule has it, where nothing bounds the last response. -/
structure Associated (playbacks : List CorrelatedActivityEvidence)
    (waits : List AssistantOutputStartWaitEvidence) : Prop where
  distinct : (waits.filterMap AssistantOutputStartWaitEvidence.playbackAlias).Nodup
  earliest : ∀ before wait after, waits = before ++ wait :: after →
    ∀ item ∈ wait.assistantPlayback, Candidate playbacks before wait after.head? item ∧
      ∀ other, Candidate playbacks before wait after.head? other → item.startMs ≤ other.startMs
  none_left : ∀ before wait after, waits = before ++ wait :: after →
    wait.assistantPlayback = none → ∀ item, ¬ Candidate playbacks before wait after.head? item
  times : ∀ wait ∈ waits, wait.startMs = wait.providerResponse.startMs ∧
    wait.endMs = (wait.assistantPlayback.map CorrelatedActivityEvidence.startMs).getD
      wait.providerResponse.endMs ∧ wait.startMs ≤ wait.endMs

/-! ## Taking claimed bursts off the list -/

section Claims

/-- The burst starts while the response has the floor. -/
def startsWithin (startMs endMs : ℚ) (item : CorrelatedActivityEvidence) : Bool :=
  startMs ≤ item.startMs ∧ item.startMs ≤ endMs

/-- The wait of a response for a burst, given the end of its association. -/
def waitFor (response : ProviderResponseEvidence) (associationEndMs : ℚ)
    (playback : Option CorrelatedActivityEvidence) : AssistantOutputStartWaitEvidence where
  providerResponse := response
  assistantPlayback := playback
  startMs := response.startMs
  endMs := max response.startMs ((playback.map CorrelatedActivityEvidence.startMs).getD
    (min response.endMs associationEndMs))

/-- The end of the association of the first response. -/
def associationEnd (timelineEndMs : ℚ) (rest : List ProviderResponseEvidence) : ℚ :=
  (rest.head?.map ProviderResponseEvidence.startMs).getD timelineEndMs

/-- The waits, with the bursts that are left. -/
def waitsOf (timelineEndMs : ℚ) :
    List CorrelatedActivityEvidence → List ProviderResponseEvidence →
      List AssistantOutputStartWaitEvidence
  | _, [] => []
  | left, response :: rest =>
      let within := startsWithin response.startMs (associationEnd timelineEndMs rest)
      waitFor response (associationEnd timelineEndMs rest) (left.find? within) ::
        waitsOf timelineEndMs (left.eraseP within) rest

/-- With keys of their own, the first element with a property is the one that goes. -/
theorem filter_ne_eq_eraseP {α κ : Type} [DecidableEq κ] {key : α → κ} {p : α → Bool} {l : List α}
    {a : α} (hkeys : (l.map key).Nodup) (hfind : l.find? p = some a) :
    l.filter (fun b => key b ≠ key a) = l.eraseP p := by
  induction l with
  | nil => cases hfind
  | cons b l ih =>
      rw [List.map_cons, List.nodup_cons] at hkeys
      rw [List.find?_cons] at hfind
      cases hb : p b with
      | true =>
          obtain rfl : b = a := by simpa [hb] using hfind
          rw [List.eraseP_cons_of_pos hb, List.filter_cons_of_neg (by simp)]
          refine List.filter_eq_self.mpr fun c hc => ?_
          have hne : key c ≠ key b := fun h => hkeys.1 (h ▸ List.mem_map_of_mem hc)
          simpa using hne
      | false =>
          have hrest : l.find? p = some a := by simpa [hb] using hfind
          have hne : key b ≠ key a := fun h =>
            hkeys.1 (h ▸ List.mem_map_of_mem (List.mem_of_find?_eq_some hrest))
          rw [List.eraseP_cons_of_neg (by simp [hb]), List.filter_cons_of_pos (by simpa using hne),
            ih hkeys.2 hrest]

theorem startWaits_eq_waitsOf {playbacks : List CorrelatedActivityEvidence} (timelineEndMs : ℚ)
    (claimed : List String) (responses : List ProviderResponseEvidence)
    (haliases : (playbacks.map CorrelatedActivityEvidence.correlationAlias).Nodup) :
    startWaits playbacks timelineEndMs claimed responses = waitsOf timelineEndMs
      (playbacks.filter fun item => item.correlationAlias ∉ claimed) responses := by
  induction responses generalizing claimed with
  | nil => rfl
  | cons response rest ih =>
      have hfind : (playbacks.find? fun item => item.correlationAlias ∉ claimed ∧
          response.startMs ≤ item.startMs ∧ item.startMs ≤ associationEnd timelineEndMs rest) =
            (playbacks.filter fun item => item.correlationAlias ∉ claimed).find?
              (startsWithin response.startMs (associationEnd timelineEndMs rest)) := by
        rw [List.find?_filter]
        congr 1
        funext item
        simp [startsWithin]
      rw [startWaits, waitsOf, ih, ← associationEnd, hfind]
      generalize hleft : playbacks.filter (fun item => decide (item.correlationAlias ∉ claimed)) = left
      have hkeys : (left.map CorrelatedActivityEvidence.correlationAlias).Nodup := by
        rw [← hleft]
        exact haliases.sublist ((List.filter_sublist).map _)
      cases hclaim : left.find?
          (startsWithin response.startMs (associationEnd timelineEndMs rest)) with
      | none =>
          rw [List.eraseP_of_forall_not (List.find?_eq_none.mp hclaim)]
          simp only [waitFor, Option.map_none, Option.toList_none, List.nil_append, Option.getD_none]
          exact congrArg (fun l => _ :: waitsOf timelineEndMs l rest) hleft
      | some item =>
          rw [← filter_ne_eq_eraseP hkeys hclaim, ← hleft, List.filter_filter]
          simp [waitFor, not_or]

end Claims

/-! ## The rule along the list -/

section Rule

variable {left : List CorrelatedActivityEvidence} {within : CorrelatedActivityEvidence → Bool}
  {wait : AssistantOutputStartWaitEvidence} {waits : List AssistantOutputStartWaitEvidence}
  {item : CorrelatedActivityEvidence}

/-- What the rule says of the first wait. -/
structure FirstByRule (left : List CorrelatedActivityEvidence) (wait : AssistantOutputStartWaitEvidence)
    (next : Option AssistantOutputStartWaitEvidence) : Prop where
  earliest : ∀ item ∈ wait.assistantPlayback, Candidate left [] wait next item ∧
    ∀ other, Candidate left [] wait next other → item.startMs ≤ other.startMs
  none_left : wait.assistantPlayback = none → ∀ item, ¬ Candidate left [] wait next item
  times : wait.startMs = wait.providerResponse.startMs ∧
    wait.endMs = (wait.assistantPlayback.map CorrelatedActivityEvidence.startMs).getD
      wait.providerResponse.endMs ∧ wait.startMs ≤ wait.endMs

/-- A burst that the first response does not claim is a candidate for later ones. -/
theorem candidate_cons_iff {before : List AssistantOutputStartWaitEvidence}
    {later : AssistantOutputStartWaitEvidence} {next : Option AssistantOutputStartWaitEvidence}
    (haliases : (left.map CorrelatedActivityEvidence.correlationAlias).Nodup)
    (hwait : wait.assistantPlayback = left.find? within) :
    Candidate left (wait :: before) later next item ↔
      Candidate (left.eraseP within) before later next item := by
  have hmem : item ∈ left.eraseP within ↔
      item ∈ left ∧ wait.playbackAlias ≠ some item.correlationAlias := by
    unfold AssistantOutputStartWaitEvidence.playbackAlias
    rw [hwait]
    cases hfind : left.find? within with
    | none => simp [List.eraseP_of_forall_not (List.find?_eq_none.mp hfind)]
    | some claimed =>
        rw [← filter_ne_eq_eraseP haliases hfind, List.mem_filter, decide_eq_true_eq,
          Option.map_some, ne_eq, ne_eq, Option.some.injEq]
        exact and_congr_right fun _ => not_congr eq_comm
  constructor
  · rintro ⟨hleft, hfree, hstart, hnext⟩
    refine ⟨hmem.mpr ⟨hleft, hfree wait List.mem_cons_self⟩, ?_, hstart, hnext⟩
    exact fun earlier hearlier => hfree earlier (List.mem_cons_of_mem _ hearlier)
  · rintro ⟨hleft, hfree, hstart, hnext⟩
    obtain ⟨hleft, hwait⟩ := hmem.mp hleft
    refine ⟨hleft, fun earlier hearlier => ?_, hstart, hnext⟩
    rcases List.mem_cons.mp hearlier with rfl | hearlier
    · exact hwait
    · exact hfree earlier hearlier

theorem associated_cons_iff
    (haliases : (left.map CorrelatedActivityEvidence.correlationAlias).Nodup)
    (hwait : wait.assistantPlayback = left.find? within) :
    Associated left (wait :: waits) ↔
      FirstByRule left wait waits.head? ∧ Associated (left.eraseP within) waits := by
  constructor
  · intro h
    refine ⟨⟨h.earliest [] wait waits rfl, h.none_left [] wait waits rfl,
      h.times wait List.mem_cons_self⟩, ⟨?_, ?_, ?_, ?_⟩⟩
    · exact h.distinct.sublist ((List.sublist_cons_self wait waits).filterMap _)
    · rintro before later after rfl item hitem
      obtain ⟨hcandidate, hfirst⟩ := h.earliest (wait :: before) later after rfl item hitem
      exact ⟨(candidate_cons_iff haliases hwait).mp hcandidate,
        fun other hother => hfirst other ((candidate_cons_iff haliases hwait).mpr hother)⟩
    · rintro before later after rfl hnone item hitem
      exact h.none_left (wait :: before) later after rfl hnone item
        ((candidate_cons_iff haliases hwait).mpr hitem)
    · exact fun later hlater => h.times later (List.mem_cons_of_mem _ hlater)
  · rintro ⟨hfirst, hrest⟩
    refine ⟨?_, ?_, ?_, ?_⟩
    · rw [List.filterMap_cons]
      cases hclaim : wait.playbackAlias with
      | none => exact hrest.distinct
      | some claimed =>
          refine List.nodup_cons.mpr ⟨fun hmem => ?_, hrest.distinct⟩
          obtain ⟨later, hlater, hsame⟩ := List.mem_filterMap.mp hmem
          obtain ⟨before, after, rfl⟩ := List.append_of_mem hlater
          obtain ⟨item, hitem, rfl⟩ := Option.map_eq_some_iff.mp hsame
          have hcandidate := (hrest.earliest before later after rfl item hitem).1
          exact ((candidate_cons_iff haliases hwait).mpr hcandidate).free wait List.mem_cons_self hclaim
    · intro before later after hsplit item hitem
      cases before with
      | nil =>
          obtain ⟨rfl, rfl⟩ := List.cons.inj hsplit
          exact hfirst.earliest item hitem
      | cons first before =>
          obtain ⟨rfl, rfl⟩ := List.cons.inj hsplit
          obtain ⟨hcandidate, hleast⟩ := hrest.earliest before later after rfl item hitem
          exact ⟨(candidate_cons_iff haliases hwait).mpr hcandidate,
            fun other hother => hleast other ((candidate_cons_iff haliases hwait).mp hother)⟩
    · intro before later after hsplit hnone item hitem
      cases before with
      | nil =>
          obtain ⟨rfl, rfl⟩ := List.cons.inj hsplit
          exact hfirst.none_left hnone item hitem
      | cons first before =>
          obtain ⟨rfl, rfl⟩ := List.cons.inj hsplit
          exact hrest.none_left before later after rfl hnone item
            ((candidate_cons_iff haliases hwait).mp hitem)
    · intro later hlater
      rcases List.mem_cons.mp hlater with rfl | hlater
      · exact hfirst.times
      · exact hrest.times later hlater

end Rule

/-! ## The last response -/

/-- The bursts that are left for the last response: each response before it takes the first
one between its start and the next. -/
def leftForLast : List CorrelatedActivityEvidence → List ProviderResponseEvidence →
    List CorrelatedActivityEvidence
  | left, response :: next :: rest =>
      leftForLast (left.eraseP (startsWithin response.startMs next.startMs)) (next :: rest)
  | left, _ => left

/-- The first burst that is left for the last response starts within the timeline. Where there
is none, the response does not outlast the timeline. -/
def LastWithinTimeline (timelineEndMs : ℚ) (playbacks : List CorrelatedActivityEvidence)
    (responses : List ProviderResponseEvidence) : Prop :=
  ∀ last ∈ responses.getLast?,
    match (leftForLast playbacks responses).find? fun item => last.startMs ≤ item.startMs with
    | some item => item.startMs ≤ timelineEndMs
    | none => last.endMs ≤ timelineEndMs ∨ last.endMs = last.startMs

section Last

variable {left : List CorrelatedActivityEvidence} {timelineEndMs : ℚ}
  {response next : ProviderResponseEvidence} {rest : List ProviderResponseEvidence}

/-- The rule holds of a response that another follows. -/
theorem firstByRule_of_next {tail : List AssistantOutputStartWaitEvidence}
    {later : AssistantOutputStartWaitEvidence} (hlater : later.providerResponse = next)
    (hsorted : left.Pairwise fun a b => a.startMs ≤ b.startMs)
    (htimes : response.startMs ≤ response.endMs) (hnext : response.endMs ≤ next.startMs) :
    FirstByRule left (waitFor response next.startMs
      (left.find? (startsWithin response.startMs next.startMs))) (later :: tail).head? := by
  have hcandidate : ∀ item, Candidate left [] (waitFor response next.startMs
      (left.find? (startsWithin response.startMs next.startMs))) (later :: tail).head? item ↔
        item ∈ left ∧ startsWithin response.startMs next.startMs item = true := by
    intro item
    constructor
    · rintro ⟨hmem, -, hstart, hbefore⟩
      refine ⟨hmem, ?_⟩
      simpa [startsWithin] using ⟨hstart, hlater ▸ hbefore later rfl⟩
    · rintro ⟨hmem, hwithin⟩
      simp only [startsWithin, decide_eq_true_eq] at hwithin
      refine ⟨hmem, by simp, hwithin.1, fun w hw => ?_⟩
      obtain rfl := Option.some.inj hw
      exact hlater ▸ hwithin.2
  refine ⟨fun item hitem => ?_, fun hnone item hitem => ?_, rfl, ?_, le_max_left _ _⟩
  · have hfind : left.find? (startsWithin response.startMs next.startMs) = some item := hitem
    refine ⟨(hcandidate item).mpr ⟨List.mem_of_find?_eq_some hfind, List.find?_some hfind⟩,
      fun other hother => ?_⟩
    obtain ⟨hmem, hwithin⟩ := (hcandidate other).mp hother
    rcases eq_or_rel_of_find? hsorted hfind hmem hwithin with rfl | hle
    · exact le_refl _
    · exact hle
  · obtain ⟨hmem, hwithin⟩ := (hcandidate item).mp hitem
    exact List.find?_eq_none.mp hnone item hmem hwithin
  · simp only [waitFor, min_eq_left hnext]
    cases hfind : left.find? (startsWithin response.startMs next.startMs) with
    | none => exact max_eq_right htimes
    | some item =>
        have hwithin := List.find?_some hfind
        simp only [startsWithin, decide_eq_true_eq] at hwithin
        exact max_eq_right hwithin.1

/-- Of the last response the rule holds when its wait is within the timeline. -/
theorem firstByRule_last_iff (hsorted : left.Pairwise fun a b => a.startMs ≤ b.startMs)
    (htimes : response.startMs ≤ response.endMs) :
    FirstByRule left (waitFor response timelineEndMs
      (left.find? (startsWithin response.startMs timelineEndMs))) none ↔
        LastWithinTimeline timelineEndMs left [response] := by
  have hcandidate : ∀ item, Candidate left [] (waitFor response timelineEndMs
      (left.find? (startsWithin response.startMs timelineEndMs))) none item ↔
        item ∈ left ∧ response.startMs ≤ item.startMs :=
    fun item => ⟨fun h => ⟨h.mem, h.after_start⟩, fun h => ⟨h.1, by simp, h.2, by simp⟩⟩
  have hlast : LastWithinTimeline timelineEndMs left [response] ↔
      match left.find? fun item => response.startMs ≤ item.startMs with
      | some item => item.startMs ≤ timelineEndMs
      | none => response.endMs ≤ timelineEndMs ∨ response.endMs = response.startMs := by
    simp [LastWithinTimeline, leftForLast]
  rw [hlast]
  cases hfree : left.find? fun item => response.startMs ≤ item.startMs with
  | none =>
      have hfind : left.find? (startsWithin response.startMs timelineEndMs) = none := by
        refine List.find?_eq_none.mpr fun item hmem hwithin => ?_
        simp only [startsWithin, decide_eq_true_eq] at hwithin
        exact List.find?_eq_none.mp hfree item hmem (by simpa using hwithin.1)
      rw [hfind] at hcandidate ⊢
      have hend : (waitFor response timelineEndMs none).endMs = response.endMs ↔
          response.endMs ≤ timelineEndMs ∨ response.endMs = response.startMs := by
        simp only [waitFor, Option.map_none, Option.getD_none]
        grind
      constructor
      · intro h
        exact hend.mp h.times.2.1
      · intro h
        refine ⟨by simp [waitFor], fun _ item hitem => ?_, rfl, hend.mpr h, le_max_left _ _⟩
        obtain ⟨hmem, hstart⟩ := (hcandidate item).mp hitem
        exact List.find?_eq_none.mp hfree item hmem (by simpa using hstart)
  | some item =>
      have hmem := List.mem_of_find?_eq_some hfree
      have hstart : response.startMs ≤ item.startMs := by simpa using List.find?_some hfree
      constructor
      · intro h
        -- past the timeline no burst is found, although one is left
        by_contra hpast
        refine h.none_left ?_ item ((hcandidate item).mpr ⟨hmem, hstart⟩)
        refine List.find?_eq_none.mpr fun other hother hwithin => ?_
        simp only [startsWithin, decide_eq_true_eq] at hwithin
        rcases eq_or_rel_of_find? hsorted hfree hother (by simpa using hwithin.1) with rfl | hle
        · exact hpast hwithin.2
        · exact hpast (hle.trans hwithin.2)
      · intro hwithin
        have hfind : left.find? (startsWithin response.startMs timelineEndMs) = some item := by
          obtain ⟨-, earlier, later, rfl, hbefore⟩ := List.find?_eq_some_iff_append.mp hfree
          refine List.find?_eq_some_iff_append.mpr ⟨by simpa [startsWithin] using ⟨hstart, hwithin⟩,
            earlier, later, rfl, fun other hother => ?_⟩
          have hnot := hbefore other hother
          simp only [Bool.not_eq_true', decide_eq_false_iff_not] at hnot ⊢
          simp [startsWithin, hnot]
        rw [hfind] at hcandidate ⊢
        refine ⟨fun found hfound => ?_, by simp [waitFor], rfl, ?_, le_max_left _ _⟩
        · obtain rfl := Option.some.inj hfound
          refine ⟨(hcandidate item).mpr ⟨hmem, hstart⟩, fun other hother => ?_⟩
          obtain ⟨hother, hotherStart⟩ := (hcandidate other).mp hother
          rcases eq_or_rel_of_find? hsorted hfree hother (by simpa using hotherStart) with rfl | hle
          · exact le_refl _
          · exact hle
        · exact max_eq_right hstart

theorem associated_nil (left : List CorrelatedActivityEvidence) : Associated left [] :=
  ⟨by simp, by simp, by simp, by simp⟩

theorem lastWithinTimeline_cons_iff : LastWithinTimeline timelineEndMs left (response :: next :: rest) ↔
    LastWithinTimeline timelineEndMs (left.eraseP (startsWithin response.startMs next.startMs))
      (next :: rest) := by
  unfold LastWithinTimeline
  rw [List.getLast?_cons_cons, leftForLast]

/-- Along responses that follow each other, the association keeps to the rule exactly when the
last wait is within the timeline. -/
theorem associated_waitsOf_iff {responses : List ProviderResponseEvidence}
    (hsorted : left.Pairwise fun a b => a.startMs ≤ b.startMs)
    (haliases : (left.map CorrelatedActivityEvidence.correlationAlias).Nodup)
    (htimes : ∀ response ∈ responses, response.startMs ≤ response.endMs)
    (hdisjoint : responses.Pairwise fun a b => a.endMs ≤ b.startMs) :
    Associated left (waitsOf timelineEndMs left responses) ↔
      LastWithinTimeline timelineEndMs left responses := by
  induction responses generalizing left with
  | nil => exact iff_of_true (associated_nil left) (by simp [LastWithinTimeline])
  | cons response rest ih =>
      rw [waitsOf, associated_cons_iff haliases rfl]
      cases rest with
      | nil =>
          rw [← firstByRule_last_iff hsorted (htimes response List.mem_cons_self)]
          exact and_iff_left (associated_nil _)
      | cons next rest =>
          have hsublist := List.eraseP_sublist
            (p := startsWithin response.startMs next.startMs) (l := left)
          rw [lastWithinTimeline_cons_iff, ← ih (hsorted.sublist hsublist)
            (haliases.sublist (hsublist.map _))
            (fun r hr => htimes r (List.mem_cons_of_mem _ hr)) (List.pairwise_cons.mp hdisjoint).2]
          refine and_iff_right ?_
          exact firstByRule_of_next rfl hsorted (htimes response List.mem_cons_self)
            ((List.pairwise_cons.mp hdisjoint).1 next List.mem_cons_self)

end Last

/-! ## The waits of a run -/

section Run

variable {run : StoredRun}

/-- The waits are for the responses of the run, and associate its playback bursts by the
rule. -/
def WaitsByRule (run : StoredRun) (waits : List AssistantOutputStartWaitEvidence) : Prop :=
  ∃ responses playbacks, providerResponseEvidence run = .ok responses ∧
    assistantPlaybackEvidence run = .ok playbacks ∧
    waits.map AssistantOutputStartWaitEvidence.providerResponse = responses ∧
    Associated playbacks waits

theorem playbacks_sorted {playbacks : List CorrelatedActivityEvidence}
    (h : assistantPlaybackEvidence run = .ok playbacks) :
    playbacks.Pairwise fun a b => a.startMs ≤ b.startMs := by
  obtain ⟨timelineEndMs, -, h⟩ := bind_eq_ok.mp h
  obtain ⟨evidence, -, h⟩ := bind_eq_ok.mp h
  cases h
  refine (pairwise_sortOn _ evidence).imp fun {a b} hab => ?_
  exact (Prod.Lex.toLex_le_toLex.mp hab).elim le_of_lt fun h => h.1.le

theorem waits_iff (run : StoredRun) :
    (∃ waits, assistantOutputStartWaitEvidence run = .ok waits ∧ WaitsByRule run waits) ↔
      ∃ responses playbacks timelineEndMs, providerResponseEvidence run = .ok responses ∧
        assistantPlaybackEvidence run = .ok playbacks ∧
        runTimelineDurationMs run = .ok timelineEndMs ∧
        LastWithinTimeline timelineEndMs playbacks responses := by
  have hiff : ∀ responses playbacks timelineEndMs, providerResponseEvidence run = .ok responses →
      assistantPlaybackEvidence run = .ok playbacks →
        (Associated playbacks (startWaits playbacks timelineEndMs [] responses) ↔
          LastWithinTimeline timelineEndMs playbacks responses) := by
    intro responses playbacks timelineEndMs hresponses hplaybacks
    have hexplained := explained_of_responses hresponses
    have haliases := (activities_spec hplaybacks).2
    rw [startWaits_eq_waitsOf timelineEndMs [] responses haliases, List.filter_eq_self.mpr (by simp)]
    exact associated_waitsOf_iff (playbacks_sorted hplaybacks) haliases
      (fun response hresponse => (hexplained.times response hresponse).2) hexplained.disjoint
  constructor
  · rintro ⟨waits, h, responses', playbacks', hresponses', hplaybacks', -, hassociated⟩
    obtain ⟨responses, hresponses, h⟩ := bind_eq_ok.mp h
    obtain ⟨playbacks, hplaybacks, h⟩ := bind_eq_ok.mp h
    obtain ⟨timelineEndMs, hend, h⟩ := bind_eq_ok.mp h
    cases h
    obtain rfl := Except.ok.inj (hplaybacks.symm.trans hplaybacks')
    exact ⟨responses, playbacks, timelineEndMs, hresponses, hplaybacks, hend,
      (hiff responses playbacks timelineEndMs hresponses hplaybacks).mp hassociated⟩
  · rintro ⟨responses, playbacks, timelineEndMs, hresponses, hplaybacks, hend, hlast⟩
    refine ⟨startWaits playbacks timelineEndMs [] responses, ?_, responses, playbacks, hresponses,
      hplaybacks, map_providerResponse_startWaits _ _ _ _,
      (hiff responses playbacks timelineEndMs hresponses hplaybacks).mpr hlast⟩
    simp [assistantOutputStartWaitEvidence, hresponses, hplaybacks, hend, bind, Except.bind, pure,
      Except.pure]

/-- A burst of assistant playback that starts at the given millisecond. -/
def playbackEvent (eventId : String) (ms : ℤ) : TimelineEventArtifact :=
  { eventId := eventId
    category := .conversation
    name := "assistant_playback_started"
    ts := .utc (ms * 1000)
    correlationAlias := some "playback-1" }

/-- A live run whose only response is answered after half a second. -/
def liveRun : StoredRun :=
  { eventRun [playbackEvent "playback-1" 500] with
    metrics := [⟨some "sink", "provider_response_started", 1, .utc 0⟩] }

/-- The burst of the live run. -/
def liveBurst : CorrelatedActivityEvidence where
  correlationAlias := "playback-1"
  startEvent := playbackEvent "playback-1" 500
  stopEvent := none
  startMs := 500
  endMs := 500

/-- While the run is live its timeline ends at 0, and its burst is associated with nothing. -/
theorem live_burst_missed :
    assistantPlaybackEvidence liveRun = .ok [liveBurst] ∧
      assistantOutputStartWaitEvidence liveRun = .ok [⟨⟨0, 0, none, 0, 0, false⟩, none, 0, 0⟩] ∧
      ¬ ∃ waits, assistantOutputStartWaitEvidence liveRun = .ok waits ∧
        WaitsByRule liveRun waits := by
  have hplaybacks : assistantPlaybackEvidence liveRun = .ok [liveBurst] := by decide +kernel
  have hwaits : assistantOutputStartWaitEvidence liveRun =
      .ok [⟨⟨0, 0, none, 0, 0, false⟩, none, 0, 0⟩] := by decide +kernel
  refine ⟨hplaybacks, hwaits, ?_⟩
  rintro ⟨waits, h, responses, playbacks, -, hplaybacks', -, hassociated⟩
  obtain rfl := Except.ok.inj (hwaits.symm.trans h)
  obtain rfl := Except.ok.inj (hplaybacks.symm.trans hplaybacks')
  refine hassociated.none_left [] _ [] rfl rfl liveBurst ⟨by simp, by simp, ?_, by simp⟩
  norm_num [liveBurst]

end Run
end VoxBench.ControlPlane
