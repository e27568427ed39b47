import VoxBench.ControlPlane.Timeline.CaptureHealth

/-!
# Provider responses as intervals

The scan over the response metrics keeps one open response. In the order of time the
observation that follows a start decides what becomes of its response: a `done` completes
it, another start cuts it off, and without either it lasts to the end of the timeline.

## Main definitions

* `responsesOf` — the responses by what follows each start.
* `Earlier` — the order in which the observations are read.
* `ResponsesExplained` — what the responses are, from the metrics alone.

## Main results

* `finish_foldl` — the scan computes `responsesOf`.
* `responses_iff` — a run has responses, and they are explained by its metrics, exactly when
  the times that are read share the clock of its start.
-/

namespace VoxBench.ControlPlane

open VoxBench.Lib

/-! ## The scan -/

section Scan

/-- The observation starts a response. -/
def startsResponse (o : (MetricArtifact × ℕ) × ℚ) : Bool :=
  o.1.1.name = "provider_response_started"

/-- The open response as the observation after its start ends it. -/
def closedBy (durationMs : ℚ) (active : ActiveResponse) :
    Option ((MetricArtifact × ℕ) × ℚ) → ProviderResponseEvidence
  | none => active.close none durationMs
  | some o => active.close (if startsResponse o then none else some o.1.2) o.2

/-- The responses by what follows each start. -/
def responsesOf (durationMs : ℚ) : ℕ → List ((MetricArtifact × ℕ) × ℚ) →
    List ProviderResponseEvidence
  | _, [] => []
  | index, o :: rest =>
      if startsResponse o then
        closedBy durationMs ⟨index, o.1.2, o.2⟩ rest.head? :: responsesOf durationMs (index + 1) rest
      else responsesOf durationMs index rest

variable {run : StoredRun} {durationMs : ℚ} {observed : List ((MetricArtifact × ℕ) × ℚ)}

/-- A response is open after the scan when the last observation started it. -/
theorem isSome_active_foldl (observed : List ((MetricArtifact × ℕ) × ℚ)) :
    (observed.foldl ResponseScan.observe {}).active.isSome = observed.getLast?.any startsResponse := by
  induction observed using List.reverseRecOn with
  | nil => rfl
  | append_singleton observed o ih =>
      rw [List.foldl_append, List.foldl_cons, List.foldl_nil, List.getLast?_concat, Option.any_some]
      unfold ResponseScan.observe startsResponse
      split
      · simp_all
      · split <;> simp_all

theorem finish_foldl (scan : ResponseScan)
    (h : (observed.foldl ResponseScan.observe scan).active.isSome →
      runTimelineDurationMs run = .ok durationMs) :
    (observed.foldl ResponseScan.observe scan).finish run = .ok (scan.responses ++
      (scan.active.map (closedBy durationMs · observed.head?)).toList ++
      responsesOf durationMs scan.nextResponseIndex observed) := by
  induction observed generalizing scan with
  | nil =>
      unfold ResponseScan.finish
      cases hactive : scan.active with
      | none => simp [hactive, responsesOf]
      | some active =>
          have hduration := h (by simp [hactive])
          simp [hactive, hduration, responsesOf, closedBy, bind, Except.bind, pure, Except.pure]
  | cons o observed ih =>
      rw [List.foldl_cons, ih (scan.observe o) h, responsesOf]
      cases hstart : startsResponse o with
      | true =>
          have hname : o.1.1.name = "provider_response_started" := by
            simpa [startsResponse] using hstart
          cases hactive : scan.active <;>
            simp [ResponseScan.observe, hname, hactive, closedBy, hstart]
      | false =>
          have hname : ¬ o.1.1.name = "provider_response_started" := by
            simpa [startsResponse] using hstart
          cases hactive : scan.active <;>
            simp [ResponseScan.observe, hname, hactive, closedBy, hstart]

end Scan

/-! ## The responses of a list of observations -/

section Observations

variable {durationMs : ℚ} {index : ℕ} {observed : List ((MetricArtifact × ℕ) × ℚ)}

theorem map_start_responsesOf : (responsesOf durationMs index observed).map
    ProviderResponseEvidence.startObservationIndex =
      (observed.filter startsResponse).map fun o => o.1.2 := by
  induction observed generalizing index with
  | nil => rfl
  | cons o rest ih =>
      rw [responsesOf]
      split
      · rename_i hstart
        rw [List.map_cons, ih, List.filter_cons_of_pos hstart, List.map_cons]
        cases rest.head? <;> rfl
      · rename_i hstart
        rw [ih, List.filter_cons_of_neg hstart]

theorem map_index_responsesOf : (responsesOf durationMs index observed).map
    ProviderResponseEvidence.responseIndex =
      List.range' index (responsesOf durationMs index observed).length := by
  induction observed generalizing index with
  | nil => rfl
  | cons o rest ih =>
      rw [responsesOf]
      split
      · rw [List.map_cons, ih, List.length_cons, List.range'_succ]
        cases rest.head? <;> rfl
      · exact ih

/-- A response comes from a start, and what follows the start ends it. -/
theorem exists_of_mem_responsesOf {response : ProviderResponseEvidence}
    (h : response ∈ responsesOf durationMs index observed) :
    ∃ earlier start later k, observed = earlier ++ start :: later ∧ startsResponse start = true ∧
      response = closedBy durationMs ⟨k, start.1.2, start.2⟩ later.head? := by
  induction observed generalizing index with
  | nil => cases h
  | cons o rest ih =>
      rw [responsesOf] at h
      split at h
      · rename_i hstart
        rcases List.mem_cons.mp h with rfl | h
        · exact ⟨[], o, rest, index, rfl, hstart, rfl⟩
        · obtain ⟨earlier, start, later, k, rfl, hstart, rfl⟩ := ih h
          exact ⟨o :: earlier, start, later, k, rfl, hstart, rfl⟩
      · obtain ⟨earlier, start, later, k, rfl, hstart, rfl⟩ := ih h
        exact ⟨o :: earlier, start, later, k, rfl, hstart, rfl⟩

/-- No observation completes two responses. -/
theorem done_sublist_responsesOf : List.Sublist ((responsesOf durationMs index observed).filterMap
    ProviderResponseEvidence.doneObservationIndex)
      ((observed.tail.filter fun o => !startsResponse o).map fun o => o.1.2) := by
  induction observed generalizing index with
  | nil => exact List.Sublist.refl _
  | cons o rest ih =>
      rw [responsesOf, List.tail_cons]
      cases rest with
      | nil => split <;> simp [responsesOf, closedBy, ActiveResponse.close]
      | cons next later =>
          rw [List.tail_cons] at ih
          have hrest : List.Sublist ((later.filter fun o => !startsResponse o).map fun o => o.1.2)
              (((next :: later).filter fun o => !startsResponse o).map fun o => o.1.2) :=
            ((List.sublist_cons_self next later).filter _).map _
          split
          · cases hnext : startsResponse next with
            | true =>
                simp only [List.head?_cons, closedBy, hnext, ActiveResponse.close, if_true,
                  List.filterMap_cons]
                exact ih.trans hrest
            | false =>
                simp only [List.head?_cons, closedBy, hnext, ActiveResponse.close,
                  Bool.false_eq_true, if_false, List.filterMap_cons, List.filter_cons, Bool.not_false,
                  if_true, List.map_cons]
                exact ih.cons_cons _
          · exact ih.trans hrest

theorem closedBy_times (active : ActiveResponse) (next : Option ((MetricArtifact × ℕ) × ℚ)) :
    (closedBy durationMs active next).startMs = active.startMs ∧
      active.startMs ≤ (closedBy durationMs active next).endMs ∧
      ∀ o ∈ next, (closedBy durationMs active next).endMs = max active.startMs o.2 := by
  cases next with
  | none => exact ⟨rfl, le_max_left _ _, by simp⟩
  | some o =>
      refine ⟨rfl, le_max_left _ _, fun o' ho' => ?_⟩
      obtain rfl := Option.some.inj ho'
      rfl

theorem startMs_responsesOf {response : ProviderResponseEvidence}
    (h : response ∈ responsesOf durationMs index observed) :
    ∃ start ∈ observed, response.startMs = start.2 := by
  obtain ⟨earlier, start, later, k, rfl, -, rfl⟩ := exists_of_mem_responsesOf h
  exact ⟨start, by simp, (closedBy_times _ _).1⟩

/-- Each response ends before the next one starts. -/
theorem pairwise_responsesOf (h : observed.Pairwise fun a b => a.2 ≤ b.2) :
    (responsesOf durationMs index observed).Pairwise fun a b => a.endMs ≤ b.startMs := by
  induction observed generalizing index with
  | nil => exact List.Pairwise.nil
  | cons o rest ih =>
      obtain ⟨hfirst, hrest⟩ := List.pairwise_cons.mp h
      rw [responsesOf]
      split
      · refine List.pairwise_cons.mpr ⟨fun response hresponse => ?_, ih hrest⟩
        obtain ⟨start, hstart, hstartMs⟩ := startMs_responsesOf hresponse
        cases rest with
        | nil => cases hstart
        | cons next later =>
            have hnext : next.2 ≤ start.2 := by
              rcases List.mem_cons.mp hstart with rfl | hstart
              · exact le_refl _
              · exact (List.pairwise_cons.mp hrest).1 start hstart
            rw [List.head?_cons, (closedBy_times _ _).2.2 next rfl, hstartMs]
            exact max_le (hfirst start hstart) hnext
      · exact ih hrest

end Observations

/-! ## The responses of a run -/

/-- The order in which the observations are read: by time, then by index. -/
def Earlier (a b : MetricArtifact × ℕ) : Prop :=
  toLex (a.1.ts.instant, a.2) < toLex (b.1.ts.instant, b.2)

/-- The positive observations of the given name. -/
def positiveObservations (run : StoredRun) (name : String) : List (MetricArtifact × ℕ) :=
  run.metrics.zipIdx.filter fun o => o.1.name = name ∧ 0 < o.1.value

/-- The observation completes the response: it follows the start, and no other response
starts in between. -/
def Completes (run : StoredRun) (start done : MetricArtifact × ℕ) : Prop :=
  done ∈ positiveObservations run "provider_response_done" ∧ Earlier start done ∧
    ∀ other ∈ positiveObservations run "provider_response_started",
      ¬ (Earlier start other ∧ Earlier other done)

/-- What the responses of a run are, from its metrics. -/
structure ResponsesExplained (run : StoredRun) (responses : List ProviderResponseEvidence) :
    Prop where
  one_per_start : ∃ starts : List (MetricArtifact × ℕ),
    starts.Perm (positiveObservations run "provider_response_started") ∧
      starts.Pairwise Earlier ∧
      responses.map ProviderResponseEvidence.startObservationIndex = starts.map Prod.snd
  indices : responses.map ProviderResponseEvidence.responseIndex = List.range responses.length
  done_once : (responses.filterMap ProviderResponseEvidence.doneObservationIndex).Nodup
  done_closes : ∀ response ∈ responses, ∀ index ∈ response.doneObservationIndex,
    ∃ start ∈ positiveObservations run "provider_response_started",
      start.2 = response.startObservationIndex ∧
        ∃ done, done.2 = index ∧ Completes run start done
  completed : ∀ response ∈ responses,
    response.completed = response.doneObservationIndex.isSome ∧
      ∀ start ∈ positiveObservations run "provider_response_started",
        start.2 = response.startObservationIndex →
          (response.completed = true ↔ ∃ done, Completes run start done)
  times : ∀ response ∈ responses, 0 ≤ response.startMs ∧ response.startMs ≤ response.endMs
  disjoint : responses.Pairwise fun a b => a.endMs ≤ b.startMs

section Run

variable {run : StoredRun} {observations : List (MetricArtifact × ℕ)}
  {observed : List ((MetricArtifact × ℕ) × ℚ)}

theorem mem_responseObservations {o : MetricArtifact × ℕ} : o ∈ responseObservations run ↔
    o ∈ positiveObservations run "provider_response_done" ∨
      o ∈ positiveObservations run "provider_response_started" := by
  simp only [responseObservations, positiveObservations, providerResponseMetrics, List.mem_filter,
    decide_eq_true_eq, List.mem_cons, List.not_mem_nil, or_false]
  tauto

theorem nodup_observationKeys : ((responseObservations run).map fun o : MetricArtifact × ℕ =>
    toLex (o.1.ts.instant, o.2)).Nodup := by
  have hindices : ((responseObservations run).map Prod.snd).Nodup := by
    have hsublist : List.Sublist ((responseObservations run).map Prod.snd)
        (run.metrics.zipIdx.map Prod.snd) := (List.filter_sublist).map _
    refine hsublist.nodup ?_
    rw [List.zipIdx_map_snd]
    exact List.nodup_range'
  refine List.Nodup.of_map (fun key : Lex (Instant × ℕ) => (ofLex key).2) ?_
  simpa only [List.map_map, Function.comp_def, ofLex_toLex] using hindices

theorem pairwise_earlier (h : sortedByTs (fun o : MetricArtifact × ℕ => o.1.ts) Prod.snd
    (responseObservations run) = .ok observations) : observations.Pairwise Earlier := by
  obtain ⟨-, rfl⟩ := sortedByTs_eq_ok_iff.mp h
  exact pairwise_lt_sortOn _ nodup_observationKeys

theorem map_fst_observed {α : Type} {time : α → Datetime} {items : List α} {timedItems : List (α × ℚ)}
    (h : items.mapM (timed run time) = .ok timedItems) : timedItems.map Prod.fst = items := by
  have hmap : timedItems.map Prod.fst = items.map id :=
    map_eq_of_mapM h fun _ _ hab => (timed_eq_ok_iff.mp hab).2.symm
  rwa [List.map_id] at hmap

/-- Shown times do not decrease in the order of reading. -/
theorem pairwise_observed (hsorted : observations.Pairwise Earlier)
    (h : observations.mapM (timed run fun o => o.1.ts) = .ok observed) :
    observed.Pairwise fun a b => Earlier a.1 b.1 ∧ a.2 ≤ b.2 := by
  have hearlier : observed.Pairwise fun a b => Earlier a.1 b.1 := by
    rw [← map_fst_observed h] at hsorted
    exact List.pairwise_map.mp hsorted
  refine hearlier.imp_of_mem fun {a b} ha hb hab => ⟨hab, ?_⟩
  obtain ⟨_, -, hta⟩ := exists_of_mem_mapM h ha
  obtain ⟨_, -, htb⟩ := exists_of_mem_mapM h hb
  obtain ⟨hta, rfl⟩ := timed_eq_ok_iff.mp hta
  obtain ⟨htb, rfl⟩ := timed_eq_ok_iff.mp htb
  refine relativeMs_mono hta htb ?_
  exact (Prod.Lex.toLex_lt_toLex.mp hab).elim le_of_lt fun h => h.1.le

/-- The responses are already in order. -/
theorem sortOn_responsesOf {durationMs : ℚ} {index : ℕ} (h : observed.Pairwise fun a b => a.2 ≤ b.2) :
    sortOn (fun item => toLex (item.startMs, item.responseIndex))
      (responsesOf durationMs index observed) = responsesOf durationMs index observed := by
  refine sortOn_eq_self _ ?_
  have hindices : (responsesOf durationMs index observed).Pairwise
      fun a b => a.responseIndex < b.responseIndex := by
    rw [← List.pairwise_map, map_index_responsesOf]
    exact List.pairwise_lt_range'
  refine ((pairwise_responsesOf h).and hindices).imp_of_mem fun {a b} ha _ hab => ?_
  obtain ⟨earlier, start, later, k, -, -, rfl⟩ := exists_of_mem_responsesOf ha
  obtain ⟨hstart, hle, -⟩ := @closedBy_times durationMs ⟨k, start.1.2, start.2⟩ later.head?
  rw [Prod.Lex.toLex_le_toLex]
  rcases lt_or_eq_of_le ((hstart.trans_le hle).trans hab.1) with hlt | heq
  · exact .inl hlt
  · exact .inr ⟨heq, hab.2.le⟩

/-- What the observations of a run look like once they are sorted and timed. -/
structure Observed (run : StoredRun) (observed : List ((MetricArtifact × ℕ) × ℚ)) : Prop where
  perm : (observed.map Prod.fst).Perm (responseObservations run)
  sorted : observed.Pairwise fun a b => Earlier a.1 b.1 ∧ a.2 ≤ b.2
  nonneg : ∀ o ∈ observed, 0 ≤ o.2

theorem observed_of_mapM (hsorted : sortedByTs (fun o : MetricArtifact × ℕ => o.1.ts) Prod.snd
    (responseObservations run) = .ok observations)
    (h : observations.mapM (timed run fun o => o.1.ts) = .ok observed) : Observed run observed where
  perm := map_fst_observed h ▸ perm_of_sortedByTs hsorted
  sorted := pairwise_observed (pairwise_earlier hsorted) h
  nonneg o ho := by
    obtain ⟨_, -, ht⟩ := exists_of_mem_mapM h ho
    exact relativeMs_nonneg (timed_eq_ok_iff.mp ht).1

theorem index_injective {o o' : MetricArtifact × ℕ} {name name' : String}
    (ho : o ∈ positiveObservations run name) (ho' : o' ∈ positiveObservations run name')
    (h : o.2 = o'.2) : o = o' := by
  have hmem := (List.mem_filter.mp ho).1
  have hmem' := (List.mem_filter.mp ho').1
  rw [List.mem_zipIdx_iff_getElem?] at hmem hmem'
  rw [h, hmem'] at hmem
  exact Prod.ext (Option.some.inj hmem).symm h

variable (hobs : Observed run observed)
include hobs

theorem Observed.mem_started {o : (MetricArtifact × ℕ) × ℚ} (ho : o ∈ observed)
    (hstart : startsResponse o = true) :
    o.1 ∈ positiveObservations run "provider_response_started" := by
  have hmem := mem_responseObservations.mp (hobs.perm.mem_iff.mp (List.mem_map_of_mem ho))
  refine hmem.resolve_left fun hdone => ?_
  simp only [positiveObservations, List.mem_filter, decide_eq_true_eq] at hdone
  simp [startsResponse, hdone.2.1] at hstart

theorem Observed.mem_done {o : (MetricArtifact × ℕ) × ℚ} (ho : o ∈ observed)
    (hstart : startsResponse o = false) :
    o.1 ∈ positiveObservations run "provider_response_done" := by
  have hmem := mem_responseObservations.mp (hobs.perm.mem_iff.mp (List.mem_map_of_mem ho))
  refine hmem.resolve_right fun hstarted => ?_
  simp only [positiveObservations, List.mem_filter, decide_eq_true_eq] at hstarted
  simp [startsResponse, hstarted.2.1] at hstart

/-- What is later than a start in time stands after it. -/
theorem Observed.mem_later {earlier later : List ((MetricArtifact × ℕ) × ℚ)}
    {start : (MetricArtifact × ℕ) × ℚ} (hsplit : observed = earlier ++ start :: later)
    {o : MetricArtifact × ℕ} (ho : o ∈ responseObservations run) (h : Earlier start.1 o) :
    ∃ o' ∈ later, o'.1 = o := by
  obtain ⟨o', ho', rfl⟩ := List.mem_map.mp (hobs.perm.mem_iff.mpr ho)
  refine ⟨o', ?_, rfl⟩
  have hsorted := hobs.sorted
  rw [hsplit, List.pairwise_append] at hsorted
  rw [hsplit, List.mem_append, List.mem_cons] at ho'
  rcases ho' with ho' | rfl | ho'
  · exact absurd (hsorted.2.2 o' ho' start List.mem_cons_self).1 h.asymm
  · exact absurd h (lt_irrefl _)
  · exact ho'

theorem Observed.completes_head {earlier rest : List ((MetricArtifact × ℕ) × ℚ)}
    {start next : (MetricArtifact × ℕ) × ℚ} (hsplit : observed = earlier ++ start :: next :: rest)
    (hstart : startsResponse next = false) : Completes run start.1 next.1 := by
  have hsorted := hobs.sorted
  rw [hsplit, List.pairwise_append, List.pairwise_cons, List.pairwise_cons] at hsorted
  refine ⟨hobs.mem_done (by simp [hsplit]) hstart, (hsorted.2.1.1 next List.mem_cons_self).1, ?_⟩
  rintro other hother ⟨hafter, hbefore⟩
  obtain ⟨o, ho, rfl⟩ := hobs.mem_later hsplit (mem_responseObservations.mpr (.inr hother)) hafter
  rcases List.mem_cons.mp ho with rfl | ho
  · exact lt_irrefl _ hbefore
  · exact hbefore.asymm (hsorted.2.1.2.1 o ho).1

/-- A response is completed exactly when what follows its start is no other start. -/
theorem Observed.completes_iff {earlier later : List ((MetricArtifact × ℕ) × ℚ)}
    {start : (MetricArtifact × ℕ) × ℚ} (hsplit : observed = earlier ++ start :: later) :
    (∃ done, Completes run start.1 done) ↔ ∃ next ∈ later.head?, startsResponse next = false := by
  have hsorted := hobs.sorted
  rw [hsplit, List.pairwise_append, List.pairwise_cons] at hsorted
  have hlater : ∀ o ∈ later, o ∈ observed := fun o ho => by simp [hsplit, ho]
  constructor
  · rintro ⟨done, hdone, hearlier, hnone⟩
    obtain ⟨o, ho, rfl⟩ := hobs.mem_later hsplit (mem_responseObservations.mpr (.inl hdone)) hearlier
    cases hl : later with
    | nil => simp [hl] at ho
    | cons next rest =>
        refine ⟨next, rfl, ?_⟩
        by_contra hstart
        have hnext : next ∈ later := by simp [hl]
        have hstarted := hobs.mem_started (hlater next hnext) (by simpa using hstart)
        refine hnone next.1 hstarted ⟨(hsorted.2.1.1 next hnext).1, ?_⟩
        rw [hl] at ho hsorted
        rcases List.mem_cons.mp ho with rfl | ho
        · simp only [positiveObservations, List.mem_filter, decide_eq_true_eq] at hdone hstarted
          exact absurd (hdone.2.1.symm.trans hstarted.2.1) (by decide)
        · exact ((List.pairwise_cons.mp hsorted.2.1.2).1 o ho).1
  · rintro ⟨next, hnext, hstart⟩
    obtain ⟨rest, rfl⟩ := List.head?_eq_some_iff.mp hnext
    exact ⟨next.1, hobs.completes_head hsplit hstart⟩

/-- The responses of the observations are those that the metrics explain. -/
theorem Observed.explained (durationMs : ℚ) :
    ResponsesExplained run (responsesOf durationMs 0 observed) where
  one_per_start := by
    refine ⟨(observed.filter startsResponse).map Prod.fst, ?_, ?_, ?_⟩
    · have hfilter : ((observed.map Prod.fst).filter
          fun o => o.1.name = "provider_response_started").Perm
            (positiveObservations run "provider_response_started") := by
        refine (hobs.perm.filter _).trans (List.Perm.of_eq ?_)
        rw [responseObservations, positiveObservations, List.filter_filter]
        refine List.filter_congr fun o _ => ?_
        simp only [providerResponseMetrics, List.mem_cons, List.not_mem_nil, or_false]
        grind
      rwa [List.filter_map] at hfilter
    · exact List.pairwise_map.mpr ((hobs.sorted.imp fun h => h.1).filter _)
    · rw [map_start_responsesOf, List.map_map]
      rfl
  indices := by rw [map_index_responsesOf, List.range_eq_range']
  done_once := by
    refine List.Nodup.sublist done_sublist_responsesOf ?_
    have hnodup : ((observed.map Prod.fst).map Prod.snd).Nodup := by
      rw [(hobs.perm.map Prod.snd).nodup_iff]
      refine List.Nodup.sublist ((List.filter_sublist).map _) ?_
      rw [List.zipIdx_map_snd]
      exact List.nodup_range'
    rw [List.map_map] at hnodup
    exact hnodup.sublist (((List.filter_sublist).trans (List.tail_sublist _)).map _)
  done_closes := by
    intro response hresponse index hindex
    obtain ⟨earlier, start, later, k, hsplit, hstart, rfl⟩ := exists_of_mem_responsesOf hresponse
    have hmem := hobs.mem_started (o := start) (by simp [hsplit]) hstart
    cases later with
    | nil => cases hindex
    | cons next rest =>
        cases hnext : startsResponse next with
        | true => simp [closedBy, hnext, ActiveResponse.close] at hindex
        | false =>
            have hdone : next.1.2 = index := by
              simpa [closedBy, hnext, ActiveResponse.close] using hindex
            exact ⟨start.1, hmem, rfl, next.1, hdone, hobs.completes_head hsplit hnext⟩
  completed := by
    intro response hresponse
    obtain ⟨earlier, start, later, k, hsplit, hstart, rfl⟩ := exists_of_mem_responsesOf hresponse
    constructor
    · cases later.head? <;> rfl
    · intro start' hstart' hindex
      have hmem := hobs.mem_started (o := start) (by simp [hsplit]) hstart
      have hsame : start' = start.1 := by
        refine index_injective hstart' hmem (hindex.trans ?_)
        cases later.head? <;> rfl
      rw [hsame, hobs.completes_iff hsplit]
      cases later.head? with
      | none => simp [closedBy, ActiveResponse.close]
      | some next => cases hnext : startsResponse next <;> simp [closedBy, hnext, ActiveResponse.close]
  times := by
    intro response hresponse
    obtain ⟨earlier, start, later, k, hsplit, -, rfl⟩ := exists_of_mem_responsesOf hresponse
    obtain ⟨hstart, hle, -⟩ := @closedBy_times durationMs ⟨k, start.1.2, start.2⟩
      later.head?
    rw [hstart]
    exact ⟨hobs.nonneg start (by simp [hsplit]), hle⟩
  disjoint := pairwise_responsesOf (hobs.sorted.imp fun h => h.2)

/-- A response is open at the end when nothing is later than its start. -/
theorem Observed.last_iff : observed.getLast?.any startsResponse = true ↔
    ∃ start ∈ positiveObservations run "provider_response_started",
      ∀ o ∈ responseObservations run, ¬ Earlier start o := by
  constructor
  · intro h
    obtain ⟨start, hlast, hstart⟩ := (Option.any_eq_true _ _).mp h
    obtain ⟨earlier, hsplit⟩ := List.getLast?_eq_some_iff.mp hlast
    refine ⟨start.1, hobs.mem_started (by simp [hsplit]) hstart, fun o ho hlater => ?_⟩
    obtain ⟨o', ho', -⟩ := hobs.mem_later hsplit ho hlater
    cases ho'
  · rintro ⟨start, hstart, hlast⟩
    have hmem := hobs.perm.mem_iff.mpr (mem_responseObservations.mpr (.inr hstart))
    obtain ⟨o, ho, rfl⟩ := List.mem_map.mp hmem
    obtain ⟨earlier, later, hsplit⟩ := List.append_of_mem ho
    have hnone : later = [] := by
      refine List.eq_nil_iff_forall_not_mem.mpr fun o' ho' => ?_
      have hsorted := hobs.sorted
      rw [hsplit, List.pairwise_append, List.pairwise_cons] at hsorted
      refine hlast o'.1 (hobs.perm.mem_iff.mp ?_) (hsorted.2.1.1 o' ho').1
      exact List.mem_map_of_mem (by simp [hsplit, ho'])
    have hname : startsResponse o = true := by
      simp only [positiveObservations, List.mem_filter, decide_eq_true_eq] at hstart
      simp [startsResponse, hstart.2.1]
    rw [hsplit, hnone, List.getLast?_concat]
    exact hname

end Run

/-! ## When a run has responses -/

/-- The times of the response metrics share the clock of the run's start, and so does its end
where a response lasts to the end. -/
def ResponsesOnClock (run : StoredRun) : Prop :=
  (∀ o ∈ responseObservations run, o.1.ts.isAware = run.startedAt.isAware) ∧
    ∀ start ∈ positiveObservations run "provider_response_started",
      (∀ o ∈ responseObservations run, ¬ Earlier start o) →
        ∀ endedAt ∈ run.endedAt, endedAt.isAware = run.startedAt.isAware

section Clock

variable {run : StoredRun}

theorem exists_runTimelineDurationMs_iff : (∃ durationMs, runTimelineDurationMs run = .ok durationMs) ↔
    ∀ endedAt ∈ run.endedAt, endedAt.isAware = run.startedAt.isAware := by
  unfold runTimelineDurationMs endedDurationMs
  cases hended : run.endedAt with
  | none => simp [bind, Except.bind, pure, Except.pure]
  | some endedAt =>
      simp only [bind_eq_ok, Option.mem_def, Option.some.injEq, forall_eq']
      rw [← exists_relativeMs_iff]
      exact ⟨fun ⟨_, t, ht, _⟩ => ⟨t, ht⟩, fun ⟨t, ht⟩ => ⟨_, t, ht, rfl⟩⟩

theorem observed_of_onClock
    (h : ∀ o ∈ responseObservations run, o.1.ts.isAware = run.startedAt.isAware) :
    ∃ observations observed, sortedByTs (fun o : MetricArtifact × ℕ => o.1.ts) Prod.snd
        (responseObservations run) = .ok observations ∧
      observations.mapM (timed run fun o => o.1.ts) = .ok observed := by
  have hcomparable : Comparable ((responseObservations run).map fun o => o.1.ts) := by
    intro a ha b hb
    obtain ⟨o, ho, rfl⟩ := List.mem_map.mp ha
    obtain ⟨o', ho', rfl⟩ := List.mem_map.mp hb
    rw [h o ho, h o' ho']
  have hsorted : sortedByTs (fun o : MetricArtifact × ℕ => o.1.ts) Prod.snd
      (responseObservations run) = .ok _ := sortedByTs_eq_ok_iff.mpr ⟨hcomparable, rfl⟩
  have htimed : ∀ o ∈ sortOn (fun o : MetricArtifact × ℕ => toLex (o.1.ts.instant, o.2))
      (responseObservations run), ∃ b, timed run (fun o => o.1.ts) o = .ok b := by
    intro o ho
    obtain ⟨t, ht⟩ := exists_relativeMs_iff.mpr (h o ((mem_sortOn _).mp ho))
    exact ⟨(o, t), timed_eq_ok_iff.mpr ⟨ht, rfl⟩⟩
  obtain ⟨observed, hobserved⟩ := exists_mapM htimed
  exact ⟨_, observed, hsorted, hobserved⟩

/-- A scan that ends has read the end of the timeline where a response was open. -/
theorem duration_of_finish {scan : ResponseScan} {responses : List ProviderResponseEvidence}
    (h : scan.finish run = .ok responses) :
    ∃ durationMs, scan.active.isSome → runTimelineDurationMs run = .ok durationMs := by
  unfold ResponseScan.finish at h
  split at h
  · rename_i hactive
    exact ⟨0, by simp [hactive]⟩
  · obtain ⟨durationMs, hduration, -⟩ := bind_eq_ok.mp h
    exact ⟨durationMs, fun _ => hduration⟩

/-- The responses that are found are explained by the metrics. -/
theorem explained_of_responses {responses : List ProviderResponseEvidence}
    (h : providerResponseEvidence run = .ok responses) : ResponsesExplained run responses := by
  obtain ⟨observations, hsorted, h⟩ := bind_eq_ok.mp h
  obtain ⟨observed, hobserved, h⟩ := bind_eq_ok.mp h
  obtain ⟨found, hfound, h⟩ := bind_eq_ok.mp h
  cases h
  have hobs := observed_of_mapM hsorted hobserved
  obtain ⟨durationMs, hduration⟩ := duration_of_finish hfound
  obtain rfl : found = responsesOf durationMs 0 observed :=
    Except.ok.inj (hfound.symm.trans (finish_foldl {} hduration))
  rw [sortOn_responsesOf (hobs.sorted.imp fun h => h.2)]
  exact hobs.explained durationMs

/-- The responses of a run are there, and are those that its metrics explain, exactly when the
times that are read share the clock of its start. -/
theorem responses_iff (run : StoredRun) : (∃ responses, providerResponseEvidence run = .ok responses ∧
    ResponsesExplained run responses) ↔ ResponsesOnClock run := by
  constructor
  · rintro ⟨responses, h, -⟩
    obtain ⟨observations, hsorted, h⟩ := bind_eq_ok.mp h
    obtain ⟨observed, hobserved, h⟩ := bind_eq_ok.mp h
    obtain ⟨found, hfound, -⟩ := bind_eq_ok.mp h
    have hobs := observed_of_mapM hsorted hobserved
    constructor
    · intro o ho
      obtain ⟨b, -, hb⟩ := exists_mem_mapM hobserved ((mem_sortedByTs hsorted).mpr ho)
      exact exists_relativeMs_iff.mp ⟨b.2, (timed_eq_ok_iff.mp hb).1⟩
    · intro start hstart hlast
      have hopen := hobs.last_iff.mpr ⟨start, hstart, hlast⟩
      rw [← isSome_active_foldl] at hopen
      obtain ⟨durationMs, hduration⟩ := duration_of_finish hfound
      exact exists_runTimelineDurationMs_iff.mp ⟨durationMs, hduration hopen⟩
  · rintro ⟨hclock, hend⟩
    obtain ⟨observations, observed, hsorted, hobserved⟩ := observed_of_onClock hclock
    have hobs := observed_of_mapM hsorted hobserved
    have hduration : ∃ durationMs, (observed.foldl ResponseScan.observe {}).active.isSome →
        runTimelineDurationMs run = .ok durationMs := by
      by_cases hopen : (observed.foldl ResponseScan.observe {}).active.isSome = true
      · have hlast := hopen
        rw [isSome_active_foldl, hobs.last_iff] at hlast
        obtain ⟨start, hstart, hlast⟩ := hlast
        obtain ⟨durationMs, h⟩ := exists_runTimelineDurationMs_iff.mpr (hend start hstart hlast)
        exact ⟨durationMs, fun _ => h⟩
      · exact ⟨0, fun h => absurd h hopen⟩
    obtain ⟨durationMs, hduration⟩ := hduration
    have hfound : ∃ responses, providerResponseEvidence run = .ok responses := by
      simp [providerResponseEvidence, hsorted, hobserved, finish_foldl {} hduration, bind,
        Except.bind, pure, Except.pure]
    obtain ⟨responses, hresponses⟩ := hfound
    exact ⟨responses, hresponses, explained_of_responses hresponses⟩

/-- A response that starts at a time without an offset. -/
def naiveStartRun : StoredRun :=
  { eventRun [] with metrics := [⟨some "sink", "provider_response_started", 1, ⟨0, none⟩⟩] }

/-- The run accepts the time, and its responses cannot be read. -/
theorem naive_start_raises :
    providerResponseEvidence naiveStartRun = .error (.clock .typeError) ∧
      ¬ ∃ responses, providerResponseEvidence naiveStartRun = .ok responses ∧
        ResponsesExplained naiveStartRun responses := by
  have hraises : providerResponseEvidence naiveStartRun = .error (.clock .typeError) := by
    decide +kernel
  refine ⟨hraises, ?_⟩
  rintro ⟨responses, h, -⟩
  rw [hraises] at h
  cases h

end Clock
end VoxBench.ControlPlane
