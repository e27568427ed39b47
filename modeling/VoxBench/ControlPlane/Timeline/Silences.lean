import VoxBench.ControlPlane.Timeline.CaptureHealth
import VoxBench.Lib.Runs
import Mathlib.Algebra.Order.BigOperators.Group.List

/-!
# Windows of digital silence

Silent observations of a stage that follow each other without too long a gap are one run. A
window is reported of each longest run with at least 200 ms of media. It starts with the first
observation of the run and is as long as the media of the run, however fast that arrived. The
gaps and the media are floats there, so that a gap of the allowed length can part a run.

## Main definitions

* `longRuns`, `scannedBlocks` — the longest runs of silent observations, by the times and the
  media themselves and by the floats of the scan.
* `SilenceRule` — the windows of a stage as the rule has them.
* `ScannedAlike` — the roundings part no long run and take no media from it.
* `InRealTime` — the media of a run does not arrive faster than real time.

## Main results

* `silenceWindows_of_stage` — the windows of a stage are those of its scanned blocks, once for
  each place of the stage in the pipeline.
* `silences_iff` — when the windows follow the rule.
-/

namespace VoxBench.ControlPlane

open VoxBench.Lib

/-! ## Runs of silence -/

def StageBundle.isSilent (bundle : StageBundle) : Bool := bundle.silent.isSome

/-- `audio_chunk_duration_ms` of a silent bundle. -/
def StageBundle.mediaMs (bundle : StageBundle) : ℚ := (bundle.silent.map Prod.fst).getD 0

/-- `silence_sample_pct` of a silent bundle. -/
def StageBundle.silencePct (bundle : StageBundle) : ℚ := (bundle.silent.map Prod.snd).getD 0

/-- The time of a bundle on the timeline. -/
def StageBundle.shownMs (run : StoredRun) (bundle : StageBundle) : ℚ :=
  run.offsetMs bundle.ts.instant

/-- Two silent bundles follow each other without a gap over the allowed one. -/
def continues (previous bundle : StageBundle) : Bool :=
  previous.isSilent ∧ bundle.isSilent ∧
    ((bundle.ts.instant - previous.ts.instant : ℤ) : ℚ) / 1000 ≤
      max stageSilenceMaxObservationGapMs (previous.mediaMs * 2)

/-- The media of a block. -/
def blockMediaMs (block : List StageBundle) : ℚ := (block.map StageBundle.mediaMs).sum

/-- The block is silent and has enough media for a window. -/
def isLong (block : List StageBundle) : Bool :=
  block.all StageBundle.isSilent ∧ stageSilenceMinWindowMs ≤ blockMediaMs block

/-- The longest runs of silence with enough media for a window. -/
def longRuns (observed : List StageBundle) : List (List StageBundle) :=
  (observed.splitBy continues).filter isLong

/-- The scan takes two silent bundles for neighbours. -/
def joins (run : StoredRun) (previous bundle : StageBundle) : Bool :=
  previous.isSilent ∧ bundle.isSilent ∧
    nearest (bundle.shownMs run - previous.shownMs run) ≤
      max stageSilenceMaxObservationGapMs (nearest (previous.mediaMs * 2))

/-- The media of a block as the scan adds it up. -/
def scannedMediaMs (block : List StageBundle) : ℚ :=
  compensatedSum (block.map StageBundle.mediaMs)

/-- The block is silent and the scan finds enough media in it for a window. -/
def isReported (block : List StageBundle) : Bool :=
  block.all StageBundle.isSilent ∧ stageSilenceMinWindowMs ≤ scannedMediaMs block

/-- The blocks of which the scan reports a window. -/
def scannedBlocks (run : StoredRun) (observed : List StageBundle) : List (List StageBundle) :=
  (observed.splitBy (joins run)).filter isReported

/-- The start of a block. -/
def blockStartMs (run : StoredRun) (block : List StageBundle) : ℚ :=
  (block.head?.map (StageBundle.shownMs run)).getD 0

/-- The start of a block and its media. -/
def blockEndMs (run : StoredRun) (block : List StageBundle) : ℚ :=
  nearest (blockStartMs run block + scannedMediaMs block)

/-- The window shows the block. -/
structure ShowsBlock (run : StoredRun) (stage : String) (block : List StageBundle)
    (window : StageSilenceWindow) : Prop where
  stage : window.stage = stage
  startMs : window.startMs = blockStartMs run block
  endMs : window.endMs = blockEndMs run block
  count : window.observationCount = block.length

/-- The windows of a stage as the rule has them, given the blocks of observations that they show. -/
structure SilenceRule (run : StoredRun) (stage : String) (observed : List StageBundle)
    (blocks : List (List StageBundle)) (windows : List StageSilenceWindow) : Prop where
  covers : List.Forall₂ (ShowsBlock run stage) blocks windows
  silent : ∀ block ∈ blocks, block <:+: observed ∧ ∀ bundle ∈ block, bundle.isSilent
  clear : ∀ window ∈ windows, ∀ bundle ∈ observed, bundle.isSilent = false →
    ¬ (window.startMs < bundle.shownMs run ∧ bundle.shownMs run < window.endMs)
  long : ∀ window ∈ windows, stageSilenceMinWindowMs ≤ window.endMs - window.startMs
  ordered : windows.Pairwise fun window later => window.startMs ≤ later.startMs
  disjoint : windows.Pairwise fun window later => window.endMs ≤ later.startMs
  complete : ∀ part, part <:+: observed → part.IsChain (fun a b => continues a b) →
    isLong part → ∃! block, block ∈ blocks ∧ part <:+: block

/-! ## The scan of one stage -/

section Scan

variable {run : StoredRun} {stage : String}

/-- What the scan keeps of a silent bundle. -/
def observation (run : StoredRun) (bundle : StageBundle) : SilentObservation :=
  ⟨bundle.shownMs run, bundle.mediaMs, bundle.silencePct⟩

/-- The times of the silent bundles can be shown. -/
def OnClock (run : StoredRun) (observed : List StageBundle) : Prop :=
  ∀ bundle ∈ observed, bundle.isSilent → bundle.ts.isAware = run.startedAt.isAware

@[simp] theorem isReported_nil : isReported [] = false := by
  simp [isReported, scannedMediaMs, compensatedSum, stageSilenceMinWindowMs]

theorem not_isReported_of_not_silent {block : List StageBundle} {bundle : StageBundle}
    (hmem : bundle ∈ block) (h : bundle.isSilent = false) : isReported block = false := by
  have hall : ¬ block.all StageBundle.isSilent = true :=
    fun hall => by simp [List.all_eq_true.mp hall bundle hmem] at h
  simp [isReported, hall]

theorem finishWindow_spec (scan : SilenceScan) (block : List StageBundle)
    (hcurrent : scan.current = block.map (observation run))
    (hsilent : ∀ bundle ∈ block, bundle.isSilent) :
    ∃ found, (scan.finishWindow stage).windows = scan.windows ++ found ∧
      (scan.finishWindow stage).current = [] ∧
      List.Forall₂ (ShowsBlock run stage) ([block].filter isReported) found := by
  have hmedia : compensatedSum (scan.current.map SilentObservation.durationMs) =
      scannedMediaMs block := by
    rw [hcurrent, List.map_map]
    rfl
  have hlong : isReported block = decide (stageSilenceMinWindowMs ≤ scannedMediaMs block) := by
    simp only [isReported, List.all_eq_true.mpr hsilent, true_and]
  unfold SilenceScan.finishWindow
  rw [hmedia]
  cases block with
  | nil => exact ⟨[], by simp [hcurrent], by simp [hcurrent], by simp⟩
  | cons bundle rest =>
      rw [List.map_cons] at hcurrent
      simp only [hcurrent]
      split
      · rename_i hmin
        rw [List.filter_cons_of_pos (by rw [hlong, decide_eq_true hmin])]
        exact ⟨_, rfl, rfl, List.Forall₂.cons ⟨rfl, rfl, rfl, by simp⟩ List.Forall₂.nil⟩
      · rename_i hmin
        rw [List.filter_cons_of_neg (by rw [hlong, decide_eq_false hmin]; decide)]
        exact ⟨[], by simp, rfl, List.Forall₂.nil⟩

/-- Where a block ends, its window is reported before those of the rest. -/
theorem scannedBlocks_append {block rest : List StageBundle}
    (hchain : block.IsChain fun a b => joins run a b)
    (hcut : ∀ last ∈ block.getLast?, ∀ first ∈ rest.head?, joins run last first = false) :
    scannedBlocks run (block ++ rest) = [block].filter isReported ++ scannedBlocks run rest := by
  cases block with
  | nil => simp
  | cons bundle block =>
      unfold scannedBlocks
      rw [List.splitBy_append hcut, List.splitBy_of_isChain (by simp) hchain, List.filter_append]

theorem scannedBlocks_cons_of_not_silent {bundle : StageBundle} (h : bundle.isSilent = false)
    (rest : List StageBundle) : scannedBlocks run (bundle :: rest) = scannedBlocks run rest := by
  have happend := @scannedBlocks_append run [bundle] rest (List.isChain_singleton _)
    fun last hlast first _ => by
      obtain rfl := Option.some.inj hlast
      simp [joins, h]
  rw [List.singleton_append] at happend
  rw [happend, List.filter_cons_of_neg (by simp [not_isReported_of_not_silent _ h]), List.filter_nil,
    List.nil_append]

theorem silent_of_isSilent {bundle : StageBundle} (h : bundle.isSilent = true) :
    bundle.silent = some (bundle.mediaMs, bundle.silencePct) := by
  obtain ⟨value, hvalue⟩ := Option.isSome_iff_exists.mp h
  simp [StageBundle.mediaMs, StageBundle.silencePct, hvalue]

/-- The scan breaks where the next silent bundle does not continue the block. -/
theorem breaks_iff {scan : SilenceScan} {block : List StageBundle} {bundle : StageBundle}
    (hcurrent : scan.current = block.map (observation run))
    (hsilent : ∀ bundle ∈ block, bundle.isSilent) (hbundle : bundle.isSilent = true) :
    scan.breaks (bundle.shownMs run) = true ↔
      ∃ last ∈ block.getLast?, joins run last bundle = false := by
  unfold SilenceScan.breaks
  rw [hcurrent, List.getLast?_map, Option.any_map, Option.any_eq_true]
  refine exists_congr fun last => and_congr_right fun hlast => ?_
  have hlast' : last.isSilent = true := hsilent last (List.mem_of_getLast? hlast)
  simp only [observation, joins, hlast', hbundle, true_and, decide_eq_false_iff_not, not_le]
  exact decide_eq_true_iff

/-- The scan reports the blocks of what it is given after its current block. -/
theorem scan_spec (rest : List StageBundle) (hclock : OnClock run rest) (block : List StageBundle)
    (hsilent : ∀ bundle ∈ block, bundle.isSilent)
    (hchain : block.IsChain fun a b => joins run a b) (scan : SilenceScan)
    (hcurrent : scan.current = block.map (observation run)) :
    ∃ next, rest.foldlM (SilenceScan.observe run stage) scan = .ok next ∧
      ∃ found, (next.finishWindow stage).windows = scan.windows ++ found ∧
        List.Forall₂ (ShowsBlock run stage) (scannedBlocks run (block ++ rest)) found := by
  induction rest generalizing block scan with
  | nil =>
      obtain ⟨found, hfound, -, hshows⟩ := @finishWindow_spec run stage scan block hcurrent hsilent
      refine ⟨scan, rfl, found, hfound, ?_⟩
      rw [scannedBlocks_append hchain (by simp)]
      simpa [scannedBlocks] using hshows
  | cons bundle rest ih =>
      have hrest : OnClock run rest := fun b hb => hclock b (List.mem_cons_of_mem _ hb)
      obtain ⟨first, hfirst, hempty, hshows⟩ :=
        @finishWindow_spec run stage scan block hcurrent hsilent
      rw [List.foldlM_cons]
      cases hbundle : bundle.isSilent with
      | false =>
          have hnone : bundle.silent = none := Option.isNone_iff_eq_none.mp (by
            rw [← Option.not_isSome, Bool.not_eq_true']
            exact hbundle)
          have hobserve : scan.observe run stage bundle = .ok (scan.finishWindow stage) := by
            unfold SilenceScan.observe
            rw [hnone]
          obtain ⟨next, hnext, later, hlater, hshows'⟩ :=
            ih hrest [] (by simp) List.isChain_nil (scan.finishWindow stage) hempty
          refine ⟨next, by rw [hobserve]; exact hnext, first ++ later, ?_, ?_⟩
          · rw [hlater, hfirst, List.append_assoc]
          · rw [scannedBlocks_append hchain, scannedBlocks_cons_of_not_silent hbundle]
            · exact List.rel_append hshows hshows'
            · intro last _ next hnext
              obtain rfl := Option.some.inj hnext
              simp [joins, hbundle]
      | true =>
          have haware := hclock bundle List.mem_cons_self hbundle
          have hobserve : scan.observe run stage bundle =
              .ok { (if scan.breaks (bundle.shownMs run) then scan.finishWindow stage else scan) with
                current := (if scan.breaks (bundle.shownMs run) then scan.finishWindow stage
                  else scan).current ++ [observation run bundle] } := by
            have hrelative : relativeMs run bundle.ts = .ok (bundle.shownMs run) :=
              relativeMs_eq_ok_iff.mpr ⟨haware, rfl⟩
            simp only [SilenceScan.observe, silent_of_isSilent hbundle, hrelative]
            rfl
          rw [hobserve]
          by_cases hbreaks : scan.breaks (bundle.shownMs run) = true
          · -- the block ends, and the bundle starts the next one
            simp only [hbreaks, if_true, hempty, List.nil_append]
            obtain ⟨last, hlast, hcut⟩ := (breaks_iff hcurrent hsilent hbundle).mp hbreaks
            obtain ⟨next, hnext, later, hlater, hshows'⟩ :=
              ih hrest [bundle] (by simpa using hbundle) (List.isChain_singleton _)
                { scan.finishWindow stage with current := [observation run bundle] } rfl
            refine ⟨next, hnext, first ++ later, ?_, ?_⟩
            · rw [hlater, hfirst, List.append_assoc]
            · rw [scannedBlocks_append hchain]
              · exact List.rel_append hshows hshows'
              · intro last' hlast' next hnext
                obtain rfl := Option.some.inj (Option.mem_def.mp hlast ▸ hlast')
                obtain rfl := Option.some.inj hnext
                exact hcut
          · -- the bundle continues the block
            simp only [hbreaks]
            have hchain' : (block ++ [bundle]).IsChain fun a b => joins run a b := by
              refine List.isChain_append.mpr ⟨hchain, List.isChain_singleton _, ?_⟩
              intro last hlast next hnext
              obtain rfl := Option.some.inj hnext
              by_contra hcut
              exact hbreaks ((breaks_iff hcurrent hsilent hbundle).mpr
                ⟨last, hlast, Bool.eq_false_iff.mpr hcut⟩)
            obtain ⟨next, hnext, later, hlater, hshows'⟩ :=
              ih hrest (block ++ [bundle])
                (fun b hb => (List.mem_append.mp hb).elim (hsilent b) (by simp_all)) hchain'
                { scan with current := scan.current ++ [observation run bundle] }
                (by rw [hcurrent, List.map_append]; rfl)
            refine ⟨next, hnext, later, hlater, ?_⟩
            rwa [List.append_assoc, List.singleton_append] at hshows'

theorem onClock_of_scan {rest : List StageBundle} {scan next : SilenceScan}
    (h : rest.foldlM (SilenceScan.observe run stage) scan = .ok next) : OnClock run rest := by
  induction rest generalizing scan with
  | nil => exact fun bundle hbundle => absurd hbundle List.not_mem_nil
  | cons bundle rest ih =>
      rw [List.foldlM_cons] at h
      obtain ⟨mid, hmid, h⟩ := bind_eq_ok.mp h
      intro other hother hsilent
      rcases List.mem_cons.mp hother with rfl | hother
      · simp only [SilenceScan.observe, silent_of_isSilent hsilent] at hmid
        obtain ⟨startMs, hstart, -⟩ := bind_eq_ok.mp hmid
        exact (relativeMs_eq_ok_iff.mp hstart).1
      · exact ih h other hother hsilent

end Scan

/-! ## The windows of the pipeline -/

section Pipeline

variable {run : StoredRun} {bundlesByStage : List (String × List StageBundle)}
  {windows found : List StageSilenceWindow} {stages : List String}

/-- The bundles of a stage, in the order of their times. -/
def observedOf (bundlesByStage : List (String × List StageBundle)) (stage : String) :
    List StageBundle := (Dict.get? bundlesByStage stage).getD []

/-- The scanned blocks of a stage, once for each place of the stage in the pipeline. -/
def repeatedBlocks (run : StoredRun) (bundlesByStage : List (String × List StageBundle))
    (stages : List String) (stage : String) : List (List StageBundle) :=
  (List.replicate (stages.count stage) (scannedBlocks run (observedOf bundlesByStage stage))).flatten

theorem silenceWindowsOfStage_spec (stage : String)
    (hclock : OnClock run (observedOf bundlesByStage stage)) (windows : List StageSilenceWindow) :
    ∃ found, silenceWindowsOfStage run bundlesByStage windows stage = .ok (windows ++ found) ∧
      List.Forall₂ (ShowsBlock run stage) (scannedBlocks run (observedOf bundlesByStage stage))
        found := by
  obtain ⟨scan, hscan, found, hfound, hshows⟩ :=
    @scan_spec run stage _ hclock [] (by simp) List.isChain_nil { windows } rfl
  refine ⟨found, bind_eq_ok.mpr ⟨scan, hscan, ?_⟩, hshows⟩
  rw [hfound]
  rfl

/-- The scan over the pipeline reports the scanned blocks at each place of a stage. -/
theorem pipeline_spec (hclock : ∀ stage ∈ stages, OnClock run (observedOf bundlesByStage stage))
    (windows : List StageSilenceWindow) :
    ∃ found, stages.foldlM (silenceWindowsOfStage run bundlesByStage) windows =
        .ok (windows ++ found) ∧
      ∀ stage, List.Forall₂ (ShowsBlock run stage) (repeatedBlocks run bundlesByStage stages stage)
        (found.filter fun window => window.stage = stage) := by
  induction stages generalizing windows with
  | nil => exact ⟨[], by simp; rfl, fun stage => List.Forall₂.nil⟩
  | cons first stages ih =>
      obtain ⟨here, hhere, hshows⟩ :=
        silenceWindowsOfStage_spec first (hclock first List.mem_cons_self) windows
      obtain ⟨later, hlater, hshows'⟩ :=
        ih (fun stage hstage => hclock stage (List.mem_cons_of_mem _ hstage)) (windows ++ here)
      refine ⟨here ++ later, ?_, fun stage => ?_⟩
      · rw [List.foldlM_cons, hhere, ← List.append_assoc]
        exact hlater
      · have hstages : ∀ window ∈ here, window.stage = first := by
          intro window hwindow
          obtain ⟨block, -, hblock⟩ := exists_mem_of_forall₂ hshows hwindow
          exact hblock.stage
        rw [List.filter_append]
        unfold repeatedBlocks
        by_cases hstage : first = stage
        · subst hstage
          rw [List.count_cons_self, List.replicate_succ, List.flatten_cons,
            List.filter_eq_self.mpr fun window hwindow => decide_eq_true (hstages window hwindow)]
          exact List.rel_append hshows (hshows' first)
        · rw [List.count_cons_of_ne hstage, List.filter_eq_nil_iff.mpr fun window hwindow h =>
            hstage ((hstages window hwindow).symm.trans (of_decide_eq_true h)), List.nil_append]
          exact hshows' stage

theorem onClock_of_pipeline
    (h : stages.foldlM (silenceWindowsOfStage run bundlesByStage) windows = .ok found) :
    ∀ stage ∈ stages, OnClock run (observedOf bundlesByStage stage) := by
  induction stages generalizing windows with
  | nil => exact fun stage hstage => absurd hstage List.not_mem_nil
  | cons first stages ih =>
      rw [List.foldlM_cons] at h
      obtain ⟨mid, hmid, h⟩ := bind_eq_ok.mp h
      intro stage hstage
      rcases List.mem_cons.mp hstage with rfl | hstage
      · obtain ⟨scan, hscan, -⟩ := bind_eq_ok.mp hmid
        exact onClock_of_scan hscan
      · exact ih h stage hstage

theorem exists_stageSilenceWindows_iff :
    (∃ windows, stageSilenceWindows run = .ok windows) ↔
      ∃ bundlesByStage, stageQualityBundles run = .ok bundlesByStage ∧
        ∀ stage ∈ pipelineStageNames run, OnClock run (observedOf bundlesByStage stage) := by
  constructor
  · rintro ⟨windows, h⟩
    obtain ⟨bundlesByStage, hbundles, h⟩ := bind_eq_ok.mp h
    exact ⟨bundlesByStage, hbundles, onClock_of_pipeline h⟩
  · rintro ⟨bundlesByStage, hbundles, hclock⟩
    obtain ⟨found, hfound, -⟩ := pipeline_spec hclock []
    exact ⟨_, bind_eq_ok.mpr ⟨bundlesByStage, hbundles, hfound⟩⟩

/-- The windows of a stage are those of its scanned blocks, once for each place of the stage in
the pipeline. -/
theorem silenceWindows_of_stage (h : stageSilenceWindows run = .ok windows)
    (hbundles : stageQualityBundles run = .ok bundlesByStage) (stage : String) :
    List.Forall₂ (ShowsBlock run stage)
      (repeatedBlocks run bundlesByStage (pipelineStageNames run) stage)
      (windows.filter fun window => window.stage = stage) := by
  obtain ⟨bundlesByStage', hbundles', h⟩ := bind_eq_ok.mp h
  obtain rfl := Except.ok.inj (hbundles.symm.trans hbundles')
  obtain ⟨found, hfound, hshows⟩ := pipeline_spec (onClock_of_pipeline h) []
  obtain rfl : found = windows := Except.ok.inj (hfound.symm.trans h)
  exact hshows stage

end Pipeline

/-! ## Runs and blocks -/

section Blocks

variable {run : StoredRun} {observed block part : List StageBundle} {bundle : StageBundle}
  {r : StageBundle → StageBundle → Bool}

theorem mediaMs_nonneg (bundle : StageBundle) : 0 ≤ bundle.mediaMs := by
  unfold StageBundle.mediaMs StageBundle.silent
  split
  · split
    · rename_i hsilent
      exact hsilent.1.le
    · exact le_refl _
  · exact le_refl _

theorem silent_of_continues (a b : StageBundle) (h : continues a b = true) :
    a.isSilent = true ∧ b.isSilent = true := by
  have hrule := of_decide_eq_true h
  exact ⟨hrule.1, hrule.2.1⟩

theorem silent_of_joins (a b : StageBundle) (h : joins run a b = true) :
    a.isSilent = true ∧ b.isSilent = true := by
  have hscan := of_decide_eq_true h
  exact ⟨hscan.1, hscan.2.1⟩

theorem mem_longRuns : block ∈ longRuns observed ↔
    block ∈ observed.splitBy continues ∧ isLong block = true := List.mem_filter

theorem mem_scannedBlocks : block ∈ scannedBlocks run observed ↔
    block ∈ observed.splitBy (joins run) ∧ isReported block = true := List.mem_filter

theorem isLong_iff : isLong block = true ↔
    (∀ bundle ∈ block, bundle.isSilent) ∧ stageSilenceMinWindowMs ≤ blockMediaMs block := by
  rw [isLong, decide_eq_true_eq, List.all_eq_true]

theorem isReported_iff : isReported block = true ↔
    (∀ bundle ∈ block, bundle.isSilent) ∧ stageSilenceMinWindowMs ≤ scannedMediaMs block := by
  rw [isReported, decide_eq_true_eq, List.all_eq_true]

theorem ne_nil_of_isLong (h : isLong block = true) : block ≠ [] := by
  rintro rfl
  norm_num [isLong, blockMediaMs, stageSilenceMinWindowMs] at h

/-- A bundle that another goes on from, or that goes on from another, is silent. -/
theorem silent_of_chain (hr : ∀ a b, r a b = true → a.isSilent = true ∧ b.isSilent = true)
    (hchain : block.IsChain fun a b => r a b) (hlength : 2 ≤ block.length) :
    ∀ bundle ∈ block, bundle.isSilent := by
  induction block with
  | nil => simp at hlength
  | cons a block ih =>
      cases block with
      | nil => simp at hlength
      | cons b block =>
          obtain ⟨hab, hrest⟩ := List.isChain_cons_cons.mp hchain
          obtain ⟨ha, hb⟩ := hr a b hab
          intro bundle hbundle
          rcases List.mem_cons.mp hbundle with rfl | hbundle
          · exact ha
          · cases block with
            | nil =>
                obtain rfl := List.mem_singleton.mp hbundle
                exact hb
            | cons c block => exact ih hrest (by simp) bundle hbundle

/-- A block that holds silence is silent. -/
theorem silent_of_within (hr : ∀ a b, r a b = true → a.isSilent = true ∧ b.isSilent = true)
    (hblock : block ∈ observed.splitBy r) (hpart : part <:+: block) (hne : part ≠ [])
    (hsilent : ∀ bundle ∈ part, bundle.isSilent) : ∀ bundle ∈ block, bundle.isSilent := by
  intro bundle hbundle
  rcases lt_or_ge block.length 2 with hlength | hlength
  · -- a block of one bundle is the part itself
    obtain ⟨first, hfirst⟩ := List.exists_mem_of_ne_nil part hne
    have hmem : first ∈ block := hpart.subset hfirst
    obtain ⟨only, rfl⟩ : ∃ only, block = [only] := by
      refine List.length_eq_one_iff.mp ?_
      have := List.length_pos_of_mem hbundle
      omega
    rw [List.mem_singleton] at hbundle hmem
    rw [hbundle, ← hmem]
    exact hsilent first hfirst
  · exact silent_of_chain hr (List.isChain_of_mem_splitBy hblock) hlength bundle hbundle

/-- A block that holds a long run of silence is a long run of silence. -/
theorem isLong_of_infix (hblock : block ∈ observed.splitBy continues) (hpart : part <:+: block)
    (hlong : isLong part = true) : isLong block = true := by
  obtain ⟨hsilent, hmin⟩ := isLong_iff.mp hlong
  have hmedia : blockMediaMs part ≤ blockMediaMs block := by
    obtain ⟨s, t, rfl⟩ := hpart
    have hs : 0 ≤ (s.map StageBundle.mediaMs).sum := List.sum_nonneg (by simp [mediaMs_nonneg])
    have ht : 0 ≤ (t.map StageBundle.mediaMs).sum := List.sum_nonneg (by simp [mediaMs_nonneg])
    unfold blockMediaMs
    rw [List.map_append, List.map_append, List.sum_append, List.sum_append]
    linarith
  exact isLong_iff.mpr ⟨silent_of_within silent_of_continues hblock hpart (ne_nil_of_isLong hlong)
    hsilent, hmin.trans hmedia⟩

/-- A long run of silence is in one of the longest. -/
theorem exists_longRun (hpart : part <:+: observed) (hchain : part.IsChain fun a b => continues a b)
    (hlong : isLong part = true) : ∃ long ∈ longRuns observed, part <:+: long := by
  obtain ⟨block, hblock, hin⟩ := exists_infix_splitBy (ne_nil_of_isLong hlong) hpart hchain
  exact ⟨block, mem_longRuns.mpr ⟨hblock, isLong_of_infix hblock hin hlong⟩, hin⟩

theorem infix_of_mem_longRuns (h : block ∈ longRuns observed) :
    block <:+: observed ∧ block.IsChain (fun a b => continues a b) ∧ isLong block = true := by
  obtain ⟨hmem, hlong⟩ := mem_longRuns.mp h
  exact ⟨infix_of_mem_splitBy hmem, List.isChain_of_mem_splitBy hmem, hlong⟩

end Blocks

/-! ## Bundles of different times -/

section Bundles

variable {run : StoredRun} {names : List String} {metrics : List MetricArtifact}

/-- What a bundle is filed under. -/
def StageBundle.key (bundle : StageBundle) : String × Bool × Instant := (bundle.stage, bundle.ts.key)

theorem addToBundle_keys {bundles : List ((String × Bool × Instant) × StageBundle)}
    (hkeys : (Dict.keys bundles).Nodup) (hfiled : ∀ entry ∈ bundles, entry.1 = entry.2.key)
    (metric : MetricArtifact) : (Dict.keys (addToBundle names bundles metric)).Nodup ∧
      ∀ entry ∈ addToBundle names bundles metric, entry.1 = entry.2.key := by
  unfold addToBundle
  split
  · exact ⟨hkeys, hfiled⟩
  · split
    · refine ⟨Dict.nodup_keys_set hkeys _ _, fun entry hentry => ?_⟩
      rcases Dict.mem_set hentry with rfl | hentry
      · rename_i stage _ _
        cases hget : Dict.get? bundles (stage, metric.ts.key) with
        | none => rfl
        | some bundle =>
            have hkey := hfiled _ (Dict.mem_of_get?_eq_some hget)
            exact hkey
      · exact hfiled entry hentry
    · exact ⟨hkeys, hfiled⟩

theorem nodup_stageBundles : ((stageBundles names metrics).map StageBundle.key).Nodup := by
  have hfold : ∀ bundles : List ((String × Bool × Instant) × StageBundle),
      (Dict.keys bundles).Nodup → (∀ entry ∈ bundles, entry.1 = entry.2.key) →
        (Dict.keys (metrics.foldl (addToBundle names) bundles)).Nodup ∧
          ∀ entry ∈ metrics.foldl (addToBundle names) bundles, entry.1 = entry.2.key := by
    induction metrics with
    | nil => exact fun bundles hkeys hfiled => ⟨hkeys, hfiled⟩
    | cons metric metrics ih =>
        intro bundles hkeys hfiled
        obtain ⟨hkeys, hfiled⟩ := @addToBundle_keys names bundles hkeys hfiled metric
        exact ih _ hkeys hfiled
  obtain ⟨hkeys, hfiled⟩ := hfold [] List.nodup_nil (by simp)
  have hmap : (stageBundles names metrics).map StageBundle.key =
      Dict.keys (metrics.foldl (addToBundle names) []) := by
    rw [stageBundles, List.map_map]
    exact List.map_congr_left fun entry hentry => (hfiled entry hentry).symm
  rwa [hmap]

theorem nodup_observedOf {bundlesByStage : List (String × List StageBundle)}
    (h : stageQualityBundles run = .ok bundlesByStage) (stage : String) :
    (observedOf bundlesByStage stage).Nodup := by
  unfold observedOf
  cases hget : Dict.get? bundlesByStage stage with
  | none => exact List.nodup_nil
  | some observed =>
      obtain ⟨group, hgroup, hfound⟩ := exists_of_mem_mapM h (Dict.mem_of_get?_eq_some hget)
      obtain ⟨sorted, hsorted, heq⟩ := bind_eq_ok.mp hfound
      obtain ⟨-, rfl⟩ := Prod.mk.inj (Except.ok.inj heq)
      rw [Option.getD_some, (perm_of_sortedByTs hsorted).nodup_iff,
        mem_groupOn (k := group.1) hgroup]
      exact nodup_stageBundles.of_map.filter _

end Bundles

/-! ## The rule -/

/-- The roundings part no long run of silence, and leave enough of its media for a window. -/
structure ScannedAlike (run : StoredRun) (observed : List StageBundle) : Prop where
  joined : ∀ long ∈ longRuns observed, long.IsChain fun a b => joins run a b
  media : ∀ long ∈ longRuns observed, ∀ block ∈ observed.splitBy (joins run), long <:+: block →
    stageSilenceMinWindowMs ≤ scannedMediaMs block

/-- The media of a block does not arrive faster than real time: its start and its media are not
after the start of the next block, nor after a bundle that is not silent and comes later. Their
rounded sum leaves the 200 ms of a window. -/
structure InRealTime (run : StoredRun) (observed : List StageBundle) : Prop where
  before_next : (scannedBlocks run observed).Pairwise fun block later =>
    blockEndMs run block ≤ blockStartMs run later
  before_sound : ∀ block ∈ scannedBlocks run observed, ∀ bundle ∈ observed,
    bundle.isSilent = false → blockStartMs run block < bundle.shownMs run →
      blockEndMs run block ≤ bundle.shownMs run
  lasting : ∀ block ∈ scannedBlocks run observed,
    stageSilenceMinWindowMs ≤ blockEndMs run block - blockStartMs run block

section Rule

variable {run : StoredRun} {stage : String} {observed : List StageBundle}
  {windows : List StageSilenceWindow}

/-- The scan reports a block around every long run when the roundings keep it together. -/
theorem scannedAlike_iff (hnodup : observed.Nodup) : ScannedAlike run observed ↔
    ∀ long ∈ longRuns observed, ∃ block ∈ scannedBlocks run observed, long <:+: block := by
  constructor
  · rintro ⟨hjoined, hmedia⟩ long hlong
    obtain ⟨hin, -, his⟩ := infix_of_mem_longRuns hlong
    have hne := ne_nil_of_isLong his
    obtain ⟨block, hblock, hpart⟩ := exists_infix_splitBy hne hin (hjoined long hlong)
    have hsilent := silent_of_within silent_of_joins hblock hpart hne (isLong_iff.mp his).1
    exact ⟨block, mem_scannedBlocks.mpr ⟨hblock,
      isReported_iff.mpr ⟨hsilent, hmedia long hlong block hblock hpart⟩⟩, hpart⟩
  · intro h
    constructor
    · intro long hlong
      obtain ⟨block, hblock, hpart⟩ := h long hlong
      exact isChain_of_infix_splitBy (mem_scannedBlocks.mp hblock).1 hpart
    · intro long hlong other hother hpart'
      obtain ⟨block, hblock, hpart⟩ := h long hlong
      obtain ⟨hmem, hreported⟩ := mem_scannedBlocks.mp hblock
      obtain ⟨first, hfirst⟩ :=
        List.exists_mem_of_ne_nil long (ne_nil_of_isLong (infix_of_mem_longRuns hlong).2.2)
      obtain rfl := eq_of_mem_splitBy hnodup hmem hother (hpart.subset hfirst)
        (hpart'.subset hfirst)
      exact (isReported_iff.mp hreported).2

/-- A long run of silence is in one of the scanned blocks, and in no other. -/
theorem existsUnique_block (hnodup : observed.Nodup) (halike : ScannedAlike run observed)
    {part : List StageBundle} (hpart : part <:+: observed)
    (hchain : part.IsChain fun a b => continues a b) (hlong : isLong part = true) :
    ∃! block, block ∈ scannedBlocks run observed ∧ part <:+: block := by
  obtain ⟨long, hmem, hin⟩ := exists_longRun hpart hchain hlong
  obtain ⟨block, hblock, hin'⟩ := (scannedAlike_iff hnodup).mp halike long hmem
  refine ⟨block, ⟨hblock, hin.trans hin'⟩, ?_⟩
  rintro other ⟨hother, hpart'⟩
  obtain ⟨first, hfirst⟩ := List.exists_mem_of_ne_nil part (ne_nil_of_isLong hlong)
  exact eq_of_mem_splitBy hnodup (mem_scannedBlocks.mp hother).1 (mem_scannedBlocks.mp hblock).1
    (hpart'.subset hfirst) ((hin.trans hin').subset hfirst)

/-- The windows of the scanned blocks follow the rule when the roundings keep the long runs and
the media arrives in real time. -/
theorem silenceRule_iff (hnodup : observed.Nodup)
    (hshows : List.Forall₂ (ShowsBlock run stage) (scannedBlocks run observed) windows) :
    SilenceRule run stage observed (scannedBlocks run observed) windows ↔
      ScannedAlike run observed ∧ InRealTime run observed := by
  have hdisjoint : (scannedBlocks run observed).Pairwise (fun block later =>
      blockEndMs run block ≤ blockStartMs run later) ↔
        windows.Pairwise fun window later => window.endMs ≤ later.startMs := by
    refine pairwise_iff_of_forall₂ hshows fun block later window window' hshow hshow' => ?_
    rw [hshow.endMs, hshow'.startMs]
  constructor
  · intro hrule
    refine ⟨(scannedAlike_iff hnodup).mpr fun long hlong => ?_, hdisjoint.mpr hrule.disjoint, ?_, ?_⟩
    · obtain ⟨hin, hchain, his⟩ := infix_of_mem_longRuns hlong
      exact (hrule.complete long hin hchain his).exists
    · intro block hblock bundle hbundle hsound hlt
      obtain ⟨window, hwindow, hshow⟩ := exists_mem_of_forall₂ (List.Forall₂.flip hshows) hblock
      by_contra hend
      refine hrule.clear window hwindow bundle hbundle hsound ⟨?_, ?_⟩
      · rwa [hshow.startMs]
      · rw [hshow.endMs]
        exact not_le.mp hend
    · intro block hblock
      obtain ⟨window, hwindow, hshow⟩ := exists_mem_of_forall₂ (List.Forall₂.flip hshows) hblock
      rw [← hshow.endMs, ← hshow.startMs]
      exact hrule.long window hwindow
  · rintro ⟨halike, hnext, hsound, hlasting⟩
    have hlong : ∀ window ∈ windows, stageSilenceMinWindowMs ≤ window.endMs - window.startMs := by
      intro window hwindow
      obtain ⟨block, hblock, hshow⟩ := exists_mem_of_forall₂ hshows hwindow
      rw [hshow.endMs, hshow.startMs]
      exact hlasting block hblock
    refine ⟨hshows, ?_, ?_, hlong, ?_, hdisjoint.mp hnext, ?_⟩
    · intro block hblock
      obtain ⟨hmem, hreported⟩ := mem_scannedBlocks.mp hblock
      exact ⟨infix_of_mem_splitBy hmem, (isReported_iff.mp hreported).1⟩
    · rintro window hwindow bundle hbundle hnot ⟨hlt, hlt'⟩
      obtain ⟨block, hblock, hshow⟩ := exists_mem_of_forall₂ hshows hwindow
      rw [hshow.startMs] at hlt
      rw [hshow.endMs] at hlt'
      exact absurd (hsound block hblock bundle hbundle hnot hlt) (not_le.mpr hlt')
    · refine (hdisjoint.mp hnext).imp_of_mem fun hwindow _ hle => le_trans ?_ hle
      have hmin : 0 ≤ stageSilenceMinWindowMs := by norm_num [stageSilenceMinWindowMs]
      exact sub_nonneg.mp (hmin.trans (hlong _ hwindow))
    · exact fun part hpart hchain hlong => existsUnique_block hnodup halike hpart hchain hlong

/-- Where a stage has not one place in the pipeline, its windows follow the rule when there is
nothing to report: a long run has no window, and a window comes several times. -/
theorem silenceRule_replicate_iff {n : ℕ} (hn : n ≠ 1)
    (hshows : List.Forall₂ (ShowsBlock run stage)
      (List.replicate n (scannedBlocks run observed)).flatten windows) :
    SilenceRule run stage observed (List.replicate n (scannedBlocks run observed)).flatten windows ↔
      longRuns observed = [] ∧ (n = 0 ∨ scannedBlocks run observed = []) := by
  constructor
  · intro hrule
    have hempty : n = 0 ∨ scannedBlocks run observed = [] := by
      by_contra hsome
      obtain ⟨hzero, hne⟩ := not_or.mp hsome
      obtain ⟨k, rfl⟩ : ∃ k, n = k + 2 := ⟨n - 2, by omega⟩
      obtain ⟨block, hblock⟩ := List.exists_mem_of_ne_nil _ hne
      -- the window of the block comes again, at the same time
      have hpairwise : (List.replicate (k + 2) (scannedBlocks run observed)).flatten.Pairwise
          fun block later => blockEndMs run block ≤ blockStartMs run later := by
        refine (pairwise_iff_of_forall₂ hshows fun block later window window' hshow hshow' => ?_).mpr
          hrule.disjoint
        rw [hshow.endMs, hshow'.startMs]
      rw [List.replicate_succ, List.flatten_cons] at hpairwise
      have hagain := (List.pairwise_append.mp hpairwise).2.2 block hblock block
        (List.mem_flatten.mpr ⟨_, List.mem_replicate.mpr ⟨Nat.succ_ne_zero k, rfl⟩, hblock⟩)
      obtain ⟨window, hwindow, hshow⟩ := exists_mem_of_forall₂ (List.Forall₂.flip hshows)
        (List.mem_flatten.mpr ⟨_, List.mem_replicate.mpr ⟨Nat.succ_ne_zero (k + 1), rfl⟩, hblock⟩)
      have hlong := hrule.long window hwindow
      rw [hshow.endMs, hshow.startMs] at hlong
      norm_num [stageSilenceMinWindowMs] at hlong
      linarith
    refine ⟨?_, hempty⟩
    have hblocks : (List.replicate n (scannedBlocks run observed)).flatten = [] := by
      rcases hempty with rfl | hnil
      · rfl
      · rw [hnil, List.flatten_replicate_nil]
    by_contra hne
    obtain ⟨long, hlong⟩ := List.exists_mem_of_ne_nil _ hne
    obtain ⟨hin, hchain, his⟩ := infix_of_mem_longRuns hlong
    obtain ⟨block, ⟨hblock, -⟩, -⟩ := hrule.complete long hin hchain his
    rw [hblocks] at hblock
    cases hblock
  · rintro ⟨hnone, hempty⟩
    have hblocks : (List.replicate n (scannedBlocks run observed)).flatten = [] := by
      rcases hempty with rfl | hnil
      · rfl
      · rw [hnil, List.flatten_replicate_nil]
    rw [hblocks] at hshows ⊢
    obtain rfl : windows = [] := by
      cases hshows
      rfl
    refine ⟨hshows, by simp, by simp, by simp, by simp, by simp, fun part hpart hchain hlong => ?_⟩
    obtain ⟨long, hmem, -⟩ := exists_longRun hpart hchain hlong
    rw [hnone] at hmem
    cases hmem

end Rule

/-- The windows of a stage, with the blocks that they show, can be formed and follow the rule
exactly when the times of its bundles can be shown and, at its one place in the pipeline, the
roundings keep its long runs together and the media arrives in real time. With no place or
several there must be nothing to report. -/
theorem silences_iff (run : StoredRun) (stage : String) :
    (∃ windows bundlesByStage, stageSilenceWindows run = .ok windows ∧
      stageQualityBundles run = .ok bundlesByStage ∧
      SilenceRule run stage (observedOf bundlesByStage stage)
        (repeatedBlocks run bundlesByStage (pipelineStageNames run) stage)
        (windows.filter fun window => window.stage = stage)) ↔
      ∃ bundlesByStage, stageQualityBundles run = .ok bundlesByStage ∧
        (∀ other ∈ pipelineStageNames run, OnClock run (observedOf bundlesByStage other)) ∧
        (((pipelineStageNames run).count stage = 1 ∧
            ScannedAlike run (observedOf bundlesByStage stage) ∧
            InRealTime run (observedOf bundlesByStage stage)) ∨
          ((pipelineStageNames run).count stage ≠ 1 ∧
            longRuns (observedOf bundlesByStage stage) = [] ∧
            ((pipelineStageNames run).count stage = 0 ∨
              scannedBlocks run (observedOf bundlesByStage stage) = []))) := by
  have hrule : ∀ {windows bundlesByStage}, stageSilenceWindows run = .ok windows →
      stageQualityBundles run = .ok bundlesByStage →
      (SilenceRule run stage (observedOf bundlesByStage stage)
        (repeatedBlocks run bundlesByStage (pipelineStageNames run) stage)
        (windows.filter fun window => window.stage = stage) ↔
        (((pipelineStageNames run).count stage = 1 ∧
            ScannedAlike run (observedOf bundlesByStage stage) ∧
            InRealTime run (observedOf bundlesByStage stage)) ∨
          ((pipelineStageNames run).count stage ≠ 1 ∧
            longRuns (observedOf bundlesByStage stage) = [] ∧
            ((pipelineStageNames run).count stage = 0 ∨
              scannedBlocks run (observedOf bundlesByStage stage) = [])))) := by
    intro windows bundlesByStage hwindows hbundles
    have hshows := silenceWindows_of_stage hwindows hbundles stage
    unfold repeatedBlocks at hshows ⊢
    by_cases hone : (pipelineStageNames run).count stage = 1
    · rw [hone, List.replicate_one, List.flatten_singleton] at hshows
      rw [hone, List.replicate_one, List.flatten_singleton,
        silenceRule_iff (nodup_observedOf hbundles stage) hshows]
      simp
    · rw [silenceRule_replicate_iff hone hshows]
      simp [hone]
  constructor
  · rintro ⟨windows, bundlesByStage, hwindows, hbundles, h⟩
    obtain ⟨bundlesByStage', hbundles', hclock⟩ := exists_stageSilenceWindows_iff.mp ⟨_, hwindows⟩
    obtain rfl := Except.ok.inj (hbundles.symm.trans hbundles')
    exact ⟨bundlesByStage, hbundles, hclock, (hrule hwindows hbundles).mp h⟩
  · rintro ⟨bundlesByStage, hbundles, hclock, h⟩
    obtain ⟨windows, hwindows⟩ :=
      exists_stageSilenceWindows_iff.mpr ⟨bundlesByStage, hbundles, hclock⟩
    exact ⟨windows, bundlesByStage, hwindows, hbundles, (hrule hwindows hbundles).mpr h⟩

/-- A chunk of 200 ms of the sink, with the given share of silent samples. -/
def chunkMetrics (ms : ℤ) (silencePct : ℚ) : List MetricArtifact :=
  [⟨some "sink", "audio_chunk_duration_ms", 200, .utc (ms * 1000)⟩,
    ⟨some "sink", "silence_sample_pct", silencePct, .utc (ms * 1000)⟩]

/-- Media faster than real time: a silent chunk, and sound 50 ms after its start. -/
def fastRun : StoredRun := { eventRun [] with metrics := chunkMetrics 0 100 ++ chunkMetrics 50 0 }

/-- The bundle of `chunkMetrics`. -/
def chunkBundle (ms : ℤ) (silencePct : ℚ) : StageBundle :=
  ⟨"sink", .utc (ms * 1000), [("audio_chunk_duration_ms", 200), ("silence_sample_pct", silencePct)]⟩

/-- The window of the silent chunk goes on for 200 ms, over the sound after 50 ms. -/
theorem fast_media_covers_sound :
    stageSilenceWindows fastRun = .ok [⟨"sink", 0, 0, 200, 1, 100⟩] ∧
      stageQualityBundles fastRun = .ok [("sink", [chunkBundle 0 100, chunkBundle 50 0])] ∧
      ¬ ∃ windows bundlesByStage, stageSilenceWindows fastRun = .ok windows ∧
        stageQualityBundles fastRun = .ok bundlesByStage ∧
        ∃ blocks, SilenceRule fastRun "sink" (observedOf bundlesByStage "sink") blocks
          (windows.filter fun window => window.stage = "sink") := by
  have hwindows : stageSilenceWindows fastRun = .ok [⟨"sink", 0, 0, 200, 1, 100⟩] := by
    decide +kernel
  have hbundles : stageQualityBundles fastRun =
      .ok [("sink", [chunkBundle 0 100, chunkBundle 50 0])] := by decide +kernel
  refine ⟨hwindows, hbundles, ?_⟩
  rintro ⟨windows, bundlesByStage, h, h', blocks, hrule⟩
  obtain rfl := Except.ok.inj (hwindows.symm.trans h)
  obtain rfl := Except.ok.inj (hbundles.symm.trans h')
  have hshown : (chunkBundle 50 0).shownMs fastRun = 50 := by decide +kernel
  refine hrule.clear ⟨"sink", 0, 0, 200, 1, 100⟩ (by decide +kernel) (chunkBundle 50 0)
    (by decide +kernel) (by decide +kernel) ?_
  rw [hshown]
  norm_num

end VoxBench.ControlPlane
