import VoxBench.ControlPlane.Timeline.CaptureHealth
import VoxBench.Lib.Runs

/-!
# Windows of degradation

The stats of a direction are numbered in the order of their times, and breaching stats with
consecutive numbers that are at most five seconds apart belong to one window. The windows are
formed in the order of the times as they are shown, where every time before the start of the
run is the start of the run and the others are floats, as are the gaps between them.

## Main definitions

* `timeOrder`, `shownOrder` — the two orders of the stats of a direction.
* `MaximalWindows` — the windows as the rule has them.
* `ClampAgrees` — the shown times order and part breaching neighbours as the real times do.

## Main results

* `quality_eq_ok_iff` — the evidence in closed form.
* `windows_iff` — the windows follow the rule exactly when the two orders agree.
-/

namespace VoxBench.ControlPlane

open VoxBench.Lib

/-! ## The rule -/

/-- The stats of a direction with their indices, in the order of their times. -/
def timeOrder (run : StoredRun) (direction : Option RtpDirection) : List (RtpStatResponse × ℕ) :=
  sortOn (fun item => toLex (item.1.ts.instant, item.2))
    (run.rtpStats.zipIdx.filter fun item => item.1.direction = direction)

/-- The stat breaches a threshold. -/
def breaches (stat : RtpStatResponse) : Bool := rtpTriggers stat ≠ []

/-- The time between two stats is at most five seconds. -/
def Nearby (a b : RtpStatResponse) : Prop := b.ts.instant - a.ts.instant ≤ 5000000

instance (a b : RtpStatResponse) : Decidable (Nearby a b) := inferInstanceAs (Decidable (_ ≤ _))

/-- The stats of two findings follow each other in time among the stats of their direction, and
are at most five seconds apart. -/
def Follows (run : StoredRun) (e e' : RtpQualityEvidence) : Prop :=
  ∃ pair ∈ pairs (timeOrder run e.direction), pair.1.2 = e.statIndex ∧ pair.2.2 = e'.statIndex ∧
    Nearby pair.1.1 pair.2.1

/-- The windows as the rule has them. -/
structure MaximalWindows (run : StoredRun) (windows : List (List RtpQualityEvidence)) : Prop where
  partition : (windows.flatten.map fun e => (e.statIndex, e.direction)).Perm
    ((run.rtpStats.zipIdx.filter fun item => breaches item.1).map fun item =>
      (item.2, item.1.direction))
  nonempty : [] ∉ windows
  consecutive : ∀ window ∈ windows, window.IsChain (Follows run)
  maximal : ∀ window ∈ windows, ∀ window' ∈ windows, ∀ e ∈ window, ∀ e' ∈ window',
    Follows run e e' → window = window'

/-- The times can be compared, and those of breaching stats with the start of the run. -/
structure StatsOnClock (run : StoredRun) : Prop where
  comparable : ∀ direction, Comparable ((run.rtpStats.zipIdx.filter fun item =>
    item.1.direction = direction).map fun item => item.1.ts)
  breaching : ∀ item ∈ run.rtpStats.zipIdx, breaches item.1 →
    item.1.ts.isAware = run.startedAt.isAware

/-- The breaching stats of a direction in the order in which they are shown. -/
def shownOrder (run : StoredRun) (direction : Option RtpDirection) : List (RtpStatResponse × ℕ) :=
  sortOn (fun item => toLex (run.offsetMs item.1.ts.instant, item.2))
    ((timeOrder run direction).filter fun item => breaches item.1)

/-- The time between two stats as it is shown. -/
def shownGapMs (run : StoredRun) (a b : RtpStatResponse) : ℚ :=
  nearest (run.offsetMs b.ts.instant - run.offsetMs a.ts.instant)

/-- Breaching stats that follow each other in time are at most five seconds apart exactly when
they are shown so, with no other breaching stat of the direction between them. -/
def ClampAgrees (run : StoredRun) : Prop :=
  ∀ direction, ∀ pair ∈ pairs (timeOrder run direction), breaches pair.1.1 → breaches pair.2.1 →
    (Nearby pair.1.1 pair.2.1 ↔
      pair ∈ pairs (shownOrder run direction) ∧
        shownGapMs run pair.1.1 pair.2.1 ≤ rtpDegradationWindowGapMs)

/-! ## The evidence in closed form -/

section Evidence

variable {run : StoredRun}

/-- The evidence of a breaching stat, given its index and its ordinal in its direction. -/
def qualityAt (run : StoredRun) (item : (RtpStatResponse × ℕ) × ℕ) : RtpQualityEvidence where
  statIndex := item.1.2
  directionOrdinal := item.2
  direction := item.1.1.direction
  tRelMs := run.offsetMs item.1.1.ts.instant
  lossPct := item.1.1.lossPct
  jitterMs := item.1.1.jitterMs
  mos := item.1.1.mos
  triggers := rtpTriggers item.1.1

/-- The evidence of the stats of one direction, in the order of their times. -/
def qualitiesOf (run : StoredRun) (stats : List (RtpStatResponse × ℕ)) : List RtpQualityEvidence :=
  ((sortOn (fun item => toLex (item.1.ts.instant, item.2)) stats).zipIdx.filter
    fun item => breaches item.1.1).map (qualityAt run)

theorem rtpQuality_eq_ok_iff (item : (RtpStatResponse × ℕ) × ℕ) (e : Option RtpQualityEvidence) :
    rtpQuality run item = .ok e ↔
      (breaches item.1.1 → item.1.1.ts.isAware = run.startedAt.isAware) ∧
        (if breaches item.1.1 then some (qualityAt run item) else none) = e := by
  unfold rtpQuality breaches
  by_cases h : rtpTriggers item.1.1 = []
  · simp [h]
  · simp only [h, if_false, ne_eq, not_false_eq_true, decide_true, forall_const, if_true,
      bind_eq_ok, relativeMs_eq_ok_iff]
    constructor
    · rintro ⟨t, ⟨haware, rfl⟩, h⟩
      exact ⟨haware, Except.ok.inj h⟩
    · rintro ⟨haware, rfl⟩
      exact ⟨_, ⟨haware, rfl⟩, rfl⟩

theorem rtpQualityOfDirection_eq_ok_iff (stats : List (RtpStatResponse × ℕ))
    (found : List RtpQualityEvidence) :
    rtpQualityOfDirection run stats = .ok found ↔
      (Comparable (stats.map fun item => item.1.ts) ∧
        ∀ item ∈ stats, breaches item.1 → item.1.ts.isAware = run.startedAt.isAware) ∧
        qualitiesOf run stats = found := by
  unfold rtpQualityOfDirection
  rw [bind_eq_ok]
  have hmem : ∀ ordered : List (RtpStatResponse × ℕ), ordered.Perm stats →
      ((∀ x ∈ ordered.zipIdx, breaches x.1.1 → x.1.1.ts.isAware = run.startedAt.isAware) ↔
        ∀ item ∈ stats, breaches item.1 → item.1.ts.isAware = run.startedAt.isAware) := by
    intro ordered hperm
    constructor
    · intro h item hitem
      have hfst : item ∈ ordered.zipIdx.map Prod.fst := by
        rw [List.zipIdx_map_fst]
        exact hperm.mem_iff.mpr hitem
      obtain ⟨x, hx, rfl⟩ := List.mem_map.mp hfst
      exact h x hx
    · intro h x hx
      exact h x.1 (hperm.mem_iff.mp (List.fst_mem_of_mem_zipIdx hx))
  have hfilter : ∀ xs : List ((RtpStatResponse × ℕ) × ℕ),
      xs.filterMap (fun x => if breaches x.1.1 then some (qualityAt run x) else none) =
        (xs.filter fun x => breaches x.1.1).map (qualityAt run) := by
    intro xs
    rw [← List.filterMap_eq_map, List.filterMap_filter]
    rfl
  constructor
  · rintro ⟨ordered, hordered, h⟩
    obtain ⟨hcomparable, rfl⟩ := sortedByTs_eq_ok_iff.mp hordered
    obtain ⟨haware, rfl⟩ := (collect_eq_ok_iff_filterMap rtpQuality_eq_ok_iff).mp h
    exact ⟨⟨hcomparable, (hmem _ (perm_sortOn _ _)).mp haware⟩, (hfilter _).symm⟩
  · rintro ⟨⟨hcomparable, haware⟩, rfl⟩
    refine ⟨_, sortedByTs_eq_ok_iff.mpr ⟨hcomparable, rfl⟩, ?_⟩
    exact (collect_eq_ok_iff_filterMap rtpQuality_eq_ok_iff).mpr
      ⟨(hmem _ (perm_sortOn _ _)).mpr haware, hfilter _⟩

theorem quality_eq_ok_iff (evidence : List RtpQualityEvidence) :
    rtpQualityEvidence run = .ok evidence ↔ StatsOnClock run ∧
      sortOn (fun item => toLex (item.tRelMs, toLex (directionText item.direction, item.statIndex)))
        ((groupOn (fun item => item.1.direction) run.rtpStats.zipIdx).flatMap
          fun group => qualitiesOf run group.2) = evidence := by
  have hclock : (∀ group ∈ groupOn (fun item => item.1.direction) run.rtpStats.zipIdx,
      Comparable (group.2.map fun item => item.1.ts) ∧
        ∀ item ∈ group.2, breaches item.1 → item.1.ts.isAware = run.startedAt.isAware) ↔
          StatsOnClock run := by
    constructor
    · intro h
      constructor
      · intro direction a ha b hb
        obtain ⟨item, hitem, rfl⟩ := List.mem_map.mp ha
        obtain ⟨hmem, hdirection⟩ := List.mem_filter.mp hitem
        obtain ⟨group, hgroup⟩ := @exists_mem_groupOn _ _ _ (fun item => item.1.direction) _ _ hmem
        obtain rfl : item.1.direction = direction := of_decide_eq_true hdirection
        have hcomparable := (h _ hgroup).1
        rw [mem_groupOn hgroup] at hcomparable
        exact hcomparable _ ha b hb
      · intro item hitem
        obtain ⟨group, hgroup⟩ := @exists_mem_groupOn _ _ _ (fun item => item.1.direction) _ _ hitem
        refine (h _ hgroup).2 item ?_
        rw [mem_groupOn hgroup]
        exact List.mem_filter.mpr ⟨hitem, decide_eq_true rfl⟩
    · rintro ⟨hcomparable, hbreaching⟩ group hgroup
      rw [mem_groupOn (k := group.1) hgroup]
      exact ⟨hcomparable group.1, fun item hitem => hbreaching item (List.mem_of_mem_filter hitem)⟩
  unfold rtpQualityEvidence
  rw [bind_eq_ok, ← hclock]
  have hmap := @mapM_eq_ok_iff_map _ _ _ _ _ _
    fun (group : Option RtpDirection × List (RtpStatResponse × ℕ)) found =>
      @rtpQualityOfDirection_eq_ok_iff run group.2 found
  constructor
  · rintro ⟨found, hfound, h⟩
    obtain ⟨hok, rfl⟩ := hmap.mp hfound
    exact ⟨hok, Except.ok.inj h⟩
  · rintro ⟨hok, rfl⟩
    exact ⟨_, hmap.mpr ⟨hok, rfl⟩, rfl⟩

end Evidence

/-! ## The windows of one direction -/

section Direction

variable {run : StoredRun} {direction : Option RtpDirection}

/-- The breaching stats of a direction with their ordinals in time, in the order in which they
are shown. -/
def shownItems (run : StoredRun) (direction : Option RtpDirection) :
    List ((RtpStatResponse × ℕ) × ℕ) :=
  sortOn (fun x => toLex (run.offsetMs x.1.1.ts.instant, x.1.2))
    ((timeOrder run direction).zipIdx.filter fun x => breaches x.1.1)

theorem nodup_timeOrder : ((timeOrder run direction).map Prod.snd).Nodup := by
  rw [timeOrder, ((perm_sortOn _ _).map Prod.snd).nodup_iff]
  refine List.Nodup.sublist ((List.filter_sublist).map Prod.snd) ?_
  rw [List.zipIdx_map_snd]
  exact List.nodup_range'

theorem mem_timeOrder {item : RtpStatResponse × ℕ} :
    item ∈ timeOrder run direction ↔ item ∈ run.rtpStats.zipIdx ∧ item.1.direction = direction := by
  rw [timeOrder, mem_sortOn, List.mem_filter, decide_eq_true_eq]

theorem mem_shownItems {x : (RtpStatResponse × ℕ) × ℕ} :
    x ∈ shownItems run direction ↔
      x ∈ (timeOrder run direction).zipIdx ∧ breaches x.1.1 = true := by
  rw [shownItems, mem_sortOn, List.mem_filter]

/-- The index of a stat says which stat it is. -/
theorem eq_of_index {a b : RtpStatResponse × ℕ} (ha : a ∈ run.rtpStats.zipIdx)
    (hb : b ∈ run.rtpStats.zipIdx) (h : a.2 = b.2) : a = b := by
  obtain ⟨a, i⟩ := a
  obtain ⟨b, j⟩ := b
  obtain rfl : i = j := h
  rw [List.mk_mem_zipIdx_iff_getElem?] at ha hb
  obtain rfl := Option.some.inj (ha.symm.trans hb)
  rfl

theorem map_fst_shownItems : (shownItems run direction).map Prod.fst = shownOrder run direction := by
  have hfst : (timeOrder run direction).filter (fun item => breaches item.1) =
      ((timeOrder run direction).zipIdx.filter fun x => breaches x.1.1).map Prod.fst := by
    conv_lhs => rw [← List.zipIdx_map_fst 0 (timeOrder run direction), List.filter_map]
    rfl
  rw [shownOrder, hfst, sortOn_map]
  rfl

/-- The ordinals tell the shown stats apart. -/
theorem nodup_shownItems : ((shownItems run direction).map Prod.snd).Nodup := by
  rw [shownItems, ((perm_sortOn _ _).map Prod.snd).nodup_iff]
  refine List.Nodup.sublist ((List.filter_sublist).map Prod.snd) ?_
  rw [List.zipIdx_map_snd]
  exact List.nodup_range'

/-- The key by which a direction is shown. -/
def RtpQualityEvidence.shownKey (e : RtpQualityEvidence) : ℚ ×ₗ ℕ := toLex (e.tRelMs, e.statIndex)

theorem pairwise_shown : ((shownItems run direction).map (qualityAt run)).Pairwise
    fun e e' => e.shownKey < e'.shownKey := by
  have hindices : (((timeOrder run direction).zipIdx.filter fun x => breaches x.1.1).map
      fun x => toLex (run.offsetMs x.1.1.ts.instant, x.1.2)).Nodup := by
    have hsnd : (((timeOrder run direction).zipIdx.map Prod.fst).map Prod.snd).Nodup := by
      rw [List.zipIdx_map_fst]
      exact nodup_timeOrder
    rw [List.map_map] at hsnd
    refine List.pairwise_map.mpr (((List.pairwise_map.mp hsnd).filter _).imp fun hne heq => hne ?_)
    exact (Prod.mk.inj (toLex_inj.mp heq)).2
  exact List.pairwise_map.mpr (pairwise_lt_sortOn _ hindices)

/-- The findings of a direction in the order in which its windows are formed. -/
theorem sorted_group {evidence : List RtpQualityEvidence}
    (h : rtpQualityEvidence run = .ok evidence) :
    sortOn RtpQualityEvidence.tRelMs (evidence.filter fun e => e.direction = direction) =
      (shownItems run direction).map (qualityAt run) := by
  obtain ⟨-, rfl⟩ := (quality_eq_ok_iff evidence).mp h
  set found := (groupOn (fun item : RtpStatResponse × ℕ => item.1.direction)
    run.rtpStats.zipIdx).flatMap fun group => qualitiesOf run group.2 with hfound
  have hgroup : found.filter (fun e => e.direction = direction) =
      ((timeOrder run direction).zipIdx.filter fun x => breaches x.1.1).map (qualityAt run) := by
    rw [hfound]
    refine filter_flatMap_groupOn (f := qualitiesOf run) rfl ?_ direction
    intro group hgroup e he
    obtain ⟨x, hx, rfl⟩ := List.mem_map.mp he
    have hmem := List.fst_mem_of_mem_zipIdx (List.mem_of_mem_filter hx)
    rw [mem_sortOn, mem_groupOn (k := group.1) hgroup, List.mem_filter, decide_eq_true_eq] at hmem
    exact hmem.2
  have hperm : ((sortOn (fun item : RtpQualityEvidence => toLex (item.tRelMs,
      toLex (directionText item.direction, item.statIndex))) found).filter
        fun e => e.direction = direction).Perm ((shownItems run direction).map (qualityAt run)) := by
    refine ((perm_sortOn _ found).filter _).trans ?_
    rw [hgroup]
    exact ((perm_sortOn _ _).map _).symm
  -- within a direction the evidence is in the order of the shown times and the indices
  have hle : ((sortOn (fun item : RtpQualityEvidence => toLex (item.tRelMs,
      toLex (directionText item.direction, item.statIndex))) found).filter
        fun e => e.direction = direction).Pairwise fun e e' => e.shownKey ≤ e'.shownKey := by
    refine ((pairwise_sortOn _ found).filter _).imp_of_mem fun {e e'} he he' hkey => ?_
    have hsame : e.direction = e'.direction :=
      (of_decide_eq_true (List.mem_filter.mp he).2).trans
        (of_decide_eq_true (List.mem_filter.mp he').2).symm
    simp only [Prod.Lex.toLex_le_toLex, hsame, lt_self_iff_false, true_and, false_or] at hkey
    exact Prod.Lex.toLex_le_toLex.mpr hkey
  have htimes := hle.imp fun h => (Prod.Lex.toLex_le_toLex.mp h).elim le_of_lt fun h => h.1.le
  rw [sortOn_eq_self RtpQualityEvidence.tRelMs htimes]
  have hkeys : (((shownItems run direction).map (qualityAt run)).map
      RtpQualityEvidence.shownKey).Nodup :=
    List.pairwise_map.mpr (pairwise_shown.imp fun h => h.ne)
  have hlt := (hle.and (List.pairwise_map.mp ((hperm.map _).nodup_iff.mpr hkeys))).imp
    fun h => lt_of_le_of_ne h.1 h.2
  exact eq_of_perm_of_pairwise RtpQualityEvidence.shownKey hlt pairwise_shown hperm

theorem splitWindows_eq_splitBy_append {current : List RtpQualityEvidence} (hne : current ≠ [])
    (hchain : current.IsChain fun e e' => e.joins e' = true) (items : List RtpQualityEvidence) :
    splitWindows current items = (current ++ items).splitBy RtpQualityEvidence.joins := by
  induction items generalizing current with
  | nil => rw [splitWindows, if_neg hne, List.append_nil, List.splitBy_of_isChain hne hchain]
  | cons item rest ih =>
      have hlast : current.getLast? = some (current.getLast hne) := List.getLast?_eq_some_getLast hne
      rw [splitWindows, hlast, Option.all_some]
      split
      · rename_i hjoins
        have hchain' : (current ++ [item]).IsChain fun e e' => e.joins e' = true := by
          refine List.isChain_append.mpr ⟨hchain, List.isChain_singleton _, fun e he e' he' => ?_⟩
          obtain rfl := Option.some.inj (hlast.symm.trans he)
          obtain rfl := Option.some.inj he'
          exact hjoins
        rw [ih (by simp) hchain', List.append_assoc, List.singleton_append]
      · rename_i hjoins
        have hcut : ∀ e ∈ current.getLast?, e.joins item = false := by
          intro e he
          obtain rfl := Option.some.inj (hlast.symm.trans he)
          exact Bool.eq_false_iff.mpr hjoins
        rw [List.splitBy_append_cons _ hcut, List.splitBy_of_isChain hne hchain,
          ih (by simp) (List.isChain_singleton _), List.singleton_append, List.singleton_append]

/-- The windows of a direction are its longest runs of joined findings. -/
theorem splitWindows_eq_splitBy (items : List RtpQualityEvidence) :
    splitWindows [] items = items.splitBy RtpQualityEvidence.joins := by
  cases items with
  | nil => rfl
  | cons item rest =>
      rw [splitWindows]
      exact splitWindows_eq_splitBy_append (by simp) (List.isChain_singleton _) rest

/-- The windows of one direction. -/
def windowsOf (run : StoredRun) (direction : Option RtpDirection) : List (List RtpQualityEvidence) :=
  ((shownItems run direction).map (qualityAt run)).splitBy RtpQualityEvidence.joins

theorem windows_eq_ok {evidence : List RtpQualityEvidence}
    (h : rtpQualityEvidence run = .ok evidence) :
    ∃ windows, rtpQualityWindows run = .ok windows ∧ windows.flatten.Perm evidence ∧
      ∀ window, window ∈ windows ↔ ∃ direction, window ∈ windowsOf run direction := by
  have hwindows : rtpQualityWindows run = .ok _ := bind_eq_ok.mpr ⟨evidence, h, rfl⟩
  refine ⟨_, hwindows, ?_, fun window => ?_⟩
  · obtain ⟨evidence', hevidence', hperm⟩ := perm_windows hwindows
    obtain rfl := Except.ok.inj (h.symm.trans hevidence')
    exact hperm
  · rw [mem_sortOn, List.mem_flatMap]
    constructor
    · rintro ⟨group, hgroup, hwindow⟩
      rw [mem_groupOn (k := group.1) hgroup, sorted_group h, splitWindows_eq_splitBy] at hwindow
      exact ⟨group.1, hwindow⟩
    · rintro ⟨direction, hwindow⟩
      -- a direction with a window has a finding, and so a group
      have hshown := @sorted_group run direction evidence h
      have hne : (shownItems run direction).map (qualityAt run) ≠ [] := by
        intro hnil
        rw [windowsOf, hnil] at hwindow
        cases hwindow
      obtain ⟨e, he⟩ := List.exists_mem_of_ne_nil _ hne
      rw [← hshown, mem_sortOn, List.mem_filter, decide_eq_true_eq] at he
      obtain ⟨group, hgroup⟩ := @exists_mem_groupOn _ _ _ RtpQualityEvidence.direction _ _ he.1
      refine ⟨_, hgroup, ?_⟩
      rw [mem_groupOn hgroup, he.2, hshown, splitWindows_eq_splitBy]
      exact hwindow

/-- Each breaching stat is in the evidence once, under its direction. -/
theorem perm_evidence {evidence : List RtpQualityEvidence}
    (h : rtpQualityEvidence run = .ok evidence) :
    (evidence.map fun e => (e.statIndex, e.direction)).Perm
      ((run.rtpStats.zipIdx.filter fun item => breaches item.1).map fun item =>
        (item.2, item.1.direction)) := by
  obtain ⟨-, rfl⟩ := (quality_eq_ok_iff evidence).mp h
  have hgroup : ∀ stats : List (RtpStatResponse × ℕ),
      ((qualitiesOf run stats).map fun e => (e.statIndex, e.direction)).Perm
        ((stats.filter fun item => breaches item.1).map fun item => (item.2, item.1.direction)) := by
    intro stats
    have hfst : (qualitiesOf run stats).map (fun e => (e.statIndex, e.direction)) =
        ((sortOn (fun item => toLex (item.1.ts.instant, item.2)) stats).filter
          fun item => breaches item.1).map fun item => (item.2, item.1.direction) := by
      conv_rhs => rw [← List.zipIdx_map_fst 0 (sortOn _ stats), List.filter_map, List.map_map]
      rw [qualitiesOf, List.map_map]
      rfl
    rw [hfst]
    exact ((perm_sortOn _ stats).filter _).map _
  refine ((perm_sortOn _ _).map _).trans ?_
  rw [List.map_flatMap]
  refine (List.Perm.flatMap_left _ fun group _ => hgroup group.2).trans ?_
  rw [← List.map_flatMap, ← List.filter_flatMap]
  exact ((perm_groupOn _ _).filter _).map _

end Direction

/-! ## The two orders -/

section Orders

variable {run : StoredRun} {direction : Option RtpDirection} {x x' : (RtpStatResponse × ℕ) × ℕ}

theorem shown_spec (hx : x ∈ shownItems run direction) :
    x.1 ∈ run.rtpStats.zipIdx ∧ x.1.1.direction = direction := by
  obtain ⟨hx, -⟩ := mem_shownItems.mp hx
  exact mem_timeOrder.mp (List.fst_mem_of_mem_zipIdx hx)

theorem follows_iff (hx : x ∈ shownItems run direction) (hx' : x' ∈ shownItems run direction) :
    Follows run (qualityAt run x) (qualityAt run x') ↔
      (x.1, x'.1) ∈ pairs (timeOrder run direction) ∧ Nearby x.1.1 x'.1.1 := by
  obtain ⟨hmem, hdirection⟩ := shown_spec hx
  obtain ⟨hmem', -⟩ := shown_spec hx'
  have hsame : (qualityAt run x).direction = direction := hdirection
  unfold Follows
  rw [hsame]
  constructor
  · rintro ⟨⟨a, b⟩, hpair, ha, hb, hnear⟩
    obtain ⟨hat, hbt⟩ := mem_of_mem_pairs hpair
    obtain rfl := eq_of_index (mem_timeOrder.mp hat).1 hmem ha
    obtain rfl := eq_of_index (mem_timeOrder.mp hbt).1 hmem' hb
    exact ⟨hpair, hnear⟩
  · rintro ⟨hpair, hnear⟩
    exact ⟨_, hpair, rfl, rfl, hnear⟩

/-- Ordinals in time are consecutive when the stats follow each other in time. -/
theorem ordinal_iff (hx : x ∈ shownItems run direction) (hx' : x' ∈ shownItems run direction) :
    (x.1, x'.1) ∈ pairs (timeOrder run direction) ↔ x'.2 = x.2 + 1 :=
  mem_pairs_zipIdx_iff (nodup_timeOrder.of_map) (mem_shownItems.mp hx).1 (mem_shownItems.mp hx').1

theorem joins_iff (hx : x ∈ shownItems run direction) (hx' : x' ∈ shownItems run direction) :
    (qualityAt run x).joins (qualityAt run x') = true ↔
      (x.1, x'.1) ∈ pairs (timeOrder run direction) ∧
        shownGapMs run x.1.1 x'.1.1 ≤ rtpDegradationWindowGapMs := by
  rw [ordinal_iff hx hx', RtpQualityEvidence.joins, decide_eq_true_eq]
  rfl

theorem pairs_shown_iff (hx : x ∈ shownItems run direction) (hx' : x' ∈ shownItems run direction) :
    (qualityAt run x, qualityAt run x') ∈ pairs ((shownItems run direction).map (qualityAt run)) ↔
      (x.1, x'.1) ∈ pairs (shownOrder run direction) := by
  have hitems : (((timeOrder run direction).zipIdx).map Prod.fst).Nodup := by
    rw [List.zipIdx_map_fst]
    exact nodup_timeOrder.of_map
  rw [← map_fst_shownItems, mem_pairs_map_iff ?_ hx hx', mem_pairs_map_iff ?_ hx hx']
  · intro y hy z hz h
    exact List.inj_on_of_nodup_map hitems (mem_shownItems.mp hy).1 (mem_shownItems.mp hz).1 h
  · intro y hy z hz h
    exact List.inj_on_of_nodup_map nodup_shownItems hy hz
      (congrArg RtpQualityEvidence.directionOrdinal h)

/-- The findings of a direction are joined as the rule has it when the two orders agree. -/
theorem joined_iff :
    (∀ e ∈ (shownItems run direction).map (qualityAt run),
      ∀ e' ∈ (shownItems run direction).map (qualityAt run), Follows run e e' ↔
        (e, e') ∈ pairs ((shownItems run direction).map (qualityAt run)) ∧ e.joins e' = true) ↔
      ∀ pair ∈ pairs (timeOrder run direction), breaches pair.1.1 → breaches pair.2.1 →
        (Nearby pair.1.1 pair.2.1 ↔ pair ∈ pairs (shownOrder run direction) ∧
          shownGapMs run pair.1.1 pair.2.1 ≤ rtpDegradationWindowGapMs) := by
  constructor
  · rintro h ⟨a, b⟩ hpair ha hb
    obtain ⟨hat, hbt⟩ := mem_of_mem_pairs hpair
    have hzip : ∀ item ∈ timeOrder run direction, breaches item.1 →
        ∃ x ∈ shownItems run direction, x.1 = item := by
      intro item hitem hbreaches
      rw [← List.zipIdx_map_fst 0 (timeOrder run direction)] at hitem
      obtain ⟨x, hx, rfl⟩ := List.mem_map.mp hitem
      exact ⟨x, mem_shownItems.mpr ⟨hx, hbreaches⟩, rfl⟩
    obtain ⟨x, hx, rfl⟩ := hzip a hat ha
    obtain ⟨x', hx', rfl⟩ := hzip b hbt hb
    have hfollows := h _ (List.mem_map_of_mem hx) _ (List.mem_map_of_mem hx')
    rw [follows_iff hx hx', pairs_shown_iff hx hx', joins_iff hx hx'] at hfollows
    simpa only [hpair, true_and] using hfollows
  · intro h e he e' he'
    obtain ⟨x, hx, rfl⟩ := List.mem_map.mp he
    obtain ⟨x', hx', rfl⟩ := List.mem_map.mp he'
    rw [follows_iff hx hx', pairs_shown_iff hx hx', joins_iff hx hx']
    by_cases hpair : (x.1, x'.1) ∈ pairs (timeOrder run direction)
    · have hagrees := h _ hpair (mem_shownItems.mp hx).2 (mem_shownItems.mp hx').2
      simpa only [hpair, true_and] using hagrees
    · simp only [hpair, false_and, and_false]

/-- Findings that follow each other are of one direction. -/
theorem direction_of_follows {direction' : Option RtpDirection} {e e' : RtpQualityEvidence}
    (he : e ∈ (shownItems run direction).map (qualityAt run))
    (he' : e' ∈ (shownItems run direction').map (qualityAt run)) (h : Follows run e e') :
    direction = direction' := by
  obtain ⟨x, hx, rfl⟩ := List.mem_map.mp he
  obtain ⟨x', hx', rfl⟩ := List.mem_map.mp he'
  obtain ⟨⟨a, b⟩, hpair, -, hb, -⟩ := h
  obtain ⟨hmem, hdirection⟩ := mem_timeOrder.mp (mem_of_mem_pairs hpair).2
  obtain rfl := eq_of_index hmem (shown_spec hx').1 hb
  exact (shown_spec hx).2.symm.trans (hdirection.symm.trans (shown_spec hx').2)

/-- The windows of one direction are the longest runs when the two orders agree on it. -/
theorem windowsOf_iff :
    ((∀ window ∈ windowsOf run direction, window.IsChain (Follows run)) ∧
      ∀ window ∈ windowsOf run direction, ∀ window' ∈ windowsOf run direction, ∀ e ∈ window,
        ∀ e' ∈ window', Follows run e e' → window = window') ↔
      ∀ pair ∈ pairs (timeOrder run direction), breaches pair.1.1 → breaches pair.2.1 →
        (Nearby pair.1.1 pair.2.1 ↔ pair ∈ pairs (shownOrder run direction) ∧
          shownGapMs run pair.1.1 pair.2.1 ≤ rtpDegradationWindowGapMs) := by
  rw [← joined_iff]
  refine blocks_maximal_iff RtpQualityEvidence.directionOrdinal ?_ ?_
  · rw [List.map_map]
    exact nodup_shownItems
  · intro e he e' he' hfollows
    obtain ⟨x, hx, rfl⟩ := List.mem_map.mp he
    obtain ⟨x', hx', rfl⟩ := List.mem_map.mp he'
    exact (ordinal_iff hx hx').mp ((follows_iff hx hx').mp hfollows).1

end Orders

/-- In its first years the run shows every time to less than an eighth of a microsecond. -/
theorem abs_offsetMs_sub_le {run : StoredRun} {t : Instant} (ht : run.startedAt.instant ≤ t)
    (hnear : t - run.startedAt.instant < 2 ^ 48) :
    |run.offsetMs t - ((t - run.startedAt.instant : ℤ) : ℚ) / 1000| ≤ 1 / 8000 := by
  have hnonneg : (0 : ℚ) ≤ ((t - run.startedAt.instant : ℤ) : ℚ) := by
    exact_mod_cast Int.sub_nonneg_of_le ht
  have hcast : ((t - run.startedAt.instant : ℤ) : ℚ) ≤ 2 ^ 48 := by exact_mod_cast hnear.le
  rw [StoredRun.offsetMs_of_le ht]
  refine (abs_totalMs_sub_le _).trans ?_
  rw [abs_of_nonneg hnonneg]
  linarith

/-- The gap that is shown is on the side of five seconds that the real one is on, unless that is
five seconds to the microsecond. -/
theorem shownGapMs_le_iff {run : StoredRun} {a b : RtpStatResponse}
    (ha : run.startedAt.instant ≤ a.ts.instant) (hb : run.startedAt.instant ≤ b.ts.instant)
    (hnear : a.ts.instant - run.startedAt.instant < 2 ^ 48)
    (hnear' : b.ts.instant - run.startedAt.instant < 2 ^ 48)
    (hne : b.ts.instant - a.ts.instant ≠ 5000000) :
    shownGapMs run a b ≤ rtpDegradationWindowGapMs ↔ Nearby a b := by
  have hshown := abs_le.mp (abs_offsetMs_sub_le ha hnear)
  have hshown' := abs_le.mp (abs_offsetMs_sub_le hb hnear')
  have hgap : ((b.ts.instant - run.startedAt.instant : ℤ) : ℚ) -
      ((a.ts.instant - run.startedAt.instant : ℤ) : ℚ) = ((b.ts.instant - a.ts.instant : ℤ) : ℚ) := by
    push_cast
    ring
  unfold Nearby shownGapMs rtpDegradationWindowGapMs
  rcases lt_or_gt_of_ne hne with hlt | hgt
  · have hcast : ((b.ts.instant - a.ts.instant : ℤ) : ℚ) ≤ 4999999 := by
      exact_mod_cast Int.le_sub_one_of_lt hlt
    refine iff_of_true ?_ hlt.le
    calc nearest (run.offsetMs b.ts.instant - run.offsetMs a.ts.instant)
        ≤ nearest 5000 := nearest_mono (by linarith)
      _ = 5000 := by decide +kernel
  · have hcast : (5000001 : ℚ) ≤ ((b.ts.instant - a.ts.instant : ℤ) : ℚ) := by
      exact_mod_cast Int.add_one_le_of_lt hgt
    refine iff_of_false (not_le.mpr ?_) (not_le.mpr hgt)
    calc (5000 : ℚ) < nearest (5000 + 1 / 2 ^ 11) := by decide +kernel
      _ ≤ nearest (run.offsetMs b.ts.instant - run.offsetMs a.ts.instant) :=
        nearest_mono (by linarith)

/-- The orders agree when every breaching stat comes in the first years of the run and no two
that follow each other are five seconds apart to the microsecond. -/
theorem clampAgrees_of_started {run : StoredRun}
    (hstarted : ∀ item ∈ run.rtpStats.zipIdx, breaches item.1 →
      run.startedAt.instant ≤ item.1.ts.instant ∧
        item.1.ts.instant - run.startedAt.instant < 2 ^ 48)
    (hne : ∀ direction, ∀ pair ∈ pairs (timeOrder run direction), breaches pair.1.1 →
      breaches pair.2.1 → pair.2.1.ts.instant - pair.1.1.ts.instant ≠ 5000000) :
    ClampAgrees run := by
  rintro direction ⟨a, b⟩ hpair ha hb
  have htimed : ∀ item ∈ timeOrder run direction, breaches item.1 →
      run.startedAt.instant ≤ item.1.ts.instant ∧
        item.1.ts.instant - run.startedAt.instant < 2 ^ 48 :=
    fun item hitem => hstarted item (mem_timeOrder.mp hitem).1
  have hshown : shownOrder run direction =
      (timeOrder run direction).filter fun item => breaches item.1 := by
    refine sortOn_eq_self _ (((pairwise_sortOn _ _).filter _).imp_of_mem fun {x y} hx hy hle => ?_)
    obtain ⟨hxt, hx⟩ := List.mem_filter.mp hx
    obtain ⟨hyt, hy⟩ := List.mem_filter.mp hy
    simp only [Prod.Lex.toLex_le_toLex] at hle ⊢
    rcases hle with hlt | ⟨heq, hle⟩
    · refine Or.inl (lt_of_le_of_ne (run.offsetMs_mono hlt.le) fun hsame => hlt.ne ?_)
      obtain ⟨hstart, hnear⟩ := htimed x hxt hx
      obtain ⟨hstart', hnear'⟩ := htimed y hyt hy
      exact StoredRun.offsetMs_injOn hstart hstart' (by linarith) (by linarith) hsame
    · exact Or.inr ⟨by rw [heq], hle⟩
  obtain ⟨hat, hbt⟩ := mem_of_mem_pairs hpair
  have hmem : (a, b) ∈ pairs (shownOrder run direction) := by
    rw [hshown]
    exact mem_pairs_filter hpair ha hb
  simp only [hmem, true_and]
  exact (shownGapMs_le_iff (htimed a hat ha).1 (htimed b hbt hb).1 (htimed a hat ha).2
    (htimed b hbt hb).2 (hne direction _ hpair ha hb)).symm

/-- The windows can be formed and follow the rule exactly when the times can be compared and
the shown times order and part breaching neighbours as the real times do. -/
theorem windows_iff (run : StoredRun) :
    (∃ windows, rtpQualityWindows run = .ok windows ∧ MaximalWindows run windows) ↔
      StatsOnClock run ∧ ClampAgrees run := by
  constructor
  · rintro ⟨windows, hwindows, hrule⟩
    obtain ⟨evidence, hevidence, -⟩ := perm_windows hwindows
    obtain ⟨windows', hwindows', -, hmem⟩ := windows_eq_ok hevidence
    obtain rfl := Except.ok.inj (hwindows.symm.trans hwindows')
    refine ⟨((quality_eq_ok_iff evidence).mp hevidence).1, fun direction => ?_⟩
    refine windowsOf_iff.mp ⟨fun window hwindow => ?_, fun window hwindow window' hwindow' => ?_⟩
    · exact hrule.consecutive window ((hmem window).mpr ⟨direction, hwindow⟩)
    · exact hrule.maximal window ((hmem window).mpr ⟨direction, hwindow⟩) window'
        ((hmem window').mpr ⟨direction, hwindow'⟩)
  · rintro ⟨hclock, hagrees⟩
    obtain ⟨windows, hwindows, hperm, hmem⟩ :=
      windows_eq_ok ((@quality_eq_ok_iff run _).mpr ⟨hclock, rfl⟩)
    refine ⟨windows, hwindows, ?_, ?_, ?_, ?_⟩
    · exact (hperm.map _).trans (perm_evidence ((quality_eq_ok_iff _).mpr ⟨hclock, rfl⟩))
    · intro hnil
      obtain ⟨direction, hwindow⟩ := (hmem []).mp hnil
      exact List.ne_nil_of_mem_splitBy hwindow rfl
    · intro window hwindow
      obtain ⟨direction, hwindow⟩ := (hmem window).mp hwindow
      exact (windowsOf_iff.mpr (hagrees direction)).1 window hwindow
    · intro window hwindow window' hwindow' e he e' he' hfollows
      obtain ⟨direction, hwindow⟩ := (hmem window).mp hwindow
      obtain ⟨direction', hwindow'⟩ := (hmem window').mp hwindow'
      have hitem : ∀ {d : Option RtpDirection} {w : List RtpQualityEvidence} {f : RtpQualityEvidence},
          w ∈ windowsOf run d → f ∈ w → f ∈ (shownItems run d).map (qualityAt run) := by
        intro d w f hw hf
        rw [← List.flatten_splitBy RtpQualityEvidence.joins ((shownItems run d).map (qualityAt run))]
        exact List.mem_flatten.mpr ⟨w, hw, hf⟩
      obtain rfl := direction_of_follows (hitem hwindow he) (hitem hwindow' he') hfollows
      exact (windowsOf_iff.mpr (hagrees direction)).2 window hwindow window' hwindow' e he e' he'
        hfollows

/-- A stat of the received direction that lost a twentieth of its packets. -/
def lossStat (ms : ℤ) : RtpStatResponse := ⟨.utc (ms * 1000), none, some 5, none, some .received, none⟩

/-- Two stats ten seconds apart, both stamped before the start of the run. -/
def earlyRun : StoredRun := { eventRun [] with rtpStats := [lossStat (-20000), lossStat (-10000)] }

/-- Both early stats are shown at the start of the run, and one window holds them. -/
theorem early_stats_joined :
    rtpQualityWindows earlyRun = .ok [[qualityAt earlyRun ((lossStat (-20000), 0), 0),
        qualityAt earlyRun ((lossStat (-10000), 1), 1)]] ∧
      ¬ ∃ windows, rtpQualityWindows earlyRun = .ok windows ∧ MaximalWindows earlyRun windows := by
  have hwindows : rtpQualityWindows earlyRun = .ok [[qualityAt earlyRun ((lossStat (-20000), 0), 0),
      qualityAt earlyRun ((lossStat (-10000), 1), 1)]] := by decide +kernel
  refine ⟨hwindows, ?_⟩
  rintro ⟨windows, h, hrule⟩
  obtain rfl := Except.ok.inj (hwindows.symm.trans h)
  have hchain := hrule.consecutive _ List.mem_cons_self
  obtain ⟨pair, hpair, -, -, hnear⟩ := (List.isChain_cons_cons.mp hchain).1
  have horder : pairs (timeOrder earlyRun (some .received)) =
      [((lossStat (-20000), 0), (lossStat (-10000), 1))] := by decide +kernel
  have hpair : pair ∈ pairs (timeOrder earlyRun (some .received)) := hpair
  rw [horder, List.mem_singleton] at hpair
  subst hpair
  revert hnear
  decide

end VoxBench.ControlPlane
