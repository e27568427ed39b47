import VoxBench.ControlPlane.Timeline.Packets
import Mathlib.Algebra.BigOperators.Ring.Finset
import Mathlib.Algebra.Order.BigOperators.Group.Finset
import Mathlib.Data.Int.Interval

/-!
# Sequence gaps and absent numbers

A gap is reported between two packets that arrive one after the other when the sequence
number steps forward by more than one. The numbers that the step skips are absent only if
they arrive neither before nor after it.

## Main definitions

* `Spans` — the observed numbers of a stream, from the first to the last.
* `GapsTruthful` — the reported gaps are the absent numbers.
* `JumpsOnce` — every step forward over absent numbers goes to the next number of the stream,
  and is taken once.
* `StoredRun.TapReadable` — no event of the tap raises.

## Main results

* `gaps_truthful_iff` — the gaps are truthful when the steps are of this kind, and in a stream
  that starts with its first number only then.
* `jumpsOnce_of_inOrder` — they are when the packets arrive in the order of their numbers.
-/

namespace VoxBench.ControlPlane

open VoxBench.Lib

/-! ## Streams and their numbers -/

/-- The packets of a stream, in the order of their arrival. -/
def packetsOf (key : String × RtpDirection × String) (packets : List RtpPacketObservationEvidence) :
    List RtpPacketObservationEvidence :=
  packets.filter fun packet => packet.stream = key

/-- The gaps that are reported of a stream. -/
def gapsOf (key : String × RtpDirection × String) (evidence : List RtpPacketDiscontinuityEvidence) :
    List RtpPacketDiscontinuityEvidence :=
  evidence.filter fun e => e.kind = .sequenceGap ∧ e.current.stream = key

/-- The sequence numbers. -/
def sequenceNumbers : Finset ℤ := (Finset.range 65536).map Nat.castEmbedding

/-- The place of a number in the span. -/
def spanOffset (first n : ℤ) : ℤ := (n - first) % 65536

/-- The number `n` comes after `first` and not after `last`, modulo `2 ^ 16`. -/
def InSpan (first last n : ℤ) : Prop := (n - first) % 65536 ≤ (last - first) % 65536

instance (first last n : ℤ) : Decidable (InSpan first last n) := inferInstanceAs (Decidable (_ ≤ _))

/-- Some packet of the stream has the number. -/
def Arrives (stream : List RtpPacketObservationEvidence) (n : ℤ) : Prop :=
  ∃ packet ∈ stream, packet.sequenceNumber = n

instance (stream : List RtpPacketObservationEvidence) (n : ℤ) : Decidable (Arrives stream n) :=
  inferInstanceAs (Decidable (∃ packet ∈ stream, packet.sequenceNumber = n))

/-- The observed numbers of the stream reach from `first` to `last` and span fewer than 32768
numbers. -/
structure Spans (stream : List RtpPacketObservationEvidence) (first last : ℤ) : Prop where
  first_arrives : Arrives stream first
  last_arrives : Arrives stream last
  within : ∀ packet ∈ stream, InSpan first last packet.sequenceNumber
  short : (last - first) % 65536 + 1 < 32768

/-- The numbers of the span that never arrive. -/
def absent (stream : List RtpPacketObservationEvidence) (first last : ℤ) : Finset ℤ :=
  sequenceNumbers.filter fun n => InSpan first last n ∧ ¬ Arrives stream n

/-- The number is strictly between those of the two packets. -/
def Between (previous current : RtpPacketObservationEvidence) (n : ℤ) : Prop :=
  0 < (n - previous.sequenceNumber) % 65536 ∧
    (n - previous.sequenceNumber) % 65536 < sequenceDelta previous current

instance (previous current : RtpPacketObservationEvidence) (n : ℤ) :
    Decidable (Between previous current n) := inferInstanceAs (Decidable (_ ∧ _))

/-- A gap is about at least one absent number, and together the gaps count every absent number
of the span. -/
structure GapsTruthful (stream : List RtpPacketObservationEvidence) (first last : ℤ)
    (gaps : List RtpPacketDiscontinuityEvidence) : Prop where
  claimed : ∀ gap ∈ gaps, ∃ n ∈ sequenceNumbers, Between gap.previous gap.current n ∧
    ¬ Arrives stream n
  counted : (gaps.map RtpPacketDiscontinuityEvidence.missingPacketCount).sum =
    (absent stream first last).card

/-! ## Steps and what they skip -/

/-- The sequence number steps forward by more than one. -/
def isGap (pair : RtpPacketObservationEvidence × RtpPacketObservationEvidence) : Bool :=
  1 < sequenceDelta pair.1 pair.2 ∧ sequenceDelta pair.1 pair.2 < 32768

/-- How often the stream steps forward over the number. -/
def skips (stream : List RtpPacketObservationEvidence) (n : ℤ) : ℕ :=
  ((pairs stream).filter isGap).countP fun pair => Between pair.1 pair.2 n

/-- `b` is the first number of the stream after `a`, and there are numbers between them. -/
structure Neighbours (stream : List RtpPacketObservationEvidence) (first a b : ℤ) : Prop where
  lower : Arrives stream a
  upper : Arrives stream b
  apart : spanOffset first a + 1 < spanOffset first b
  next : ∀ packet ∈ stream, spanOffset first packet.sequenceNumber ≤ spanOffset first a ∨
    spanOffset first b ≤ spanOffset first packet.sequenceNumber

/-- How often a packet with the number `b` arrives right after one with the number `a`. -/
def follows (stream : List RtpPacketObservationEvidence) (a b : ℤ) : ℕ :=
  (pairs stream).countP fun pair => pair.1.sequenceNumber = a ∧ pair.2.sequenceNumber = b

/-- In the order of arrival a step forward of more than one goes to the next number of the
stream, and each of these steps is taken once. -/
structure JumpsOnce (stream : List RtpPacketObservationEvidence) (first : ℤ) : Prop where
  toNext : ∀ pair ∈ pairs stream, isGap pair →
    Neighbours stream first pair.1.sequenceNumber pair.2.sequenceNumber
  once : ∀ a b, Neighbours stream first a b → follows stream a b = 1

/-- The absent numbers are skipped once, and no other numbers. -/
def SkippedOnce (stream : List RtpPacketObservationEvidence) (first last : ℤ) : Prop :=
  ∀ n ∈ sequenceNumbers, skips stream n = if n ∈ absent stream first last then 1 else 0

section Skips

variable {stream : List RtpPacketObservationEvidence} {first last n : ℤ}
  {pair : RtpPacketObservationEvidence × RtpPacketObservationEvidence}

theorem mem_sequenceNumbers : n ∈ sequenceNumbers ↔ 0 ≤ n ∧ n < 65536 := by
  unfold sequenceNumbers
  rw [Finset.mem_map]
  simp only [Finset.mem_range, Nat.castEmbedding_apply]
  constructor
  · rintro ⟨k, hk, rfl⟩
    omega
  · intro h
    exact ⟨n.toNat, by omega, by omega⟩

/-- A step of `d` skips `d - 1` numbers. -/
theorem card_between (h : isGap pair) :
    ((sequenceNumbers.filter (Between pair.1 pair.2)).card : ℤ) = sequenceDelta pair.1 pair.2 - 1 := by
  simp only [isGap, decide_eq_true_eq] at h
  have hcard : (sequenceNumbers.filter (Between pair.1 pair.2)).card =
      (Finset.Ioo 0 (sequenceDelta pair.1 pair.2)).card := by
    refine Finset.card_bij (fun n _ => (n - pair.1.sequenceNumber) % 65536) ?_ ?_ ?_
    · intro n hn
      exact Finset.mem_Ioo.mpr (Finset.mem_filter.mp hn).2
    · intro n hn m hm heq
      have hn := mem_sequenceNumbers.mp (Finset.mem_filter.mp hn).1
      have hm := mem_sequenceNumbers.mp (Finset.mem_filter.mp hm).1
      omega
    · intro d hd
      obtain ⟨hpos, hlt⟩ := Finset.mem_Ioo.mp hd
      have hshift : ((d + pair.1.sequenceNumber) % 65536 - pair.1.sequenceNumber) % 65536 = d := by
        omega
      refine ⟨(d + pair.1.sequenceNumber) % 65536, Finset.mem_filter.mpr ⟨?_, ?_⟩, hshift⟩
      · exact mem_sequenceNumbers.mpr (by omega)
      · unfold Between
        rw [hshift]
        exact ⟨hpos, hlt⟩
  rw [hcard, Int.card_Ioo]
  omega

/-- What the steps skip in all. -/
theorem sum_skips : ∑ n ∈ sequenceNumbers, (skips stream n : ℤ) =
    (((pairs stream).filter isGap).map fun pair => sequenceDelta pair.1 pair.2 - 1).sum := by
  have hgaps : ∀ pair ∈ (pairs stream).filter isGap, isGap pair = true :=
    fun pair hpair => (List.mem_filter.mp hpair).2
  unfold skips
  generalize (pairs stream).filter isGap = steps at hgaps
  induction steps with
  | nil => simp
  | cons pair steps ih =>
      have hcount : ∀ n, (((pair :: steps).countP fun pair => Between pair.1 pair.2 n : ℕ) : ℤ) =
          (steps.countP fun pair => Between pair.1 pair.2 n : ℕ) +
            if Between pair.1 pair.2 n then 1 else 0 := by
        intro n
        rw [List.countP_cons]
        push_cast
        simp
      have hpair := card_between (hgaps pair List.mem_cons_self)
      simp only [hcount, Finset.sum_add_distrib,
        ih fun p hp => hgaps p (List.mem_cons_of_mem _ hp), List.map_cons, List.sum_cons]
      rw [Finset.sum_boole, hpair, add_comm]

/-- The numbers that a step skips are in the span. -/
theorem inSpan_of_between (hspan : Spans stream first last) (hpair : pair ∈ pairs stream)
    (hgap : isGap pair) (h : Between pair.1 pair.2 n) : InSpan first last n := by
  obtain ⟨hprevious, hcurrent⟩ := mem_of_mem_pairs hpair
  have hp := hspan.within _ hprevious
  have hc := hspan.within _ hcurrent
  have hshort := hspan.short
  simp only [isGap, decide_eq_true_eq] at hgap
  unfold Between at h
  unfold InSpan at hp hc ⊢
  unfold sequenceDelta at hgap h
  omega

theorem skips_eq_zero (hspan : Spans stream first last) (h : ¬ InSpan first last n) :
    skips stream n = 0 := by
  refine List.countP_eq_zero.mpr fun pair hpair hbetween => h ?_
  obtain ⟨hpair, hgap⟩ := List.mem_filter.mp hpair
  exact inSpan_of_between hspan hpair hgap (of_decide_eq_true hbetween)

/-- In the span the places of the numbers tell what a step skips. -/
theorem between_iff (hspan : Spans stream first last) (hpair : pair ∈ pairs stream) :
    isGap pair ∧ Between pair.1 pair.2 n ↔
      spanOffset first pair.1.sequenceNumber < spanOffset first n ∧
        spanOffset first n < spanOffset first pair.2.sequenceNumber := by
  obtain ⟨hprevious, hcurrent⟩ := mem_of_mem_pairs hpair
  have hp := hspan.within _ hprevious
  have hc := hspan.within _ hcurrent
  have hshort := hspan.short
  unfold InSpan at hp hc
  simp only [isGap, decide_eq_true_eq]
  unfold Between sequenceDelta spanOffset
  omega

theorem apart_of_isGap (hspan : Spans stream first last) (hpair : pair ∈ pairs stream)
    (hgap : isGap pair) :
    spanOffset first pair.1.sequenceNumber + 1 < spanOffset first pair.2.sequenceNumber := by
  obtain ⟨hprevious, hcurrent⟩ := mem_of_mem_pairs hpair
  have hp := hspan.within _ hprevious
  have hc := hspan.within _ hcurrent
  have hshort := hspan.short
  unfold InSpan at hp hc
  simp only [isGap, decide_eq_true_eq] at hgap
  unfold sequenceDelta at hgap
  unfold spanOffset
  omega

theorem skips_eq_countP (hspan : Spans stream first last) :
    skips stream n = (pairs stream).countP fun pair =>
      spanOffset first pair.1.sequenceNumber < spanOffset first n ∧
        spanOffset first n < spanOffset first pair.2.sequenceNumber := by
  unfold skips
  rw [List.countP_filter]
  refine List.countP_congr fun pair hpair => ?_
  have hiff := @between_iff stream first last n pair hspan hpair
  simpa [and_comm] using hiff

theorem skips_eq_crossings (hspan : Spans stream first last) :
    skips stream n = crossings (stream.map fun packet => spanOffset first packet.sequenceNumber)
      (spanOffset first n) := by
  rw [skips_eq_countP hspan, crossings, pairs_map, List.countP_map]
  rfl

theorem mem_absent : n ∈ absent stream first last ↔
    n ∈ sequenceNumbers ∧ InSpan first last n ∧ ¬ Arrives stream n :=
  Finset.mem_filter

theorem card_absent :
    (∑ n ∈ sequenceNumbers, if n ∈ absent stream first last then 1 else 0) =
      (absent stream first last).card := by
  have hsub : absent stream first last ⊆ sequenceNumbers := Finset.filter_subset _ _
  rw [Finset.sum_ite_mem, Finset.inter_eq_right.mpr hsub, Finset.card_eq_sum_ones]

/-- Numbers at one place are equal. -/
theorem eq_of_spanOffset {m : ℤ} (hn : n ∈ sequenceNumbers) (hm : m ∈ sequenceNumbers)
    (h : spanOffset first n = spanOffset first m) : n = m := by
  have hn := mem_sequenceNumbers.mp hn
  have hm := mem_sequenceNumbers.mp hm
  unfold spanOffset at h
  omega

end Skips

section Jumps

variable {stream : List RtpPacketObservationEvidence} {first last n a b : ℤ}

/-- What a step between neighbours skips is skipped by no other step. -/
theorem skips_of_neighbours (hspan : Spans stream first last)
    (hnumbers : ∀ packet ∈ stream, packet.sequenceNumber ∈ sequenceNumbers)
    (hnext : ∀ pair ∈ pairs stream, isGap pair →
      Neighbours stream first pair.1.sequenceNumber pair.2.sequenceNumber)
    (hab : Neighbours stream first a b) (ha : spanOffset first a < spanOffset first n)
    (hb : spanOffset first n < spanOffset first b) : skips stream n = follows stream a b := by
  rw [skips_eq_countP hspan]
  refine List.countP_congr fun pair hpair => ?_
  obtain ⟨hprevious, hcurrent⟩ := mem_of_mem_pairs hpair
  obtain ⟨lower, hlower, rfl⟩ := hab.lower
  obtain ⟨upper, hupper, rfl⟩ := hab.upper
  rw [decide_eq_true_eq, decide_eq_true_eq]
  constructor
  · rintro ⟨hp, hc⟩
    -- neighbours on both sides of one number are the same
    have hpair := hnext pair hpair ((between_iff hspan hpair).mpr ⟨hp, hc⟩).1
    have hl := hpair.next lower hlower
    have hu := hpair.next upper hupper
    have hp' := hab.next _ hprevious
    have hc' := hab.next _ hcurrent
    exact ⟨@eq_of_spanOffset first _ _ (hnumbers _ hprevious) (hnumbers _ hlower) (by omega),
      @eq_of_spanOffset first _ _ (hnumbers _ hcurrent) (hnumbers _ hupper) (by omega)⟩
  · rintro ⟨hp, hc⟩
    rw [hp, hc]
    exact ⟨ha, hb⟩

/-- An absent number is between neighbours. -/
theorem exists_neighbours (hspan : Spans stream first last)
    (hnumbers : ∀ packet ∈ stream, packet.sequenceNumber ∈ sequenceNumbers)
    (hn : n ∈ absent stream first last) : ∃ a b, Neighbours stream first a b ∧
      spanOffset first a < spanOffset first n ∧ spanOffset first n < spanOffset first b := by
  obtain ⟨hmem, hin, hnot⟩ := mem_absent.mp hn
  have hne : ∀ packet ∈ stream, spanOffset first packet.sequenceNumber ≠ spanOffset first n :=
    fun packet hpacket heq => hnot ⟨packet, hpacket, eq_of_spanOffset (hnumbers _ hpacket) hmem heq⟩
  obtain ⟨start, hstart, rfl⟩ := hspan.first_arrives
  obtain ⟨stop, hstop, rfl⟩ := hspan.last_arrives
  have hstartNe := hne start hstart
  have hstopNe := hne stop hstop
  unfold InSpan at hin
  obtain ⟨lower, hlower, hmax⟩ := Finset.exists_max_image
    (stream.toFinset.filter fun packet =>
      spanOffset start.sequenceNumber packet.sequenceNumber < spanOffset start.sequenceNumber n)
    (fun packet => spanOffset start.sequenceNumber packet.sequenceNumber)
    ⟨start, by
      rw [Finset.mem_filter, List.mem_toFinset]
      unfold spanOffset at hstartNe ⊢
      exact ⟨hstart, by omega⟩⟩
  obtain ⟨upper, hupper, hmin⟩ := Finset.exists_min_image
    (stream.toFinset.filter fun packet =>
      spanOffset start.sequenceNumber n < spanOffset start.sequenceNumber packet.sequenceNumber)
    (fun packet => spanOffset start.sequenceNumber packet.sequenceNumber)
    ⟨stop, by
      rw [Finset.mem_filter, List.mem_toFinset]
      unfold spanOffset at hstopNe ⊢
      exact ⟨hstop, by omega⟩⟩
  simp only [Finset.mem_filter, List.mem_toFinset, and_imp] at hlower hupper hmax hmin
  refine ⟨lower.sequenceNumber, upper.sequenceNumber,
    ⟨⟨lower, hlower.1, rfl⟩, ⟨upper, hupper.1, rfl⟩, by omega, fun packet hpacket => ?_⟩,
    hlower.2, hupper.2⟩
  rcases (hne packet hpacket).lt_or_gt with hlt | hgt
  · exact Or.inl (hmax packet hpacket hlt)
  · exact Or.inr (hmin packet hpacket hgt)

/-- The steps forward are the neighbours exactly when the absent numbers are skipped once, and
no others. -/
theorem skippedOnce_iff (hspan : Spans stream first last)
    (hnumbers : ∀ packet ∈ stream, packet.sequenceNumber ∈ sequenceNumbers) :
    SkippedOnce stream first last ↔ JumpsOnce stream first := by
  constructor
  · intro h
    have hnext : ∀ pair ∈ pairs stream, isGap pair →
        Neighbours stream first pair.1.sequenceNumber pair.2.sequenceNumber := by
      intro pair hpair hgap
      obtain ⟨hprevious, hcurrent⟩ := mem_of_mem_pairs hpair
      refine ⟨⟨_, hprevious, rfl⟩, ⟨_, hcurrent, rfl⟩, apart_of_isGap hspan hpair hgap, ?_⟩
      intro packet hpacket
      have hskips := h packet.sequenceNumber (hnumbers packet hpacket)
      rw [if_neg fun hmem => (mem_absent.mp hmem).2.2 ⟨packet, hpacket, rfl⟩] at hskips
      by_contra hbetween
      rw [not_or, not_le, not_le] at hbetween
      exact List.countP_eq_zero.mp hskips pair (List.mem_filter.mpr ⟨hpair, hgap⟩)
        (decide_eq_true ((between_iff hspan hpair).mpr hbetween).2)
    refine ⟨hnext, fun a b hab => ?_⟩
    -- the number after `a` is absent
    obtain ⟨upper, hupper, hb⟩ := hab.upper
    have hwithin := hspan.within upper hupper
    have hshort := hspan.short
    have hapart := hab.apart
    have hplace : spanOffset first ((a + 1) % 65536) = spanOffset first a + 1 := by
      unfold InSpan at hwithin
      rw [hb] at hwithin
      unfold spanOffset at hapart ⊢
      omega
    have hmem : (a + 1) % 65536 ∈ absent stream first last := by
      refine mem_absent.mpr ⟨mem_sequenceNumbers.mpr (by omega), ?_, ?_⟩
      · unfold InSpan at hwithin ⊢
        rw [hb] at hwithin
        unfold spanOffset at hapart hplace
        omega
      · rintro ⟨packet, hpacket, heq⟩
        have hcases := hab.next packet hpacket
        rw [heq, hplace] at hcases
        omega
    have hskips := h _ (mem_absent.mp hmem).1
    rw [if_pos hmem] at hskips
    rw [← hskips]
    exact (skips_of_neighbours hspan hnumbers hnext hab (by omega) (by omega)).symm
  · intro h n hn
    split
    · rename_i hmem
      obtain ⟨a, b, hab, ha, hb⟩ := exists_neighbours hspan hnumbers hmem
      rw [skips_of_neighbours hspan hnumbers h.toNext hab ha hb, h.once a b hab]
    · rename_i hnot
      by_cases hin : InSpan first last n
      · have harrives : Arrives stream n := by
          by_contra h
          exact hnot (mem_absent.mpr ⟨hn, hin, h⟩)
        obtain ⟨packet, hpacket, rfl⟩ := harrives
        refine List.countP_eq_zero.mpr fun pair hpair hbetween => ?_
        obtain ⟨hpair, hgap⟩ := List.mem_filter.mp hpair
        have hplaces := (between_iff hspan hpair).mp ⟨hgap, of_decide_eq_true hbetween⟩
        have hcases := (h.toNext pair hpair hgap).next packet hpacket
        omega
      · exact skips_eq_zero hspan hin

end Jumps

/-! ## The gaps that are reported -/

section Reported

variable {run : StoredRun} {packets : List RtpPacketObservationEvidence}
  {evidence : List RtpPacketDiscontinuityEvidence}

theorem discontinuityKind_eq_gap_iff
    {pair : RtpPacketObservationEvidence × RtpPacketObservationEvidence} :
    discontinuityKind pair.1 pair.2 = some .sequenceGap ↔ isGap pair := by
  unfold discontinuityKind isGap
  split
  · simp [*]
  · split <;> simp [*]

/-- The discontinuous pairs of one stream. -/
theorem discontinuousPairs_filter (packets : List RtpPacketObservationEvidence)
    (key : String × RtpDirection × String) :
    (discontinuousPairs packets).filter (fun item => item.1.2.stream = key) =
      (pairs (packetsOf key packets)).filterMap fun pair =>
        (discontinuityKind pair.1 pair.2).map fun kind => (pair, kind) := by
  have horigin : ∀ group ∈ groupOn (fun item : RtpPacketObservationEvidence =>
      (item.streamAlias, item.direction, item.event.clockDomain)) packets,
      ∀ item ∈ (pairs group.2).filterMap (fun pair =>
        (discontinuityKind pair.1 pair.2).map fun kind => (pair, kind)),
      item.1.2.stream = group.1 := by
    intro group hgroup item hitem
    obtain ⟨pair, hpair, hitem⟩ := List.mem_filterMap.mp hitem
    obtain ⟨kind, -, rfl⟩ := Option.map_eq_some_iff.mp hitem
    have hmem := (mem_of_mem_pairs hpair).2
    rw [mem_groupOn hgroup, List.mem_filter, decide_eq_true_eq] at hmem
    exact hmem.2
  have hresults := @filter_flatMap_groupOn _ _ _ _ packets _ (fun group => (pairs group).filterMap
    fun pair => (discontinuityKind pair.1 pair.2).map fun kind => (pair, kind))
    (fun item => item.1.2.stream) rfl horigin key
  rw [discontinuousPairs, packetsOf]
  exact hresults

/-- The gaps of one stream among the discontinuous pairs. -/
theorem gaps_of_stream (packets : List RtpPacketObservationEvidence)
    (key : String × RtpDirection × String) :
    (discontinuousPairs packets).filter
        (fun item => item.2 = .sequenceGap ∧ item.1.2.stream = key) =
      ((pairs (packetsOf key packets)).filter isGap).map fun pair => (pair, .sequenceGap) := by
  have hsplit : (discontinuousPairs packets).filter
      (fun item => item.2 = .sequenceGap ∧ item.1.2.stream = key) =
        ((discontinuousPairs packets).filter fun item => item.1.2.stream = key).filter
          fun item => item.2 = .sequenceGap := by
    rw [List.filter_filter]
    congr 1
    funext item
    exact Bool.decide_and _ _
  rw [hsplit, discontinuousPairs_filter]
  induction pairs (packetsOf key packets) with
  | nil => rfl
  | cons pair rest ih =>
      rw [List.filterMap_cons, List.filter_cons]
      cases hkind : discontinuityKind pair.1 pair.2 with
      | none =>
          have hnot : ¬ isGap pair := fun h => by
            rw [← discontinuityKind_eq_gap_iff, hkind] at h
            cases h
          rw [if_neg hnot]
          exact ih
      | some kind =>
          cases kind with
          | sequenceGap =>
              rw [if_pos (discontinuityKind_eq_gap_iff.mp hkind)]
              simpa using ih
          | arrivalStall =>
              have hnot : ¬ isGap pair := fun h => by
                rw [← discontinuityKind_eq_gap_iff, hkind] at h
                cases h
              rw [if_neg hnot]
              simpa using ih

/-- The reported gaps of a stream are its steps forward by more than one. -/
theorem perm_gapsOf (hpackets : rtpPacketObservations run = .ok packets)
    (hevidence : rtpPacketDiscontinuityEvidence run = .ok evidence)
    (key : String × RtpDirection × String) :
    ((gapsOf key evidence).map fun gap => ((gap.previous, gap.current), gap.missingPacketCount)).Perm
      (((pairs (packetsOf key packets)).filter isGap).map fun pair =>
        (pair, sequenceDelta pair.1 pair.2 - 1)) := by
  obtain ⟨packets', reports, hpackets', -, rfl⟩ := discontinuityEvidence_eq_ok_iff.mp hevidence
  obtain rfl := Except.ok.inj (hpackets.symm.trans hpackets')
  have hfound : (gapsOf key (discontinuitiesOf packets reports)).Perm
      (gapsOf key ((discontinuousPairs packets).mapIdx fun index item =>
        discontinuity reports index item.1.1 item.1.2 item.2)) :=
    (perm_sortOn _ _).filter _
  refine (hfound.map _).trans (List.Perm.of_eq ?_)
  -- the index of a finding is not looked at
  have hindex : (gapsOf key ((discontinuousPairs packets).mapIdx fun index item =>
      discontinuity reports index item.1.1 item.1.2 item.2)).map
        (fun gap => ((gap.previous, gap.current), gap.missingPacketCount)) =
      ((discontinuousPairs packets).filter fun item =>
        item.2 = .sequenceGap ∧ item.1.2.stream = key).map
          fun item => (item.1, (discontinuity [] 0 item.1.1 item.1.2 item.2).missingPacketCount) := by
    conv_rhs => rw [← List.zipIdx_map_fst 0 (discontinuousPairs packets)]
    rw [gapsOf, List.mapIdx_eq_zipIdx_map, List.filter_map, List.filter_map, List.map_map,
      List.map_map]
    rfl
  rw [hindex, gaps_of_stream, List.map_map]
  rfl

/-- The reported gaps count what the steps skip. -/
theorem sum_missing (hpackets : rtpPacketObservations run = .ok packets)
    (hevidence : rtpPacketDiscontinuityEvidence run = .ok evidence)
    (key : String × RtpDirection × String) :
    ((gapsOf key evidence).map RtpPacketDiscontinuityEvidence.missingPacketCount).sum =
      ((∑ n ∈ sequenceNumbers, skips (packetsOf key packets) n : ℕ) : ℤ) := by
  have hsnd := ((perm_gapsOf hpackets hevidence key).map Prod.snd).sum_eq
  rw [List.map_map, List.map_map] at hsnd
  rw [Nat.cast_sum, sum_skips]
  exact hsnd

theorem mem_pairs_of_mem_gapsOf (hpackets : rtpPacketObservations run = .ok packets)
    (hevidence : rtpPacketDiscontinuityEvidence run = .ok evidence)
    {key : String × RtpDirection × String} {gap : RtpPacketDiscontinuityEvidence}
    (hgap : gap ∈ gapsOf key evidence) :
    (gap.previous, gap.current) ∈ pairs (packetsOf key packets) ∧
      isGap (gap.previous, gap.current) := by
  obtain ⟨pair, hpair, heq⟩ := List.mem_map.mp
    ((perm_gapsOf hpackets hevidence key).mem_iff.mp (List.mem_map_of_mem hgap))
  obtain ⟨rfl, -⟩ := Prod.mk.inj heq
  exact List.mem_filter.mp hpair

/-- Gaps are truthful where the absent numbers are skipped once, and no others. -/
theorem truthful_of_skippedOnce (hpackets : rtpPacketObservations run = .ok packets)
    (hevidence : rtpPacketDiscontinuityEvidence run = .ok evidence)
    (key : String × RtpDirection × String) {first last : ℤ}
    (h : SkippedOnce (packetsOf key packets) first last) :
    GapsTruthful (packetsOf key packets) first last (gapsOf key evidence) := by
  constructor
  · intro gap hgap
    obtain ⟨hpair, hisGap⟩ := mem_pairs_of_mem_gapsOf hpackets hevidence hgap
    -- the first number that the step skips
    have hnext : Between gap.previous gap.current ((gap.previous.sequenceNumber + 1) % 65536) := by
      simp only [isGap, decide_eq_true_eq] at hisGap
      unfold Between
      omega
    have hmem : (gap.previous.sequenceNumber + 1) % 65536 ∈ sequenceNumbers :=
      mem_sequenceNumbers.mpr (by omega)
    refine ⟨_, hmem, hnext, fun harrives => ?_⟩
    have hskips := h _ hmem
    rw [if_neg fun habsent => (mem_absent.mp habsent).2.2 harrives] at hskips
    exact List.countP_eq_zero.mp hskips _ (List.mem_filter.mpr ⟨hpair, hisGap⟩)
      (decide_eq_true hnext)
  · rw [sum_missing hpackets hevidence, Finset.sum_congr rfl h, card_absent]

/-- A stream that starts with its first number steps over every absent one, so that the counts
are right only when it steps over nothing else. -/
theorem skippedOnce_of_counted (hpackets : rtpPacketObservations run = .ok packets)
    (hevidence : rtpPacketDiscontinuityEvidence run = .ok evidence)
    (key : String × RtpDirection × String) {first last : ℤ}
    (hspan : Spans (packetsOf key packets) first last)
    (hnumbers : ∀ packet ∈ packetsOf key packets, packet.sequenceNumber ∈ sequenceNumbers)
    (hstart : (packetsOf key packets).head?.map RtpPacketObservationEvidence.sequenceNumber = some first)
    (h : GapsTruthful (packetsOf key packets) first last (gapsOf key evidence)) :
    SkippedOnce (packetsOf key packets) first last := by
  have hcounted := h.counted
  rw [sum_missing hpackets hevidence, Nat.cast_inj, ← card_absent] at hcounted
  have hle : ∀ n ∈ sequenceNumbers, (if n ∈ absent (packetsOf key packets) first last then 1 else 0) ≤
      skips (packetsOf key packets) n := by
    intro n hn
    split
    · rename_i hmem
      obtain ⟨-, hin, hnot⟩ := mem_absent.mp hmem
      rw [skips_eq_crossings hspan]
      have hne : ∀ packet ∈ packetsOf key packets,
          spanOffset first packet.sequenceNumber ≠ spanOffset first n :=
        fun packet hpacket heq =>
          hnot ⟨packet, hpacket, eq_of_spanOffset (hnumbers _ hpacket) hn heq⟩
      obtain ⟨start, hhead, hfirst⟩ := Option.map_eq_some_iff.mp hstart
      obtain ⟨stop, hstop, hlast⟩ := hspan.last_arrives
      have hbelow := hne start (List.mem_of_head? hhead)
      have habove := hne stop hstop
      unfold InSpan at hin
      refine crossings_pos (a := spanOffset first start.sequenceNumber) ?_ ?_ ?_
        ⟨spanOffset first stop.sequenceNumber, List.mem_map_of_mem hstop, ?_⟩
      · rw [List.head?_map, hhead, Option.map_some]
      · unfold spanOffset at hbelow ⊢
        omega
      · intro hmem
        obtain ⟨other, hother, heq⟩ := List.mem_map.mp hmem
        exact hne other hother heq
      · unfold spanOffset at habove ⊢
        omega
    · exact Nat.zero_le _
  have hpoint := (Finset.sum_eq_sum_iff_of_le hle).mp hcounted.symm
  exact fun n hn => (hpoint n hn).symm

end Reported

/-! ## Packets that arrive in the order of their numbers -/

section InOrder

variable {stream : List RtpPacketObservationEvidence} {first last : ℤ}

/-- No packet arrives after one with a later number. -/
def InOrder (stream : List RtpPacketObservationEvidence) (first : ℤ) : Prop :=
  (stream.map fun packet => spanOffset first packet.sequenceNumber).Pairwise (· ≤ ·)

instance (stream : List RtpPacketObservationEvidence) (first : ℤ) : Decidable (InOrder stream first) :=
  inferInstanceAs (Decidable (List.Pairwise _ _))

/-- Steps of packets in order go from neighbour to neighbour. -/
theorem jumpsOnce_of_inOrder (hspan : Spans stream first last) (horder : InOrder stream first)
    (hnumbers : ∀ packet ∈ stream, packet.sequenceNumber ∈ sequenceNumbers) :
    JumpsOnce stream first := by
  refine (skippedOnce_iff hspan hnumbers).mp fun n hn => ?_
  split
  · rename_i hmem
    rw [skips_eq_crossings hspan]
    obtain ⟨a, b, hab, ha, hb⟩ := exists_neighbours hspan hnumbers hmem
    obtain ⟨lower, hlower, rfl⟩ := hab.lower
    obtain ⟨upper, hupper, rfl⟩ := hab.upper
    refine crossings_of_not_mem horder ?_ ⟨_, List.mem_map_of_mem hlower, ha⟩
      ⟨_, List.mem_map_of_mem hupper, hb⟩
    intro hplace
    obtain ⟨other, hother, heq⟩ := List.mem_map.mp hplace
    exact (mem_absent.mp hmem).2.2 ⟨other, hother, eq_of_spanOffset (hnumbers _ hother) hn heq⟩
  · rename_i hnot
    by_cases hin : InSpan first last n
    · have harrives : Arrives stream n := by
        by_contra h
        exact hnot (mem_absent.mpr ⟨hn, hin, h⟩)
      obtain ⟨packet, hpacket, rfl⟩ := harrives
      rw [skips_eq_crossings hspan]
      exact crossings_of_mem horder (List.mem_map_of_mem hpacket)
    · exact skips_eq_zero hspan hin

end InOrder

/-! ## Events that can be read -/

section Readable

variable {run : StoredRun} {packets : List RtpPacketObservationEvidence}

/-- The report of an event, where it is well formed and its window is not negative. -/
def wellFormedReport (event : TimelineEventArtifact) : Bool :=
  (healthStream event).any fun stream =>
    (healthCounters event 0 stream.2 stream.1).isSome ∧
      (numericAttribute event.attributes "window_duration_ms").toOption.join.any (0 ≤ ·)

/-- The events of the packet tap raise nothing: naive and aware times do not meet, and the windows
of the reports fit a float. -/
structure StoredRun.TapReadable (run : StoredRun) : Prop where
  packets : ∀ event ∈ run.timelineEvents, (shownPacket event).isSome →
    event.ts.isAware = run.startedAt.isAware
  windows : ∀ event ∈ run.timelineEvents, (healthStream event).isSome →
    AttributesFit event.attributes ["window_duration_ms"]
  reports : ∀ event ∈ run.timelineEvents, wellFormedReport event →
    event.ts.isAware = run.startedAt.isAware

/-- The packets that the run observed, where their times can be compared. -/
def StoredRun.observedPackets (run : StoredRun) : List RtpPacketObservationEvidence :=
  sortOn (fun item => toLex (item.streamAlias, toLex (item.direction.text,
    toLex (item.tRelMs, item.eventOrdinal)))) (run.timelineEvents.zipIdx.filterMap fun item =>
      (packetOf item.1 item.2).map fun packet =>
        { packet with tRelMs := run.offsetMs item.1.ts.instant })

/-- The packets of a stream, in the order of their arrival. -/
def StoredRun.packetStream (run : StoredRun) (key : String × RtpDirection × String) :
    List RtpPacketObservationEvidence :=
  packetsOf key run.observedPackets

theorem packetObservation_eq_ok_iff {item : TimelineEventArtifact × ℕ}
    {observation : Option RtpPacketObservationEvidence} :
    packetObservation run item = .ok observation ↔
      ((shownPacket item.1).isSome → item.1.ts.isAware = run.startedAt.isAware) ∧
        (packetOf item.1 item.2).map (fun packet =>
          { packet with tRelMs := run.offsetMs item.1.ts.instant }) = observation := by
  unfold packetObservation
  rw [packetOf_ordinal]
  cases shownPacket item.1 with
  | none => simp
  | some packet =>
      simp only [Option.map_some, Option.isSome_some, forall_const]
      constructor
      · intro h
        obtain ⟨t, ht, h⟩ := bind_eq_ok.mp h
        obtain ⟨haware, rfl⟩ := relativeMs_eq_ok_iff.mp ht
        exact ⟨haware, Except.ok.inj h⟩
      · rintro ⟨haware, rfl⟩
        exact bind_eq_ok.mpr ⟨_, relativeMs_eq_ok_iff.mpr ⟨haware, rfl⟩, rfl⟩

/-- What holds of the events holds of the events with their places. -/
theorem forall_zipIdx {α : Type} {p : α → Prop} {l : List α} :
    (∀ item ∈ l.zipIdx, p item.1) ↔ ∀ a ∈ l, p a := by
  constructor
  · intro h a ha
    rw [← List.zipIdx_map_fst 0 l] at ha
    obtain ⟨item, hitem, rfl⟩ := List.mem_map.mp ha
    exact h item hitem
  · intro h item hitem
    exact h item.1 (List.fst_mem_of_mem_zipIdx hitem)

theorem rtpPacketObservations_eq_ok_iff : rtpPacketObservations run = .ok packets ↔
    (∀ event ∈ run.timelineEvents, (shownPacket event).isSome →
      event.ts.isAware = run.startedAt.isAware) ∧ run.observedPackets = packets := by
  constructor
  · intro h
    obtain ⟨observations, hobservations, h⟩ := bind_eq_ok.mp h
    cases h
    obtain ⟨haware, rfl⟩ :=
      (collect_eq_ok_iff_filterMap fun _ _ => packetObservation_eq_ok_iff).mp hobservations
    exact ⟨forall_zipIdx.mp haware, rfl⟩
  · rintro ⟨haware, rfl⟩
    exact bind_eq_ok.mpr ⟨_, (collect_eq_ok_iff_filterMap fun _ _ =>
      packetObservation_eq_ok_iff).mpr ⟨forall_zipIdx.mpr haware, rfl⟩, rfl⟩

theorem exists_numericAttribute_iff {attributes : List (String × AttrValue)} {name : String} :
    (∃ value, numericAttribute attributes name = .ok value) ↔ AttributesFit attributes [name] := by
  simp only [AttributesFit, List.mem_singleton, forall_eq]
  unfold numericAttribute
  cases hget : Dict.get? attributes name with
  | none => simp
  | some value =>
      cases value with
      | int n => 
          simp only [Option.some_inj, AttrValue.int.injEq, forall_eq', toFloat]
          split <;> simp [*, Except.map]
      | _ => simp

theorem exists_captureHealthReport_iff {event : TimelineEventArtifact} :
    (∃ report, captureHealthReport run (event, 0) = .ok report) ↔
      ((healthStream event).isSome → AttributesFit event.attributes ["window_duration_ms"]) ∧
        (wellFormedReport event → event.ts.isAware = run.startedAt.isAware) := by
  unfold captureHealthReport wellFormedReport
  cases healthStream event with
  | none => simp
  | some stream =>
      obtain ⟨streamAlias, direction⟩ := stream
      rw [← exists_numericAttribute_iff]
      cases numericAttribute event.attributes "window_duration_ms" with
      | error e => simp [bind, Except.bind]
      | ok duration =>
          cases hcounters : healthCounters event 0 direction streamAlias with
          | none => simp [hcounters, bind, Except.bind]
          | some counters =>
              cases duration with
              | none => simp [hcounters, bind, Except.bind, Except.toOption]
              | some duration =>
                  by_cases hneg : duration < 0
                  · simp [hcounters, bind, Except.bind, Except.toOption, hneg]
                  · have haware := @exists_relativeMs_iff run event.ts
                    rw [← haware]
                    cases relativeMs run event.ts <;>
                      simp [hcounters, bind, Except.bind, Except.toOption, hneg, pure, Except.pure]

/-- The tap can be read exactly when none of its events raises. -/
theorem exists_evidence_iff :
    (∃ evidence, rtpPacketDiscontinuityEvidence run = .ok evidence) ↔ run.TapReadable := by
  have hreports : (∃ reports, rtpCaptureHealthReports run = .ok reports) ↔
      ∀ event ∈ run.timelineEvents, ∃ report, captureHealthReport run (event, 0) = .ok report := by
    have hloop : (∃ reports, rtpCaptureHealthReports run = .ok reports) ↔
        ∃ reports, collect (captureHealthReport run) run.timelineEvents.zipIdx = .ok reports := by
      constructor
      · rintro ⟨reports, h⟩
        obtain ⟨found, hfound, -⟩ := bind_eq_ok.mp h
        exact ⟨found, hfound⟩
      · rintro ⟨found, hfound⟩
        exact ⟨_, bind_eq_ok.mpr ⟨found, hfound, rfl⟩⟩
    rw [hloop, exists_collect_iff]
    have hplace : ∀ item : TimelineEventArtifact × ℕ,
        (∃ report, captureHealthReport run item = .ok report) ↔
          ∃ report, captureHealthReport run (item.1, 0) = .ok report := by
      intro item
      rw [captureHealthReport_ordinal item.2]
      cases captureHealthReport run item <;> simp [Except.map]
    simp only [hplace]
    exact forall_zipIdx (p := fun event => ∃ report, captureHealthReport run (event, 0) = .ok report)
  constructor
  · rintro ⟨evidence, h⟩
    obtain ⟨packets, reports, hpackets, hread, -⟩ := discontinuityEvidence_eq_ok_iff.mp h
    have hevents := hreports.mp ⟨reports, hread⟩
    exact ⟨(rtpPacketObservations_eq_ok_iff.mp hpackets).1,
      fun event hevent => (exists_captureHealthReport_iff.mp (hevents event hevent)).1,
      fun event hevent => (exists_captureHealthReport_iff.mp (hevents event hevent)).2⟩
  · rintro ⟨hpackets, hwindows, haware⟩
    obtain ⟨reports, hread⟩ := hreports.mpr fun event hevent =>
      exists_captureHealthReport_iff.mpr ⟨hwindows event hevent, haware event hevent⟩
    exact ⟨_, discontinuityEvidence_eq_ok_iff.mpr
      ⟨_, reports, rtpPacketObservations_eq_ok_iff.mpr ⟨hpackets, rfl⟩, hread, rfl⟩⟩

theorem sequenceNumber_mem
    (hpackets : rtpPacketObservations run = .ok packets) {packet : RtpPacketObservationEvidence}
    (hpacket : packet ∈ packets) : packet.sequenceNumber ∈ sequenceNumbers := by
  obtain ⟨item, -, hread⟩ := (mem_rtpPacketObservations hpackets).mp hpacket
  unfold packetObservation at hread
  split at hread
  · cases hread
  · rename_i raw hraw
    obtain ⟨t, -, hread⟩ := bind_eq_ok.mp hread
    obtain rfl := Option.some.inj (Except.ok.inj hread)
    simp only [packetOf, Option.bind_eq_bind, Option.bind_eq_some_iff, Option.pure_def] at hraw
    obtain ⟨_, -, _, -, _, -, n, hn, _, -, _, -, _, -, _, -, h⟩ := hraw
    obtain rfl := Option.some.inj h
    unfold boundedIntAttribute at hn
    split at hn
    · split at hn
      · rename_i hbounds
        obtain rfl := Option.some.inj hn
        exact mem_sequenceNumbers.mpr ⟨hbounds.1, Int.lt_add_one_of_le hbounds.2⟩
      · cases hn
    · cases hn

theorem sequenceNumber_mem_packetStream
    (hpackets : rtpPacketObservations run = .ok run.observedPackets)
    (key : String × RtpDirection × String) :
    ∀ packet ∈ run.packetStream key, packet.sequenceNumber ∈ sequenceNumbers :=
  fun _ hpacket => sequenceNumber_mem hpackets (List.mem_of_mem_filter hpacket)

end Readable

/-! ## The gaps that are reported, and the numbers that are absent -/

/-- The gaps of the stream are reported, and they are the absent numbers. -/
def ReportsAbsence (run : StoredRun) (key : String × RtpDirection × String) (first last : ℤ) : Prop :=
  ∃ evidence, rtpPacketDiscontinuityEvidence run = .ok evidence ∧
    GapsTruthful (run.packetStream key) first last (gapsOf key evidence)

/-- In a stream that spans fewer than 32768 numbers, the reported gaps are the absent numbers
when the steps forward go from neighbour to neighbour, once each. Where the first packet has the
first number, they are the absent numbers only then. -/
theorem gaps_truthful_iff (run : StoredRun) (key : String × RtpDirection × String) {first last : ℤ}
    (hspan : Spans (run.packetStream key) first last) :
    (run.TapReadable ∧ JumpsOnce (run.packetStream key) first → ReportsAbsence run key first last) ∧
      ((run.packetStream key).head?.map RtpPacketObservationEvidence.sequenceNumber = some first →
        ReportsAbsence run key first last → run.TapReadable ∧ JumpsOnce (run.packetStream key) first) := by
  constructor
  · rintro ⟨hread, hjumps⟩
    obtain ⟨evidence, hevidence⟩ := exists_evidence_iff.mpr hread
    have hpackets := rtpPacketObservations_eq_ok_iff.mpr ⟨hread.packets, rfl⟩
    have honce := (skippedOnce_iff hspan (sequenceNumber_mem_packetStream hpackets key)).mpr hjumps
    exact ⟨evidence, hevidence, truthful_of_skippedOnce hpackets hevidence key honce⟩
  · rintro hstart ⟨evidence, hevidence, htruthful⟩
    have hread := exists_evidence_iff.mp ⟨evidence, hevidence⟩
    have hpackets := rtpPacketObservations_eq_ok_iff.mpr ⟨hread.packets, rfl⟩
    have hnumbers := sequenceNumber_mem_packetStream hpackets key
    exact ⟨hread, (skippedOnce_iff hspan hnumbers).mp
      (skippedOnce_of_counted hpackets hevidence key hspan hnumbers hstart htruthful)⟩

/-- The stream of the packets of `packetEvent`. -/
def legA : String × RtpDirection × String := ("leg-a", .received, "control_plane_wall")

/-- A run whose second packet arrives last. -/
def lateRun : StoredRun :=
  eventRun [packetEvent "packet-1" 900 1, packetEvent "packet-3" 920 3, packetEvent "packet-2" 940 2]

/-- No number of the late run is absent, and still its gap has high confidence. -/
theorem late_packet_reported :
    let packets := [packetAt "packet-1" 900 1 0, packetAt "packet-3" 920 3 1,
      packetAt "packet-2" 940 2 2]
    let gap := discontinuity [] 0 (packetAt "packet-1" 900 1 0) (packetAt "packet-3" 920 3 1)
      .sequenceGap
    rtpPacketObservations lateRun = .ok packets ∧
      rtpPacketDiscontinuityEvidence lateRun = .ok [gap] ∧
      discontinuityFindings lateRun = .ok [(.high, ["rtp-packet-discontinuity:0:observed"])] ∧
      Spans (packetsOf legA packets) 1 3 ∧
      ¬ GapsTruthful (packetsOf legA packets) 1 3 (gapsOf legA [gap]) := by
  intro packets gap
  have hspan : Spans (packetsOf legA packets) 1 3 :=
    ⟨by decide +kernel, by decide +kernel, by decide +kernel, by decide⟩
  refine ⟨by decide +kernel, by decide +kernel, by decide +kernel, hspan, fun h => ?_⟩
  have hmem : gap ∈ gapsOf legA [gap] := by decide +kernel
  obtain ⟨n, hn, hbetween, hnot⟩ := h.claimed gap hmem
  have hrange := mem_sequenceNumbers.mp hn
  -- the gap is from 1 to 3, and 2 arrives
  have htwo : n = 2 := by
    have h1 : gap.previous.sequenceNumber = 1 := rfl
    have h3 : sequenceDelta gap.previous gap.current = 2 := by decide +kernel
    unfold Between at hbetween
    rw [h1, h3] at hbetween
    omega
  exact hnot (htwo ▸ by decide +kernel)

/-- The gap of the tapped run, over the wrap of the sequence numbers, is about the one number
that is absent. -/
theorem gaps_truthful_tapped :
    tappedRun.TapReadable ∧ JumpsOnce (tappedRun.packetStream legA) 65535 ∧
      ReportsAbsence tappedRun legA 65535 2 := by
  have hspan : Spans (tappedRun.packetStream legA) 65535 2 :=
    ⟨by decide +kernel, by decide +kernel, by decide +kernel, by decide⟩
  have hevidence : rtpPacketDiscontinuityEvidence tappedRun =
      .ok [discontinuity [healthOfSecond "health-1" 1000 0 3] 0 (packetAt "packet-2" 920 0 1)
        (packetAt "packet-3" 960 2 2) .sequenceGap] := by
    decide +kernel
  have hread := exists_evidence_iff.mp ⟨_, hevidence⟩
  have hpackets := rtpPacketObservations_eq_ok_iff.mpr ⟨hread.packets, rfl⟩
  have hjumps := jumpsOnce_of_inOrder hspan (by decide +kernel)
    (sequenceNumber_mem_packetStream hpackets legA)
  have habsence := (gaps_truthful_iff tappedRun legA hspan).1 ⟨hread, hjumps⟩
  have hstart : (tappedRun.packetStream legA).head?.map RtpPacketObservationEvidence.sequenceNumber =
      some 65535 := by
    decide +kernel
  exact ⟨hread, ((gaps_truthful_iff tappedRun legA hspan).2 hstart habsence).2, habsence⟩

end VoxBench.ControlPlane
