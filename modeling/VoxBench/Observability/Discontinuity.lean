import VoxBench.Lib.Argmax
import VoxBench.Media.Resampling
import VoxBench.Observability.Observer
import Mathlib.Data.Prod.Lex

/-!
# Discontinuities and chunks

The detector compares every sample with the sample of its channel in the frame before. At
the start of a chunk the frame before is the last one of the audio so far, which the observer
carries from call to call, past empty chunks. The suspicious steps of a stream are then those
of its chunks, and the strongest of them is the strongest of what the chunks report.

## Main definitions

* `suspiciousDeltas samples channels previousSamples` — all of them, in order.
* `strongest` — by magnitude, then the earliest frame, then the lowest channel.
* `scan` — the chunks of a stream one after another, with what is found in them.

## Main results

* `strongest_scan` — chunks do not matter.
-/

namespace VoxBench.Observability

open VoxBench.Lib VoxBench.Media

/-! ## All suspicious steps -/

/-- The channels of the frames, frame by frame. -/
def positions (frames channels : ℕ) : List (ℕ × ℕ) :=
  (List.range frames).flatMap fun frameOffset =>
    (List.range channels).map fun channel => (frameOffset, channel)

/-- The sample that a position is compared with. -/
def previousSample (samples : List ℤ) (channels : ℕ) (previousSamples : Option (List ℤ))
    (p : ℕ × ℕ) : Option ℤ :=
  if p.1 ≠ 0 then some (samples.getD ((p.1 - 1) * channels + p.2) 0)
  else previousSamples.map fun frame => frame.getD p.2 0

/-- The step to a position, when it is suspicious. -/
def deltaAt (samples : List ℤ) (channels : ℕ) (previousSamples : Option (List ℤ)) (p : ℕ × ℕ) :
    Option (ℕ × ℚ × ℕ) :=
  ((previousSample samples channels previousSamples p).bind fun previous =>
    suspiciousDelta previous (samples.getD (p.1 * channels + p.2) 0)).map fun magnitude =>
      (p.1, magnitude, p.2)

def suspiciousDeltas (samples : List ℤ) (channels : ℕ) (previousSamples : Option (List ℤ)) :
    List (ℕ × ℚ × ℕ) :=
  (positions (samples.length / channels) channels).filterMap
    (deltaAt samples channels previousSamples)

/-- The order of findings: frame offset, magnitude, channel. -/
def rank (found : ℕ × ℚ × ℕ) : ℚ ×ₗ ℕᵒᵈ ×ₗ ℕᵒᵈ :=
  toLex (found.2.1, toLex (OrderDual.toDual found.1, OrderDual.toDual found.2.2))

/-- The largest magnitude; among equals the earliest frame, and in it the lowest channel. -/
def strongest (found : List (ℕ × ℚ × ℕ)) : Option (ℕ × ℚ × ℕ) := found.argmax rank

theorem rank_lt_rank_iff {a b : ℕ × ℚ × ℕ} :
    rank a < rank b ↔
      a.2.1 < b.2.1 ∨ a.2.1 = b.2.1 ∧ (b.1 < a.1 ∨ b.1 = a.1 ∧ b.2.2 < a.2.2) := by
  simp only [rank, Prod.Lex.toLex_lt_toLex, OrderDual.toDual_lt_toDual, OrderDual.toDual_inj,
    eq_comm]

theorem pairwise_positions (frames channels : ℕ) :
    (positions frames channels).Pairwise (Prod.Lex (· < ·) (· < ·)) := by
  unfold positions
  rw [List.pairwise_flatMap]
  constructor
  · intro frameOffset _
    rw [List.pairwise_map]
    exact List.pairwise_lt_range.imp fun h => Prod.Lex.right _ h
  · refine List.pairwise_lt_range.imp ?_
    intro f g hlt p hp q hq
    obtain ⟨_, -, rfl⟩ := List.mem_map.mp hp
    obtain ⟨_, -, rfl⟩ := List.mem_map.mp hq
    exact Prod.Lex.left _ _ hlt

theorem deltaAt_position {samples : List ℤ} {channels : ℕ} {previousSamples : Option (List ℤ)}
    {p : ℕ × ℕ} {found : ℕ × ℚ × ℕ} (h : deltaAt samples channels previousSamples p = some found) :
    (found.1, found.2.2) = p := by
  obtain ⟨magnitude, -, rfl⟩ := Option.map_eq_some_iff.mp h
  rfl

/-- Later findings are at later positions, so that ties need no comparison. -/
theorem argmax_suspiciousDeltas (samples : List ℤ) (channels : ℕ)
    (previousSamples : Option (List ℤ)) :
    (suspiciousDeltas samples channels previousSamples).argmax (fun found => found.2.1) =
      strongest (suspiciousDeltas samples channels previousSamples) := by
  apply argmax_congr
  rw [suspiciousDeltas, List.pairwise_filterMap]
  refine (pairwise_positions _ _).imp ?_
  intro p q hpq a ha b hb
  have hp := deltaAt_position ha
  have hq := deltaAt_position hb
  subst hp hq
  rw [rank_lt_rank_iff]
  rw [Prod.lex_def] at hpq
  constructor
  · exact .inl
  · rintro (hlt | ⟨-, hlt⟩)
    · exact hlt
    · omega

/-- The detector returns the strongest of all. -/
theorem detect_eq_strongest (samples : List ℤ) (channels : ℕ)
    (previousSamples : Option (List ℤ)) :
    detectPcmS16leDiscontinuity samples channels previousSamples =
      strongest (suspiciousDeltas samples channels previousSamples) := by
  rw [← argmax_suspiciousDeltas, List.argmax, suspiciousDeltas, List.foldl_filterMap]
  unfold detectPcmS16leDiscontinuity
  apply List.foldl_ext
  intro best p _
  unfold deltaAt previousSample
  dsimp only
  cases hdelta : (if p.1 ≠ 0 then some (samples.getD ((p.1 - 1) * channels + p.2) 0)
      else previousSamples.map fun frame => frame.getD p.2 0).bind fun previous =>
        suspiciousDelta previous (samples.getD (p.1 * channels + p.2) 0) with
  | none => rfl
  | some magnitude => cases best <;> simp [List.argAux]

/-! ## Two parts of a stream -/

/-- A finding of a part that begins so many frames later. -/
def shift (frames : ℕ) (found : ℕ × ℚ × ℕ) : ℕ × ℚ × ℕ := (frames + found.1, found.2)

@[simp] theorem shift_zero (found : ℕ × ℚ × ℕ) : shift 0 found = found := by simp [shift]

theorem strongest_map_shift (frames : ℕ) (found : List (ℕ × ℚ × ℕ)) :
    strongest (found.map (shift frames)) = (strongest found).map (shift frames) := by
  apply argmax_map
  intro a b
  simp [rank_lt_rank_iff, shift]

theorem positions_add (m n channels : ℕ) :
    positions (m + n) channels =
      positions m channels ++ (positions n channels).map fun p => (m + p.1, p.2) := by
  simp only [positions, List.range_add, List.flatMap_append, List.flatMap_map, List.map_flatMap,
    List.map_map, Function.comp_def]

/-- The last frame of some samples. -/
def finalFrame (samples : List ℤ) (channels : ℕ) : List ℤ :=
  samples.drop (samples.length - channels)

section Append

variable {xs ys : List ℤ} {channels m n : ℕ} {previousSamples : Option (List ℤ)}

theorem getD_append_left {i : ℕ} (h : i < xs.length) : (xs ++ ys).getD i 0 = xs.getD i 0 := by
  rw [List.getD_eq_getElem?_getD, List.getD_eq_getElem?_getD, List.getElem?_append_left h]

theorem getD_append_right (i : ℕ) : (xs ++ ys).getD (xs.length + i) 0 = ys.getD i 0 := by
  rw [List.getD_eq_getElem?_getD, List.getD_eq_getElem?_getD,
    List.getElem?_append_right (Nat.le_add_right _ _), Nat.add_sub_cancel_left]

/-- The frame before the second part. -/
def framesBefore (xs : List ℤ) (channels : ℕ) (previousSamples : Option (List ℤ)) :
    Option (List ℤ) :=
  if xs = [] then previousSamples else some (finalFrame xs channels)

theorem mem_positions {p : ℕ × ℕ} : p ∈ positions m channels ↔ p.1 < m ∧ p.2 < channels := by
  simp only [positions, List.mem_flatMap, List.mem_range, List.mem_map, Prod.ext_iff]
  constructor
  · rintro ⟨f, hf, c, hc, rfl, rfl⟩
    exact ⟨hf, hc⟩
  · rintro ⟨hf, hc⟩
    exact ⟨p.1, hf, p.2, hc, rfl, rfl⟩

/-- The sample of a position lies in its frame. -/
theorem index_lt {p : ℕ × ℕ} (h : p ∈ positions m channels) : p.1 * channels + p.2 < m * channels := by
  obtain ⟨hframe, hchannel⟩ := mem_positions.mp h
  have hmul := Nat.mul_le_mul_right channels (Nat.succ_le_of_lt hframe)
  rw [Nat.succ_mul] at hmul
  omega

theorem deltaAt_append_left (hxs : xs.length = m * channels) {p : ℕ × ℕ}
    (hp : p ∈ positions m channels) :
    deltaAt (xs ++ ys) channels previousSamples p = deltaAt xs channels previousSamples p := by
  obtain ⟨hframe, hchannel⟩ := mem_positions.mp hp
  have hcurrent := index_lt hp
  have hprevious : (p.1 - 1) * channels + p.2 < m * channels :=
    @index_lt _ _ (p.1 - 1, p.2) (mem_positions.mpr ⟨by omega, hchannel⟩)
  rw [← hxs] at hcurrent hprevious
  unfold deltaAt previousSample
  rw [getD_append_left hcurrent, getD_append_left hprevious]

theorem deltaAt_append_right (hxs : xs.length = m * channels) {p : ℕ × ℕ}
    (hp : p ∈ positions n channels) :
    deltaAt (xs ++ ys) channels previousSamples (m + p.1, p.2) =
      (deltaAt ys channels (framesBefore xs channels previousSamples) p).map (shift m) := by
  obtain ⟨-, hchannel⟩ := mem_positions.mp hp
  have hcurrent : (xs ++ ys).getD ((m + p.1) * channels + p.2) 0 =
      ys.getD (p.1 * channels + p.2) 0 := by
    rw [Nat.add_mul, Nat.add_assoc, ← hxs, getD_append_right]
  have hprevious : previousSample (xs ++ ys) channels previousSamples (m + p.1, p.2) =
      previousSample ys channels (framesBefore xs channels previousSamples) p := by
    simp only [previousSample, framesBefore, finalFrame]
    by_cases hfirst : p.1 = 0
    · by_cases hm : m = 0
      · -- no first part
        have hempty : xs = [] := List.eq_nil_of_length_eq_zero (by rw [hxs, hm, Nat.zero_mul])
        simp [hfirst, hm, hempty]
      · have hempty : xs ≠ [] := by
          intro hnil
          rw [hnil, List.length_nil, eq_comm, Nat.mul_eq_zero] at hxs
          omega
        have hlast : (m - 1) * channels + channels = m * channels := by
          rw [← Nat.succ_mul, Nat.succ_eq_add_one, Nat.sub_add_cancel (by omega)]
        have hdrop : (xs.drop (xs.length - channels)).getD p.2 0 =
            xs.getD ((m - 1) * channels + p.2) 0 := by
          rw [List.getD_eq_getElem?_getD, List.getD_eq_getElem?_getD, List.getElem?_drop, hxs,
            ← hlast, Nat.add_sub_cancel]
        rw [if_pos (by omega), if_neg (by omega), if_neg hempty, Option.map_some, hdrop, hfirst,
          Nat.add_zero, getD_append_left (by omega)]
    · have hsub : m + p.1 - 1 = m + (p.1 - 1) := by omega
      rw [if_pos (by omega), if_pos hfirst, hsub, Nat.add_mul, Nat.add_assoc, ← hxs,
        getD_append_right]
  unfold deltaAt
  rw [hprevious, hcurrent, Option.map_map]
  rfl

theorem suspiciousDeltas_append (hchannels : 0 < channels) (hxs : xs.length = m * channels) :
    suspiciousDeltas (xs ++ ys) channels previousSamples =
      suspiciousDeltas xs channels previousSamples ++
        (suspiciousDeltas ys channels (framesBefore xs channels previousSamples)).map
          (shift m) := by
  have hm : xs.length / channels = m := by rw [hxs, Nat.mul_div_cancel _ hchannels]
  have hsum : (xs ++ ys).length / channels = m + ys.length / channels := by
    rw [List.length_append, hxs, Nat.add_comm, Nat.add_mul_div_right _ _ hchannels, Nat.add_comm]
  unfold suspiciousDeltas
  rw [hsum, hm, positions_add, List.filterMap_append, List.filterMap_map, List.map_filterMap]
  congr 1
  · exact List.filterMap_congr fun p hp => deltaAt_append_left hxs hp
  · exact List.filterMap_congr fun p hp => deltaAt_append_right hxs hp

end Append

/-! ## Chunks -/

/-- What is carried from chunk to chunk: the last frame, the frames so far, and what the
chunks have reported, at stream offset. -/
structure ChunkScan where
  carry : List ℤ := []
  frames : ℕ := 0
  found : List (ℕ × ℚ × ℕ) := []
  deriving DecidableEq, Repr

/-- A carried frame as `previous_samples`. -/
def asPreviousSamples (carry : List ℤ) : Option (List ℤ) :=
  (some carry).filter fun frame => frame ≠ []

def ChunkScan.next (channels : ℕ) (s : ChunkScan) (chunk : List UInt8) : ChunkScan where
  carry := if chunk ≠ [] then pcmS16leFinalFrame chunk channels else s.carry
  frames := s.frames + chunk.length / 2 / channels
  found := s.found ++ ((detectPcmS16leDiscontinuity (unpackSamples chunk) channels
    (asPreviousSamples s.carry)).map (shift s.frames)).toList

def scan (channels : ℕ) (chunks : List (List UInt8)) : ChunkScan :=
  chunks.foldl (ChunkScan.next channels) {}

@[simp] theorem scan_nil (channels : ℕ) : scan channels [] = {} := rfl

theorem scan_snoc (channels : ℕ) (chunks : List (List UInt8)) (chunk : List UInt8) :
    scan channels (chunks ++ [chunk]) = (scan channels chunks).next channels chunk :=
  List.foldl_concat ..

/-- A chunk of whole frames. -/
def WholeFrames (channels : ℕ) (chunk : List UInt8) : Prop := chunk.length % (2 * channels) = 0

instance decidableWholeFrames (channels : ℕ) (chunk : List UInt8) :
    Decidable (WholeFrames channels chunk) :=
  inferInstanceAs (Decidable (_ = _))

section Whole

variable {channels : ℕ} {chunk : List UInt8} {chunks : List (List UInt8)}

theorem WholeFrames.even (h : WholeFrames channels chunk) : chunk.length % 2 = 0 :=
  Nat.mod_eq_zero_of_dvd ((Nat.dvd_mul_right 2 channels).trans (Nat.dvd_of_mod_eq_zero h))

theorem WholeFrames.length_samples (h : WholeFrames channels chunk) :
    (unpackSamples chunk).length = chunk.length / 2 / channels * channels := by
  rw [length_unpackSamples, Nat.div_mul_cancel]
  exact (Nat.dvd_div_iff_mul_dvd (Nat.dvd_of_mod_eq_zero h.even)).mpr (Nat.dvd_of_mod_eq_zero h)

theorem unpackSamples_drop (pcm : List UInt8) (n : ℕ) :
    unpackSamples (pcm.drop (2 * n)) = (unpackSamples pcm).drop n := by
  induction n generalizing pcm with
  | zero => rfl
  | succ n ih =>
      match pcm with
      | [] => rfl
      | [_] => simp [Nat.mul_succ, unpackSamples]
      | low :: high :: pcm =>
          rw [Nat.mul_succ, List.drop_succ_cons, List.drop_succ_cons, ih]
          rfl

theorem WholeFrames.pcmS16leFinalFrame_eq (h : WholeFrames channels chunk) :
    pcmS16leFinalFrame chunk channels = finalFrame (unpackSamples chunk) channels := by
  have hlength : chunk.length - 2 * channels = 2 * (chunk.length / 2 - channels) := by
    have := h.even
    omega
  rw [pcmS16leFinalFrame, hlength, unpackSamples_drop, finalFrame, length_unpackSamples]

theorem WholeFrames.unpackSamples_eq_nil_iff (h : WholeFrames channels chunk) :
    unpackSamples chunk = [] ↔ chunk = [] := by
  have heven := h.even
  rw [← List.length_eq_zero_iff, ← List.length_eq_zero_iff, length_unpackSamples]
  omega

theorem finalFrame_ne_nil (hchannels : 0 < channels) {samples : List ℤ} (h : samples ≠ []) :
    finalFrame samples channels ≠ [] := by
  have hpos := List.length_pos_iff.mpr h
  rw [finalFrame, ← List.length_pos_iff, List.length_drop]
  omega

/-- The last frame of two parts, the second of whole frames. -/
theorem finalFrame_append {xs ys : List ℤ} (h : channels ≤ ys.length) :
    finalFrame (xs ++ ys) channels = finalFrame ys channels := by
  unfold finalFrame
  rw [List.length_append, Nat.add_sub_assoc h, List.drop_append]
  simp

/-- After some chunks the scan carries the last frame of all of them and their number of
frames, and the strongest finding is the one in all of them. -/
structure ScanInv (channels : ℕ) (samples : List ℤ) (s : ChunkScan) : Prop where
  carry : asPreviousSamples s.carry = framesBefore samples channels none
  frames : samples.length = s.frames * channels
  found : strongest s.found = strongest (suspiciousDeltas samples channels none)

theorem scanInv_next (hchannels : 0 < channels) {samples : List ℤ} {s : ChunkScan}
    (hs : ScanInv channels samples s) (hchunk : WholeFrames channels chunk) :
    ScanInv channels (samples ++ unpackSamples chunk) (s.next channels chunk) := by
  have hsplit := @suspiciousDeltas_append samples (unpackSamples chunk) channels s.frames none
    hchannels hs.frames
  constructor
  · by_cases hempty : chunk = []
    · have hnext : (s.next channels chunk).carry = s.carry := by simp [ChunkScan.next, hempty]
      rw [hnext, hs.carry, hempty]
      simp [unpackSamples]
    · -- the last frame is one of the chunk
      have hsamples := mt hchunk.unpackSamples_eq_nil_iff.mp hempty
      have hlong : channels ≤ (unpackSamples chunk).length := by
        have hpos := List.length_pos_iff.mpr hsamples
        rw [hchunk.length_samples] at hpos ⊢
        exact Nat.le_mul_of_pos_left _ (Nat.pos_of_mul_pos_right hpos)
      have hnext : (s.next channels chunk).carry = finalFrame (unpackSamples chunk) channels := by
        rw [← hchunk.pcmS16leFinalFrame_eq]
        exact if_pos hempty
      rw [hnext, framesBefore, if_neg (by simp [hsamples]), finalFrame_append hlong,
        asPreviousSamples, Option.filter_some_pos]
      simpa using finalFrame_ne_nil hchannels hsamples
  · rw [List.length_append, hs.frames, hchunk.length_samples, ← Nat.add_mul]
    rfl
  · rw [hsplit, ← hs.carry, ChunkScan.next, detect_eq_strongest, ← strongest_map_shift]
    unfold strongest
    rw [argmax_append, argmax_append, argmax_toList]
    exact congrArg (stronger rank · _) hs.found

theorem scanInv_scan (hchannels : 0 < channels) (h : ∀ chunk ∈ chunks, WholeFrames channels chunk) :
    ScanInv channels (chunks.map unpackSamples).flatten (scan channels chunks) := by
  induction chunks using List.reverseRecOn with
  | nil => exact ⟨rfl, by simp, by simp [suspiciousDeltas, positions]⟩
  | append_singleton chunks chunk ih =>
      have hchunks := ih fun c hc => h c (List.mem_append_left _ hc)
      have hchunk := h chunk (List.mem_append_right _ List.mem_cons_self)
      have hnext := scanInv_next hchannels hchunks hchunk
      rw [← scan_snoc] at hnext
      simpa using hnext

/-- The strongest of what the chunks report is what one call reports. -/
theorem strongest_scan (hchannels : 0 < channels)
    (h : ∀ chunk ∈ chunks, WholeFrames channels chunk) :
    strongest (scan channels chunks).found =
      detectPcmS16leDiscontinuity (unpackSamples chunks.flatten) channels none := by
  rw [(scanInv_scan hchannels h).found, detect_eq_strongest,
    unpackSamples_flatten fun chunk hchunk => (h chunk hchunk).even]

end Whole

end VoxBench.Observability
