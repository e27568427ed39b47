import VoxBench.Telephony.Bridge

/-!
# The truncated position

A barge-in tells the provider how much of the current item was heard. The positions of an
item leave the producer in increasing order and pass the queue, which may drop some, to the
pump. Frames of items that were left may still be on their way, but all of them are ahead of
the frames of the current item.

## Main definitions

* `Bridge.track` — the positions that were played, and after them those on their way.
* `Tracked` — what the positions of the session have to do with the track.

## Main results

* `truncate_safe` — the position of a barge-in is one of the current item, between what was
  played and what was written.
-/

namespace VoxBench.Telephony

open VoxBench.Lib VoxBench.ControlPlane

/-! ## The track -/

/-- The frame that the pump has taken. -/
def PumpPhase.frame? : PumpPhase → Option TracedFrame
  | .writing frame => some frame
  | .playing frame => some frame
  | .idle | .ended => none

namespace Bridge

variable (s : Bridge)

/-- The frames between the packet buffer and their end. -/
def pipeline : List TracedFrame :=
  s.pump.frame?.toList ++ s.playback.frames ++ s.producer.frame?.toList

/-- The positions played since the last barge-in and those that may still be played. -/
def track : List PlaybackPosition :=
  s.playedPositions ++ s.pipeline.filterMap TracedFrame.position

/-- The position after which an item has been written, 0 if it has not been. -/
def largestWritten (item : String × ℤ) : ℤ :=
  (((s.writtenPositions.filter fun p => p.item = item).map
    PlaybackPosition.audioEndMs).max?).getD 0

/-- The last position of an item that was played since the last barge-in. -/
def lastPlayed (item : String × ℤ) : Option PlaybackPosition :=
  (s.playedPositions.filter fun p => p.item = item).getLast?

end Bridge

/-- After a position of the item there are only later positions of the item. -/
def Follows (item : String × ℤ) (x y : PlaybackPosition) : Prop :=
  x.item = item → y.item = item ∧ x.audioEndMs < y.audioEndMs

/-- The provider item of a step, if it is a message with audio. -/
def BridgeStep.item : BridgeStep → Option (String × ℤ)
  | .receiveAudio message _ _ => message.item
  | _ => none

/-- The provider comes back to an item that was left. -/
def ItemReturns (s : Bridge) (l : BridgeStep) : Prop :=
  s.producer = .receiving ∧ l.item.any (· ∈ s.left)

instance decidableItemReturns (s : Bridge) (l : BridgeStep) : Decidable (ItemReturns s l) :=
  inferInstanceAs (Decidable (_ ∧ _))

/-! ## Invariants -/

/-- The current item and its positions. -/
structure ItemTracked (s : Bridge) (item : String × ℤ) : Prop where
  fresh : item ∉ s.left
  order : s.track.Pairwise (Follows item)
  enqueued : ∀ x ∈ s.track, x.item = item → ∃ y, s.audio.positions.lastEnqueued = some y ∧
    y.item = item ∧ x.audioEndMs ≤ y.audioEndMs
  last : ∀ x, s.lastPlayed item = some x → s.audio.positions.last = some x
  inflight : ∀ y, s.audio.positions.inflight = some y → ∀ x ∈ s.playedPositions,
    Follows item x y
  playing : ∀ f y, s.pump = .playing f → f.position = some y → y.item = item →
    s.audio.positions.inflight = some y

/-- The positions that the session remembers of the frames. -/
def Bridge.remembered (s : Bridge) : List PlaybackPosition :=
  s.audio.positions.inflight.toList ++ s.audio.positions.last.toList

/-- Every position is of the current item or of one that was left. -/
structure Tracked (s : Bridge) : Prop where
  known : ∀ x ∈ s.track ++ s.remembered,
    x.item ∈ s.left ∨ s.audio.positions.currentItem = some x.item
  positive : ∀ x ∈ s.track ++ s.writtenPositions, 0 < x.audioEndMs
  enqueuedPositive : ∀ x, s.audio.positions.lastEnqueued = some x → 0 < x.audioEndMs
  written : ∀ x ∈ s.remembered, x ∈ s.writtenPositions
  playing : ∀ f y, s.pump = .playing f → f.position = some y → y ∈ s.writtenPositions
  item : ∀ item, s.audio.positions.currentItem = some item → ItemTracked s item

/-! ## Steps that change no position -/

section Steps

variable {env : BridgeEnv} {s s' : Bridge}

/-- Frames may leave the pipeline, and positions may stay as they are. -/
theorem Tracked.of_sublist (h : Tracked s) (htrack : s'.track.Sublist s.track)
    (hplayed : s'.playedPositions = s.playedPositions)
    (hpositions : s'.audio.positions = s.audio.positions) (hleft : s'.left = s.left)
    (hwritten : s'.writtenPositions = s.writtenPositions)
    (hplaying : ∀ f y, s'.pump = .playing f → f.position = some y → s.pump = .playing f) :
    Tracked s' := by
  have hremembered : s'.remembered = s.remembered := by
    unfold Bridge.remembered
    rw [hpositions]
  have hlast (item : String × ℤ) : s'.lastPlayed item = s.lastPlayed item := by
    unfold Bridge.lastPlayed
    rw [hplayed]
  constructor
  · intro x hx
    rw [hleft, hpositions]
    rw [hremembered] at hx
    exact h.known x ((htrack.append_right _).subset hx)
  · intro x hx
    rw [hwritten] at hx
    exact h.positive x ((htrack.append_right _).subset hx)
  · rw [hpositions]
    exact h.enqueuedPositive
  · rw [hremembered, hwritten]
    exact h.written
  · intro f y hf hy
    rw [hwritten]
    exact h.playing f y (hplaying f y hf hy) hy
  · intro item hitem
    rw [hpositions] at hitem
    have hi := h.item item hitem
    constructor
    · rw [hleft]
      exact hi.fresh
    · exact hi.order.sublist htrack
    · intro x hx
      rw [hpositions]
      exact hi.enqueued x (htrack.subset hx)
    · intro x hx
      rw [hpositions]
      exact hi.last x (hlast item ▸ hx)
    · rw [hpositions, hplayed]
      exact hi.inflight
    · intro f y hf hy
      rw [hpositions]
      exact hi.playing f y (hplaying f y hf hy) hy

theorem track_sublist (hplayed : s'.playedPositions = s.playedPositions)
    (hpipeline : (s'.pipeline.filterMap TracedFrame.position).Sublist
      (s.pipeline.filterMap TracedFrame.position)) : s'.track.Sublist s.track := by
  unfold Bridge.track
  rw [hplayed]
  exact hpipeline.append_left _

/-- The producer loses a frame or keeps it. -/
theorem Tracked.of_producer (h : Tracked s) (hplayback : s'.playback.frames = s.playback.frames)
    (hpump : s'.pump = s.pump) (hplayed : s'.playedPositions = s.playedPositions)
    (hframe : ∀ f ∈ s'.producer.frame?, f ∈ s.producer.frame?)
    (hpositions : s'.audio.positions = s.audio.positions) (hleft : s'.left = s.left)
    (hwritten : s'.writtenPositions = s.writtenPositions) : Tracked s' := by
  apply h.of_sublist _ hplayed hpositions hleft hwritten
  · rw [hpump]
    exact fun f y hf _ => hf
  · apply track_sublist hplayed
    apply List.Sublist.filterMap
    unfold Bridge.pipeline
    rw [hplayback, hpump]
    apply List.Sublist.append_left
    cases hf : s'.producer.frame? with
    | none => simp
    | some f =>
        have hmem := hframe f hf
        rw [Option.mem_def] at hmem
        simp [hmem]

/-! ## The current item -/

/-- A new item has no frames yet. -/
theorem Tracked.setItem (h : Tracked s) {item : Option (String × ℤ)}
    (hfresh : ∀ i, item = some i → i ∉ s.left) : Tracked (s.setItem item) := by
  unfold Bridge.setItem
  by_cases hne : item ≠ s.audio.positions.currentItem
  · rw [if_pos hne]
    have hknown : ∀ x ∈ s.track ++ s.remembered,
        x.item ∈ s.left ++ s.audio.positions.currentItem.toList := by
      intro x hx
      rcases h.known x hx with hleft | hcurrent
      · exact List.mem_append_left _ hleft
      · simp [hcurrent]
    have hpositions : s.audio.positions.setItem item =
        { s.audio.positions with lastEnqueued := none, currentItem := item } := if_pos hne
    constructor
    · intro x hx
      rw [Bridge.remembered] at hx
      rw [hpositions] at hx ⊢
      exact .inl (hknown x hx)
    · exact h.positive
    · intro x hx
      rw [hpositions] at hx
      cases hx
    · rw [Bridge.remembered, hpositions]
      exact h.written
    · exact h.playing
    · intro i hi
      rw [hpositions] at hi
      dsimp only at hi
      have hi' : i ∉ s.left ++ s.audio.positions.currentItem.toList := by
        intro hmem
        rcases List.mem_append.mp hmem with hmem | hmem
        · exact hfresh i hi hmem
        · have hcurrent : s.audio.positions.currentItem = some i := by simpa using hmem
          exact hne (hi.trans hcurrent.symm)
      have hother : ∀ x ∈ s.track, x.item ≠ i := by
        rintro x hx rfl
        exact hi' (hknown x (List.mem_append_left _ hx))
      have hplayed : ∀ x ∈ s.playedPositions, x.item ≠ i := fun x hx =>
        hother x (List.mem_append_left _ hx)
      constructor
      · exact hi'
      · apply List.pairwise_of_forall_mem_list
        intro x hx y _ hxi
        exact absurd hxi (hother x hx)
      · intro x hx hxi
        exact absurd hxi (hother x hx)
      · intro x hx
        have hmem := List.mem_of_getLast? hx
        rw [List.mem_filter] at hmem
        exact absurd (by simpa using hmem.2) (hplayed x hmem.1)
      · intro y _ x hx hxi
        exact absurd hxi (hplayed x hx)
      · intro f y hf hy hyi
        refine absurd hyi (hother y (List.mem_append_right _ (List.mem_filterMap.mpr ⟨f, ?_, hy⟩)))
        replace hf : s.pump = .playing f := hf
        simp [Bridge.pipeline, hf, PumpPhase.frame?]
  · rw [if_neg hne]
    exact h

/-- The next position of an item is after the one before. -/
theorem next_spec {p : PlaybackPositions} {item : String × ℤ} (hcurrent : p.currentItem = some item)
    (hpositive : ∀ x, p.lastEnqueued = some x → 0 < x.audioEndMs) :
    ∃ y, p.next = (some y, { p with lastEnqueued := some y }) ∧ y.item = item ∧
      0 < y.audioEndMs ∧
      ∀ x, p.lastEnqueued = some x → x.item = item → x.audioEndMs < y.audioEndMs := by
  unfold PlaybackPositions.next
  rw [hcurrent]
  refine ⟨_, rfl, rfl, ?_, ?_⟩
  · cases hlast : p.lastEnqueued with
    | none => simp
    | some x =>
        have hx := hpositive x hlast
        dsimp only
        split <;> omega
  · intro x hx hxi
    simp [hx, hxi]

/-- A new position goes to the end of the track. -/
theorem Tracked.enqueue (h : Tracked s) {item : String × ℤ} {y : PlaybackPosition}
    (hcurrent : s.audio.positions.currentItem = some item) (hy : y.item = item)
    (hpositive : 0 < y.audioEndMs)
    (hlarger : ∀ x, s.audio.positions.lastEnqueued = some x → x.item = item →
      x.audioEndMs < y.audioEndMs) (htrack : s'.track = s.track ++ [y])
    (hplayed : s'.playedPositions = s.playedPositions)
    (hpositions : s'.audio.positions = { s.audio.positions with lastEnqueued := some y })
    (hleft : s'.left = s.left) (hwritten : s'.writtenPositions = s.writtenPositions)
    (hpump : s'.pump = s.pump) : Tracked s' := by
  have hremembered : s'.remembered = s.remembered := by
    unfold Bridge.remembered
    rw [hpositions]
  have hi := h.item item hcurrent
  constructor
  · intro x hx
    rw [hleft, hpositions]
    rw [htrack, hremembered, List.append_assoc] at hx
    rcases List.mem_append.mp hx with hx | hx
    · exact h.known x (List.mem_append_left _ hx)
    · rcases List.mem_append.mp hx with hx | hx
      · obtain rfl := List.mem_singleton.mp hx
        exact .inr (hcurrent.trans (congrArg some hy.symm))
      · exact h.known x (List.mem_append_right _ hx)
  · intro x hx
    rw [htrack, hwritten, List.append_assoc] at hx
    rcases List.mem_append.mp hx with hx | hx
    · exact h.positive x (List.mem_append_left _ hx)
    · rcases List.mem_append.mp hx with hx | hx
      · obtain rfl := List.mem_singleton.mp hx
        exact hpositive
      · exact h.positive x (List.mem_append_right _ hx)
  · intro x hx
    rw [hpositions] at hx
    obtain rfl : y = x := by simpa using hx
    exact hpositive
  · rw [hremembered, hwritten]
    exact h.written
  · rw [hpump, hwritten]
    exact h.playing
  · intro item' hitem'
    rw [hpositions] at hitem'
    obtain rfl : item = item' := by simpa [hcurrent] using hitem'
    constructor
    · rw [hleft]
      exact hi.fresh
    · rw [htrack, List.pairwise_append]
      refine ⟨hi.order, List.pairwise_singleton _ _, ?_⟩
      intro x hx z hz hxi
      obtain rfl := List.mem_singleton.mp hz
      obtain ⟨last, hlast, hlasti, hle⟩ := hi.enqueued x hx hxi
      exact ⟨hy, hle.trans_lt (hlarger last hlast hlasti)⟩
    · intro x hx hxi
      rw [hpositions]
      refine ⟨y, rfl, hy, ?_⟩
      rw [htrack] at hx
      rcases List.mem_append.mp hx with hx | hx
      · obtain ⟨last, hlast, hlasti, hle⟩ := hi.enqueued x hx hxi
        exact hle.trans (hlarger last hlast hlasti).le
      · obtain rfl := List.mem_singleton.mp hx
        exact le_rfl
    · unfold Bridge.lastPlayed
      rw [hplayed, hpositions]
      exact hi.last
    · rw [hpositions, hplayed]
      exact hi.inflight
    · rw [hpump, hpositions]
      exact hi.playing

/-- Cutting a frame takes the next position, if an item is current. -/
theorem Tracked.pack (h : Tracked s) (hproducer : s.producer = .packing) (enqueuedAt : Datetime)
    (enqueuedMonotonic : ℚ) : Tracked (s.pack env enqueuedAt enqueuedMonotonic) := by
  have hfail (e : ProducerError) : Tracked (s.fail e) := by
    apply h.of_producer <;> try rfl
    simp [Bridge.fail, Bridge.endProducer, ProducerPhase.frame?]
  unfold Bridge.pack
  split
  · apply h.of_producer <;> try rfl
    simp [ProducerPhase.frame?]
  · dsimp only
    split
    · exact hfail _
    · split
      · -- the frame joins an empty hand
        cases hcurrent : s.audio.positions.currentItem with
        | none =>
            have hnext : s.audio.positions.next = (none, s.audio.positions) := by
              unfold PlaybackPositions.next
              rw [hcurrent]
            apply h.of_sublist
            · simp [Bridge.track, Bridge.pipeline, hproducer, ProducerPhase.frame?,
                TracedFrame.position, hnext]
            · rfl
            · dsimp only
              rw [hnext]
            · rfl
            · rfl
            · exact fun f y hf _ => hf
        | some item =>
            obtain ⟨y, hnext, hy, hpositive, hlarger⟩ := next_spec hcurrent h.enqueuedPositive
            refine h.enqueue hcurrent hy hpositive hlarger ?_ rfl ?_ rfl rfl rfl
            · simp [Bridge.track, Bridge.pipeline, hproducer, ProducerPhase.frame?,
                TracedFrame.position, hnext]
            · dsimp only
              rw [hnext]
      · exact hfail _
      · exact hfail _

/-! ## The pump and the barge-in -/

/-- The pump writes the first frame of the track. -/
theorem Tracked.written_next (h : Tracked s) {f : TracedFrame} (hpump : s.pump = .writing f)
    (nowMonotonic : ℚ) (now : Datetime) : Tracked (s.written f nowMonotonic now) := by
  have htrack : (s.written f nowMonotonic now).track = s.track := by
    simp [Bridge.track, Bridge.pipeline, Bridge.written, Bridge.observing, hpump,
      PumpPhase.frame?]
  have hpositions : (s.written f nowMonotonic now).audio.positions =
      s.audio.positions.started f.position nowMonotonic :=
    CallAudio.positions_markOutputStarted _ _ _ _
  have hplaying (f' : TracedFrame) : (s.written f nowMonotonic now).pump = .playing f' ↔ f = f' := by
    simp [Bridge.written]
  cases hf : f.position with
  | none =>
      rw [hf] at hpositions
      refine h.of_sublist (htrack ▸ List.Sublist.refl _) rfl hpositions rfl ?_ ?_
      · simp [Bridge.written, hf]
      · intro f' y hf' hy
        rw [← (hplaying f').mp hf', hf] at hy
        cases hy
  | some y =>
      rw [hf] at hpositions
      have hwritten : (s.written f nowMonotonic now).writtenPositions =
          s.writtenPositions ++ [y] := by
        simp [Bridge.written, hf]
      have hsplit : ∃ rest, s.track = s.playedPositions ++ y :: rest := by
        simp [Bridge.track, Bridge.pipeline, hpump, PumpPhase.frame?, hf]
      have hy : y ∈ s.track := by
        obtain ⟨rest, hrest⟩ := hsplit
        simp [hrest]
      have hremembered : (s.written f nowMonotonic now).remembered =
          y :: s.audio.positions.last.toList := by
        rw [Bridge.remembered, hpositions]
        rfl
      have hsub : ∀ x ∈ (s.written f nowMonotonic now).remembered,
          x = y ∨ x ∈ s.remembered := by
        intro x hx
        rw [hremembered] at hx
        exact (List.mem_cons.mp hx).imp_right (List.mem_append_right _)
      constructor
      · intro x hx
        rw [hpositions]
        rw [htrack] at hx
        rcases List.mem_append.mp hx with hx | hx
        · exact h.known x (List.mem_append_left _ hx)
        · rcases hsub x hx with rfl | hx
          · exact h.known x (List.mem_append_left _ hy)
          · exact h.known x (List.mem_append_right _ hx)
      · intro x hx
        rw [htrack, hwritten, ← List.append_assoc] at hx
        rcases List.mem_append.mp hx with hx | hx
        · exact h.positive x hx
        · obtain rfl := List.mem_singleton.mp hx
          exact h.positive x (List.mem_append_left _ hy)
      · rw [hpositions]
        exact h.enqueuedPositive
      · intro x hx
        rw [hwritten]
        rcases hsub x hx with rfl | hx
        · simp
        · exact List.mem_append_left _ (h.written x hx)
      · intro f' y' hf' hy'
        rw [← (hplaying f').mp hf', hf] at hy'
        obtain rfl := Option.some.inj hy'
        simp [hwritten]
      · intro item hitem
        rw [hpositions] at hitem
        have hi := h.item item hitem
        constructor
        · exact hi.fresh
        · rw [htrack]
          exact hi.order
        · rw [htrack, hpositions]
          exact hi.enqueued
        · rw [hpositions]
          exact hi.last
        · intro y' hy' x hx
          rw [hpositions] at hy'
          obtain rfl : y = y' := Option.some.inj hy'
          -- what was played is ahead of the frame on the track
          obtain ⟨rest, hrest⟩ := hsplit
          have horder := hi.order
          rw [hrest, List.pairwise_append] at horder
          exact horder.2.2 x hx y List.mem_cons_self
        · intro f' y' hf' hy' _
          rw [← (hplaying f').mp hf', hf] at hy'
          rw [hpositions, ← hy']
          rfl

/-- A position that the session takes over was in flight. -/
theorem played_spec {p : PlaybackPositions} {y : PlaybackPosition}
    (hplaying : p.currentItem = some y.item → p.inflight = some y) :
    p.played (some y) = p ∧ p.currentItem ≠ some y.item ∨
      p.played (some y) =
        { p with last := some y, inflight := none, inflightStartedAt := none } ∧
        p.currentItem = some y.item := by
  unfold PlaybackPositions.played
  by_cases hcurrent : p.currentItem = some y.item
  · exact .inr ⟨by simp [hcurrent, hplaying hcurrent], hcurrent⟩
  · exact .inl ⟨by simp [hcurrent], hcurrent⟩

/-- The frame in the hand of the pump was written and is played now. -/
theorem Tracked.playedOut_next (h : Tracked s) {f : TracedFrame} (hpump : s.pump = .playing f)
    (nowMonotonic : ℚ) (now : Datetime) : Tracked (s.playedOut f nowMonotonic now) := by
  have htrack : (s.playedOut f nowMonotonic now).track = s.track := by
    cases hf : f.position <;>
      simp [Bridge.track, Bridge.pipeline, Bridge.playedOut, hpump, PumpPhase.frame?, hf]
  have hpositions : (s.playedOut f nowMonotonic now).audio.positions =
      s.audio.positions.played f.position := rfl
  have hidle : (s.playedOut f nowMonotonic now).pump = .idle := rfl
  cases hf : f.position with
  | none =>
      rw [hf] at hpositions
      refine h.of_sublist (htrack ▸ List.Sublist.refl _) ?_ hpositions rfl rfl ?_
      · simp [Bridge.playedOut, hf]
      · simp [hidle]
  | some y =>
      rw [hf] at hpositions
      have hplayed : (s.playedOut f nowMonotonic now).playedPositions =
          s.playedPositions ++ [y] := by
        simp [Bridge.playedOut, hf]
      have hy : y ∈ s.track := by
        simp [Bridge.track, Bridge.pipeline, hpump, PumpPhase.frame?, hf]
      have hplaying : s.audio.positions.currentItem = some y.item →
          s.audio.positions.inflight = some y := fun hcurrent =>
        (h.item y.item hcurrent).playing f y hpump hf rfl
      have hcurrent : (s.playedOut f nowMonotonic now).audio.positions.currentItem =
          s.audio.positions.currentItem := by
        rw [hpositions]
        rcases played_spec hplaying with ⟨heq, -⟩ | ⟨heq, -⟩ <;> rw [heq]
      have henqueued : (s.playedOut f nowMonotonic now).audio.positions.lastEnqueued =
          s.audio.positions.lastEnqueued := by
        rw [hpositions]
        rcases played_spec hplaying with ⟨heq, -⟩ | ⟨heq, -⟩ <;> rw [heq]
      have hsub : ∀ x ∈ (s.playedOut f nowMonotonic now).remembered,
          x = y ∨ x ∈ s.remembered := by
        intro x hx
        rw [Bridge.remembered, hpositions] at hx
        rcases played_spec hplaying with ⟨heq, -⟩ | ⟨heq, -⟩
        · rw [heq] at hx
          exact .inr hx
        · rw [heq] at hx
          exact .inl (by simpa using hx)
      constructor
      · intro x hx
        rw [hcurrent]
        rw [htrack] at hx
        rcases List.mem_append.mp hx with hx | hx
        · exact h.known x (List.mem_append_left _ hx)
        · rcases hsub x hx with rfl | hx
          · exact h.known x (List.mem_append_left _ hy)
          · exact h.known x (List.mem_append_right _ hx)
      · rw [htrack]
        exact h.positive
      · rw [henqueued]
        exact h.enqueuedPositive
      · intro x hx
        rcases hsub x hx with rfl | hx
        · exact h.playing f x hpump hf
        · exact h.written x hx
      · simp [hidle]
      · intro item hitem
        rw [hcurrent] at hitem
        have hi := h.item item hitem
        have hlast : (s.playedOut f nowMonotonic now).lastPlayed item =
            if y.item = item then some y else s.lastPlayed item := by
          rw [Bridge.lastPlayed, hplayed, List.filter_append]
          split <;> rename_i hyi <;> simp [hyi, Bridge.lastPlayed]
        constructor
        · exact hi.fresh
        · rw [htrack]
          exact hi.order
        · rw [htrack, henqueued]
          exact hi.enqueued
        · intro x hx
          rw [hpositions]
          rcases played_spec hplaying with ⟨heq, hother⟩ | ⟨heq, hsame⟩
          · have hyi : y.item ≠ item := fun hyi => hother (hyi ▸ hitem)
            rw [hlast, if_neg hyi] at hx
            rw [heq]
            exact hi.last x hx
          · have hyi : y.item = item := Option.some.inj (hsame.symm.trans hitem)
            rw [hlast, if_pos hyi] at hx
            rw [heq, ← hx]
        · intro z hz x hx
          rw [hpositions] at hz
          rcases played_spec hplaying with ⟨heq, hother⟩ | ⟨heq, -⟩
          · rw [heq] at hz
            rw [hplayed] at hx
            rcases List.mem_append.mp hx with hx | hx
            · exact hi.inflight z hz x hx
            · obtain rfl := List.mem_singleton.mp hx
              exact fun hxi => absurd (hxi ▸ hitem) hother
          · rw [heq] at hz
            cases hz
        · simp [hidle]

theorem Tracked.clear_next (h : Tracked s) (b : BargeInProgress)
    (position : Option PlaybackPosition) (requested : Bool) (ts now : Datetime) :
    Tracked (s.clear b position requested ts now) := by
  have hpositions : (s.clear b position requested ts now).audio.positions = {} := by
    simp [Bridge.clear, Bridge.observing, CallAudio.cutPlayback]
  have hplayed : (s.clear b position requested ts now).playedPositions = [] := rfl
  have hremembered : (s.clear b position requested ts now).remembered = [] := by
    rw [Bridge.remembered, hpositions]
    rfl
  have htrack : (s.clear b position requested ts now).track.Sublist s.track := by
    have hpipeline : (s.clear b position requested ts now).pipeline.Sublist s.pipeline := by
      simp [Bridge.pipeline, Bridge.clear, Bridge.observing, ProducerPhase.frame?]
    rw [Bridge.track, hplayed, List.nil_append]
    exact (hpipeline.filterMap _).trans (List.sublist_append_right _ _)
  have hleft : (s.clear b position requested ts now).left =
      s.left ++ s.audio.positions.currentItem.toList := rfl
  constructor
  · intro x hx
    rw [hremembered, List.append_nil] at hx
    rw [hleft]
    rcases h.known x (List.mem_append_left _ (htrack.subset hx)) with hx | hx
    · exact .inl (List.mem_append_left _ hx)
    · exact .inl (List.mem_append_right _ (by simp [hx]))
  · intro x hx
    exact h.positive x ((htrack.append_right _).subset hx)
  · intro x hx
    rw [hpositions] at hx
    cases hx
  · simp [hremembered]
  · exact h.playing
  · intro item hitem
    rw [hpositions] at hitem
    cases hitem

/-! ## Every step -/

theorem Tracked.fail (h : Tracked s) (e : ProducerError) : Tracked (s.fail e) := by
  apply h.of_producer <;> try rfl
  simp [Bridge.fail, Bridge.endProducer, ProducerPhase.frame?]

/-- A message of an item that was not left. -/
theorem Tracked.receiveAudio (h : Tracked s) {message : ProviderAudio}
    (hfresh : ∀ i, message.item = some i → i ∉ s.left) (receivedAt : Datetime)
    (receivedMonotonic : ℚ) :
    Tracked (s.receiveAudio env message receivedAt receivedMonotonic) := by
  unfold Bridge.receiveAudio
  split
  · exact h.fail _
  · dsimp only
    have hcount (recentChunks : List ProviderAudioChunkObservation) :
        Tracked { s with chunkOrdinal := s.chunkOrdinal + 1, recentChunks } := by
      apply h.of_producer <;> try rfl
      exact fun f hf => hf
    split
    · exact (hcount s.recentChunks).fail _
    · rename_i observation _
      have hitem := (hcount (lastSlice 256 (s.recentChunks ++ [observation]))).setItem hfresh
      split
      · exact hitem.fail _
      · rename_i processed resampler _
        have hresampler : Tracked { Bridge.setItem { s with
            chunkOrdinal := s.chunkOrdinal + 1
            recentChunks := lastSlice 256 (s.recentChunks ++ [observation]) } message.item with
            resampler := some resampler } := by
          apply hitem.of_producer <;> try rfl
          exact fun f hf => hf
        split
        · apply hresampler.of_producer <;> try rfl
          simp [Bridge.extend, ProducerPhase.frame?]
        · exact hresampler

/-- A full queue drops its oldest frame. -/
theorem Tracked.put (h : Tracked s) {f : TracedFrame} (hproducer : s.producer = .putting f) :
    Tracked (s.put f) := by
  refine h.of_sublist ?_ rfl rfl rfl rfl fun f y hf _ => hf
  refine track_sublist rfl ?_
  have hkept : s.playback.kept.Sublist s.playback.frames := by
    rw [← s.playback.evicted_append_kept]
    exact List.sublist_append_right _ _
  have hposition (depth : ℕ) : (f.noteDepth depth).position = f.position := rfl
  cases hf : f.position with
  | none =>
      simpa [Bridge.pipeline, Bridge.put, PlaybackBuffer.put, PlaybackBuffer.noted, hproducer,
        ProducerPhase.frame?, hposition, hf] using hkept.filterMap _
  | some y =>
      simpa [Bridge.pipeline, Bridge.put, PlaybackBuffer.put, PlaybackBuffer.noted, hproducer,
        ProducerPhase.frame?, hposition, hf] using hkept.filterMap _

theorem Tracked.take (h : Tracked s) (hpump : s.pump = .idle) : Tracked s.take := by
  unfold Bridge.take
  split
  · rename_i f playback hget
    refine h.of_sublist ?_ rfl rfl rfl rfl (by simp)
    refine track_sublist rfl ?_
    simp [Bridge.pipeline, hpump, PlaybackBuffer.frames_of_get hget, PumpPhase.frame?]
  · exact h

theorem Tracked.drain (h : Tracked s) (b : BargeInProgress) (position : Option PlaybackPosition)
    (audio : PartialAudio) (writtenAudioMs : ℚ) (cleared completed : Datetime) :
    Tracked (s.drain env b position audio writtenAudioMs cleared completed) := by
  have hdrained : Tracked { s with playback := s.playback.drain.2 } := by
    refine h.of_sublist ?_ rfl rfl rfl rfl fun f y hf _ => hf
    refine track_sublist rfl ?_
    apply List.Sublist.filterMap
    simp [Bridge.pipeline, PlaybackBuffer.drain]
  unfold Bridge.drain
  dsimp only
  split
  · exact hdrained.fail _
  · apply hdrained.of_producer <;> try rfl
    simp [ProducerPhase.frame?]

/-- The pump ends, with a frame or without. -/
theorem Tracked.of_ended (h : Tracked s) (hpump : s'.pump = .ended)
    (hplayback : s'.playback = s.playback) (hproducer : s'.producer = s.producer)
    (hpositions : s'.audio.positions = s.audio.positions)
    (hplayed : s'.playedPositions = s.playedPositions) (hleft : s'.left = s.left)
    (hwritten : s'.writtenPositions = s.writtenPositions) : Tracked s' := by
  refine h.of_sublist ?_ hplayed hpositions hleft hwritten (by simp [hpump])
  refine track_sublist hplayed ?_
  apply List.Sublist.filterMap
  simp [Bridge.pipeline, hpump, hplayback, hproducer, PumpPhase.frame?]

theorem tracked_next (l : BridgeStep) (hreturns : ¬ ItemReturns s l) (h : Tracked s) :
    Tracked (s.next env l) := by
  have heffect := bridgeEffect_next env s l
  generalize s.next env l = s' at heffect
  cases heffect with
  | ignored => exact h
  | receiveAudio hproducer message receivedAt receivedMonotonic =>
      apply h.receiveAudio
      intro i hi hleft
      exact hreturns ⟨hproducer, by simpa [BridgeStep.item, hi] using hleft⟩
  | pack hproducer enqueuedAt enqueuedMonotonic =>
      exact h.pack hproducer enqueuedAt enqueuedMonotonic
  | put hproducer => exact h.put hproducer
  | inputSpeechStopped hproducer now =>
      apply h.of_producer <;> try rfl
      · exact fun f hf => hf
      · exact CallAudio.positions_endCallerSpeech _ _ _ _
  | beginBargeIn hproducer trigger receivedAt receivedMonotonic now =>
      apply h.of_producer <;> try rfl
      · simp [Bridge.beginBargeIn, ProducerPhase.frame?]
      · exact CallAudio.positions_beginBargeIn _ _ _ _
  | truncate hproducer path ts now =>
      apply h.of_producer <;> try rfl
      simp [Bridge.truncate, ProducerPhase.frame?]
  | clear hproducer requested ts now => exact h.clear_next _ _ requested ts now
  | drain hproducer cleared completed => exact h.drain _ _ _ _ cleared completed
  | streamEnds =>
      apply h.of_producer <;> try rfl
      simp [Bridge.endProducer, ProducerPhase.frame?]
  | fail => exact h.fail _
  | take hpump => exact h.take hpump
  | written hpump nowMonotonic now => exact h.written_next hpump nowMonotonic now
  | playedOut hpump nowMonotonic now => exact h.playedOut_next hpump nowMonotonic now
  | outputEnds now =>
      exact h.of_ended rfl rfl rfl (CallAudio.positions_endAssistantPlayback _ _ _) rfl rfl rfl
  | failOutput => exact h.of_ended rfl rfl rfl rfl rfl rfl rfl

theorem tracked_init (h : (bridgeMachine env).init s) : Tracked s := by
  obtain ⟨audio, hpositions, rfl⟩ := h
  have htrack : Bridge.track { audio } = [] := rfl
  constructor
  · simp [htrack, Bridge.remembered, hpositions]
  · simp [htrack]
  · simp [hpositions]
  · simp [Bridge.remembered, hpositions]
  · simp
  · simp [hpositions]

end Steps

/-! ## The position of a barge-in -/

section Position

variable {env : BridgeEnv} {s : Bridge} {item : String × ℤ}

theorem le_largestWritten {x : PlaybackPosition} (hx : x ∈ s.writtenPositions)
    (hitem : x.item = item) : x.audioEndMs ≤ s.largestWritten item := by
  have hmem : x.audioEndMs ∈ (s.writtenPositions.filter fun p => p.item = item).map
      PlaybackPosition.audioEndMs :=
    List.mem_map_of_mem (List.mem_filter.mpr ⟨hx, by simpa using hitem⟩)
  unfold Bridge.largestWritten
  cases hmax : ((s.writtenPositions.filter fun p => p.item = item).map
      PlaybackPosition.audioEndMs).max? with
  | none =>
      rw [List.max?_eq_none_iff] at hmax
      rw [hmax] at hmem
      cases hmem
  | some largest => exact (List.max?_eq_some_iff.mp hmax).2 _ hmem

theorem Tracked.largestWritten_nonneg (h : Tracked s) : 0 ≤ s.largestWritten item := by
  unfold Bridge.largestWritten
  cases hmax : ((s.writtenPositions.filter fun p => p.item = item).map
      PlaybackPosition.audioEndMs).max? with
  | none => exact le_rfl
  | some largest =>
      have hmem := (List.max?_eq_some_iff.mp hmax).1
      obtain ⟨x, hx, rfl⟩ := List.mem_map.mp hmem
      exact (h.positive x (List.mem_append_right _ (List.mem_filter.mp hx).1)).le

theorem mem_of_lastPlayed {q : PlaybackPosition} (h : s.lastPlayed item = some q) :
    q ∈ s.playedPositions ∧ q.item = item := by
  have hmem := List.mem_filter.mp (List.mem_of_getLast? h)
  exact ⟨hmem.1, by simpa using hmem.2⟩

/-- With nothing of the item in flight, its last played position is the last position. -/
theorem Tracked.effective_last (h : Tracked s)
    (hcurrent : s.audio.positions.currentItem = some item) {now : ℚ}
    (heffective : s.audio.positions.effective now = s.audio.positions.last) :
    ∃ p, s.audio.positions.truncatePosition now = some p ∧ p.item = item ∧
      p.audioEndMs ≤ s.largestWritten item ∧
      ∀ q, s.lastPlayed item = some q → q.audioEndMs ≤ p.audioEndMs := by
  have hi := h.item item hcurrent
  unfold PlaybackPositions.truncatePosition
  rw [hcurrent, heffective]
  dsimp only
  by_cases hlast : s.audio.positions.last.map PlaybackPosition.item = some item
  · obtain ⟨x, hx, hxi⟩ := Option.map_eq_some_iff.mp hlast
    have hwritten : x ∈ s.writtenPositions :=
      h.written x (List.mem_append_right _ (by simp [hx]))
    refine ⟨x, by rw [if_pos hlast, hx], hxi, le_largestWritten hwritten hxi, ?_⟩
    intro q hq
    have hqx : some q = some x := (hi.last q hq).symm.trans hx
    obtain rfl := Option.some.inj hqx
    exact le_rfl
  · refine ⟨_, if_neg hlast, rfl, h.largestWritten_nonneg, ?_⟩
    intro q hq
    refine absurd ?_ hlast
    rw [hi.last q hq]
    exact congrArg some (mem_of_lastPlayed hq).2

/-- The position in flight is between the last played position and itself. -/
theorem Tracked.effective_inflight (h : Tracked s)
    (hcurrent : s.audio.positions.currentItem = some item) {now startedAt : ℚ}
    {y : PlaybackPosition} (hinflight : s.audio.positions.inflight = some y)
    (hstarted : s.audio.positions.inflightStartedAt = some startedAt) :
    ∃ p, s.audio.positions.truncatePosition now = some p ∧ p.item = item ∧
      p.audioEndMs ≤ s.largestWritten item ∧
      ∀ q, s.lastPlayed item = some q → q.audioEndMs ≤ p.audioEndMs := by
  have hi := h.item item hcurrent
  have hwritten : y ∈ s.writtenPositions :=
    h.written y (List.mem_append_left _ (by simp [hinflight]))
  have hfollows : ∀ q, s.lastPlayed item = some q → y.item = item ∧ q.audioEndMs < y.audioEndMs :=
    fun q hq => hi.inflight y hinflight q (mem_of_lastPlayed hq).1 (mem_of_lastPlayed hq).2
  unfold PlaybackPositions.truncatePosition PlaybackPositions.effective
  rw [hcurrent, hinflight, hstarted]
  dsimp only
  by_cases hyi : y.item = item
  · refine ⟨_, if_pos (congrArg some hyi), hyi, ?_, ?_⟩
    · exact (min_le_left _ _).trans (le_largestWritten hwritten hyi)
    · intro q hq
      have hlt := (hfollows q hq).2
      have hsame : q.item = y.item := (mem_of_lastPlayed hq).2.trans hyi.symm
      rw [hi.last q hq]
      dsimp only
      rw [if_pos hsame]
      omega
  · refine ⟨_, if_neg fun heq => hyi (Option.some.inj heq), rfl, h.largestWritten_nonneg, ?_⟩
    intro q hq
    exact absurd (hfollows q hq).1 hyi

theorem Tracked.truncatePosition_spec (h : Tracked s)
    (hcurrent : s.audio.positions.currentItem = some item) (now : ℚ) :
    ∃ p, s.audio.positions.truncatePosition now = some p ∧ p.item = item ∧
      p.audioEndMs ≤ s.largestWritten item ∧
      ∀ q, s.lastPlayed item = some q → q.audioEndMs ≤ p.audioEndMs := by
  cases hinflight : s.audio.positions.inflight with
  | none =>
      apply h.effective_last hcurrent
      simp [PlaybackPositions.effective, hinflight]
  | some y =>
      cases hstarted : s.audio.positions.inflightStartedAt with
      | none =>
          apply h.effective_last hcurrent
          simp [PlaybackPositions.effective, hstarted]
      | some startedAt => exact h.effective_inflight hcurrent hinflight hstarted

end Position

/-- In every interleaving in which no item that was left comes back, a barge-in with a current
item truncates at a position of that item: not after what was written of it, and not before
its last frame that was played since the last barge-in. -/
theorem truncate_safe {env : BridgeEnv} {s₀ s : Bridge} {ls : List BridgeStep}
    (hinit : (bridgeMachine env).init s₀)
    (hls : (bridgeMachine env).Along (fun s l => ¬ ItemReturns s l) s₀ ls)
    (hs : (bridgeMachine env).exec s₀ ls = s) {b : BargeInProgress}
    (hphase : s.producer = .interrupting b) {item : String × ℤ}
    (hcurrent : s.audio.positions.currentItem = some item) (path : InterruptPath)
    (ts : Datetime) (now : ℚ) :
    ∃ b' p, (s.next env (.truncate path ts now)).producer = .truncating b' (some p) ∧
      p.item = item ∧ p.audioEndMs ≤ s.largestWritten item ∧
      ∀ q, s.lastPlayed item = some q → q.audioEndMs ≤ p.audioEndMs := by
  have htracked : Tracked s := by
    rw [← hs]
    exact hls.invariant (fun s l hreturns h => tracked_next l hreturns h) (tracked_init hinit)
  obtain ⟨p, hp, hitem, hle, hge⟩ := htracked.truncatePosition_spec hcurrent now
  refine ⟨{ b with
    step := b.step + (Bridge.interruptEvent b path ts).length, interruptPath := path },
    p, ?_, hitem, hle, hge⟩
  simp only [Bridge.next, hphase, Bridge.truncate, hp]

/-- Two packets of one item, the second of them interrupted while it is played. -/
def heardPackets : List BridgeStep :=
  [.receiveAudio ⟨List.replicate 640 0, 8000, 1, "pcm16", some "item", some 0⟩ (.utc 0) 0,
    .pack (.utc 0) 0, .put, .pack (.utc 0) 0, .put, .pack (.utc 0) 0,
    .take, .written 0 (.utc 0), .playedOut (1 / 50) (.utc 20), .take, .written (1 / 50) (.utc 20),
    .beginBargeIn .interrupted (.utc 30) (3 / 100) (.utc 30)]

/-- The call with those packets, where silence needs no mathematics. -/
def heardCall : Bridge :=
  (bridgeMachine { math := ⟨id, id⟩ }).exec { audio := .initial "a" "b" } heardPackets

theorem truncate_safe_heardCall :
    heardCall.largestWritten ("item", 0) = 40 ∧
    (heardCall.lastPlayed ("item", 0)).map PlaybackPosition.audioEndMs = some 20 ∧
    ∃ b' p, (heardCall.next { math := ⟨id, id⟩ }
        (.truncate .providerInterrupted (.utc 30) (3 / 100))).producer = .truncating b' (some p) ∧
      p.item = ("item", 0) ∧ p.audioEndMs ≤ heardCall.largestWritten ("item", 0) ∧
      ∀ q, heardCall.lastPlayed ("item", 0) = some q → q.audioEndMs ≤ p.audioEndMs := by
  refine ⟨by decide +kernel, by decide +kernel, ?_⟩
  have hphase : heardCall.producer = .interrupting ⟨"barge-in-b-1", .utc 30, 3 / 100, 2,
      .unobserved⟩ := by decide +kernel
  exact truncate_safe ⟨_, rfl, rfl⟩ (by decide +kernel) rfl hphase (by decide +kernel) _ _ _

end VoxBench.Telephony
