import VoxBench.Lib.Machine
import VoxBench.Lib.Slices
import Mathlib.Algebra.BigOperators.Group.Multiset.Basic
import Mathlib.Tactic.Abel

/-!
# Flushing an observer's buffers

`VoxBenchObserver` collects items of five kinds and `flush` sends them in bounded
batches. A flush takes the lock twice at most: once to take everything pending, and
once more to put the unsent batches back in front when the transport raises. The
machine below cuts it there and at every send, so that observations and any number
of flushes interleave at those points.

## Main definitions

* `boundedObservationBatches`, `mergeObservationBatches` — the split of a snapshot and
  its inverse.
* `flushMachine` — observers, flushes and the transport.

## Main results

* `flush_conserves` — no item is lost or duplicated, batches respect the limits, the
  returned count is right, and flushes that do not overlap keep the order.
-/

namespace VoxBench.Observability

open VoxBench.Lib

/-- The five lists of an observation batch. -/
inductive ObservationKind where
  | metrics
  | audioChunks
  | sipEvents
  | rtpStats
  | timelineEvents
  deriving DecidableEq, Repr

namespace ObservationKind

/-- The kinds in the order of `OBSERVATION_BATCH_LIMITS`. -/
def all : List ObservationKind := [.metrics, .audioChunks, .sipEvents, .rtpStats, .timelineEvents]

@[simp] theorem mem_all (k : ObservationKind) : k ∈ all := by
  cases k <;> decide

/-- `OBSERVATION_BATCH_LIMITS`. -/
def batchLimit : ObservationKind → ℕ
  | .metrics => 500
  | .audioChunks => 64
  | .sipEvents => 64
  | .rtpStats => 64
  | .timelineEvents => 128

/-- The `max_length` of each list of the server's `ObservationBatchRequest`. -/
def requestMaxLength : ObservationKind → ℕ
  | .metrics => 500
  | .audioChunks => 64
  | .sipEvents => 64
  | .rtpStats => 64
  | .timelineEvents => 128

theorem batchLimit_pos (k : ObservationKind) : 0 < k.batchLimit := by
  cases k <;> decide

theorem batchLimit_le_requestMaxLength (k : ObservationKind) :
    k.batchLimit ≤ k.requestMaxLength := by
  cases k <;> decide

end ObservationKind

variable {Item : ObservationKind → Type}

/-- `ObservationBatch`: a list of items for each kind. -/
structure ObservationBatch (Item : ObservationKind → Type) where
  runId : String
  items : ∀ k, List (Item k)

namespace ObservationBatch

/-- `item_count`. -/
def itemCount (b : ObservationBatch Item) : ℕ :=
  (b.items .metrics).length + (b.items .audioChunks).length + (b.items .sipEvents).length +
    (b.items .rtpStats).length + (b.items .timelineEvents).length

theorem itemCount_eq_zero_iff {b : ObservationBatch Item} :
    b.itemCount = 0 ↔ ∀ k, b.items k = [] := by
  constructor
  · intro h k
    rw [← List.length_eq_zero_iff]
    unfold itemCount at h
    cases k <;> omega
  · intro h
    simp [itemCount, h]

end ObservationBatch

/-- The number of slices that the longest list needs; at least one. -/
def batchCount (b : ObservationBatch Item) : ℕ :=
  ObservationKind.all.foldl
    (fun n k => max n (((b.items k).length + k.batchLimit - 1) / k.batchLimit)) 1

/-- `_bounded_observation_batches`: the `index`-th slices of all lists make a batch, and
empty batches are dropped. -/
def boundedObservationBatches (b : ObservationBatch Item) : List (ObservationBatch Item) :=
  ((List.range (batchCount b)).map fun index =>
    { runId := b.runId, items := fun k => slice k.batchLimit index (b.items k) }).filter
      fun candidate => candidate.itemCount ≠ 0

/-- `_merge_observation_batches`. -/
def mergeObservationBatches (runId : String) (batches : List (ObservationBatch Item)) :
    ObservationBatch Item :=
  { runId := runId, items := fun k => batches.flatMap fun b => b.items k }

/-- A running maximum is at least its start and each of its values. -/
theorem le_foldl_max {α : Type} {f : α → ℕ} {l : List α} {n : ℕ} :
    n ≤ l.foldl (fun n a => max n (f a)) n ∧
      ∀ a ∈ l, f a ≤ l.foldl (fun n a => max n (f a)) n := by
  induction l generalizing n with
  | nil => simp
  | cons a l ih =>
      obtain ⟨hstart, hvalues⟩ := @ih (max n (f a))
      refine ⟨(le_max_left _ _).trans hstart, ?_⟩
      rw [List.forall_mem_cons]
      exact ⟨(le_max_right _ _).trans hstart, hvalues⟩

theorem length_le_batchCount_mul (b : ObservationBatch Item) (k : ObservationKind) :
    (b.items k).length ≤ batchCount b * k.batchLimit := by
  have hcount : ((b.items k).length + k.batchLimit - 1) / k.batchLimit ≤ batchCount b := by
    have hmem : k ∈ ObservationKind.all := by cases k <;> decide
    exact (@le_foldl_max _ (fun k => ((b.items k).length + k.batchLimit - 1) / k.batchLimit) _ 1).2
      k hmem
  calc (b.items k).length
      ≤ ((b.items k).length + k.batchLimit - 1) / k.batchLimit * k.batchLimit :=
        le_ceilDiv_mul k.batchLimit_pos
    _ ≤ batchCount b * k.batchLimit := Nat.mul_le_mul_right _ hcount

/-- Merging the bounded batches of a snapshot gives the snapshot back. -/
theorem merge_bounded (b : ObservationBatch Item) (k : ObservationKind) :
    (boundedObservationBatches b).flatMap (fun c => c.items k) = b.items k := by
  unfold boundedObservationBatches
  rw [flatMap_filter]
  · rw [List.flatMap_map]
    exact flatMap_range_slice_eq (length_le_batchCount_mul b k)
  · intro c _ hc
    have hzero : c.itemCount = 0 := by simpa using hc
    exact ObservationBatch.itemCount_eq_zero_iff.mp hzero k

/-- A batch that may be handed to `send`. -/
def ObservationBatch.Sendable (b : ObservationBatch Item) : Prop :=
  0 < b.itemCount ∧ ∀ k, (b.items k).length ≤ k.batchLimit

theorem sendable_of_mem_bounded {b c : ObservationBatch Item}
    (h : c ∈ boundedObservationBatches b) : c.Sendable := by
  unfold boundedObservationBatches at h
  rw [List.mem_filter, List.mem_map] at h
  obtain ⟨⟨index, -, rfl⟩, hcount⟩ := h
  refine ⟨Nat.pos_of_ne_zero (by simpa using hcount), fun k => ?_⟩
  exact length_slice_le k.batchLimit index (b.items k)

/-! ## The machine -/

/-- Where a call of `flush` stands. -/
inductive FlushPhase (Item : ObservationKind → Type) where
  /-- `next` is about to be sent, then `rest`. -/
  | sending (next : ObservationBatch Item) (rest : List (ObservationBatch Item)) (sentCount : ℕ)
  /-- The transport raised; `unsent` waits for the lock. -/
  | restoring (unsent : ObservationBatch Item)
  | returned (sentCount : ℕ)
  | raised

namespace FlushPhase

/-- The head of the loop over the batches. -/
def loop : List (ObservationBatch Item) → ℕ → FlushPhase Item
  | [], sentCount => .returned sentCount
  | b :: rest, sentCount => .sending b rest sentCount

/-- The items that a flush has taken and neither delivered nor put back. -/
def inFlight : FlushPhase Item → ∀ k, List (Item k)
  | .sending next rest _, k => next.items k ++ rest.flatMap fun b => b.items k
  | .restoring unsent, k => unsent.items k
  | .returned _, _ | .raised, _ => []

/-- The batches that a flush has still to send. -/
def batches : FlushPhase Item → List (ObservationBatch Item)
  | .sending next rest _ => next :: rest
  | .restoring _ | .returned _ | .raised => []

/-- The count that a flush has reached. -/
def sentCount? : FlushPhase Item → Option ℕ
  | .sending _ _ n | .returned n => some n
  | .restoring _ | .raised => none

/-- The flush has ended. -/
def ended : FlushPhase Item → Bool
  | .sending .. | .restoring _ => false
  | .returned _ | .raised => true

@[simp] theorem inFlight_sending (next : ObservationBatch Item)
    (rest : List (ObservationBatch Item)) (n : ℕ) (k : ObservationKind) :
    (sending next rest n).inFlight k = next.items k ++ rest.flatMap fun b => b.items k := rfl
@[simp] theorem inFlight_restoring (unsent : ObservationBatch Item) (k : ObservationKind) :
    (restoring unsent).inFlight k = unsent.items k := rfl
@[simp] theorem inFlight_raised (k : ObservationKind) :
    (raised : FlushPhase Item).inFlight k = [] := rfl

@[simp] theorem inFlight_loop (batches : List (ObservationBatch Item)) (n : ℕ) (k : ObservationKind) :
    (loop batches n).inFlight k = batches.flatMap fun b => b.items k := by
  cases batches <;> rfl

@[simp] theorem batches_loop (batches : List (ObservationBatch Item)) (n : ℕ) :
    (loop batches n).batches = batches := by
  cases batches <;> rfl

@[simp] theorem sentCount?_loop (batches : List (ObservationBatch Item)) (n : ℕ) :
    (loop batches n).sentCount? = some n := by
  cases batches <;> rfl

theorem inFlight_of_ended {p : FlushPhase Item} (h : p.ended = true) (k : ObservationKind) :
    p.inFlight k = [] := by
  cases p <;> simp_all [ended, inFlight]

end FlushPhase

/-- An observer with the flushes called on it so far. The last three fields record what
happened: everything observed, every batch handed to `send`, and every delivery with the
flush that made it. -/
structure ObserverState (Item : ObservationKind → Type) where
  runId : String
  pending : ∀ k, List (Item k)
  flushes : List (FlushPhase Item)
  observed : ∀ k, List (Item k)
  handed : List (ObservationBatch Item)
  deliveries : List (ℕ × ObservationBatch Item)

namespace ObserverState

/-- A new observer. -/
def new (runId : String) : ObserverState Item :=
  { runId, pending := fun _ => [], flushes := [], observed := fun _ => [], handed := [],
    deliveries := [] }

/-- What the transport has delivered, in order. -/
def delivered (s : ObserverState Item) (k : ObservationKind) : List (Item k) :=
  s.deliveries.flatMap fun d => d.2.items k

/-- The number of items that the flush `f` has delivered. -/
def deliveredBy (s : ObserverState Item) (f : ℕ) : ℕ :=
  ((s.deliveries.filter fun d => d.1 = f).map fun d => d.2.itemCount).sum

/-- What the flushes hold, in the order of the flushes. -/
def inFlight (s : ObserverState Item) (k : ObservationKind) : List (Item k) :=
  s.flushes.flatMap fun p => p.inFlight k

/-- The snapshot that a flush takes under the lock. -/
def snapshot (s : ObserverState Item) : ObservationBatch Item :=
  { runId := s.runId, items := s.pending }

end ObserverState

/-- A step: an `observe_*` call appending its items under the lock, or a flush `f` taking
its snapshot, sending its next batch or restoring what is left. -/
inductive ObserverStep (Item : ObservationKind → Type) where
  | observe (items : ∀ k, List (Item k))
  | flush
  | send (f : ℕ) (delivers : Bool)
  | restore (f : ℕ)

/-- Observations and flushes on one observer. A step that does not fit the phase of its
flush does nothing. -/
def flushMachine (Item : ObservationKind → Type) :
    Machine (ObserverState Item) (ObserverStep Item) where
  init s := ∃ runId, s = .new runId
  enabled _ _ := True
  next s
    | .observe items =>
        { s with
          pending := fun k => s.pending k ++ items k
          observed := fun k => s.observed k ++ items k }
    | .flush =>
        { s with
          pending := fun _ => []
          flushes := s.flushes ++
            [if s.snapshot.itemCount = 0 then .returned 0
              else .loop (boundedObservationBatches s.snapshot) 0] }
    | .send f delivers =>
        match s.flushes[f]? with
        | some (.sending next rest sentCount) =>
            if delivers then
              { s with
                flushes := s.flushes.set f (.loop rest (sentCount + next.itemCount))
                handed := s.handed ++ [next]
                deliveries := s.deliveries ++ [(f, next)] }
            else
              { s with
                flushes := s.flushes.set f
                  (.restoring (mergeObservationBatches s.runId (next :: rest)))
                handed := s.handed ++ [next] }
        | _ => s
    | .restore f =>
        match s.flushes[f]? with
        | some (.restoring unsent) =>
            { s with
              pending := fun k => unsent.items k ++ s.pending k
              flushes := s.flushes.set f .raised }
        | _ => s

/-! ## One step -/

section Step

variable {s : ObserverState Item}

/-- A flush that changes its phase, between the flushes before and after it. -/
theorem exists_split {f : ℕ} {p : FlushPhase Item} (h : s.flushes[f]? = some p) :
    ∃ before after, s.flushes = before ++ p :: after ∧ before.length = f ∧
      ∀ p', s.flushes.set f p' = before ++ p' :: after := by
  obtain ⟨hf, hp⟩ := List.getElem?_eq_some_iff.mp h
  refine ⟨s.flushes.take f, s.flushes.drop (f + 1), ?_, by simp; omega, fun p' => ?_⟩
  · rw [← hp]
    simp
  · simp [List.set_eq_take_append_cons_drop, hf]

theorem inFlight_split {f : ℕ} {p : FlushPhase Item} (h : s.flushes[f]? = some p)
    (k : ObservationKind) : ∃ before after : List (Item k),
      s.inFlight k = before ++ p.inFlight k ++ after ∧
      ∀ p', (s.flushes.set f p').flatMap (fun x => x.inFlight k) =
        before ++ p'.inFlight k ++ after := by
  obtain ⟨before, after, hsplit, -, hset⟩ := exists_split h
  refine ⟨before.flatMap fun x => x.inFlight k, after.flatMap fun x => x.inFlight k, ?_, ?_⟩
  · rw [ObserverState.inFlight, hsplit]
    simp
  · intro p'
    rw [hset p']
    simp

/-- Everything a step can do. -/
theorem next_cases (l : ObserverStep Item) :
    let s' := (flushMachine Item).next s l
    s' = s ∨
    (∃ items, l = .observe items ∧ s' = { s with
      pending := fun k => s.pending k ++ items k
      observed := fun k => s.observed k ++ items k }) ∨
    (l = .flush ∧ s' = { s with
      pending := fun _ => []
      flushes := s.flushes ++ [.loop (boundedObservationBatches s.snapshot) 0] }) ∨
    (∃ f next rest n, s.flushes[f]? = some (.sending next rest n) ∧ s' = { s with
      flushes := s.flushes.set f (.loop rest (n + next.itemCount))
      handed := s.handed ++ [next]
      deliveries := s.deliveries ++ [(f, next)] }) ∨
    (∃ f next rest n, s.flushes[f]? = some (.sending next rest n) ∧ s' = { s with
      flushes := s.flushes.set f (.restoring (mergeObservationBatches s.runId (next :: rest)))
      handed := s.handed ++ [next] }) ∨
    ∃ f unsent, s.flushes[f]? = some (.restoring unsent) ∧ s' = { s with
      pending := fun k => unsent.items k ++ s.pending k
      flushes := s.flushes.set f .raised } := by
  intro s'
  cases l with
  | observe items => exact .inr (.inl ⟨items, rfl, rfl⟩)
  | flush =>
      refine .inr (.inr (.inl ⟨rfl, ?_⟩))
      -- An empty snapshot has no batches, so that the loop returns at once.
      have hempty : s.snapshot.itemCount = 0 →
          FlushPhase.returned 0 = .loop (boundedObservationBatches s.snapshot) 0 := by
        intro hzero
        have hnil : boundedObservationBatches s.snapshot = [] := by
          rw [List.eq_nil_iff_forall_not_mem]
          intro c hc
          have hpos := (sendable_of_mem_bounded hc).1
          have hitems : ∀ k, c.items k = [] := by
            intro k
            have hsub := merge_bounded s.snapshot k
            rw [ObservationBatch.itemCount_eq_zero_iff.mp hzero k] at hsub
            exact List.flatMap_eq_nil_iff.mp hsub c hc
          rw [ObservationBatch.itemCount_eq_zero_iff.mpr hitems] at hpos
          exact absurd hpos (Nat.lt_irrefl 0)
        rw [hnil]
        rfl
      have hphase : (if s.snapshot.itemCount = 0 then FlushPhase.returned 0
          else .loop (boundedObservationBatches s.snapshot) 0) =
          .loop (boundedObservationBatches s.snapshot) 0 := by
        split
        · exact hempty ‹_›
        · rfl
      simp only [s', flushMachine, hphase]
  | send f delivers =>
      have hs' : s' = (flushMachine Item).next s (.send f delivers) := rfl
      simp only [flushMachine] at hs'
      split at hs'
      · rename_i next rest n hf
        split at hs'
        · exact .inr (.inr (.inr (.inl ⟨f, next, rest, n, hf, hs'⟩)))
        · exact .inr (.inr (.inr (.inr (.inl ⟨f, next, rest, n, hf, hs'⟩))))
      · exact .inl hs'
  | restore f =>
      have hs' : s' = (flushMachine Item).next s (.restore f) := rfl
      simp only [flushMachine] at hs'
      split at hs'
      · rename_i unsent hf
        exact .inr (.inr (.inr (.inr (.inr ⟨f, unsent, hf, hs'⟩))))
      · exact .inl hs'

end Step

/-! ## Conservation -/

/-- Every observed item is delivered, held by one flush, or pending. -/
def ObserverState.Conserved (s : ObserverState Item) : Prop :=
  ∀ k, (s.observed k : Multiset (Item k)) = s.delivered k + s.inFlight k + s.pending k

section Conservation

variable {s : ObserverState Item} {l : ObserverStep Item}

theorem conserved_next (h : s.Conserved) : ((flushMachine Item).next s l).Conserved := by
  intro k
  have hk := h k
  obtain hs' | ⟨items, -, hs'⟩ | ⟨-, hs'⟩ | ⟨f, b, rest, n, hf, hs'⟩ | ⟨f, b, rest, n, hf, hs'⟩ |
    ⟨f, unsent, hf, hs'⟩ := next_cases (s := s) l
  · rw [hs']
    exact hk
  · rw [hs']
    simp only [ObserverState.delivered, ObserverState.inFlight, ← Multiset.coe_add] at hk ⊢
    rw [hk]
    abel
  · rw [hs']
    simp only [ObserverState.delivered, ObserverState.inFlight, List.flatMap_append,
      List.flatMap_singleton, FlushPhase.inFlight_loop, merge_bounded, ← Multiset.coe_add] at hk ⊢
    rw [hk]
    simp [ObserverState.snapshot]
  · obtain ⟨before, after, hold, hnew⟩ := inFlight_split hf k
    rw [hs']
    simp only [ObserverState.delivered, ObserverState.inFlight] at hk hold ⊢
    rw [hk, hold, hnew]
    simp only [List.flatMap_append, List.flatMap_singleton, FlushPhase.inFlight_sending,
      FlushPhase.inFlight_loop, ← Multiset.coe_add]
    abel
  · obtain ⟨before, after, hold, hnew⟩ := inFlight_split hf k
    rw [hs']
    simp only [ObserverState.delivered, ObserverState.inFlight] at hk hold ⊢
    rw [hk, hold, hnew]
    rfl
  · obtain ⟨before, after, hold, hnew⟩ := inFlight_split hf k
    rw [hs']
    simp only [ObserverState.delivered, ObserverState.inFlight] at hk hold ⊢
    rw [hk, hold, hnew]
    simp only [FlushPhase.inFlight_restoring, FlushPhase.inFlight_raised, List.append_nil,
      ← Multiset.coe_add]
    abel

end Conservation

/-! ## Batches and counts -/

/-- Every batch handed to the transport, and every batch on its way there, meets `P`. -/
def ObserverState.AllBatches (P : ObservationBatch Item → Prop) (s : ObserverState Item) : Prop :=
  (∀ b ∈ s.handed, P b) ∧ ∀ p ∈ s.flushes, ∀ b ∈ p.batches, P b

/-- Every batch handed to the transport, and every batch on its way there, is sendable. -/
def ObserverState.Bounded (s : ObserverState Item) : Prop :=
  (∀ b ∈ s.handed, b.Sendable) ∧ ∀ p ∈ s.flushes, ∀ b ∈ p.batches, b.Sendable

/-- A flush has counted exactly the items that it delivered. -/
def ObserverState.Counted (s : ObserverState Item) : Prop :=
  (∀ d ∈ s.deliveries, d.1 < s.flushes.length) ∧
    ∀ f p n, s.flushes[f]? = some p → p.sentCount? = some n → n = s.deliveredBy f

section Counts

variable {s : ObserverState Item} {l : ObserverStep Item}

/-- Batches come from the snapshots of flushes only. -/
theorem allBatches_next {P : ObservationBatch Item → Prop} (h : s.AllBatches P)
    (hnew : ∀ b ∈ boundedObservationBatches s.snapshot, P b) :
    ((flushMachine Item).next s l).AllBatches P := by
  obtain ⟨hhanded, hflushes⟩ := h
  obtain hs' | ⟨items, -, hs'⟩ | ⟨-, hs'⟩ | ⟨f, b, rest, n, hf, hs'⟩ | ⟨f, b, rest, n, hf, hs'⟩ |
    ⟨f, unsent, hf, hs'⟩ := next_cases (s := s) l
  · rw [hs']
    exact ⟨hhanded, hflushes⟩
  · rw [hs']
    exact ⟨hhanded, hflushes⟩
  · rw [hs']
    refine ⟨hhanded, fun p hp b hb => ?_⟩
    rw [List.mem_append, List.mem_singleton] at hp
    rcases hp with hp | rfl
    · exact hflushes p hp b hb
    · rw [FlushPhase.batches_loop] at hb
      exact hnew b hb
  all_goals
    have hmem := List.mem_of_getElem? hf
    rw [hs']
  · have hsend := hflushes _ hmem
    refine ⟨fun c hc => ?_, fun p hp c hc => ?_⟩
    · rw [List.mem_append, List.mem_singleton] at hc
      rcases hc with hc | rfl
      · exact hhanded c hc
      · exact hsend c (by simp [FlushPhase.batches])
    · rcases List.mem_or_eq_of_mem_set hp with hp | rfl
      · exact hflushes p hp c hc
      · rw [FlushPhase.batches_loop] at hc
        exact hsend c (by simp [FlushPhase.batches, hc])
  · have hsend := hflushes _ hmem
    refine ⟨fun c hc => ?_, fun p hp c hc => ?_⟩
    · rw [List.mem_append, List.mem_singleton] at hc
      rcases hc with hc | rfl
      · exact hhanded c hc
      · exact hsend c (by simp [FlushPhase.batches])
    · rcases List.mem_or_eq_of_mem_set hp with hp | rfl
      · exact hflushes p hp c hc
      · simp [FlushPhase.batches] at hc
  · refine ⟨hhanded, fun p hp c hc => ?_⟩
    rcases List.mem_or_eq_of_mem_set hp with hp | rfl
    · exact hflushes p hp c hc
    · simp [FlushPhase.batches] at hc

theorem bounded_next (h : s.Bounded) : ((flushMachine Item).next s l).Bounded :=
  allBatches_next h fun _ hb => sendable_of_mem_bounded hb

/-- The batch holds only observed items, each as often as it was observed at most. -/
def ObservationBatch.DrawnFrom (b : ObservationBatch Item) (observed : ∀ k, List (Item k)) : Prop :=
  ∀ k, (b.items k : Multiset (Item k)) ≤ observed k

/-- What a step adds to the observed items. -/
def ObserverStep.items : ObserverStep Item → ∀ k, List (Item k)
  | .observe items => items
  | .flush | .send .. | .restore _ => fun _ => []

theorem observed_next (k : ObservationKind) :
    ((flushMachine Item).next s l).observed k = s.observed k ++ l.items k := by
  cases l with
  | observe items => rfl
  | flush => exact (List.append_nil _).symm
  | send f delivers =>
      simp only [flushMachine, ObserverStep.items, List.append_nil]
      split
      · split <;> rfl
      · rfl
  | restore f =>
      simp only [flushMachine, ObserverStep.items, List.append_nil]
      split <;> rfl

theorem observed_le_next (k : ObservationKind) :
    (s.observed k : Multiset (Item k)) ≤ ((flushMachine Item).next s l).observed k := by
  rw [observed_next]
  exact Multiset.coe_le.mpr (List.sublist_append_left _ _).subperm

/-- No batch has an item that was not observed, or more often than it was. -/
theorem drawn_next (hconserved : s.Conserved)
    (h : s.AllBatches fun b => b.DrawnFrom s.observed) :
    ((flushMachine Item).next s l).AllBatches fun b =>
      b.DrawnFrom ((flushMachine Item).next s l).observed := by
  have hgrow : ∀ b : ObservationBatch Item, b.DrawnFrom s.observed →
      b.DrawnFrom ((flushMachine Item).next s l).observed :=
    fun b hb k => (hb k).trans (observed_le_next k)
  refine allBatches_next ⟨fun b hb => hgrow b (h.1 b hb), fun p hp b hb => hgrow b (h.2 p hp b hb)⟩
    fun b hb => hgrow b fun k => ?_
  have hslice : (b.items k).Sublist (s.pending k) := by
    have hmerge := merge_bounded s.snapshot k
    rw [List.flatMap_def] at hmerge
    have hmem := List.mem_map_of_mem (f := fun c : ObservationBatch Item => c.items k) hb
    have hsub := List.sublist_flatten_of_mem hmem
    rwa [hmerge] at hsub
  have hpending : (s.pending k : Multiset (Item k)) ≤ s.observed k := by
    rw [hconserved k]
    exact Multiset.le_add_left _ _
  exact (Multiset.coe_le.mpr hslice.subperm).trans hpending

theorem runId_next : ((flushMachine Item).next s l).runId = s.runId := by
  obtain hs' | ⟨items, -, hs'⟩ | ⟨-, hs'⟩ | ⟨f, b, rest, n, -, hs'⟩ | ⟨f, b, rest, n, -, hs'⟩ |
    ⟨f, unsent, -, hs'⟩ := next_cases (s := s) l
  all_goals rw [hs']

/-- Every batch names the run of the observer. -/
theorem addressed_next (h : s.AllBatches fun b => b.runId = s.runId) :
    ((flushMachine Item).next s l).AllBatches fun b =>
      b.runId = ((flushMachine Item).next s l).runId := by
  rw [runId_next]
  refine allBatches_next h fun b hb => ?_
  unfold boundedObservationBatches at hb
  rw [List.mem_filter, List.mem_map] at hb
  obtain ⟨⟨index, -, rfl⟩, -⟩ := hb
  rfl

/-- Nothing is lost, and every batch is sendable, names the run and holds observed items
only. -/
structure ObserverState.Sound (s : ObserverState Item) : Prop where
  conserved : s.Conserved
  bounded : s.Bounded
  addressed : s.AllBatches fun b => b.runId = s.runId
  drawn : s.AllBatches fun b => b.DrawnFrom s.observed

theorem sound_next (h : s.Sound) : ((flushMachine Item).next s l).Sound where
  conserved := conserved_next h.conserved
  bounded := bounded_next h.bounded
  addressed := addressed_next h.addressed
  drawn := drawn_next h.conserved h.drawn

theorem sound_new (runId : String) : (ObserverState.new runId : ObserverState Item).Sound where
  conserved k := by simp [ObserverState.new, ObserverState.delivered, ObserverState.inFlight]
  bounded := by simp [ObserverState.Bounded, ObserverState.new]
  addressed := by simp [ObserverState.AllBatches, ObserverState.new]
  drawn := by simp [ObserverState.AllBatches, ObserverState.new]

/-- The batch that the flush `f` sends next. -/
def ObserverState.nextBatch (s : ObserverState Item) (f : ℕ) : Option (ObservationBatch Item) :=
  match s.flushes[f]? with
  | some (.sending next _ _) => some next
  | _ => none

theorem ObserverState.AllBatches.nextBatch {P : ObservationBatch Item → Prop} (h : s.AllBatches P)
    {f : ℕ} {b : ObservationBatch Item} (hb : s.nextBatch f = some b) : P b := by
  unfold ObserverState.nextBatch at hb
  split at hb
  · rename_i next rest n hf
    cases hb
    exact h.2 _ (List.mem_of_getElem? hf) _ List.mem_cons_self
  · cases hb

/-- What a step adds to the delivered items. -/
def ObserverState.newlyDelivered (s : ObserverState Item) : ObserverStep Item → ∀ k, List (Item k)
  | .send f true => fun k => ((s.nextBatch f).map fun b => b.items k).getD []
  | _ => fun _ => []

theorem delivered_next (k : ObservationKind) :
    ((flushMachine Item).next s l).delivered k = s.delivered k ++ s.newlyDelivered l k := by
  cases l with
  | observe items => exact (List.append_nil _).symm
  | flush => exact (List.append_nil _).symm
  | send f delivers =>
      simp only [flushMachine]
      split
      · rename_i next rest n hf
        have hnext : s.nextBatch f = some next := by simp [ObserverState.nextBatch, hf]
        cases delivers <;> simp [ObserverState.newlyDelivered, hnext, ObserverState.delivered]
      · rename_i hf
        have hnext : s.nextBatch f = none := by
          unfold ObserverState.nextBatch
          split
          · rename_i next rest n hsending
            exact absurd hsending (hf next rest n)
          · rfl
        cases delivers <;> simp [ObserverState.newlyDelivered, hnext]
  | restore f =>
      simp only [flushMachine, ObserverState.newlyDelivered, List.append_nil]
      split <;> rfl

/-- The counts after a phase change that records no delivery. -/
theorem counted_set {f : ℕ} {p' : FlushPhase Item} (h : s.Counted)
    (hp' : p'.sentCount? = none) {t : ObserverState Item}
    (hflushes : t.flushes = s.flushes.set f p') (hdel : t.deliveries = s.deliveries) :
    t.Counted := by
  refine ⟨fun d hd => ?_, fun g p n hg hn => ?_⟩
  · rw [hflushes, List.length_set]
    exact h.1 d (hdel ▸ hd)
  · have hby : t.deliveredBy g = s.deliveredBy g := by simp [ObserverState.deliveredBy, hdel]
    rw [hby]
    rw [hflushes, List.getElem?_set] at hg
    split at hg
    · split at hg
      · cases hg
        simp [hp'] at hn
      · cases hg
    · exact h.2 g p n hg hn

theorem counted_next (h : s.Counted) : ((flushMachine Item).next s l).Counted := by
  obtain hs' | ⟨items, -, hs'⟩ | ⟨-, hs'⟩ | ⟨f, b, rest, n, hf, hs'⟩ | ⟨f, b, rest, n, hf, hs'⟩ |
    ⟨f, unsent, hf, hs'⟩ := next_cases (s := s) l
  · rw [hs']
    exact h
  · rw [hs']
    exact h
  · rw [hs']
    refine ⟨fun d hd => ?_, fun g p n hg hn => ?_⟩
    · have := h.1 d hd
      simp only [List.length_append, List.length_singleton]
      omega
    · by_cases hlt : g < s.flushes.length
      · rw [List.getElem?_append_left hlt] at hg
        exact h.2 g p n hg hn
      · -- The new flush has no delivery yet.
        have hnone : s.deliveries.filter (fun d => d.1 = g) = [] := by
          rw [List.filter_eq_nil_iff]
          intro d hd
          have := h.1 d hd
          simp only [decide_eq_true_eq]
          omega
        rw [List.getElem?_append_right (by omega), List.getElem?_singleton] at hg
        split at hg
        · cases hg
          rw [FlushPhase.sentCount?_loop, Option.some.injEq] at hn
          simp [ObserverState.deliveredBy, hnone, ← hn]
        · cases hg
  · rw [hs']
    have hlt : f < s.flushes.length := (List.getElem?_eq_some_iff.mp hf).1
    refine ⟨fun d hd => ?_, fun g p m hg hm => ?_⟩
    · rw [List.length_set]
      rw [List.mem_append, List.mem_singleton] at hd
      rcases hd with hd | rfl
      · exact h.1 d hd
      · exact hlt
    · simp only [ObserverState.deliveredBy, List.filter_append, List.map_append, List.sum_append]
      simp only [List.getElem?_set, hlt, if_true] at hg
      by_cases hgf : f = g
      · subst hgf
        have hold := h.2 f _ n hf rfl
        simp only [if_true, Option.some.injEq] at hg
        rw [← hg, FlushPhase.sentCount?_loop, Option.some.injEq] at hm
        rw [← hm, hold]
        simp [ObserverState.deliveredBy]
      · simp only [hgf, if_false] at hg
        rw [h.2 g p m hg hm]
        simp [ObserverState.deliveredBy, hgf]
  · rw [hs']
    exact counted_set h rfl rfl rfl
  · rw [hs']
    exact counted_set h rfl rfl rfl

end Counts

/-! ## Order -/

/-- The step starts a flush only when no other flush is running. -/
def NoOverlap (s : ObserverState Item) : ObserverStep Item → Prop
  | .flush => ∀ p ∈ s.flushes, p.ended = true
  | _ => True

/-- Only the last flush is running, and the items are in the order of observation. -/
def ObserverState.Ordered (s : ObserverState Item) : Prop :=
  (∀ p ∈ s.flushes.dropLast, p.ended = true) ∧
    ∀ k, s.delivered k ++ s.inFlight k ++ s.pending k = s.observed k

section Order

variable {s : ObserverState Item} {l : ObserverStep Item}

theorem flatMap_ended {flushes : List (FlushPhase Item)} (h : ∀ p ∈ flushes, p.ended = true)
    (k : ObservationKind) : flushes.flatMap (fun p => p.inFlight k) = [] := by
  rw [List.flatMap_eq_nil_iff]
  exact fun p hp => FlushPhase.inFlight_of_ended (h p hp) k

/-- A running flush is the last one. -/
theorem running_split (h : s.Ordered) {f : ℕ} {p : FlushPhase Item}
    (hf : s.flushes[f]? = some p) (hp : p.ended = false) :
    ∃ before, (∀ x ∈ before, x.ended = true) ∧ s.flushes = before ++ [p] ∧
      ∀ p', s.flushes.set f p' = before ++ [p'] := by
  obtain ⟨before, after, hsplit, -, hset⟩ := exists_split hf
  have hnil : after = [] := by
    by_contra hne
    have hmem : p ∈ s.flushes.dropLast := by
      rw [hsplit, List.dropLast_append_of_ne_nil (by simp), List.dropLast_cons_of_ne_nil hne]
      simp
    have hend := h.1 p hmem
    simp [hp] at hend
  subst hnil
  refine ⟨before, fun x hx => h.1 x ?_, hsplit, hset⟩
  rw [hsplit, List.dropLast_concat]
  exact hx

theorem ordered_next (hl : NoOverlap s l) (h : s.Ordered) :
    ((flushMachine Item).next s l).Ordered := by
  obtain hs' | ⟨items, -, hs'⟩ | ⟨rfl, hs'⟩ | ⟨f, b, rest, n, hf, hs'⟩ |
    ⟨f, b, rest, n, hf, hs'⟩ | ⟨f, unsent, hf, hs'⟩ := next_cases (s := s) l
  · rw [hs']
    exact h
  · rw [hs']
    refine ⟨h.1, fun k => ?_⟩
    have hk := h.2 k
    simp only [ObserverState.delivered, ObserverState.inFlight] at hk ⊢
    rw [← hk]
    simp
  · rw [hs']
    refine ⟨fun p hp => hl p (by simpa using hp), fun k => ?_⟩
    have hk := h.2 k
    simp only [ObserverState.delivered, ObserverState.inFlight, List.flatMap_append,
      List.flatMap_singleton, flatMap_ended hl] at hk ⊢
    rw [← hk]
    simp [merge_bounded, ObserverState.snapshot]
  all_goals
    obtain ⟨before, hended, hsplit, hset⟩ := running_split h hf rfl
    rw [hs']
    refine ⟨fun p hp => hended p (by simpa [hset] using hp), fun k => ?_⟩
    have hk := h.2 k
    simp only [ObserverState.delivered, ObserverState.inFlight, hset, List.flatMap_append,
      List.flatMap_singleton, flatMap_ended hended] at hk ⊢
    rw [hsplit, List.flatMap_append, flatMap_ended hended] at hk
    rw [← hk]
  · simp
  · simp [mergeObservationBatches]
  · simp

end Order

/-- A flush loses nothing and duplicates nothing. After any interleaving of observations
and flushes, every observed item is delivered, held by one flush, or pending; every
batch handed to `send` is non-empty and within the limits of the client and of the
server; a flush that returned counted its deliveries; and if no two flushes overlapped,
the items of each kind are in the order of observation, the running flush's between the
delivered and the pending. -/
theorem flush_conserves (runId : String) (ls : List (ObserverStep Item)) :
    let s := (flushMachine Item).exec (.new runId) ls
    (∀ k, (s.observed k : Multiset (Item k)) = s.delivered k + s.inFlight k + s.pending k) ∧
    (∀ b ∈ s.handed, 0 < b.itemCount ∧
      ∀ k, (b.items k).length ≤ k.batchLimit ∧ (b.items k).length ≤ k.requestMaxLength) ∧
    (∀ f n, s.flushes[f]? = some (.returned n) → n = s.deliveredBy f) ∧
    ((flushMachine Item).Along NoOverlap (.new runId) ls →
      (∀ k, s.delivered k ++ s.inFlight k ++ s.pending k = s.observed k) ∧
      ((∀ p ∈ s.flushes, p.ended = true) → ∀ k, s.delivered k ++ s.pending k = s.observed k)) := by
  intro s
  have hall := Machine.along_true (M := flushMachine Item) (.new runId) ls
  have hsound : s.Sound :=
    Machine.Along.invariant (fun t l _ ht => sound_next ht) hall (sound_new runId)
  have hcounted : s.Counted := by
    refine Machine.Along.invariant (fun t l _ ht => counted_next ht) hall ?_
    simp [ObserverState.Counted, ObserverState.new]
  refine ⟨hsound.conserved, fun b hb => ?_, fun f n hf => hcounted.2 f _ n hf rfl, fun hls => ?_⟩
  · obtain ⟨hpos, hle⟩ := hsound.bounded.1 b hb
    exact ⟨hpos, fun k => ⟨hle k, (hle k).trans k.batchLimit_le_requestMaxLength⟩⟩
  · have hordered : s.Ordered := by
      refine Machine.Along.invariant (fun t l hl ht => ordered_next hl ht) hls ?_
      simp [ObserverState.Ordered, ObserverState.new, ObserverState.delivered,
        ObserverState.inFlight]
    refine ⟨hordered.2, fun hended k => ?_⟩
    have hk := hordered.2 k
    rwa [ObserverState.inFlight, flatMap_ended hended, List.append_nil] at hk

end VoxBench.Observability
