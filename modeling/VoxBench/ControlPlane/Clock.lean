import VoxBench.ControlPlane.Models
import Mathlib.Data.List.Sort

/-!
# Naive and aware times

Python compares and subtracts two `datetime` values only when both carry a UTC offset or
neither does. A sort compares its elements until their order is known, so it raises as soon
as it is given times of both kinds.

## Main definitions

* `Comparable` — times of one kind.
* `sortedBy` — a stable sort whose keys hold a time.

## Main results

* `exists_sortedBy_iff` — when a sort returns.
-/

namespace VoxBench.ControlPlane

inductive ClockError where
  /-- `TypeError`: a naive and an aware time are compared or subtracted. -/
  | typeError
  deriving DecidableEq, Repr

/-- The time carries a UTC offset. -/
def Datetime.isAware (d : Datetime) : Bool := d.utcoffset.isSome

@[simp] theorem Datetime.isAware_asUtc (d : Datetime) : d.asUtc.isAware = true := rfl

/-- Times that can be compared with each other. -/
def Comparable (times : List Datetime) : Prop :=
  ∀ a ∈ times, ∀ b ∈ times, a.isAware = b.isAware

instance (times : List Datetime) : Decidable (Comparable times) :=
  inferInstanceAs (Decidable (∀ a ∈ times, ∀ b ∈ times, a.isAware = b.isAware))

theorem comparable_of_aware {times : List Datetime} (h : ∀ t ∈ times, t.isAware = true) :
    Comparable times := by
  intro a ha b hb
  rw [h a ha, h b hb]

section Sorting

variable {α : Type} (time : α → Datetime) (r : α → α → Prop) [DecidableRel r]

/-- `sorted` with keys that start with a time. -/
def sortedBy (items : List α) : Except ClockError (List α) :=
  if Comparable (items.map time) then .ok (items.insertionSort r) else .error .typeError

variable {time r} {items sorted : List α}

theorem exists_sortedBy_iff :
    (∃ sorted, sortedBy time r items = .ok sorted) ↔ Comparable (items.map time) := by
  unfold sortedBy
  split <;> simp_all

theorem perm_of_sortedBy (h : sortedBy time r items = .ok sorted) : sorted.Perm items := by
  unfold sortedBy at h
  split at h
  · cases h
    exact List.perm_insertionSort r items
  · cases h

theorem pairwise_of_sortedBy [Std.Total r] [IsTrans α r] (h : sortedBy time r items = .ok sorted) :
    sorted.Pairwise r := by
  unfold sortedBy at h
  split at h
  · cases h
    exact List.pairwise_insertionSort r items
  · cases h

end Sorting

end VoxBench.ControlPlane
