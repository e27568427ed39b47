import Mathlib.Data.List.Basic
import Mathlib.Data.List.Nodup
import Mathlib.Logic.Function.Basic

/-!
# Writes to places

What some writes, one after the other, leave at each place.

## Main results

* `apply_of_notMem` — a place that is not written keeps what it has.
* `apply_of_mem` — a place that is written once has what was written.
-/

namespace VoxBench.Lib.Writes

universe u v

variable {α : Type u} {β : Type v} [DecidableEq α]

def apply (store : α → Option β) (writes : List (α × β)) : α → Option β :=
  writes.foldl (fun store write => Function.update store write.1 (some write.2)) store

variable {store : α → Option β} {writes more : List (α × β)} {place : α} {value : β}

theorem apply_append : apply store (writes ++ more) = apply (apply store writes) more :=
  List.foldl_append

theorem apply_of_notMem (h : place ∉ writes.map Prod.fst) : apply store writes place = store place := by
  induction writes generalizing store with
  | nil => rfl
  | cons write writes ih =>
      rw [List.map_cons, List.mem_cons, not_or] at h
      rw [apply, List.foldl_cons, ← apply, ih h.2, Function.update_of_ne h.1]

theorem apply_of_mem (hnodup : (writes.map Prod.fst).Nodup) (h : (place, value) ∈ writes) :
    apply store writes place = some value := by
  obtain ⟨before, after, rfl⟩ := List.append_of_mem h
  rw [List.map_append, List.map_cons, List.nodup_append, List.nodup_cons] at hnodup
  rw [apply_append, apply, List.foldl_cons, ← apply, apply_of_notMem hnodup.2.1.1,
    Function.update_self]

end VoxBench.Lib.Writes
