import Mathlib.Data.List.Basic

/-!
# Slices of a list

`slice m i xs` is the Python slice `xs[i * m : (i + 1) * m]`. Consecutive slices
put together give the list back.
-/

namespace VoxBench.Lib

universe u v

variable {α : Type u} {β : Type v}

/-- The `i`-th slice of length `m`; the last ones may be shorter or empty. -/
def slice (m i : ℕ) (xs : List α) : List α := (xs.drop (i * m)).take m

theorem length_slice_le (m i : ℕ) (xs : List α) : (slice m i xs).length ≤ m := by
  simp only [slice, List.length_take]
  omega

theorem flatMap_range_slice (m n : ℕ) (xs : List α) :
    (List.range n).flatMap (fun i => slice m i xs) = xs.take (n * m) := by
  induction n with
  | zero => simp
  | succ n ih =>
      rw [List.range_succ, List.flatMap_append, ih, Nat.succ_mul, List.take_add]
      simp [slice]

/-- A slice does not depend on what comes after it. -/
theorem slice_append_of_le {m i : ℕ} {xs ys : List α} (h : (i + 1) * m ≤ xs.length) :
    slice m i (xs ++ ys) = slice m i xs := by
  rw [Nat.succ_mul] at h
  unfold slice
  rw [List.drop_append_of_le_length (by omega),
    List.take_append_of_le_length (by rw [List.length_drop]; omega)]

/-- Enough slices cover the list. -/
theorem flatMap_range_slice_eq {m n : ℕ} {xs : List α} (h : xs.length ≤ n * m) :
    (List.range n).flatMap (fun i => slice m i xs) = xs := by
  rw [flatMap_range_slice, List.take_of_length_le h]

theorem le_ceilDiv_mul {m n : ℕ} (hm : 0 < m) : n ≤ (n + m - 1) / m * m := by
  have h := Nat.div_add_mod (n + m - 1) m
  have hlt := Nat.mod_lt (n + m - 1) hm
  rw [Nat.mul_comm] at h
  omega

/-- Elements that contribute nothing may be left out. -/
theorem flatMap_filter {p : α → Bool} {f : α → List β} {xs : List α}
    (h : ∀ x ∈ xs, p x = false → f x = []) : (xs.filter p).flatMap f = xs.flatMap f := by
  induction xs with
  | nil => rfl
  | cons x xs ih =>
      have hxs := ih fun y hy => h y (List.mem_cons_of_mem x hy)
      by_cases hx : p x = true
      · rw [List.filter_cons_of_pos hx, List.flatMap_cons, List.flatMap_cons, hxs]
      · have hnil := h x List.mem_cons_self (by simpa using hx)
        rw [List.filter_cons_of_neg hx, List.flatMap_cons, hnil, hxs, List.nil_append]

end VoxBench.Lib
