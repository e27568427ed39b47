import VoxBench.Lib.Grouping
import Mathlib.Algebra.Order.BigOperators.Group.List
import Mathlib.Algebra.Order.Field.Basic
import Mathlib.Data.List.GetD
import Mathlib.Tactic.Linarith

/-!
# Averages

The mean and the median of a list of numbers, exactly. Both depend on the numbers and not on
their order, and lie between the smallest and the largest of them.
-/

namespace VoxBench.Lib.Average

universe u

variable {α : Type u} [LinearOrder α]

section Orders

variable {l l' : List α}

theorem sortOn_eq_of_perm (h : l.Perm l') : sortOn id l = sortOn id l' := by
  refine List.Perm.eq_of_pairwise ?_ (pairwise_sortOn id l) (pairwise_sortOn id l')
    ((perm_sortOn id l).trans (h.trans (perm_sortOn id l').symm))
  intro a b _ _ hab hba
  exact le_antisymm hab hba

theorem min?_eq_of_perm (h : l.Perm l') : l.min? = l'.min? := by
  apply Option.ext
  intro a
  simp only [List.min?_eq_some_iff, h.mem_iff]

theorem max?_eq_of_perm (h : l.Perm l') : l.max? = l'.max? := by
  apply Option.ext
  intro a
  simp only [List.max?_eq_some_iff, h.mem_iff]

end Orders

variable [Field α]

/-- The sum over the number of the numbers. -/
def mean (data : List α) : α := data.sum / data.length

/-- The number in the middle of the sorted ones, or the mean of the two that are there. -/
def median (data : List α) : α :=
  let sorted := sortOn id data
  if data.length % 2 = 1 then sorted.getD (data.length / 2) 0
  else (sorted.getD (data.length / 2 - 1) 0 + sorted.getD (data.length / 2) 0) / 2

variable {data data' : List α} {lo hi : α}

omit [LinearOrder α] in
theorem mean_eq_of_perm (h : data.Perm data') : mean data = mean data' := by
  simp only [mean, h.sum_eq, h.length_eq]

theorem median_eq_of_perm (h : data.Perm data') : median data = median data' := by
  simp only [median, sortOn_eq_of_perm h, h.length_eq]

/-- A place in the sorted list holds one of the numbers. -/
theorem getD_sortOn_mem {i : ℕ} (hi : i < data.length) : (sortOn id data).getD i 0 ∈ data := by
  have hlength : (sortOn id data).length = data.length := (perm_sortOn id data).length_eq
  rw [List.getD_eq_getElem _ _ (by omega), ← mem_sortOn id]
  exact List.getElem_mem _

variable [IsStrictOrderedRing α]

theorem mean_mem_Icc (hne : data ≠ []) (hlo : ∀ x ∈ data, lo ≤ x) (hhi : ∀ x ∈ data, x ≤ hi) :
    lo ≤ mean data ∧ mean data ≤ hi := by
  have hpos : (0 : α) < data.length := by
    exact_mod_cast List.length_pos_iff.mpr hne
  have hlower := List.card_nsmul_le_sum data lo hlo
  have hupper := List.sum_le_card_nsmul data hi hhi
  rw [nsmul_eq_mul] at hlower hupper
  simp only [mean]
  constructor
  · rw [le_div_iff₀ hpos, mul_comm]
    exact hlower
  · rw [div_le_iff₀ hpos, mul_comm]
    exact hupper

theorem median_mem_Icc (hne : data ≠ []) (hlo : ∀ x ∈ data, lo ≤ x) (hhi : ∀ x ∈ data, x ≤ hi) :
    lo ≤ median data ∧ median data ≤ hi := by
  have hpos : 0 < data.length := List.length_pos_iff.mpr hne
  have hupper : (sortOn id data).getD (data.length / 2) 0 ∈ data := getD_sortOn_mem (by omega)
  have hlower : (sortOn id data).getD (data.length / 2 - 1) 0 ∈ data := getD_sortOn_mem (by omega)
  simp only [median]
  by_cases hodd : data.length % 2 = 1
  · rw [if_pos hodd]
    exact ⟨hlo _ hupper, hhi _ hupper⟩
  · rw [if_neg hodd]
    have h₁ := hlo _ hlower
    have h₂ := hlo _ hupper
    have h₃ := hhi _ hlower
    have h₄ := hhi _ hupper
    constructor <;> linarith

end VoxBench.Lib.Average
