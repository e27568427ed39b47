import Mathlib.Data.List.Count
import Mathlib.Data.List.Nodup
import Mathlib.Data.List.Sort

/-!
# Relational tables as keyed lists of rows

A table is the list of its rows together with the uniqueness of its key, so that
a duplicate row cannot be stored. Updates map over the rows and may not change a
key; inserts carry the absence of the key they add. Rows that belong to a parent
row are kept in order by an ordinal: `replaceChildren` deletes and re-inserts all
of a parent's rows, `children` reads them back in ordinal order.

## Main definitions

* `Table` — rows with a unique key; `Table.update`, `Table.insert`, `Table.find?`.
* `ChildRow`, `replaceChildren`, `children` — ordered rows of a parent.
* `children_replaceChildren_self`, `children_replaceChildren_of_ne` — what a
  replacement stores, and its frame.
-/

namespace VoxBench.Lib

universe u v

/-- Rows with pairwise different keys. -/
structure Table (ρ : Type u) {κ : Type v} (key : ρ → κ) where
  rows : List ρ
  nodup : (rows.map key).Nodup

namespace Table

variable {ρ : Type u} {κ : Type v} {key : ρ → κ}

instance : EmptyCollection (Table ρ key) := ⟨⟨[], by simp⟩⟩

/-- `UPDATE`: change rows in place, keeping every key. -/
def update (t : Table ρ key) (f : ρ → ρ) (hf : ∀ r, key (f r) = key r) : Table ρ key where
  rows := t.rows.map f
  nodup := by
    have hmap : (t.rows.map f).map key = t.rows.map key := by
      rw [List.map_map]; exact List.map_congr_left fun r _ => hf r
    rw [hmap]; exact t.nodup

/-- `INSERT` of a row whose key is not in the table. -/
def insert (t : Table ρ key) (r : ρ) (h : key r ∉ t.rows.map key) : Table ρ key where
  rows := t.rows ++ [r]
  nodup := by
    rw [List.map_append]
    refine t.nodup.append (by simp) ?_
    simpa using h

/-- The row under a key. -/
def find? [DecidableEq κ] (t : Table ρ key) (k : κ) : Option ρ :=
  t.rows.find? fun r => key r = k

@[simp] theorem rows_empty : (∅ : Table ρ key).rows = [] := rfl
@[simp] theorem rows_update (t : Table ρ key) (f : ρ → ρ) (hf : ∀ r, key (f r) = key r) :
    (t.update f hf).rows = t.rows.map f := rfl
@[simp] theorem rows_insert (t : Table ρ key) (r : ρ) (h : key r ∉ t.rows.map key) :
    (t.insert r h).rows = t.rows ++ [r] := rfl

@[ext] theorem ext {t t' : Table ρ key} (h : t.rows = t'.rows) : t = t' := by
  cases t; cases t'
  congr

theorem eq_of_key_eq {t : Table ρ key} {r r' : ρ} (hr : r ∈ t.rows) (hr' : r' ∈ t.rows)
    (h : key r = key r') : r = r' :=
  List.inj_on_of_nodup_map t.nodup hr hr' h

theorem find?_eq_some_iff [DecidableEq κ] {t : Table ρ key} {k : κ} {r : ρ} :
    t.find? k = some r ↔ r ∈ t.rows ∧ key r = k := by
  constructor
  · intro h
    exact ⟨List.mem_of_find?_eq_some h, by simpa using List.find?_some h⟩
  · rintro ⟨hr, rfl⟩
    cases hf : t.find? (key r) with
    | none =>
        have := List.find?_eq_none.mp hf r hr
        simp at this
    | some r' =>
        have hr' : r' ∈ t.rows := List.mem_of_find?_eq_some hf
        have hk : key r' = key r := by simpa using List.find?_some hf
        rw [eq_of_key_eq hr' hr hk]

theorem find?_eq_none_iff [DecidableEq κ] {t : Table ρ key} {k : κ} :
    t.find? k = none ↔ ∀ r ∈ t.rows, key r ≠ k := by
  simp [find?, List.find?_eq_none]

/-- A condition that pins the key down holds of at most one row, so that an
update under it reports one row exactly when some row meets it. -/
theorem countP_eq_one_iff {t : Table ρ key} {p : ρ → Bool} {k : κ}
    (hp : ∀ r, p r = true → key r = k) :
    t.rows.countP p = 1 ↔ ∃ r ∈ t.rows, p r = true := by
  have hle : t.rows.countP p ≤ 1 := by
    have hnodup : ((t.rows.filter p).map key).Nodup :=
      (List.filter_sublist.map key).nodup t.nodup
    have hconst : ∀ x ∈ (t.rows.filter p).map key, x = k := by
      intro x hx
      obtain ⟨r, hr, rfl⟩ := List.mem_map.mp hx
      exact hp r (List.mem_filter.mp hr).2
    have hlen := List.eq_replicate_of_mem hconst
    rw [hlen, List.nodup_replicate, List.length_map] at hnodup
    rwa [List.countP_eq_length_filter]
  constructor
  · intro h
    have hpos : 0 < t.rows.countP p := by omega
    simpa using List.countP_pos_iff.mp hpos
  · intro h
    have hpos : 0 < t.rows.countP p := List.countP_pos_iff.mpr h
    omega

end Table

/-! ## Ordered rows of a parent -/

/-- A row of a child table: the parent it belongs to, its position, its content. -/
structure ChildRow (κ : Type v) (α : Type u) where
  parent : κ
  ordinal : ℕ
  item : α

section Children

variable {κ : Type v} {α : Type u} [DecidableEq κ]

/-- Delete every row of the parent `k`, then insert `items` with their positions. -/
def replaceChildren (k : κ) (items : List α) (rows : List (ChildRow κ α)) :
    List (ChildRow κ α) :=
  rows.filter (fun r => r.parent ≠ k) ++
    items.zipIdx.map fun x => { parent := k, ordinal := x.2, item := x.1 }

/-- The items of the parent `k`, ordered by their stored position. -/
def children (k : κ) (rows : List (ChildRow κ α)) : List α :=
  ((rows.filter fun r => r.parent = k).insertionSort (fun r r' => r.ordinal ≤ r'.ordinal)).map
    ChildRow.item

/-- A replacement stores exactly its items, in their order, and nothing of what
the parent had before. -/
@[simp] theorem children_replaceChildren_self (k : κ) (items : List α)
    (rows : List (ChildRow κ α)) : children k (replaceChildren k items rows) = items := by
  set stored : List (ChildRow κ α) :=
    items.zipIdx.map fun x => { parent := k, ordinal := x.2, item := x.1 } with hstored
  have hold : (rows.filter fun r => r.parent ≠ k).filter (fun r => r.parent = k) = [] := by
    simp [List.filter_filter]
  have hnew : stored.filter (fun r => r.parent = k) = stored := by
    refine List.filter_eq_self.mpr fun r hr => ?_
    obtain ⟨x, _, rfl⟩ := List.mem_map.mp hr
    simp
  have hsorted : stored.Pairwise fun r r' => r.ordinal ≤ r'.ordinal := by
    rw [hstored, List.pairwise_map]
    have hidx : (items.zipIdx.map Prod.snd).Pairwise (· ≤ ·) := by
      rw [List.zipIdx_map_snd]
      exact List.pairwise_le_range'
    exact List.pairwise_map.mp hidx
  have hitems : stored.map ChildRow.item = items := by
    rw [hstored, List.map_map]
    exact List.zipIdx_map_fst 0 items
  simp only [children, replaceChildren, List.filter_append, ← hstored]
  rw [hold, hnew, List.nil_append, hsorted.insertionSort_eq, hitems]

/-- A replacement leaves the rows of every other parent as they were. -/
theorem children_replaceChildren_of_ne {k k' : κ} (h : k' ≠ k) (items : List α)
    (rows : List (ChildRow κ α)) :
    children k' (replaceChildren k items rows) = children k' rows := by
  have hold : (rows.filter fun r => r.parent ≠ k).filter (fun r => r.parent = k') =
      rows.filter fun r => r.parent = k' := by
    rw [List.filter_filter]
    refine List.filter_congr fun r _ => ?_
    by_cases hr : r.parent = k' <;> simp [hr, h]
  have hnew : (items.zipIdx.map fun x : α × ℕ =>
      ({ parent := k, ordinal := x.2, item := x.1 } : ChildRow κ α)).filter
        (fun r => r.parent = k') = [] := by
    refine List.filter_eq_nil_iff.mpr fun r hr => ?_
    obtain ⟨x, _, rfl⟩ := List.mem_map.mp hr
    simpa using h.symm
  simp only [children, replaceChildren, List.filter_append]
  rw [hold, hnew, List.append_nil]

end Children
end VoxBench.Lib
