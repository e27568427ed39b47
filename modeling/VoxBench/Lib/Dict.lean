import Mathlib.Data.List.Nodup

/-!
# Insertion-ordered dictionaries

A dictionary is the list of its items in insertion order. Assigning to a key that is present
changes the item where it stands; a new key goes to the end.

## Main definitions

* `Dict.get?`, `Dict.set` — lookup and assignment.

## Main results

* `Dict.get?_set` — a lookup after an assignment.
* `Dict.nodup_keys_set` — assignments keep the keys pairwise different.
-/

namespace VoxBench.Lib.Dict

universe u v

variable {κ : Type u} {α : Type v}

/-- The keys, in insertion order. -/
def keys (d : List (κ × α)) : List κ := d.map Prod.fst

@[simp] theorem keys_nil : keys ([] : List (κ × α)) = [] := rfl
@[simp] theorem keys_cons (f : κ × α) (d : List (κ × α)) : keys (f :: d) = f.1 :: keys d := rfl

variable [DecidableEq κ]

/-- The value under a key. -/
def get? (d : List (κ × α)) (k : κ) : Option α := (d.find? fun f => f.1 = k).map Prod.snd

/-- Assign to a key: in place when it is present, at the end otherwise. -/
def set : List (κ × α) → κ → α → List (κ × α)
  | [], k, v => [(k, v)]
  | f :: d, k, v => if f.1 = k then (k, v) :: d else f :: set d k v

@[simp] theorem get?_nil (k : κ) : get? ([] : List (κ × α)) k = none := rfl

theorem get?_cons (f : κ × α) (d : List (κ × α)) (k : κ) :
    get? (f :: d) k = if f.1 = k then some f.2 else get? d k := by
  by_cases h : f.1 = k <;> simp [get?, h]

theorem get?_set (d : List (κ × α)) (k k' : κ) (v : α) :
    get? (set d k v) k' = if k = k' then some v else get? d k' := by
  induction d with
  | nil => simp [set, get?_cons]
  | cons f d ih =>
      by_cases hf : f.1 = k
      · by_cases hk : k = k' <;> simp [set, hf, get?_cons, hk]
      · simp only [set, hf, if_false, get?_cons, ih]
        by_cases hk : k = k'
        · subst hk
          simp [hf]
        · simp [hk]

theorem set_set (d : List (κ × α)) (k : κ) (v v' : α) : set (set d k v) k v' = set d k v' := by
  induction d with
  | nil => simp [set]
  | cons f d ih =>
      by_cases hf : f.1 = k
      · simp [set, hf]
      · simp [set, hf, ih]

theorem get?_eq_none_iff {d : List (κ × α)} {k : κ} : get? d k = none ↔ k ∉ keys d := by
  simp only [get?, Option.map_eq_none_iff, List.find?_eq_none, decide_eq_true_eq, keys,
    List.mem_map, not_exists, not_and]

theorem isSome_get?_iff {d : List (κ × α)} {k : κ} : (get? d k).isSome ↔ k ∈ keys d := by
  rw [← not_iff_not, ← get?_eq_none_iff]
  simp

theorem mem_of_get?_eq_some {d : List (κ × α)} {k : κ} {v : α} (h : get? d k = some v) :
    (k, v) ∈ d := by
  obtain ⟨f, hf, rfl⟩ := Option.map_eq_some_iff.mp h
  have hk : f.1 = k := by simpa using List.find?_some hf
  subst hk
  exact List.mem_of_find?_eq_some hf

theorem get?_eq_some_of_mem {d : List (κ × α)} (hd : (keys d).Nodup) {k : κ} {v : α}
    (h : (k, v) ∈ d) : get? d k = some v := by
  induction d with
  | nil => simp at h
  | cons f d ih =>
      obtain ⟨hf, hd⟩ := List.nodup_cons.mp hd
      rw [get?_cons]
      rcases List.mem_cons.mp h with rfl | h
      · simp
      · have hne : f.1 ≠ k := fun hk => hf (hk ▸ List.mem_map_of_mem (f := Prod.fst) h)
        simp [hne, ih hd h]

theorem keys_set (d : List (κ × α)) (k : κ) (v : α) :
    keys (set d k v) = if k ∈ keys d then keys d else keys d ++ [k] := by
  induction d with
  | nil => simp [set]
  | cons f d ih =>
      by_cases hf : f.1 = k
      · simp [set, hf]
      · have hne : ¬ k = f.1 := fun h => hf h.symm
        by_cases hk : k ∈ keys d <;> simp [set, hf, hne, ih, hk]

theorem mem_keys_set {d : List (κ × α)} {k k' : κ} {v : α} :
    k' ∈ keys (set d k v) ↔ k' = k ∨ k' ∈ keys d := by
  rw [keys_set]
  by_cases hk : k ∈ keys d
  · simp only [hk, if_true]
    exact ⟨Or.inr, fun h => h.elim (fun h => h ▸ hk) id⟩
  · simp [hk, or_comm]

theorem set_ne_nil (d : List (κ × α)) (k : κ) (v : α) : set d k v ≠ [] := by
  intro hnil
  have hkey : k ∈ keys (set d k v) := mem_keys_set.mpr (Or.inl rfl)
  rw [hnil] at hkey
  cases hkey

/-- A new key goes to the end. -/
theorem set_of_not_mem {d : List (κ × α)} {k : κ} {v : α} (h : k ∉ keys d) :
    set d k v = d ++ [(k, v)] := by
  induction d with
  | nil => rfl
  | cons f d ih =>
      rw [keys_cons, List.mem_cons, not_or] at h
      rw [set, if_neg (Ne.symm h.1), ih h.2, List.cons_append]

/-- Items with pairwise different keys are all added at the end. -/
theorem foldl_set_of_nodup {key : α → κ} {d : List (κ × α)} {items : List α}
    (h : (keys d ++ items.map key).Nodup) :
    items.foldl (fun d a => set d (key a) a) d = d ++ items.map fun a => (key a, a) := by
  induction items generalizing d with
  | nil => simp
  | cons a items ih =>
      have hnew : key a ∉ keys d := by
        intro hmem
        exact (List.nodup_append.mp h).2.2 _ hmem _ List.mem_cons_self rfl
      rw [List.foldl_cons, set_of_not_mem hnew, ih (by simpa [keys] using h)]
      simp

/-- Where the keys of the items differ, an item is found under its key. -/
theorem get?_foldl_set_of_mem {key : α → κ} {items : List α} (h : (items.map key).Nodup) {item : α}
    (hitem : item ∈ items) :
    get? (items.foldl (fun d item => set d (key item) item) []) (key item) = some item := by
  have hfresh : (keys ([] : List (κ × α)) ++ items.map key).Nodup := by simpa using h
  rw [foldl_set_of_nodup hfresh, List.nil_append]
  apply get?_eq_some_of_mem
  · simpa [keys, Function.comp_def] using h
  · exact List.mem_map.mpr ⟨item, hitem, rfl⟩

theorem nodup_keys_set {d : List (κ × α)} (hd : (keys d).Nodup) (k : κ) (v : α) :
    (keys (set d k v)).Nodup := by
  rw [keys_set]
  by_cases hk : k ∈ keys d
  · simpa [hk] using hd
  · simpa [hk, List.nodup_append] using ⟨hd, fun a ha h => hk (h ▸ ha)⟩

/-- Two dictionaries with the same keys in the same order and the same values are equal. -/
theorem ext_of_keys {d d' : List (κ × α)} (hd : (keys d).Nodup) (hkeys : keys d = keys d')
    (hget : ∀ k ∈ keys d, get? d k = get? d' k) : d = d' := by
  induction d generalizing d' with
  | nil =>
      cases d' with
      | nil => rfl
      | cons f d' => simp at hkeys
  | cons f d ih =>
      cases d' with
      | nil => simp at hkeys
      | cons f' d' =>
          obtain ⟨hf, hd⟩ := List.nodup_cons.mp hd
          obtain ⟨hhead, htail⟩ := List.cons.inj hkeys
          have hvalue : f.2 = f'.2 := by
            have := hget f.1 (by simp)
            simpa [get?_cons, hhead] using this
          have hrest : d = d' := by
            refine ih hd htail fun k hk => ?_
            have hne : f.1 ≠ k := fun h => hf (h ▸ hk)
            have := hget k (by simp [hk])
            simpa [get?_cons, hne, hhead ▸ hne] using this
          rw [Prod.ext hhead hvalue, hrest]

/-- Two dictionaries with the same values hold the same items, up to their order. -/
theorem perm_of_get? {d d' : List (κ × α)} (hd : (keys d).Nodup) (hd' : (keys d').Nodup)
    (h : ∀ k, get? d k = get? d' k) : d.Perm d' := by
  have hitems : ∀ {d : List (κ × α)}, (keys d).Nodup → d.Nodup := fun hd => hd.of_map Prod.fst
  refine (List.perm_ext_iff_of_nodup (hitems hd) (hitems hd')).mpr fun f => ?_
  constructor
  · intro hf
    exact mem_of_get?_eq_some (h f.1 ▸ get?_eq_some_of_mem hd hf)
  · intro hf
    exact mem_of_get?_eq_some ((h f.1).symm ▸ get?_eq_some_of_mem hd' hf)

/-- An item of the dictionary after an assignment is the assigned one or an old one. -/
theorem mem_set {d : List (κ × α)} {k : κ} {v : α} {f : κ × α} (h : f ∈ set d k v) :
    f = (k, v) ∨ f ∈ d := by
  induction d with
  | nil => exact Or.inl (by simpa [set] using h)
  | cons g d ih =>
      by_cases hg : g.1 = k
      · simp only [set, hg, if_true, List.mem_cons] at h
        exact h.imp_right (List.mem_cons_of_mem g)
      · simp only [set, hg, if_false, List.mem_cons] at h
        rcases h with rfl | h
        · exact Or.inr (List.mem_cons_self ..)
        · exact (ih h).imp_right (List.mem_cons_of_mem g)

end VoxBench.Lib.Dict
