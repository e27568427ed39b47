import VoxBench.Lib.Dict
import Mathlib.Data.List.Induction
import Mathlib.Data.List.Sort
import Mathlib.Order.Lex

/-!
# Sorting, grouping and pairing

The list idioms of the projections: a stable sort by a key, a dictionary of lists that is
filled with `setdefault(key, []).append(item)`, and the pairs of neighbours.

## Main results

* `perm_sortOn`, `pairwise_sortOn` — a sort is an ordered permutation.
* `mem_groupOn` — the group of a key holds the items of that key, in their order.
* `perm_groupOn` — every item is in one group.
* `rel_of_mem_pairs` — neighbours of an ordered list are in order.
-/

namespace VoxBench.Lib

universe u v

variable {α : Type u} {κ : Type v}

section Sorting

variable [LinearOrder κ] (key : α → κ)

/-- `sorted(items, key=key)`. -/
def sortOn (items : List α) : List α := items.insertionSort fun a b => key a ≤ key b

theorem perm_sortOn (items : List α) : (sortOn key items).Perm items :=
  List.perm_insertionSort _ items

@[simp] theorem mem_sortOn {items : List α} {a : α} : a ∈ sortOn key items ↔ a ∈ items :=
  (perm_sortOn key items).mem_iff

theorem pairwise_sortOn (items : List α) : (sortOn key items).Pairwise fun a b => key a ≤ key b := by
  have : Std.Total fun a b : α => key a ≤ key b := ⟨fun a b => le_total (key a) (key b)⟩
  have : IsTrans α fun a b => key a ≤ key b := ⟨fun _ _ _ => le_trans⟩
  exact List.pairwise_insertionSort _ items

theorem sortOn_eq_self {items : List α} (h : items.Pairwise fun a b => key a ≤ key b) :
    sortOn key items = items := h.insertionSort_eq

theorem sortOn_map {β : Type u} (f : β → α) (items : List β) :
    sortOn key (items.map f) = (sortOn (fun b => key (f b)) items).map f :=
  (List.map_insertionSort _ _ f items fun _ _ _ _ => Iff.rfl).symm

/-- Lists in strict order of a key that hold the same elements are equal. -/
theorem eq_of_perm_of_pairwise {l l' : List α} (hl : l.Pairwise fun a b => key a < key b)
    (hl' : l'.Pairwise fun a b => key a < key b) (h : l.Perm l') : l = l' :=
  h.eq_of_pairwise (fun _ _ _ _ hab hba => absurd hab hba.asymm) hl hl'

/-- With keys of their own, the elements are sorted in strict order. -/
theorem pairwise_lt_sortOn {items : List α} (h : (items.map key).Nodup) :
    (sortOn key items).Pairwise fun a b => key a < key b := by
  have hnodup : ((sortOn key items).map key).Nodup :=
    ((perm_sortOn key items).map key).nodup_iff.mpr h
  refine ((pairwise_sortOn key items).and (List.pairwise_map.mp hnodup)).imp fun hab => ?_
  exact lt_of_le_of_ne hab.1 hab.2

/-- A sort whose key only breaks the ties of a coarser key does not depend on the order of its
input where there are no ties. -/
theorem map_sortOn_eq_of_perm {β : Type u} {κ' : Type v} [LinearOrder κ'] {f : α → β}
    {key' : β → κ'} (hkey : ∀ a b, key a ≤ key b → key' (f a) ≤ key' (f b)) {l l' : List α}
    (hnodup : ((l.map f).map key').Nodup) (hperm : (l.map f).Perm (l'.map f)) :
    (sortOn key l).map f = (sortOn key l').map f := by
  have hstrict : ∀ m : List α, ((m.map f).map key').Nodup →
      ((sortOn key m).map f).Pairwise fun a b => key' a < key' b := by
    intro m hm
    have hsorted : (((sortOn key m).map f).map key').Nodup :=
      (((perm_sortOn key m).map f).map key').nodup_iff.mpr hm
    have hle : ((sortOn key m).map f).Pairwise fun a b => key' a ≤ key' b :=
      List.pairwise_map.mpr ((pairwise_sortOn key m).imp fun h => hkey _ _ h)
    exact (hle.and (List.pairwise_map.mp hsorted)).imp fun h => lt_of_le_of_ne h.1 h.2
  have hnodup' : ((l'.map f).map key').Nodup := (hperm.map key').nodup_iff.mp hnodup
  refine eq_of_perm_of_pairwise key' (hstrict l hnodup) (hstrict l' hnodup') ?_
  exact ((perm_sortOn key l).map f).trans (hperm.trans ((perm_sortOn key l').map f).symm)

/-- The first element with a property comes before the others that have it. -/
theorem eq_or_rel_of_find? {l : List α} {r : α → α → Prop} {p : α → Bool} {a b : α}
    (hl : l.Pairwise r) (ha : l.find? p = some a) (hb : b ∈ l) (hpb : p b = true) :
    a = b ∨ r a b := by
  induction l with
  | nil => cases hb
  | cons x l ih =>
      obtain ⟨hx, hl⟩ := List.pairwise_cons.mp hl
      rw [List.find?_cons] at ha
      cases hpx : p x with
      | true =>
          obtain rfl : x = a := by simpa [hpx] using ha
          exact (List.mem_cons.mp hb).imp Eq.symm (hx b)
      | false =>
          rw [hpx] at ha
          rcases List.mem_cons.mp hb with rfl | hb
          · rw [hpx] at hpb
            cases hpb
          · exact ih hl ha hb

end Sorting

section Pairs

variable {l : List α} {a b : α}

/-- `itertools.pairwise`. -/
def pairs (l : List α) : List (α × α) := l.zip l.tail

theorem mem_of_mem_pairs (h : (a, b) ∈ pairs l) : a ∈ l ∧ b ∈ l := by
  obtain ⟨ha, hb⟩ := List.of_mem_zip h
  exact ⟨ha, List.mem_of_mem_tail hb⟩

theorem rel_of_mem_pairs {r : α → α → Prop} (hl : l.Pairwise r) (h : (a, b) ∈ pairs l) : r a b := by
  induction l with
  | nil => simp [pairs] at h
  | cons x l ih =>
      obtain ⟨hx, hl⟩ := List.pairwise_cons.mp hl
      cases l with
      | nil => simp [pairs] at h
      | cons y l =>
          simp only [pairs, List.tail_cons, List.zip_cons_cons, List.mem_cons, Prod.mk.injEq] at h
          rcases h with ⟨rfl, rfl⟩ | h
          · exact hx b List.mem_cons_self
          · exact ih hl (by simpa [pairs] using h)

theorem pairs_cons_cons (a b : α) (l : List α) : pairs (a :: b :: l) = (a, b) :: pairs (b :: l) := rfl

section Crossing

variable [LinearOrder α] {n : α}

/-- How many pairs of neighbours pass over `n` upwards. -/
def crossings (l : List α) (n : α) : ℕ := (pairs l).countP fun pair => pair.1 < n ∧ n < pair.2

theorem crossings_of_le (h : ∀ a ∈ l, n ≤ a) : crossings l n = 0 := by
  refine List.countP_eq_zero.mpr fun pair hpair hcross => ?_
  have hle := h pair.1 (mem_of_mem_pairs hpair).1
  exact hle.not_gt (of_decide_eq_true hcross).1

/-- An ordered list passes over none of its elements. -/
theorem crossings_of_mem (hl : l.Pairwise (· ≤ ·)) (hn : n ∈ l) : crossings l n = 0 := by
  induction l with
  | nil => cases hn
  | cons a l ih =>
      obtain ⟨ha, hl'⟩ := List.pairwise_cons.mp hl
      rcases List.mem_cons.mp hn with rfl | hn
      · refine crossings_of_le fun b hb => ?_
        rcases List.mem_cons.mp hb with rfl | hb
        · exact le_refl _
        · exact ha b hb
      · cases l with
        | nil => cases hn
        | cons b l =>
            have hb : b ≤ n := by
              rcases List.mem_cons.mp hn with rfl | hn
              · exact le_refl _
              · exact (List.pairwise_cons.mp hl').1 n hn
            have hcross : ¬ (a < n ∧ n < b) := fun h => hb.not_gt h.2
            have hrest := ih hl' hn
            unfold crossings at hrest ⊢
            rw [pairs_cons_cons, List.countP_cons, hrest, decide_eq_false hcross]
            rfl

/-- An ordered list passes once over what lies between its elements. -/
theorem crossings_of_not_mem (hl : l.Pairwise (· ≤ ·)) (hn : n ∉ l) (hbelow : ∃ a ∈ l, a < n)
    (habove : ∃ b ∈ l, n < b) : crossings l n = 1 := by
  induction l with
  | nil =>
      obtain ⟨a, ha, -⟩ := hbelow
      cases ha
  | cons a l ih =>
      obtain ⟨ha, hl'⟩ := List.pairwise_cons.mp hl
      obtain ⟨hne, hn⟩ := not_or.mp (mt List.mem_cons.mpr hn)
      have hlt : a < n := by
        obtain ⟨x, hx, hxn⟩ := hbelow
        rcases List.mem_cons.mp hx with rfl | hx
        · exact hxn
        · exact (ha x hx).trans_lt hxn
      have habove : ∃ b ∈ l, n < b := by
        obtain ⟨b, hb, hnb⟩ := habove
        rcases List.mem_cons.mp hb with rfl | hb
        · exact absurd hnb hlt.asymm
        · exact ⟨b, hb, hnb⟩
      cases l with
      | nil =>
          obtain ⟨b, hb, -⟩ := habove
          cases hb
      | cons b l =>
          unfold crossings at ih ⊢
          rw [pairs_cons_cons, List.countP_cons]
          rcases lt_or_ge n b with hb | hb
          · have hrest : ∀ c ∈ b :: l, n ≤ c := by
              intro c hc
              rcases List.mem_cons.mp hc with rfl | hc
              · exact hb.le
              · exact hb.le.trans ((List.pairwise_cons.mp hl').1 c hc)
            rw [← crossings, crossings_of_le hrest, decide_eq_true ⟨hlt, hb⟩]
            rfl
          · have hbn : b < n := hb.lt_of_ne fun h => hn (h ▸ List.mem_cons_self)
            rw [ih hl' hn ⟨b, List.mem_cons_self, hbn⟩ habove,
              decide_eq_false fun h => hb.not_gt h.2]
            rfl

/-- A list that starts below `n` passes over it on the way to an element above. -/
theorem crossings_pos {a : α} (hhead : l.head? = some a) (ha : a < n) (hn : n ∉ l)
    (habove : ∃ b ∈ l, n < b) : 0 < crossings l n := by
  induction l generalizing a with
  | nil => cases hhead
  | cons x l ih =>
      obtain rfl := Option.some.inj hhead
      cases l with
      | nil =>
          obtain ⟨b, hb, hnb⟩ := habove
          obtain rfl := List.mem_singleton.mp hb
          exact absurd hnb ha.asymm
      | cons y l =>
          rw [crossings, pairs_cons_cons, List.countP_cons]
          rcases lt_or_ge n y with hy | hy
          · rw [decide_eq_true ⟨ha, hy⟩]
            exact Nat.succ_pos _
          · have hne : y ≠ n := fun h => hn (h ▸ List.mem_cons_of_mem x List.mem_cons_self)
            obtain ⟨b, hb, hnb⟩ := habove
            have hb : b ∈ y :: l := by
              rcases List.mem_cons.mp hb with rfl | hb
              · exact absurd hnb ha.asymm
              · exact hb
            have hrest := ih rfl (lt_of_le_of_ne hy hne) (fun h => hn (List.mem_cons_of_mem x h))
              ⟨b, hb, hnb⟩
            exact Nat.add_pos_left hrest _

end Crossing

theorem pairs_map {β : Type u} (f : β → α) (l : List β) :
    pairs (l.map f) = (pairs l).map fun pair => (f pair.1, f pair.2) := by
  unfold pairs
  rw [← List.map_tail, List.zip_map]
  rfl

end Pairs

section Grouping

variable [DecidableEq κ]

/-- `groups.setdefault(key, []).append(item)`. -/
def Dict.push (groups : List (κ × List α)) (k : κ) (item : α) : List (κ × List α) :=
  Dict.set groups k ((Dict.get? groups k).getD [] ++ [item])

/-- The items in groups of one key each, in the order of their first items. -/
def groupOn (key : α → κ) (items : List α) : List (κ × List α) :=
  items.foldl (fun groups item => Dict.push groups (key item) item) []

variable {key : α → κ} {items : List α}

theorem push_map {β : Type u} (f : β → α) (groups : List (κ × List β)) (k : κ) (b : β) :
    Dict.push (groups.map fun group => (group.1, group.2.map f)) k (f b) =
      (Dict.push groups k b).map fun group => (group.1, group.2.map f) := by
  unfold Dict.push
  induction groups with
  | nil => rfl
  | cons group groups ih =>
      by_cases hk : group.1 = k
      · simp [Dict.set, Dict.get?_cons, hk]
      · simpa [Dict.set, Dict.get?_cons, hk] using ih

theorem groupOn_append_singleton (key : α → κ) (items : List α) (a : α) :
    groupOn key (items ++ [a]) = Dict.push (groupOn key items) (key a) a := by
  simp [groupOn]

theorem nodup_keys_groupOn (key : α → κ) (items : List α) :
    (Dict.keys (groupOn key items)).Nodup := by
  induction items using List.reverseRecOn with
  | nil => simp [groupOn]
  | append_singleton items a ih =>
      rw [groupOn_append_singleton]
      exact Dict.nodup_keys_set ih _ _

theorem getD_get?_groupOn (key : α → κ) (items : List α) (k : κ) :
    (Dict.get? (groupOn key items) k).getD [] = items.filter fun a => key a = k := by
  induction items using List.reverseRecOn with
  | nil => simp [groupOn]
  | append_singleton items a ih =>
      rw [groupOn_append_singleton, Dict.push, Dict.get?_set]
      by_cases hk : key a = k
      · subst hk
        simp [ih]
      · simp [hk, ih]

theorem mem_keys_groupOn {k : κ} : k ∈ Dict.keys (groupOn key items) ↔ ∃ a ∈ items, key a = k := by
  induction items using List.reverseRecOn with
  | nil => simp [groupOn]
  | append_singleton items a ih =>
      rw [groupOn_append_singleton, Dict.push, Dict.mem_keys_set, ih]
      simp only [List.mem_append, List.mem_singleton]
      constructor
      · rintro (rfl | ⟨b, hb, rfl⟩)
        · exact ⟨a, Or.inr rfl, rfl⟩
        · exact ⟨b, Or.inl hb, rfl⟩
      · rintro ⟨b, hb | rfl, rfl⟩
        · exact Or.inr ⟨b, hb, rfl⟩
        · exact Or.inl rfl

theorem mem_groupOn {k : κ} {group : List α} (h : (k, group) ∈ groupOn key items) :
    group = items.filter fun a => key a = k := by
  have hget := Dict.get?_eq_some_of_mem (nodup_keys_groupOn key items) h
  have hfilter := getD_get?_groupOn key items k
  rwa [hget, Option.getD_some] at hfilter

theorem exists_mem_groupOn {a : α} (h : a ∈ items) : ∃ group, (key a, group) ∈ groupOn key items := by
  have hkey : key a ∈ Dict.keys (groupOn key items) := mem_keys_groupOn.mpr ⟨a, h, rfl⟩
  obtain ⟨f, hf, heq⟩ := List.mem_map.mp hkey
  exact ⟨f.2, heq ▸ hf⟩

/-- Where every result tells the key of its group, the results of one key are those of its
group. -/
theorem filter_flatMap_groupOn {β : Type u} {f : List α → List β} {origin : β → κ} (hnil : f [] = [])
    (horigin : ∀ group ∈ groupOn key items, ∀ b ∈ f group.2, origin b = group.1) (k : κ) :
    ((groupOn key items).flatMap fun group => f group.2).filter (fun b => origin b = k) =
      f (items.filter fun a => key a = k) := by
  rw [← getD_get?_groupOn key items k]
  have hkeys := nodup_keys_groupOn key items
  generalize groupOn key items = groups at hkeys horigin
  induction groups with
  | nil => exact hnil.symm
  | cons group groups ih =>
      rw [Dict.keys_cons, List.nodup_cons] at hkeys
      have hfirst : ∀ b ∈ f group.2, origin b = group.1 := horigin group List.mem_cons_self
      have hrest : ∀ other ∈ groups, ∀ b ∈ f other.2, origin b = other.1 :=
        fun other hother => horigin other (List.mem_cons_of_mem _ hother)
      rw [List.flatMap_cons, List.filter_append, ih hkeys.2 hrest, Dict.get?_cons]
      by_cases hk : group.1 = k
      · have hnone : Dict.get? groups k = none := Dict.get?_eq_none_iff.mpr (hk ▸ hkeys.1)
        have hall : (f group.2).filter (fun b => origin b = k) = f group.2 :=
          List.filter_eq_self.mpr fun b hb => decide_eq_true ((hfirst b hb).trans hk)
        rw [if_pos hk, hnone, hall, Option.getD_none, hnil, List.append_nil, Option.getD_some]
      · have hnone : (f group.2).filter (fun b => origin b = k) = [] :=
          List.filter_eq_nil_iff.mpr fun b hb h => hk ((hfirst b hb).symm.trans (of_decide_eq_true h))
        rw [if_neg hk, hnone, List.nil_append]

theorem perm_push (groups : List (κ × List α)) (k : κ) (a : α) :
    ((Dict.push groups k a).flatMap Prod.snd).Perm (groups.flatMap Prod.snd ++ [a]) := by
  induction groups with
  | nil => simp [Dict.push, Dict.set]
  | cons f groups ih =>
      by_cases hf : f.1 = k
      · simp only [Dict.push, Dict.set, hf, if_true, Dict.get?_cons, Option.getD_some,
          List.flatMap_cons, List.append_assoc]
        exact List.Perm.append_left _ (List.perm_append_comm)
      · simp only [Dict.push, Dict.set, hf, if_false, Dict.get?_cons, List.flatMap_cons,
          List.append_assoc]
        exact List.Perm.append_left _ ih

theorem perm_groupOn (key : α → κ) (items : List α) :
    ((groupOn key items).flatMap Prod.snd).Perm items := by
  induction items using List.reverseRecOn with
  | nil => simp [groupOn]
  | append_singleton items a ih =>
      rw [groupOn_append_singleton]
      exact (perm_push _ _ _).trans (ih.append_right _)

/-- Keys that agree group the same items. -/
theorem groupOn_map {β : Type u} (f : β → α) (key : α → κ) (items : List β) :
    groupOn key (items.map f) =
      (groupOn (fun b => key (f b)) items).map fun group => (group.1, group.2.map f) := by
  induction items using List.reverseRecOn with
  | nil => rfl
  | append_singleton items b ih =>
      rw [List.map_append, List.map_singleton, groupOn_append_singleton, groupOn_append_singleton,
        ih, push_map]

end Grouping

end VoxBench.Lib
