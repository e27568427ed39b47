import Mathlib.Data.List.Forall2
import Mathlib.Data.List.Perm.Basic

/-!
# Lists through fallible functions

`List.mapM` over `Option` and `Except` succeeds exactly when every element does, and then
pairs each element with its result.

## Main results

* `mapM_eq_some_iff`, `mapM_eq_ok_iff` — the successful runs.
* `mem_collect` — the results of a loop that skips elements.
* `invariant_of_foldlM` — the invariants of a loop.
* `filter_filterMap_of_nodup` — the results that come from one element.
-/

namespace VoxBench.Lib

universe u v w

theorem mapM_eq_some_iff {α : Type u} {β : Type v} {f : α → Option β} {xs : List α}
    {ys : List β} : xs.mapM f = some ys ↔ List.Forall₂ (fun x y => f x = some y) xs ys := by
  induction xs generalizing ys with
  | nil => cases ys <;> simp
  | cons x xs ih =>
      rw [List.mapM_cons]
      constructor
      · intro h
        obtain ⟨y, hy, h⟩ := Option.bind_eq_some_iff.mp h
        obtain ⟨zs, hzs, h⟩ := Option.bind_eq_some_iff.mp h
        obtain rfl := Option.some.inj h
        exact List.Forall₂.cons hy (ih.mp hzs)
      · intro h
        cases h with
        | cons hy h => simp [hy, ih.mpr h]

theorem mapM_eq_ok_iff {ε : Type u} {α : Type v} {β : Type w} {f : α → Except ε β}
    {xs : List α} {ys : List β} :
    xs.mapM f = .ok ys ↔ List.Forall₂ (fun x y => f x = .ok y) xs ys := by
  induction xs generalizing ys with
  | nil => cases ys <;> simp [pure, Except.pure]
  | cons x xs ih =>
      rw [List.mapM_cons]
      constructor
      · intro h
        cases hx : f x with
        | error e => simp [hx, bind, Except.bind] at h
        | ok y =>
            cases hxs : xs.mapM f with
            | error e => simp [hx, hxs, bind, Except.bind] at h
            | ok zs =>
                obtain rfl : y :: zs = ys := by
                  simpa [hx, hxs, bind, Except.bind, pure, Except.pure] using h
                exact List.Forall₂.cons hx (ih.mp hxs)
      · intro h
        cases h with
        | cons hx h => simp [hx, ih.mpr h, bind, Except.bind, pure, Except.pure]

/-- A list passes when each of its elements does. -/
theorem exists_mapM {ε : Type u} {α : Type v} {β : Type w} {f : α → Except ε β} {l : List α}
    (h : ∀ a ∈ l, ∃ b, f a = .ok b) : ∃ l', l.mapM f = .ok l' := by
  induction l with
  | nil => exact ⟨[], rfl⟩
  | cons a l ih =>
      obtain ⟨b, hb⟩ := h a List.mem_cons_self
      obtain ⟨l', hl'⟩ := ih fun a ha => h a (List.mem_cons_of_mem _ ha)
      exact ⟨b :: l', by simp [List.mapM_cons, hb, hl', bind, Except.bind, pure, Except.pure]⟩

/-- A list passes exactly when each of its elements does, with the results of each. -/
theorem mapM_eq_ok_iff_map {ε : Type u} {α : Type v} {β : Type w} {f : α → Except ε β}
    {p : α → Prop} {g : α → β} (hf : ∀ x y, f x = .ok y ↔ p x ∧ g x = y) {xs : List α} {ys : List β} :
    xs.mapM f = .ok ys ↔ (∀ x ∈ xs, p x) ∧ xs.map g = ys := by
  rw [mapM_eq_ok_iff]
  constructor
  · intro h
    induction h with
    | nil => exact ⟨by simp, rfl⟩
    | cons hxy _ ih =>
        obtain ⟨hp, rfl⟩ := (hf _ _).mp hxy
        exact ⟨List.forall_mem_cons.mpr ⟨hp, ih.1⟩, by rw [List.map_cons, ih.2]⟩
  · rintro ⟨hp, rfl⟩
    induction xs with
    | nil => exact List.Forall₂.nil
    | cons x xs ih =>
        obtain ⟨hx, hxs⟩ := List.forall_mem_cons.mp hp
        exact List.Forall₂.cons ((hf x (g x)).mpr ⟨hx, rfl⟩) (ih hxs)

/-- Lists whose elements have the same outcomes have the same outcome. -/
theorem mapM_congr_of_forall₂ {ε : Type u} {α : Type v} {β : Type w} {f : α → Except ε β}
    {xs ys : List α} (h : List.Forall₂ (fun x y => f x = f y) xs ys) : xs.mapM f = ys.mapM f := by
  induction h with
  | nil => rfl
  | cons hxy _ ih => rw [List.mapM_cons, List.mapM_cons, hxy, ih]

/-- The same elements in another order have the same results in another order. -/
theorem perm_mapM {ε : Type u} {α : Type v} {β : Type w} {f : α → Except ε β} {xs xs' : List α}
    {ys : List β} (hperm : xs.Perm xs') (h : xs.mapM f = .ok ys) :
    ∃ ys', xs'.mapM f = .ok ys' ∧ ys'.Perm ys := by
  obtain ⟨ys', hforall, hys⟩ := List.perm_comp_forall₂ hperm.symm (mapM_eq_ok_iff.mp h)
  exact ⟨ys', mapM_eq_ok_iff.mpr hforall, hys⟩

/-- An element of the second of two related lists comes from one of the first. -/
theorem exists_mem_of_forall₂ {α : Type u} {β : Type v} {R : α → β → Prop} {l : List α}
    {l' : List β} (h : List.Forall₂ R l l') {b : β} (hb : b ∈ l') : ∃ a ∈ l, R a b := by
  induction h with
  | nil => cases hb
  | @cons a b' l l' hab hrest ih =>
      rcases List.mem_cons.mp hb with rfl | hb
      · exact ⟨a, List.mem_cons_self, hab⟩
      · obtain ⟨a', ha', hR⟩ := ih hb
        exact ⟨a', List.mem_cons_of_mem _ ha', hR⟩

/-- Elements that are all related to something are, as a list, related to a list. -/
theorem exists_forall₂ {α : Type u} {β : Type v} {R : α → β → Prop} {l : List α}
    (h : ∀ a ∈ l, ∃ b, R a b) : ∃ l', List.Forall₂ R l l' := by
  induction l with
  | nil => exact ⟨[], List.Forall₂.nil⟩
  | cons a l ih =>
      obtain ⟨b, hb⟩ := h a List.mem_cons_self
      obtain ⟨l', hl'⟩ := ih fun a ha => h a (List.mem_cons_of_mem _ ha)
      exact ⟨b :: l', List.Forall₂.cons hb hl'⟩

theorem map_eq_of_forall₂ {α : Type u} {β : Type v} {γ : Type w} {R : α → β → Prop} {f : α → γ}
    {g : β → γ} {l : List α} {l' : List β} (h : List.Forall₂ R l l') (hR : ∀ a b, R a b → g b = f a) :
    l'.map g = l.map f := by
  induction h with
  | nil => rfl
  | cons hab _ ih => rw [List.map_cons, List.map_cons, hR _ _ hab, ih]

/-- Two lists that are related to a third one. -/
theorem forall₂_of_common {α : Type u} {β : Type v} {γ : Type w} {R : α → β → Prop}
    {S : α → γ → Prop} {l : List α} {l' : List β} {l'' : List γ} (h : List.Forall₂ R l l')
    (h' : List.Forall₂ S l l'') : List.Forall₂ (fun b c => ∃ a ∈ l, R a b ∧ S a c) l' l'' := by
  induction h generalizing l'' with
  | nil =>
      cases h'
      exact List.Forall₂.nil
  | @cons a b l l' hab _ ih =>
      cases h' with
      | cons hac hrest =>
          refine List.Forall₂.cons ⟨a, List.mem_cons_self, hab, hac⟩ ((ih hrest).imp ?_)
          rintro b c ⟨a', ha', hprops⟩
          exact ⟨a', List.mem_cons_of_mem _ ha', hprops⟩

/-- Related lists are ordered alike where their elements are. -/
theorem pairwise_iff_of_forall₂ {α : Type u} {β : Type v} {R : α → β → Prop} {r : α → α → Prop}
    {r' : β → β → Prop} {l : List α} {l' : List β} (h : List.Forall₂ R l l')
    (hr : ∀ a b a' b', R a a' → R b b' → (r a b ↔ r' a' b')) : l.Pairwise r ↔ l'.Pairwise r' := by
  induction h with
  | nil => simp
  | @cons a a' l l' ha hrest ih =>
      rw [List.pairwise_cons, List.pairwise_cons, ih]
      refine and_congr_left fun _ => ?_
      constructor
      · intro h b' hb'
        obtain ⟨b, hb, hR⟩ := exists_mem_of_forall₂ hrest hb'
        exact (hr a b a' b' ha hR).mp (h b hb)
      · intro h b hb
        obtain ⟨b', hb', hR⟩ := exists_mem_of_forall₂ (List.Forall₂.flip hrest) hb
        exact (hr a b a' b' ha hR).mpr (h b' hb')

section Results

variable {ε : Type u} {α : Type v} {β : Type w} {f : α → Except ε β} {xs : List α} {ys : List β}

theorem exists_of_mem_mapM (h : xs.mapM f = .ok ys) {y : β} (hy : y ∈ ys) :
    ∃ x ∈ xs, f x = .ok y :=
  exists_mem_of_forall₂ (mapM_eq_ok_iff.mp h) hy

theorem exists_mem_mapM (h : xs.mapM f = .ok ys) {x : α} (hx : x ∈ xs) :
    ∃ y ∈ ys, f x = .ok y :=
  exists_mem_of_forall₂ (List.Forall₂.flip (mapM_eq_ok_iff.mp h)) hx

/-- What the results show of the elements they come from. -/
theorem map_eq_of_mapM {γ : Type w} {g : β → γ} {g' : α → γ} (h : xs.mapM f = .ok ys)
    (hg : ∀ x y, f x = .ok y → g y = g' x) : ys.map g = xs.map g' := by
  have hforall := mapM_eq_ok_iff.mp h
  clear h
  induction hforall with
  | nil => rfl
  | cons hxy _ ih => rw [List.map_cons, List.map_cons, hg _ _ hxy, ih]

/-- A loop that skips the elements without a result. -/
def collect (f : α → Except ε (Option β)) (xs : List α) : Except ε (List β) :=
  (xs.mapM f).map fun results => results.filterMap id

theorem collect_eq_ok_iff {f : α → Except ε (Option β)} :
    collect f xs = .ok ys ↔ ∃ results, xs.mapM f = .ok results ∧ results.filterMap id = ys := by
  unfold collect
  cases xs.mapM f <;> simp [Except.map]

theorem mem_collect {f : α → Except ε (Option β)} (h : collect f xs = .ok ys) {y : β} :
    y ∈ ys ↔ ∃ x ∈ xs, f x = .ok (some y) := by
  obtain ⟨results, hresults, rfl⟩ := collect_eq_ok_iff.mp h
  simp only [List.mem_filterMap, id_eq, exists_eq_right]
  constructor
  · exact exists_of_mem_mapM hresults
  · rintro ⟨x, hx, hfx⟩
    obtain ⟨result, hresult, heq⟩ := exists_mem_mapM hresults hx
    rw [hfx, Except.ok.injEq] at heq
    rwa [heq]

/-- What the results show of the elements they come from, in the order of the elements. -/
theorem sublist_of_collect {γ : Type w} {f : α → Except ε (Option β)} {g : β → γ} {g' : α → γ}
    (h : collect f xs = .ok ys) (hg : ∀ x y, f x = .ok (some y) → g y = g' x) :
    (ys.map g).Sublist (xs.map g') := by
  obtain ⟨results, hresults, rfl⟩ := collect_eq_ok_iff.mp h
  have hforall := mapM_eq_ok_iff.mp hresults
  clear h hresults
  induction hforall with
  | nil => exact List.Sublist.refl _
  | @cons x result xs results hx _ ih =>
      cases result with
      | none => exact ih.cons _
      | some y =>
          rw [List.filterMap_cons_some (by rfl : id (some y) = some y), List.map_cons,
            List.map_cons, hg x y hx]
          exact ih.cons_cons _

theorem collect_cons {f : α → Except ε (Option β)} (x : α) (xs : List α) :
    collect f (x :: xs) = (f x).bind fun result => (collect f xs).map (result.toList ++ ·) := by
  unfold collect
  rw [List.mapM_cons]
  cases f x with
  | error e => rfl
  | ok result => cases result <;> cases xs.mapM f <;> rfl

/-- A loop over changed elements whose results are the changed results of another loop. -/
theorem collect_map {α' : Type v} {γ : Type w} {f : α → Except ε (Option β)}
    {f' : α' → Except ε (Option γ)} (h : α → α') (g : β → γ)
    (hf : ∀ x ∈ xs, f' (h x) = (f x).map (Option.map g)) :
    collect f' (xs.map h) = (collect f xs).map (List.map g) := by
  induction xs with
  | nil => rfl
  | cons x xs ih =>
      rw [List.map_cons, collect_cons, collect_cons,
        ih fun y hy => hf y (List.mem_cons_of_mem x hy), hf x List.mem_cons_self]
      cases f x with
      | error e => rfl
      | ok result => cases result <;> cases collect f xs <;> rfl

theorem eq_filterMap_of_collect {f : α → Except ε (Option β)} (h : collect f xs = .ok ys) :
    ys = xs.filterMap fun x => (f x).toOption.join := by
  obtain ⟨results, hresults, rfl⟩ := collect_eq_ok_iff.mp h
  have hforall := mapM_eq_ok_iff.mp hresults
  clear h hresults
  induction hforall with
  | nil => rfl
  | @cons x result xs results hx _ ih =>
      rw [List.filterMap_cons, List.filterMap_cons, hx, ih]
      cases result <;> rfl

/-- A loop passes exactly when each of its elements does. -/
theorem collect_eq_ok_iff_filterMap {f : α → Except ε (Option β)} {p : α → Prop}
    {g : α → Option β} (hf : ∀ x y, f x = .ok y ↔ p x ∧ g x = y) :
    collect f xs = .ok ys ↔ (∀ x ∈ xs, p x) ∧ xs.filterMap g = ys := by
  rw [collect_eq_ok_iff]
  constructor
  · rintro ⟨results, hresults, rfl⟩
    obtain ⟨hp, rfl⟩ := (mapM_eq_ok_iff_map hf).mp hresults
    exact ⟨hp, by rw [List.filterMap_map]; rfl⟩
  · rintro ⟨hp, rfl⟩
    exact ⟨xs.map g, (mapM_eq_ok_iff_map hf).mpr ⟨hp, rfl⟩, by rw [List.filterMap_map]; rfl⟩

theorem exists_collect_iff {f : α → Except ε (Option β)} :
    (∃ ys, collect f xs = .ok ys) ↔ ∀ x ∈ xs, ∃ y, f x = .ok y := by
  have hf : ∀ x y, f x = .ok y ↔ (∃ y, f x = .ok y) ∧ (f x).toOption.join = y := by
    intro x y
    cases f x with
    | error e => simp
    | ok y' => cases y' <;> simp [Except.toOption]
  simp only [collect_eq_ok_iff_filterMap hf, exists_and_left, exists_eq', and_true]

/-- A loop over the same elements in another order has the same results in another order. -/
theorem perm_collect {f : α → Except ε (Option β)} {xs' : List α} (hperm : xs.Perm xs')
    (h : collect f xs = .ok ys) : ∃ ys', collect f xs' = .ok ys' ∧ ys.Perm ys' := by
  obtain ⟨results, hresults, rfl⟩ := collect_eq_ok_iff.mp h
  obtain ⟨results', hread, hresults'⟩ := perm_mapM hperm hresults
  exact ⟨results'.filterMap id, collect_eq_ok_iff.mpr ⟨results', hread, rfl⟩,
    hresults'.symm.filterMap id⟩

/-- What every turn of a loop keeps, the loop keeps. -/
theorem invariant_of_foldlM {f : β → α → Except ε β} {I : β → Prop} {b b' : β}
    (hstep : ∀ b, I b → ∀ a ∈ xs, ∀ b', f b a = .ok b' → I b') (hb : I b)
    (h : xs.foldlM f b = .ok b') : I b' := by
  induction xs generalizing b with
  | nil =>
      cases h
      exact hb
  | cons a xs ih =>
      rw [List.foldlM_cons] at h
      cases hmid : f b a with
      | error e => simp [hmid, bind, Except.bind] at h
      | ok mid =>
          rw [hmid] at h
          exact ih (fun b hb a ha => hstep b hb a (List.mem_cons_of_mem _ ha))
            (hstep b hb a List.mem_cons_self mid hmid) h

end Results

/-- Where every result tells the element it comes from, the results of one element of a list
without repetitions are those of that element alone. -/
theorem filter_filterMap_of_nodup {α : Type u} {β : Type v} [DecidableEq α] {f : α → Option β}
    {origin : β → α} {l : List α} (hl : l.Nodup)
    (horigin : ∀ a ∈ l, ∀ b, f a = some b → origin b = a) {a : α} (ha : a ∈ l) :
    (l.filterMap f).filter (fun b => origin b = a) = (f a).toList := by
  have hother : ∀ m : List α, (∀ x ∈ m, x ∈ l ∧ x ≠ a) →
      (m.filterMap f).filter (fun b => origin b = a) = [] := by
    intro m hm
    rw [List.filter_eq_nil_iff]
    intro b hb
    obtain ⟨x, hx, hfx⟩ := List.mem_filterMap.mp hb
    rw [horigin x (hm x hx).1 b hfx]
    simpa using (hm x hx).2
  obtain ⟨l₁, l₂, rfl⟩ := List.append_of_mem ha
  have h₁ := hother l₁ fun x hx => ⟨by simp [hx], fun h => by
    subst h
    exact (List.nodup_append.mp hl).2.2 x hx x (by simp) rfl⟩
  have h₂ := hother l₂ fun x hx => ⟨by simp [hx], fun h => by
    subst h
    exact (List.nodup_cons.mp (List.nodup_append.mp hl).2.1).1 hx⟩
  rw [List.filterMap_append, List.filter_append, h₁, List.nil_append]
  cases hfa : f a with
  | none => simp [hfa, h₂]
  | some b => simp [hfa, h₂, horigin a ha b hfa]

end VoxBench.Lib
