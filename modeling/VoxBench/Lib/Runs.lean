import VoxBench.Lib.Grouping
import Mathlib.Data.List.SplitBy

/-!
# Runs of neighbours

`List.splitBy` cuts a list where two neighbours are not related. Its blocks are the longest
runs of related neighbours.

## Main results

* `mem_pairs_of_splitBy`, `exists_pairs_splitBy` — the pairs inside the blocks are the
  related pairs of the list.
* `blocks_maximal_iff` — when the blocks are the longest runs of another relation.
-/

namespace VoxBench.Lib

universe u

variable {α : Type u} {l : List α} {a b : α}

theorem mem_pairs_iff : (a, b) ∈ pairs l ↔ ∃ l₁ l₂, l = l₁ ++ a :: b :: l₂ := by
  constructor
  · intro h
    induction l with
    | nil => cases h
    | cons x l ih =>
        cases l with
        | nil => cases h
        | cons y l =>
            rw [pairs_cons_cons, List.mem_cons, Prod.mk.injEq] at h
            rcases h with ⟨rfl, rfl⟩ | h
            · exact ⟨[], l, rfl⟩
            · obtain ⟨l₁, l₂, hl⟩ := ih h
              exact ⟨x :: l₁, l₂, by rw [hl, List.cons_append]⟩
  · rintro ⟨l₁, l₂, rfl⟩
    induction l₁ with
    | nil => exact List.mem_cons_self
    | cons x l₁ ih =>
        cases l₁ with
        | nil => exact List.mem_cons_of_mem _ ih
        | cons y l₁ => exact List.mem_cons_of_mem _ ih

/-- In a list without repetitions the neighbours are the elements with consecutive indices. -/
theorem mem_pairs_zipIdx_iff {i j : ℕ} (hl : l.Nodup) (ha : (a, i) ∈ l.zipIdx)
    (hb : (b, j) ∈ l.zipIdx) : (a, b) ∈ pairs l ↔ j = i + 1 := by
  rw [List.mk_mem_zipIdx_iff_getElem?] at ha hb
  have hindex : ∀ {x : α} {m n : ℕ}, l[m]? = some x → l[n]? = some x → m = n := by
    intro x m n hm hn
    have hlt : m < l.length := (List.getElem?_eq_some_iff.mp hm).1
    exact (List.getElem?_inj hlt hl).mp (hm.trans hn.symm)
  rw [mem_pairs_iff]
  constructor
  · rintro ⟨l₁, l₂, rfl⟩
    have hfirst : (l₁ ++ a :: b :: l₂)[l₁.length]? = some a := by simp
    have hsecond : (l₁ ++ a :: b :: l₂)[l₁.length + 1]? = some b := by simp
    rw [hindex hb hsecond, hindex ha hfirst]
  · rintro rfl
    refine ⟨l.take i, l.drop (i + 2), ?_⟩
    obtain ⟨hi, rfl⟩ := List.getElem?_eq_some_iff.mp ha
    obtain ⟨hj, rfl⟩ := List.getElem?_eq_some_iff.mp hb
    rw [← List.drop_eq_getElem_cons hj, ← List.drop_eq_getElem_cons hi, List.take_append_drop]

/-- Neighbours that a filter keeps stay neighbours. -/
theorem mem_pairs_filter {p : α → Bool} (h : (a, b) ∈ pairs l) (ha : p a = true) (hb : p b = true) :
    (a, b) ∈ pairs (l.filter p) := by
  obtain ⟨l₁, l₂, rfl⟩ := mem_pairs_iff.mp h
  refine mem_pairs_iff.mpr ⟨l₁.filter p, l₂.filter p, ?_⟩
  rw [List.filter_append, List.filter_cons_of_pos ha, List.filter_cons_of_pos hb]

/-- A function that tells elements apart keeps the pairs of neighbours. -/
theorem mem_pairs_map_iff {β : Type u} {f : α → β} (hf : ∀ a ∈ l, ∀ b ∈ l, f a = f b → a = b)
    (ha : a ∈ l) (hb : b ∈ l) : (f a, f b) ∈ pairs (l.map f) ↔ (a, b) ∈ pairs l := by
  rw [pairs_map]
  constructor
  · intro h
    obtain ⟨⟨x, y⟩, hpair, heq⟩ := List.mem_map.mp h
    obtain ⟨hx, hy⟩ := Prod.mk.inj heq
    obtain ⟨hxl, hyl⟩ := mem_of_mem_pairs hpair
    rwa [hf x hxl a ha hx, hf y hyl b hb hy] at hpair
  · exact fun h => List.mem_map.mpr ⟨(a, b), h, rfl⟩

theorem isChain_iff_pairs {r : α → α → Prop} :
    l.IsChain r ↔ ∀ pair ∈ pairs l, r pair.1 pair.2 := by
  rw [List.isChain_iff_forall_rel_of_append_cons_cons]
  constructor
  · rintro h ⟨a, b⟩ hpair
    obtain ⟨l₁, l₂, hl⟩ := mem_pairs_iff.mp hpair
    exact h hl
  · intro h a b l₁ l₂ hl
    exact h (a, b) (mem_pairs_iff.mpr ⟨l₁, l₂, hl⟩)

theorem mem_pairs_flatten {blocks : List (List α)} {block : List α} (hblock : block ∈ blocks)
    (h : (a, b) ∈ pairs block) : (a, b) ∈ pairs blocks.flatten := by
  obtain ⟨before, after, rfl⟩ := List.append_of_mem hblock
  obtain ⟨l₁, l₂, rfl⟩ := mem_pairs_iff.mp h
  refine mem_pairs_iff.mpr ⟨before.flatten ++ l₁, l₂ ++ after.flatten, ?_⟩
  simp

section Split

variable {r : α → α → Bool} {block : List α}

/-- Neighbours in a block are related neighbours of the list. -/
theorem mem_pairs_of_splitBy (hblock : block ∈ l.splitBy r) (h : (a, b) ∈ pairs block) :
    (a, b) ∈ pairs l ∧ r a b = true := by
  have hpairs := mem_pairs_flatten hblock h
  rw [List.flatten_splitBy] at hpairs
  exact ⟨hpairs, isChain_iff_pairs.mp (List.isChain_of_mem_splitBy hblock) (a, b) h⟩

/-- A run of related neighbours lies in one block. -/
theorem exists_infix_splitBy {part : List α} (hne : part ≠ []) (hpart : part <:+: l)
    (hchain : part.IsChain fun a b => r a b = true) : ∃ block ∈ l.splitBy r, part <:+: block := by
  have hends := List.isChain_getLast_head_splitBy r l
  have hnil := List.nil_notMem_splitBy r l
  obtain ⟨s, t, hsplit⟩ := hpart
  rw [← List.flatten_splitBy r l] at hsplit
  generalize l.splitBy r = blocks at hends hnil hsplit
  induction blocks generalizing s with
  | nil =>
      rw [List.flatten_nil, List.append_eq_nil_iff, List.append_eq_nil_iff] at hsplit
      exact absurd hsplit.1.2 hne
  | cons block blocks ih =>
      obtain ⟨hhead, htail⟩ := List.isChain_cons.mp hends
      have hblocks : [] ∉ blocks := fun hmem => hnil (List.mem_cons_of_mem _ hmem)
      have hlater : ∀ s, s ++ part ++ t = blocks.flatten →
          ∃ found ∈ block :: blocks, part <:+: found := by
        intro s hs
        obtain ⟨found, hfound, hinfix⟩ := ih s htail hblocks hs
        exact ⟨found, List.mem_cons_of_mem _ hfound, hinfix⟩
      rw [List.flatten_cons, List.append_assoc, List.append_eq_append_iff] at hsplit
      rcases hsplit with ⟨x, hblock, hrest⟩ | ⟨y, hs, hrest⟩
      · rw [List.append_eq_append_iff] at hrest
        rcases hrest with ⟨z, hx, -⟩ | ⟨z, hpart, hrest⟩
        · exact ⟨block, List.mem_cons_self, s, z, by rw [hblock, hx, List.append_assoc]⟩
        · cases hx : x.getLast? with
          | none =>
              rw [List.getLast?_eq_none_iff] at hx
              rw [hx, List.nil_append] at hpart
              exact hlater [] (by rw [List.nil_append, hpart, hrest])
          | some a =>
              cases z with
              | nil =>
                  rw [List.append_nil] at hpart
                  exact ⟨block, List.mem_cons_self, s, [], by rw [hblock, hpart, List.append_nil]⟩
              | cons b z =>
                  -- the run would go on over the end of the block
                  exfalso
                  have hab : r a b = true :=
                    (List.isChain_append.mp (hpart ▸ hchain)).2.2 a hx b rfl
                  cases blocks with
                  | nil => cases hrest
                  | cons next blocks =>
                      obtain ⟨hne', hne'', hcut⟩ := hhead next rfl
                      cases next with
                      | nil => exact hne'' rfl
                      | cons c next =>
                          obtain ⟨rfl, -⟩ := List.cons.inj hrest
                          have hlast : block.getLast? = some a := by
                            rw [hblock, List.getLast?_append, hx, Option.some_or]
                          obtain rfl : block.getLast hne' = a :=
                            Option.some.inj ((List.getLast?_eq_some_getLast hne').symm.trans hlast)
                          rw [List.head_cons, hab] at hcut
                          cases hcut
      · exact hlater y (by rw [List.append_assoc, hrest])

theorem infix_of_mem_splitBy (hblock : block ∈ l.splitBy r) : block <:+: l := by
  obtain ⟨before, after, hsplit⟩ := List.append_of_mem hblock
  refine ⟨before.flatten, after.flatten, ?_⟩
  rw [← List.flatten_splitBy r l, hsplit, List.flatten_append, List.flatten_cons, List.append_assoc]

/-- Neighbours in a part of a block are related. -/
theorem isChain_of_infix_splitBy {part : List α} (hblock : block ∈ l.splitBy r)
    (hpart : part <:+: block) : part.IsChain fun a b => r a b := by
  obtain ⟨before, after, rfl⟩ := hpart
  have hchain := List.isChain_of_mem_splitBy hblock
  exact (List.isChain_append.mp (List.isChain_append.mp hchain).1).2.1

/-- Related neighbours of the list are neighbours in a block. -/
theorem exists_pairs_splitBy (h : (a, b) ∈ pairs l) (hr : r a b = true) :
    ∃ block ∈ l.splitBy r, (a, b) ∈ pairs block := by
  obtain ⟨l₁, l₂, rfl⟩ := mem_pairs_iff.mp h
  have hpart : [a, b] <:+: l₁ ++ a :: b :: l₂ := ⟨l₁, l₂, by simp⟩
  obtain ⟨block, hblock, s, t, rfl⟩ :=
    exists_infix_splitBy (List.cons_ne_nil a [b]) hpart (List.isChain_pair.mpr hr)
  exact ⟨_, hblock, mem_pairs_iff.mpr ⟨s, t, by simp⟩⟩

/-- A block is known by any of its elements. -/
theorem eq_of_mem_splitBy (hl : l.Nodup) {block' : List α} (hblock : block ∈ l.splitBy r)
    (hblock' : block' ∈ l.splitBy r) (ha : a ∈ block) (ha' : a ∈ block') : block = block' := by
  rw [← List.flatten_splitBy r l, List.nodup_flatten] at hl
  by_contra hne
  have : Std.Symm (α := List α) List.Disjoint := ⟨fun _ _ h _ hx hx' => h hx' hx⟩
  exact hl.2.forall hblock hblock' hne ha ha'

/-- In a list whose places grow by one, elements one place apart are neighbours. -/
theorem mem_pairs_of_place {place : α → ℕ} (hl : l.IsChain fun a b => place b = place a + 1)
    (ha : a ∈ l) (hb : b ∈ l) (hab : place b = place a + 1) : (a, b) ∈ pairs l := by
  have : IsTrans α fun a b => place a < place b := ⟨fun _ _ _ => lt_trans⟩
  have hstep : l.IsChain fun a b => place a < place b := hl.imp fun a b h => by omega
  have hlt := List.isChain_iff_pairwise.mp hstep
  clear hstep
  induction l with
  | nil => cases ha
  | cons x l ih =>
      obtain ⟨hx, hrest⟩ := List.pairwise_cons.mp hlt
      rcases List.mem_cons.mp ha with rfl | ha'
      · rcases List.mem_cons.mp hb with rfl | hb
        · omega
        · cases l with
          | nil => cases hb
          | cons y l =>
              have hy : place y = place a + 1 := (List.isChain_cons.mp hl).1 y rfl
              rcases List.mem_cons.mp hb with rfl | hb
              · exact List.mem_cons_self
              · have := (List.pairwise_cons.mp hrest).1 b hb
                omega
      · rcases List.mem_cons.mp hb with rfl | hb
        · have := hx a ha'
          omega
        · have hpair := ih (List.isChain_cons.mp hl).2 ha' hb hrest
          cases l with
          | nil => cases ha'
          | cons y l => exact List.mem_cons_of_mem _ hpair

/-- Let a second relation hold only between elements that are one place apart. The blocks are
its longest runs exactly when it holds between the related neighbours of the list. -/
theorem blocks_maximal_iff (place : α → ℕ) {next : α → α → Prop} (hplace : (l.map place).Nodup)
    (hnext : ∀ a ∈ l, ∀ b ∈ l, next a b → place b = place a + 1) :
    ((∀ block ∈ l.splitBy r, block.IsChain next) ∧
      ∀ block ∈ l.splitBy r, ∀ block' ∈ l.splitBy r, ∀ a ∈ block, ∀ b ∈ block', next a b →
        block = block') ↔
      ∀ a ∈ l, ∀ b ∈ l, next a b ↔ (a, b) ∈ pairs l ∧ r a b = true := by
  have hmem : ∀ {a}, a ∈ l ↔ ∃ block ∈ l.splitBy r, a ∈ block := by
    intro a
    rw [← List.mem_flatten, List.flatten_splitBy]
  constructor
  · rintro ⟨hchain, hmaximal⟩ a ha b hb
    constructor
    · intro hab
      obtain ⟨block, hblock, ha⟩ := hmem.mp ha
      obtain ⟨block', hblock', hb⟩ := hmem.mp hb
      obtain rfl := hmaximal block hblock block' hblock' a ha b hb hab
      -- places grow by one along a block, so that `b` comes right after `a`
      have hplaces : block.IsChain fun a b => place b = place a + 1 := by
        refine isChain_iff_pairs.mpr fun pair hpair => ?_
        obtain ⟨hfst, hsnd⟩ := mem_of_mem_pairs hpair
        exact hnext _ (hmem.mpr ⟨block, hblock, hfst⟩) _ (hmem.mpr ⟨block, hblock, hsnd⟩)
          (isChain_iff_pairs.mp (hchain block hblock) pair hpair)
      have hplace := hnext a (hmem.mpr ⟨block, hblock, ha⟩) b (hmem.mpr ⟨block, hblock, hb⟩) hab
      exact mem_pairs_of_splitBy hblock (mem_pairs_of_place hplaces ha hb hplace)
    · rintro ⟨hpair, hab⟩
      obtain ⟨block, hblock, hpair⟩ := exists_pairs_splitBy hpair hab
      exact isChain_iff_pairs.mp (hchain block hblock) (a, b) hpair
  · intro h
    refine ⟨fun block hblock => isChain_iff_pairs.mpr fun pair hpair => ?_, ?_⟩
    · obtain ⟨hpairs, hab⟩ := mem_pairs_of_splitBy hblock hpair
      obtain ⟨ha, hb⟩ := mem_of_mem_pairs hpairs
      exact (h _ ha _ hb).mpr ⟨hpairs, hab⟩
    · intro block hblock block' hblock' a ha b hb hab
      obtain ⟨hpair, hab⟩ := (h a (hmem.mpr ⟨block, hblock, ha⟩) b
        (hmem.mpr ⟨block', hblock', hb⟩)).mp hab
      obtain ⟨common, hcommon, hpair⟩ := exists_pairs_splitBy hpair hab
      obtain ⟨ha', hb'⟩ := mem_of_mem_pairs hpair
      have hl := hplace.of_map
      exact (eq_of_mem_splitBy hl hblock hcommon ha ha').trans
        (eq_of_mem_splitBy hl hcommon hblock' hb' hb)

end Split

end VoxBench.Lib
