import Mathlib.Data.List.Basic

/-!
# Texts with marks between their fields

Fields without a mark, joined by it, can be told apart again. One edit of such a text that keeps
the number of marks changes what stands before the last mark or what stands after it, not both.

## Main definitions

* `Edit` — one element is changed, added or removed.

## Main results

* `append_mark_inj`, `append_last_mark_inj` — the cut at the first and at the last mark.
* `Edit.one_side` — an edit on one side of the last mark.
-/

namespace VoxBench.Lib

variable {α : Type}

/-! ## Cuts -/

/-- The text before the first mark, and the text after it. -/
theorem append_mark_inj {mark : α} {a b x y : List α} (ha : mark ∉ a) (hb : mark ∉ b)
    (h : a ++ mark :: x = b ++ mark :: y) : a = b ∧ x = y := by
  induction a generalizing b with
  | nil =>
      cases b with
      | nil => exact ⟨rfl, (List.cons.inj h).2⟩
      | cons c b =>
          obtain ⟨rfl, -⟩ := List.cons.inj h
          exact absurd List.mem_cons_self hb
  | cons c a ih =>
      cases b with
      | nil =>
          obtain ⟨rfl, -⟩ := List.cons.inj h
          exact absurd List.mem_cons_self ha
      | cons d b =>
          simp only [List.mem_cons, not_or] at ha hb
          obtain ⟨rfl, htail⟩ := List.cons.inj h
          obtain ⟨rfl, hxy⟩ := ih ha.2 hb.2 htail
          exact ⟨rfl, hxy⟩

/-- The text before the last mark, and the text after it. -/
theorem append_last_mark_inj {mark : α} {a b x y : List α} (hx : mark ∉ x) (hy : mark ∉ y)
    (h : a ++ mark :: x = b ++ mark :: y) : a = b ∧ x = y := by
  have hreverse : x.reverse ++ mark :: a.reverse = y.reverse ++ mark :: b.reverse := by
    simpa using congrArg List.reverse h
  obtain ⟨hxy, hab⟩ := append_mark_inj (by simpa using hx) (by simpa using hy) hreverse
  exact ⟨List.reverse_injective hab, List.reverse_injective hxy⟩

/-- What joined parts consist of, but for the mark between them. -/
theorem mem_intercalate_iff {c mark : α} {parts : List (List α)} (h : c ≠ mark) :
    c ∈ [mark].intercalate parts ↔ ∃ part ∈ parts, c ∈ part := by
  induction parts with
  | nil => simp
  | cons part parts ih =>
      cases parts with
      | nil => simp
      | cons next parts =>
          simp only [List.intercalate_cons_cons, List.mem_append, ih, h, List.not_mem_nil, or_false,
            List.mem_cons, exists_eq_or_imp]

/-- The fields of a text have no mark. -/
theorem mark_notMem_of_splitOn [BEq α] [LawfulBEq α] {mark : α} {text field : List α}
    (h : field ∈ text.splitOn mark) : mark ∉ field := by
  induction text generalizing field with
  | nil =>
      rw [List.splitOn_nil, List.mem_singleton] at h
      exact h ▸ List.not_mem_nil
  | cons c text ih =>
      rw [List.splitOn_cons_eq_if_modifyHead] at h
      split_ifs at h with hmark
      · rcases List.mem_cons.mp h with rfl | h
        · exact List.not_mem_nil
        · exact ih h
      · obtain ⟨first, rest, hsplit⟩ := List.exists_cons_of_ne_nil (List.splitOn_ne_nil mark text)
        rw [hsplit, List.modifyHead_cons] at h
        rcases List.mem_cons.mp h with rfl | h
        · have hfirst : mark ∉ first := ih (hsplit ▸ List.mem_cons_self)
          rw [List.mem_cons, not_or]
          exact ⟨fun heq => hmark (beq_iff_eq.mpr heq.symm), hfirst⟩
        · exact ih (hsplit ▸ List.mem_cons_of_mem first h)

/-! ## Edits -/

/-- One element is changed, added or removed. -/
def Edit (xs ys : List α) : Prop :=
  ∃ before old new after, xs = before ++ (old ++ after) ∧ ys = before ++ (new ++ after) ∧
    old.length ≤ 1 ∧ new.length ≤ 1 ∧ old ≠ new

/-- An edit does change. -/
theorem Edit.ne {xs ys : List α} (h : Edit xs ys) : xs ≠ ys := by
  obtain ⟨before, old, new, after, rfl, rfl, -, -, hne⟩ := h
  exact fun heq => hne (List.append_cancel_right (List.append_cancel_left heq))

/-- Two texts that differ in a part without marks differ on one side of the last mark. -/
theorem one_side_of_replaced {mark : α} {a b x y before old new after : List α} (hx : mark ∉ x)
    (hy : mark ∉ y) (hold : mark ∉ old) (hnew : mark ∉ new)
    (h : a ++ mark :: x = before ++ (old ++ after))
    (h' : b ++ mark :: y = before ++ (new ++ after)) : a = b ∨ x = y := by
  -- Either the last mark stands before the part, or after it.
  rcases List.append_eq_append_iff.mp h with ⟨front, rfl, htail⟩ | ⟨back, rfl, htail⟩
  · cases front with
    | nil =>
        cases old with
        | nil =>
            obtain rfl : mark :: x = after := htail
            refine Or.inr ?_
            rw [List.append_nil, ← List.append_assoc] at h'
            exact (append_last_mark_inj hx hy h'.symm).2
        | cons c old =>
            obtain ⟨rfl, -⟩ := List.cons.inj htail
            exact absurd List.mem_cons_self hold
    | cons c front =>
        rw [List.cons_append, List.cons.injEq] at htail
        obtain ⟨rfl, hrest⟩ := htail
        refine Or.inl ?_
        simp only [hrest, List.mem_append, not_or] at hx
        rw [List.append_assoc, List.cons_append] at h'
        refine (append_last_mark_inj ?_ hy h'.symm).1
        simp only [List.mem_append, not_or]
        exact ⟨hx.1, hnew, hx.2.2⟩
  · have hafter : ∃ rest, after = rest ++ mark :: x := by
      rcases List.append_eq_append_iff.mp htail with ⟨rest, -, hrest⟩ | ⟨rest, rfl, hrest⟩
      · exact ⟨rest, hrest⟩
      · cases rest with
        | nil => exact ⟨[], hrest.symm⟩
        | cons c rest =>
            obtain ⟨rfl, -⟩ := List.cons.inj hrest
            exact absurd (List.mem_append_right back List.mem_cons_self) hold
    obtain ⟨rest, rfl⟩ := hafter
    refine Or.inr ?_
    rw [← List.append_assoc, ← List.append_assoc] at h'
    exact (append_last_mark_inj hx hy h'.symm).2

/-- An edit that keeps the number of marks is on one side of the last mark. -/
theorem Edit.one_side [DecidableEq α] {mark : α} {a b x y : List α} (hx : mark ∉ x) (hy : mark ∉ y)
    (hcount : a.count mark = b.count mark) (h : Edit (a ++ mark :: x) (b ++ mark :: y)) :
    a = b ∨ x = y := by
  obtain ⟨before, old, new, after, hxs, hys, hold, hnew, hne⟩ := h
  have hmarks : old.count mark = new.count mark := by
    have hx' := congrArg (List.count mark) hxs
    have hy' := congrArg (List.count mark) hys
    simp only [List.count_append, List.count_cons_self, List.count_eq_zero_of_not_mem hx,
      List.count_eq_zero_of_not_mem hy] at hx' hy'
    omega
  have hfree : ∀ {part other : List α}, part.length ≤ 1 → other.length ≤ 1 → part ≠ other →
      part.count mark = other.count mark → mark ∉ part := by
    intro part other hpart hother hdiffer hsame hmem
    have hpos := List.count_pos_iff.mpr hmem
    have hmem' := List.count_pos_iff.mp (hsame ▸ hpos)
    obtain ⟨c, rfl⟩ := List.length_eq_one_iff.mp
      (Nat.le_antisymm hpart (List.length_pos_of_mem hmem))
    obtain ⟨d, rfl⟩ := List.length_eq_one_iff.mp
      (Nat.le_antisymm hother (List.length_pos_of_mem hmem'))
    rw [List.mem_singleton] at hmem hmem'
    exact hdiffer (by rw [← hmem, ← hmem'])
  exact one_side_of_replaced hx hy (hfree hold hnew hne hmarks)
    (hfree hnew hold hne.symm hmarks.symm) hxs hys

end VoxBench.Lib
