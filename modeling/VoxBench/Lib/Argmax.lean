import Mathlib.Data.List.MinMax

/-!
# First maxima of parts

`List.argmax f` keeps the first of the elements whose value is largest. The first maximum of
a list is found among the first maxima of its parts, in the order of the parts.

## Main definitions

* `stronger f a b` — `b` when its value is strictly larger, else `a`.

## Main results

* `argmax_append` — the parts of a list.
* `argmax_map` — a map that keeps the order of the values.
* `argmax_congr` — two values that order every element against the later ones alike.
-/

namespace VoxBench.Lib

universe u v w

variable {α : Type u} {β : Type v} {γ : Type w} [LinearOrder β] [LinearOrder γ]

/-- The candidate of the later part replaces the earlier one only when it is larger. -/
def stronger (f : α → β) : Option α → Option α → Option α
  | none, b => b
  | some a, none => some a
  | some a, some b => if f a < f b then some b else some a

@[simp] theorem none_stronger (f : α → β) (b : Option α) : stronger f none b = b := rfl

@[simp] theorem stronger_none (f : α → β) (a : Option α) : stronger f a none = a := by
  cases a <;> rfl

theorem argmax_snoc (f : α → β) (xs : List α) (y : α) :
    (xs ++ [y]).argmax f = stronger f (xs.argmax f) (some y) := by
  rw [List.argmax_concat]
  cases xs.argmax f <;> rfl

theorem stronger_assoc (f : α → β) (a b c : Option α) :
    stronger f (stronger f a b) c = stronger f a (stronger f b c) := by
  cases a with
  | none => rfl
  | some a =>
      cases b with
      | none => rfl
      | some b =>
          cases c with
          | none => rw [stronger_none, stronger_none]
          | some c =>
              by_cases hab : f a < f b
              · by_cases hbc : f b < f c
                · simp [stronger, hab, hbc, hab.trans hbc]
                · simp [stronger, hab, hbc]
              · by_cases hbc : f b < f c
                · simp [stronger, hab, hbc]
                · have hac : ¬ f a < f c := by
                    rw [not_lt] at hab hbc ⊢
                    exact hbc.trans hab
                  simp [stronger, hab, hbc, hac]

theorem argmax_append (f : α → β) (xs ys : List α) :
    (xs ++ ys).argmax f = stronger f (xs.argmax f) (ys.argmax f) := by
  induction ys using List.reverseRecOn with
  | nil => simp
  | append_singleton ys y ih =>
      rw [← List.append_assoc, argmax_snoc, ih, stronger_assoc, argmax_snoc]

@[simp] theorem argmax_toList (f : α → β) (o : Option α) : o.toList.argmax f = o := by
  cases o <;> rfl

theorem argmax_map {f : α → β} {g : α → α} (h : ∀ a b, f (g a) < f (g b) ↔ f a < f b)
    (xs : List α) : (xs.map g).argmax f = (xs.argmax f).map g := by
  induction xs using List.reverseRecOn with
  | nil => rfl
  | append_singleton xs x ih =>
      rw [List.map_append, List.map_singleton, argmax_snoc, argmax_snoc, ih]
      cases xs.argmax f with
      | none => rfl
      | some a => by_cases hlt : f a < f x <;> simp [stronger, h, hlt]

/-- Only comparisons with later elements are made. -/
theorem argmax_congr {f : α → β} {g : α → γ} {xs : List α}
    (h : xs.Pairwise fun a b => f a < f b ↔ g a < g b) : xs.argmax f = xs.argmax g := by
  induction xs using List.reverseRecOn with
  | nil => rfl
  | append_singleton xs x ih =>
      obtain ⟨hxs, -, hx⟩ := List.pairwise_append.mp h
      rw [argmax_snoc, argmax_snoc, ih hxs]
      cases hmax : xs.argmax g with
      | none => rfl
      | some a =>
          have hiff := hx a (List.argmax_mem hmax) x List.mem_cons_self
          simp only [stronger, hiff]

end VoxBench.Lib
