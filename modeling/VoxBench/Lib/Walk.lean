import Mathlib.Data.List.Chain
import Mathlib.Data.List.Nodup

/-!
# Walks along a partial function

`next` gives the successor of an element, when it has one. From a given start there is one
walk of each length, so a walk that comes to an element without successor is the only one
that does, and it visits no element twice.

## Main definitions

* `IsWalk next path` — each element of `path` is the successor of the one before.

## Main results

* `IsWalk.eq_of_ends` — two walks from one start that end agree.
* `IsWalk.nodup_of_ends` — a walk that ends visits no element twice.
* `IsWalk.not_ends_of_revisit` — a walk that revisits an element comes to no end.
-/

namespace VoxBench.Lib

universe u

variable {α : Type u} {next : α → Option α}

/-- Each element is the successor of the one before. -/
def IsWalk (next : α → Option α) (path : List α) : Prop :=
  path.IsChain fun a b => next a = some b

namespace IsWalk

theorem singleton (a : α) : IsWalk next [a] := by
  simp [IsWalk]

theorem cons_cons_iff {a b : α} {path : List α} :
    IsWalk next (a :: b :: path) ↔ next a = some b ∧ IsWalk next (b :: path) :=
  List.isChain_cons_cons

theorem right_of_append {p q : List α} (h : IsWalk next (p ++ q)) : IsWalk next q :=
  List.IsChain.right_of_append h

theorem eq_of_ends {a : α} {p q : List α} (hp : IsWalk next (a :: p)) (hq : IsWalk next (a :: q))
    (hpe : next ((a :: p).getLast (by simp)) = none)
    (hqe : next ((a :: q).getLast (by simp)) = none) : p = q := by
  induction p generalizing a q with
  | nil =>
      cases q with
      | nil => rfl
      | cons c q =>
          have hc := (cons_cons_iff.mp hq).1
          rw [List.getLast_singleton] at hpe
          simp [hpe] at hc
  | cons b p ih =>
      obtain ⟨hb, hp⟩ := cons_cons_iff.mp hp
      cases q with
      | nil =>
          rw [List.getLast_singleton] at hqe
          simp [hqe] at hb
      | cons c q =>
          obtain ⟨hc, hq⟩ := cons_cons_iff.mp hq
          obtain rfl : b = c := Option.some.inj (hb.symm.trans hc)
          rw [List.getLast_cons (by simp)] at hpe hqe
          rw [ih hp hq hpe hqe]

theorem nodup_of_ends {p : List α} (hp : IsWalk next p) (hne : p ≠ [])
    (hend : next (p.getLast hne) = none) : p.Nodup := by
  induction p with
  | nil => exact absurd rfl hne
  | cons a p ih =>
      cases p with
      | nil => simp
      | cons b p =>
          have htail : IsWalk next (b :: p) := (cons_cons_iff.mp hp).2
          rw [List.getLast_cons (by simp)] at hend
          refine List.nodup_cons.mpr ⟨?_, ih htail (by simp) hend⟩
          -- a second visit to `a` would be the start of a shorter walk to the end
          intro ha
          obtain ⟨s, t, hst⟩ := List.append_of_mem ha
          have hshort : IsWalk next (a :: t) := by
            rw [hst] at htail
            exact htail.right_of_append
          have hlast : next ((a :: t).getLast (by simp)) = none := by
            rw [← hend]
            congr 1
            simp [hst]
          have heq : b :: p = t := by
            refine hp.eq_of_ends hshort ?_ hlast
            rw [List.getLast_cons (by simp)]
            exact hend
          have hlen := congrArg List.length hst
          rw [heq] at hlen
          simp at hlen
          omega

/-- Two walks from one start: one is an initial part of the other. -/
theorem prefix_or_prefix {a : α} {p q : List α} (hp : IsWalk next (a :: p))
    (hq : IsWalk next (a :: q)) : p <+: q ∨ q <+: p := by
  induction p generalizing a q with
  | nil => exact Or.inl (List.nil_prefix ..)
  | cons b p ih =>
      cases q with
      | nil => exact Or.inr (List.nil_prefix ..)
      | cons c q =>
          obtain ⟨hb, hp⟩ := cons_cons_iff.mp hp
          obtain ⟨hc, hq⟩ := cons_cons_iff.mp hq
          obtain rfl : b = c := Option.some.inj (hb.symm.trans hc)
          exact (ih hp hq).imp (fun h => (List.prefix_cons_inj b).mpr h)
            (fun h => (List.prefix_cons_inj b).mpr h)

theorem not_ends_of_revisit {a : α} {p q : List α} (hp : IsWalk next (a :: p))
    (hrevisit : ¬ (a :: p).Nodup) (hq : IsWalk next (a :: q))
    (hend : next ((a :: q).getLast (by simp)) = none) : False := by
  have hnodup : (a :: q).Nodup := hq.nodup_of_ends (by simp) hend
  rcases hp.prefix_or_prefix hq with h | h
  · exact hrevisit (hnodup.sublist ((List.prefix_cons_inj a).mpr h).sublist)
  · -- a walk cannot go on after its end
    obtain ⟨t, rfl⟩ := h
    cases t with
    | nil => exact hrevisit (by simpa using hnodup)
    | cons c t =>
        have hsplit : a :: (q ++ c :: t) =
            (a :: q).dropLast ++ ((a :: q).getLast (by simp) :: c :: t) := by
          conv_lhs => rw [← List.cons_append, ← List.dropLast_append_getLast (l := a :: q) (by simp)]
          simp
        rw [hsplit] at hp
        have hstep := (cons_cons_iff.mp hp.right_of_append).1
        simp [hend] at hstep

end IsWalk
end VoxBench.Lib
