import Mathlib.Data.List.Basic

/-!
# Labelled machines and their runs

A machine is a step function guarded by an enabling condition. Every choice a
schedule can make (which party moves, what a clock reads, whether a request
fails) is part of the label, so that a run is a list of labels and its execution
is a left fold. What holds along a run is stated with `Along`, which evaluates a
condition in the state each step is taken from.

## Main definitions

* `Machine.exec s ls` — the state after the labels `ls`, from `s`.
* `Machine.Along C s ls` — every step of the run meets `C` where it is taken.
* `Machine.Sometime C s ls` — some step of the run does.
* `Machine.Legal` — every step is enabled where it is taken.
* `Machine.Reachable` — the states of legal runs from an initial state.
* `Machine.countSteps` — how often a kind of step is taken in a run.
-/

namespace VoxBench.Lib

universe u v

/-- A guarded step function over states `σ` and labels `ℓ`. -/
structure Machine (σ : Type u) (ℓ : Type v) where
  init : σ → Prop
  enabled : σ → ℓ → Prop
  next : σ → ℓ → σ

namespace Machine

variable {σ : Type u} {ℓ : Type v} (M : Machine σ ℓ)

/-- The state a run ends in. -/
def exec (s : σ) (ls : List ℓ) : σ := ls.foldl M.next s

/-- Every step of the run meets `C` in the state it is taken from. -/
def Along (C : σ → ℓ → Prop) : σ → List ℓ → Prop
  | _, [] => True
  | s, l :: ls => C s l ∧ Along C (M.next s l) ls

instance decidableAlong (C : σ → ℓ → Prop) [∀ s l, Decidable (C s l)] :
    ∀ s ls, Decidable (M.Along C s ls)
  | _, [] => isTrue trivial
  | s, l :: ls =>
      have := decidableAlong C (M.next s l) ls
      inferInstanceAs (Decidable (C s l ∧ M.Along C (M.next s l) ls))

/-- Some step of the run meets `C` in the state it is taken from. -/
def Sometime (C : σ → ℓ → Prop) : σ → List ℓ → Prop
  | _, [] => False
  | s, l :: ls => C s l ∨ Sometime C (M.next s l) ls

/-- Every step of the run is enabled where it is taken. -/
def Legal (s : σ) (ls : List ℓ) : Prop := M.Along M.enabled s ls

instance [∀ s l, Decidable (M.enabled s l)] (s : σ) (ls : List ℓ) : Decidable (M.Legal s ls) :=
  M.decidableAlong M.enabled s ls

/-- The states of legal runs from an initial state. -/
def Reachable (s : σ) : Prop := ∃ s₀ ls, M.init s₀ ∧ M.Legal s₀ ls ∧ M.exec s₀ ls = s

/-- The number of steps of the run that `P` counts, by the state before, the label
and the state after. -/
def countSteps (P : σ → ℓ → σ → Bool) : σ → List ℓ → ℕ
  | _, [] => 0
  | s, l :: ls => (if P s l (M.next s l) then 1 else 0) + countSteps P (M.next s l) ls

@[simp] theorem exec_nil (s : σ) : M.exec s [] = s := rfl
@[simp] theorem exec_cons (s : σ) (l : ℓ) (ls : List ℓ) :
    M.exec s (l :: ls) = M.exec (M.next s l) ls := rfl
@[simp] theorem exec_append (s : σ) (ls ks : List ℓ) :
    M.exec s (ls ++ ks) = M.exec (M.exec s ls) ks := List.foldl_append

variable {M} {C D : σ → ℓ → Prop} {s : σ} {ls ks : List ℓ}

@[simp] theorem along_nil : M.Along C s [] := trivial
@[simp] theorem along_cons {l : ℓ} :
    M.Along C s (l :: ls) ↔ C s l ∧ M.Along C (M.next s l) ls := Iff.rfl

@[simp] theorem along_append :
    M.Along C s (ls ++ ks) ↔ M.Along C s ls ∧ M.Along C (M.exec s ls) ks := by
  induction ls generalizing s with
  | nil => simp
  | cons l ls ih => simp [ih, and_assoc]

@[simp] theorem sometime_nil : ¬ M.Sometime C s [] := id
@[simp] theorem sometime_cons {l : ℓ} :
    M.Sometime C s (l :: ls) ↔ C s l ∨ M.Sometime C (M.next s l) ls := Iff.rfl

@[simp] theorem sometime_append :
    M.Sometime C s (ls ++ ks) ↔ M.Sometime C s ls ∨ M.Sometime C (M.exec s ls) ks := by
  induction ls generalizing s with
  | nil => simp
  | cons l ls ih => simp [ih, or_assoc]

/-- No step of a run meets `C` when every step meets a condition that excludes it. -/
theorem Along.not_sometime (hCD : ∀ s l, D s l → ¬ C s l) (h : M.Along D s ls) :
    ¬ M.Sometime C s ls := by
  induction ls generalizing s with
  | nil => exact sometime_nil
  | cons l ls ih =>
      rintro (hhead | htail)
      · exact hCD s l h.1 hhead
      · exact ih h.2 htail

theorem along_true (s : σ) (ls : List ℓ) : M.Along (fun _ _ => True) s ls := by
  induction ls generalizing s with
  | nil => exact along_nil
  | cons l ls ih => exact ⟨trivial, ih _⟩

theorem Along.mono (hCD : ∀ s l, C s l → D s l) (h : M.Along C s ls) : M.Along D s ls := by
  induction ls generalizing s with
  | nil => exact along_nil
  | cons l ls ih => exact ⟨hCD s l h.1, ih h.2⟩

theorem along_and : M.Along (fun s l => C s l ∧ D s l) s ls ↔
    M.Along C s ls ∧ M.Along D s ls := by
  induction ls generalizing s with
  | nil => simp
  | cons l ls ih => simp only [along_cons, ih]; tauto

/-- What every step meeting `C` preserves, a run of such steps preserves. -/
theorem Along.invariant {I : σ → Prop} (hstep : ∀ s l, C s l → I s → I (M.next s l))
    (h : M.Along C s ls) (hs : I s) : I (M.exec s ls) := by
  induction ls generalizing s with
  | nil => exact hs
  | cons l ls ih => exact ih h.2 (hstep s l h.1 hs)

/-- The run rule for a relation between two states: reflexive, and extended by a
step at the end. -/
theorem Along.relates {R : σ → σ → Prop} (hrefl : ∀ s, R s s)
    (hstep : ∀ s t l, R s t → C t l → R s (M.next t l))
    (h : M.Along C s ls) : R s (M.exec s ls) := by
  have key : ∀ t, R s t → M.Along C t ls → R s (M.exec t ls) := by
    intro t hst ht
    exact Along.invariant (I := R s) (fun t l hC hR => hstep s t l hR hC) ht hst
  exact key s (hrefl s) h

theorem countSteps_eq_zero {P : σ → ℓ → σ → Bool} {I : σ → Prop}
    (hstep : ∀ s l, C s l → I s → I (M.next s l))
    (hnot : ∀ s l, C s l → I s → P s l (M.next s l) = false)
    (h : M.Along C s ls) (hs : I s) : M.countSteps P s ls = 0 := by
  induction ls generalizing s with
  | nil => rfl
  | cons l ls ih =>
      simp only [countSteps, hnot s l h.1 hs, ih h.2 (hstep s l h.1 hs)]
      rfl

/-- A step that establishes a stable condition under which it is never taken again
is taken at most once. -/
theorem countSteps_le_one {P : σ → ℓ → σ → Bool} {I : σ → Prop}
    (hstep : ∀ s l, C s l → I s → I (M.next s l))
    (hnot : ∀ s l, C s l → I s → P s l (M.next s l) = false)
    (hset : ∀ s l, C s l → P s l (M.next s l) = true → I (M.next s l))
    (h : M.Along C s ls) : M.countSteps P s ls ≤ 1 := by
  induction ls generalizing s with
  | nil => exact Nat.zero_le 1
  | cons l ls ih =>
      by_cases hP : P s l (M.next s l) = true
      · have hrest := countSteps_eq_zero hstep hnot h.2 (hset s l h.1 hP)
        simp [countSteps, hP, hrest]
      · have hrest := ih h.2
        simpa [countSteps, hP] using hrest

/-- Where `C` tells exactly which steps keep `P`, a legal run keeps `P` in all of its
states exactly when all of its steps meet `C`. `I` is what holds in any case. -/
theorem forall_prefix_iff_along {P I : σ → Prop}
    (hI : ∀ s l, M.enabled s l → I s → I (M.next s l))
    (hiff : ∀ s l, M.enabled s l → I s → P s → (C s l ↔ P (M.next s l)))
    (hls : M.Legal s ls) (hs : I s) (hP : P s) :
    (∀ ks, ks <+: ls → P (M.exec s ks)) ↔ M.Along C s ls := by
  induction ls generalizing s with
  | nil => simpa using hP
  | cons l ls ih =>
      obtain ⟨hl, hls⟩ := hls
      have hrest : P (M.next s l) → ((∀ ks, ks <+: ls → P (M.exec (M.next s l) ks)) ↔
          M.Along C (M.next s l) ls) := fun hnext => ih hls (hI s l hl hs) hnext
      constructor
      · intro h
        have hnext : P (M.next s l) := h [l] (by simp)
        refine ⟨(hiff s l hl hs hP).mpr hnext, (hrest hnext).mp fun ks hks => ?_⟩
        exact h (l :: ks) (by simpa using hks)
      · rintro ⟨hC, h⟩ ks hks
        have hnext : P (M.next s l) := (hiff s l hl hs hP).mp hC
        cases ks with
        | nil => exact hP
        | cons k ks =>
            obtain ⟨rfl, hrestks⟩ := List.cons_prefix_cons.mp hks
            exact (hrest hnext).mpr h ks hrestks

theorem Reachable.of_init (h : M.init s) : M.Reachable s := ⟨s, [], h, along_nil, rfl⟩

theorem Reachable.step {l : ℓ} (h : M.Reachable s) (hl : M.enabled s l) :
    M.Reachable (M.next s l) := by
  obtain ⟨s₀, ls, h₀, hls, rfl⟩ := h
  refine ⟨s₀, ls ++ [l], h₀, ?_, by simp⟩
  exact along_append.mpr ⟨hls, hl, along_nil⟩

theorem Reachable.run (h : M.Reachable s) (hls : M.Legal s ls) :
    M.Reachable (M.exec s ls) :=
  Along.invariant (I := M.Reachable) (fun _ _ hl hr => hr.step hl) hls h

/-- An inductive invariant holds in every reachable state. -/
theorem Reachable.invariant {I : σ → Prop} (hinit : ∀ s, M.init s → I s)
    (hstep : ∀ s l, M.enabled s l → I s → I (M.next s l)) (h : M.Reachable s) : I s := by
  obtain ⟨s₀, ls, h₀, hls, rfl⟩ := h
  exact Along.invariant hstep hls (hinit s₀ h₀)

/-- A legal run meets every condition that its enabled steps meet in reachable
states. -/
theorem Reachable.along (hC : ∀ s l, M.Reachable s → M.enabled s l → C s l)
    (h : M.Reachable s) (hls : M.Legal s ls) : M.Along C s ls := by
  induction ls generalizing s with
  | nil => exact along_nil
  | cons l ls ih => exact ⟨hC s l h hls.1, ih (h.step hls.1) hls.2⟩

end Machine
end VoxBench.Lib
