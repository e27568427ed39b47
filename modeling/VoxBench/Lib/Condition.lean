import Mathlib.Data.List.Basic

/-!
# Condition variables

Tasks that wait on a condition variable stand in a queue. To notify is to mark the first of
them that is not marked yet; a marked task leaves the queue when it gets the lock again.
Between the two it may find that what it was woken for is gone.

## Main definitions

* `Condition.wait`, `notify`, `notifyAll`, `resume` — the operations.
* `Condition.Supplied c n` — as long as somebody sleeps, there are enough notified tasks for
  the `n` items that are there.

## Main results

* `Supplied.notify`, `Supplied.resume`, `supplied_notifyAll` — one notified task for each new
  item keeps the items supplied.
-/

namespace VoxBench.Lib

universe u

/-- The waiting tasks in order, each with whether it has been notified. -/
structure Condition (T : Type u) where
  waiters : List (T × Bool) := []
  deriving DecidableEq, Repr

/-- Mark the first task that is not marked. -/
def notifyFirst {T : Type u} : List (T × Bool) → List (T × Bool)
  | [] => []
  | (t, true) :: ws => (t, true) :: notifyFirst ws
  | (t, false) :: ws => (t, true) :: ws

namespace Condition

variable {T : Type u} {c : Condition T} {t : T} {m n : ℕ}

def wait (c : Condition T) (t : T) : Condition T := ⟨c.waiters ++ [(t, false)]⟩

def notify (c : Condition T) : Condition T := ⟨notifyFirst c.waiters⟩

def notifyAll (c : Condition T) : Condition T := ⟨c.waiters.map fun w => (w.1, true)⟩

/-- A notified task goes on. -/
def resume [DecidableEq T] (c : Condition T) (t : T) : Condition T := ⟨c.waiters.erase (t, true)⟩

/-- The number of notified tasks. -/
def notified (c : Condition T) : ℕ := c.waiters.countP Prod.snd

/-- The task waits and has not been notified. -/
def Sleeps (c : Condition T) (t : T) : Prop := (t, false) ∈ c.waiters

/-- As long as somebody sleeps, there is a notified task for each item. -/
def Supplied (c : Condition T) (n : ℕ) : Prop := ∀ t, c.Sleeps t → n ≤ c.notified

theorem countP_notifyFirst {ws : List (T × Bool)} (h : (t, false) ∈ ws) :
    (notifyFirst ws).countP Prod.snd = ws.countP Prod.snd + 1 := by
  induction ws with
  | nil => cases h
  | cons w ws ih =>
      obtain ⟨u, marked⟩ := w
      cases marked with
      | false => simp [notifyFirst]
      | true =>
          have hws : (t, false) ∈ ws := by simpa using h
          simp [notifyFirst, ih hws]

theorem mem_of_mem_notifyFirst {ws : List (T × Bool)} (h : (t, false) ∈ notifyFirst ws) :
    (t, false) ∈ ws := by
  induction ws with
  | nil => cases h
  | cons w ws ih =>
      obtain ⟨u, marked⟩ := w
      cases marked with
      | false =>
          have hws : (t, false) ∈ ws := by simpa [notifyFirst] using h
          exact List.mem_cons_of_mem _ hws
      | true =>
          have hws : (t, false) ∈ notifyFirst ws := by simpa [notifyFirst] using h
          exact List.mem_cons_of_mem _ (ih hws)

theorem Supplied.mono (h : c.Supplied n) (hmn : m ≤ n) : c.Supplied m :=
  fun t ht => Nat.le_trans hmn (h t ht)

/-- A new item wakes one more task. -/
theorem Supplied.notify (h : c.Supplied n) : c.notify.Supplied (n + 1) := by
  intro t ht
  have hsleeps : c.Sleeps t := mem_of_mem_notifyFirst ht
  have hn := h t hsleeps
  have hcount := countP_notifyFirst hsleeps
  simp only [notified, Condition.notify] at hn ⊢
  omega

/-- A task that goes on takes an item, if there is one. -/
theorem Supplied.resume [DecidableEq T] (h : c.Supplied n) (ht : (t, true) ∈ c.waiters) :
    (c.resume t).Supplied (n - 1) := by
  intro u hu
  have hsleeps : c.Sleeps u := List.mem_of_mem_erase hu
  have hn := h u hsleeps
  have hcount := (List.perm_cons_erase ht).countP_eq Prod.snd
  rw [List.countP_cons_of_pos rfl] at hcount
  simp only [notified, Condition.resume] at hn ⊢
  omega

/-- A task that finds nothing sleeps. -/
theorem supplied_zero (c : Condition T) : c.Supplied 0 := fun _ _ => Nat.zero_le _

theorem supplied_notifyAll (c : Condition T) (n : ℕ) : c.notifyAll.Supplied n := by
  intro t ht
  obtain ⟨w, -, hw⟩ := List.mem_map.mp ht
  cases hw

/-- Without a notified task nothing is there for those who sleep. -/
theorem Supplied.eq_zero (h : c.Supplied n) (hnone : ∀ w ∈ c.waiters, w.2 = false)
    (hne : c.waiters ≠ []) : n = 0 := by
  obtain ⟨w, ws, hw⟩ := List.exists_cons_of_ne_nil hne
  have hmem : w ∈ c.waiters := by rw [hw]; exact List.mem_cons_self
  have hsleeps : c.Sleeps w.1 := by
    rw [Sleeps, ← hnone w hmem]
    exact hmem
  have hcount : c.notified = 0 := by
    rw [notified, List.countP_eq_zero]
    intro w hw
    simp [hnone w hw]
  have hn := h w.1 hsleeps
  omega

end Condition

end VoxBench.Lib
