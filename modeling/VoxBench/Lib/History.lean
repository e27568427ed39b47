import Mathlib.Data.List.Basic

/-!
# Histories

A history is a list that grows at its end. A property of what happens is a relation between
an element and the elements before it.

## Main definitions

* `Throughout X h` — every element of `h` is related to the ones before it.
* `gather f h` — what the elements give, with the ones before them.

## Main results

* `throughout_snoc` — the last element apart from the others.
-/

namespace VoxBench.Lib

universe u

variable {α : Type u} {X Y : List α → α → Prop} {h : List α}

/-- Every element meets `X` with the elements before it. -/
def Throughout (X : List α → α → Prop) (h : List α) : Prop :=
  ∀ before x after, h = before ++ x :: after → X before x

@[simp] theorem throughout_nil : Throughout X [] := by
  intro before x after hsplit
  simp at hsplit

@[simp] theorem throughout_snoc {x : α} : Throughout X (h ++ [x]) ↔ Throughout X h ∧ X h x := by
  constructor
  · intro hall
    refine ⟨fun before y after hsplit => ?_, hall h x [] rfl⟩
    exact hall before y (after ++ [x]) (by simp [hsplit])
  · rintro ⟨hall, hx⟩ before y after hsplit
    rcases List.eq_nil_or_concat' after with rfl | ⟨after, z, rfl⟩
    · obtain ⟨rfl, heq⟩ := List.append_inj' hsplit rfl
      obtain rfl : x = y := by simpa using heq
      exact hx
    · have hsplit' : h ++ [x] = (before ++ y :: after) ++ [z] := by simpa using hsplit
      exact hall before y after (List.append_inj' hsplit' rfl).1

theorem Throughout.exists_of_mem (hall : Throughout X h) {x : α} (hx : x ∈ h) :
    ∃ before, X before x := by
  obtain ⟨before, after, hsplit⟩ := List.append_of_mem hx
  exact ⟨before, hall before x after hsplit⟩

theorem Throughout.mono (hall : Throughout X h) (hXY : ∀ before x, X before x → Y before x) :
    Throughout Y h :=
  fun before x after hsplit => hXY before x (hall before x after hsplit)

section Gather

variable {β : Type u} {f : List α → α → List β}

def gatherAfter (f : List α → α → List β) (before : List α) : List α → List β
  | [] => []
  | x :: after => f before x ++ gatherAfter f (before ++ [x]) after

/-- What the elements give, each with the elements before it. -/
def gather (f : List α → α → List β) (h : List α) : List β := gatherAfter f [] h

@[simp] theorem gather_nil : gather f [] = [] := rfl

theorem gatherAfter_snoc (before h : List α) (x : α) :
    gatherAfter f before (h ++ [x]) = gatherAfter f before h ++ f (before ++ h) x := by
  induction h generalizing before with
  | nil => simp [gatherAfter]
  | cons y h ih =>
      rw [List.cons_append, gatherAfter, gatherAfter, ih, List.append_assoc, List.append_assoc]
      rfl

theorem gather_snoc (h : List α) (x : α) : gather f (h ++ [x]) = gather f h ++ f h x :=
  gatherAfter_snoc [] h x

end Gather

end VoxBench.Lib
