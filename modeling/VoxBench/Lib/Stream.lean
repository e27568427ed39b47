import Mathlib.Data.List.Basic

/-!
# Streams that arrive in chunks

A stream is what has arrived and has not been read, and the chunks that are still to come
before its end. `readexactly` waits for as many elements as it is asked for, or for the end.
What it returns depends on the elements only, and not on how they are cut into chunks.

## Main definitions

* `Stream.readexactly` — the next `n` elements, or all that is left.
* `Stream.rest` — everything that is still to be read.
-/

namespace VoxBench.Lib

universe u

/-- What has arrived, and what is still to arrive. -/
structure Stream (α : Type u) where
  buffer : List α
  arrivals : List (List α)

namespace Stream

variable {α : Type u}

/-- Everything that is still to be read. -/
def rest (s : Stream α) : List α := s.buffer ++ s.arrivals.flatten

/-- A stream from its beginning. -/
def ofChunks (chunks : List (List α)) : Stream α := ⟨[], chunks⟩

@[simp] theorem rest_ofChunks (chunks : List (List α)) : (ofChunks chunks).rest = chunks.flatten :=
  List.nil_append _

/-- The loop of `readexactly`: wait for the next chunk while the buffer is too short. -/
def readFrom (n : ℕ) : List α → List (List α) → Except (List α) (List α) × Stream α
  | buffer, [] =>
      if n ≤ buffer.length then (.ok (buffer.take n), ⟨buffer.drop n, []⟩)
      else (.error buffer, ⟨[], []⟩)
  | buffer, chunk :: arrivals =>
      if n ≤ buffer.length then (.ok (buffer.take n), ⟨buffer.drop n, chunk :: arrivals⟩)
      else readFrom n (buffer ++ chunk) arrivals

/-- The next `n` elements, or what was left of them at the end of the stream. -/
def readexactly (s : Stream α) (n : ℕ) : Except (List α) (List α) × Stream α :=
  readFrom n s.buffer s.arrivals

theorem readFrom_of_le {n : ℕ} {buffer : List α} {arrivals : List (List α)}
    (h : n ≤ (buffer ++ arrivals.flatten).length) :
    ∃ s, readFrom n buffer arrivals = (.ok ((buffer ++ arrivals.flatten).take n), s) ∧
      s.rest = (buffer ++ arrivals.flatten).drop n := by
  induction arrivals generalizing buffer with
  | nil =>
      rw [List.flatten_nil, List.append_nil] at h ⊢
      rw [readFrom, if_pos h]
      exact ⟨_, rfl, List.append_nil _⟩
  | cons chunk arrivals ih =>
      rw [readFrom]
      by_cases hle : n ≤ buffer.length
      · rw [if_pos hle, List.take_append_of_le_length hle, List.drop_append_of_le_length hle]
        exact ⟨_, rfl, rfl⟩
      · rw [if_neg hle, List.flatten_cons, ← List.append_assoc]
        refine ih ?_
        rwa [List.append_assoc]

theorem readFrom_of_lt {n : ℕ} {buffer : List α} {arrivals : List (List α)}
    (h : (buffer ++ arrivals.flatten).length < n) :
    readFrom n buffer arrivals = (.error (buffer ++ arrivals.flatten), ⟨[], []⟩) := by
  induction arrivals generalizing buffer with
  | nil =>
      rw [List.flatten_nil, List.append_nil] at h ⊢
      rw [readFrom, if_neg (by omega)]
  | cons chunk arrivals ih =>
      rw [List.length_append] at h
      rw [readFrom, if_neg (by omega), List.flatten_cons, ← List.append_assoc]
      refine ih ?_
      rw [List.append_assoc, List.length_append]
      exact h

variable {s : Stream α} {n : ℕ}

theorem readexactly_of_le (h : n ≤ s.rest.length) :
    ∃ s', s.readexactly n = (.ok (s.rest.take n), s') ∧ s'.rest = s.rest.drop n :=
  readFrom_of_le h

theorem readexactly_of_lt (h : s.rest.length < n) :
    s.readexactly n = (.error s.rest, ⟨[], []⟩) := readFrom_of_lt h

end Stream
end VoxBench.Lib
