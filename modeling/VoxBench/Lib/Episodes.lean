import Mathlib.Data.List.Nodup

/-!
# Episodes

A log in which episodes begin and end. Every episode has a key of its own, collects items
while it lasts, and ends with a result that is a function of its items. Episodes do not
overlap, and at most the last one is still open.

## Main definitions

* `EpisodeLog f marks done current` — `marks` is the log of the episodes `done` and of the
  open episode `current`.
-/

namespace VoxBench.Lib

universe u v w

/-- An entry of the log. -/
inductive Mark (κ : Type u) (ι : Type v) (ρ : Type w) where
  | start (key : κ)
  | item (i : ι)
  | stop (key : κ) (result : ρ)
  deriving DecidableEq, Repr

structure Episode (κ : Type u) (ι : Type v) where
  key : κ
  items : List ι
  deriving DecidableEq, Repr

variable {κ : Type u} {ι : Type v} {ρ : Type w}

/-- The log of an episode that is still open. -/
def Episode.opening (e : Episode κ ι) : List (Mark κ ι ρ) :=
  .start e.key :: e.items.map .item

/-- The log of an episode that is over. -/
def Episode.log (f : List ι → ρ) (e : Episode κ ι) : List (Mark κ ι ρ) :=
  e.opening ++ [.stop e.key (f e.items)]

/-- A log of closed episodes, and of the one that is open, under keys that are all
different. -/
structure EpisodeLog (f : List ι → ρ) (marks : List (Mark κ ι ρ)) (done : List (Episode κ ι))
    (current : Option (Episode κ ι)) : Prop where
  marks_eq : marks = done.flatMap (Episode.log f) ++ current.toList.flatMap Episode.opening
  fresh : ((done ++ current.toList).map Episode.key).Nodup

namespace EpisodeLog

variable {f : List ι → ρ} {marks : List (Mark κ ι ρ)} {done : List (Episode κ ι)}
  {e : Episode κ ι}

theorem nil : EpisodeLog f ([] : List (Mark κ ι ρ)) [] none := ⟨rfl, List.nodup_nil⟩

theorem start {key : κ} (h : EpisodeLog f marks done none) (hkey : key ∉ done.map Episode.key) :
    EpisodeLog f (marks ++ [.start key]) done (some ⟨key, []⟩) := by
  constructor
  · simp [h.marks_eq, Episode.opening]
  · have hfresh := h.fresh
    simp only [Option.toList_none, List.append_nil] at hfresh
    simp only [Option.toList_some, List.map_append, List.map_cons, List.map_nil]
    simpa using hfresh.concat hkey

theorem item (h : EpisodeLog f marks done (some e)) (i : ι) :
    EpisodeLog f (marks ++ [.item i]) done (some { e with items := e.items ++ [i] }) := by
  constructor
  · simp [h.marks_eq, Episode.opening]
  · simpa using h.fresh

theorem stop (h : EpisodeLog f marks done (some e)) :
    EpisodeLog f (marks ++ [.stop e.key (f e.items)]) (done ++ [e]) none := by
  constructor
  · simp [h.marks_eq, Episode.log]
  · simpa using h.fresh

end EpisodeLog
end VoxBench.Lib
