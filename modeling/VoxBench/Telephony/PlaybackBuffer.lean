import VoxBench.Lib.Condition
import VoxBench.Lib.Machine
import Mathlib.Data.List.Perm.Basic
import Mathlib.Data.List.Range

/-!
# The playback buffer

`PlaybackBuffer` holds the frames between the producer of provider audio and the pump that
writes them to the socket. It drops its oldest frame when it is full. All sections run under
the lock of one condition variable, on which `get` waits for a frame or the end.

Tasks come and go in any order. The machine logs where every frame went; a frame is known by
the ordinal of its `put`.

## Main definitions

* `PlaybackBuffer.put`, `get`, `drain`, `clear`, `close` — the sections.
* `playbackMachine` — any number of tasks, one section at a time.

## Main results

* `playbackBuffer_conserves` — no frame is lost or doubled, frames leave in order, drops are
  counted, and nobody sleeps while there is something to get.
-/

namespace VoxBench.Telephony

open VoxBench.Lib

universe u v

/-! ## Sections -/

structure PlaybackBuffer (α : Type u) where
  maxFrames : ℕ := 250
  frames : List α := []
  closed : Bool := false
  deriving DecidableEq, Repr

/-- How a section of `get` ends: it returns a frame or `None`, or it waits. -/
inductive GetSection (α : Type u) where
  | returns (frame : Option α)
  | waits
  deriving DecidableEq, Repr

namespace PlaybackBuffer

variable {α : Type u} (noteDepth : ℕ → α → α)

/-- What a `put` drops. With no room at all, `max_frames` being 0, `popleft` would raise. -/
def evicted (b : PlaybackBuffer α) : List α :=
  if b.maxFrames ≤ b.frames.length then b.frames.take 1 else []

def kept (b : PlaybackBuffer α) : List α :=
  if b.maxFrames ≤ b.frames.length then b.frames.drop 1 else b.frames

/-- The frame as it is kept, with the depth of the queue in its observation. -/
def noted (b : PlaybackBuffer α) (frame : α) : α := noteDepth (b.kept.length + 1) frame

/-- `put`: the number of dropped frames. -/
def put (b : PlaybackBuffer α) (frame : α) : ℕ × PlaybackBuffer α :=
  (if b.maxFrames ≤ b.frames.length then 1 else 0,
    { b with frames := b.kept ++ [b.noted noteDepth frame] })

/-- The section of `get` that looks at the frames. -/
def get (b : PlaybackBuffer α) : GetSection α × PlaybackBuffer α :=
  match b.frames with
  | frame :: rest => (.returns (some frame), { b with frames := rest })
  | [] => (if b.closed then .returns none else .waits, b)

def clear (b : PlaybackBuffer α) : ℕ × PlaybackBuffer α :=
  (b.frames.length, { b with frames := [] })

def drain (b : PlaybackBuffer α) : List α × PlaybackBuffer α := (b.frames, { b with frames := [] })

def close (b : PlaybackBuffer α) : PlaybackBuffer α := { b with closed := true }

theorem evicted_append_kept (b : PlaybackBuffer α) : b.evicted ++ b.kept = b.frames := by
  unfold evicted kept
  split
  · exact List.take_append_drop 1 b.frames
  · rfl

theorem length_kept_lt {b : PlaybackBuffer α} (hmax : 1 ≤ b.maxFrames)
    (h : b.frames.length ≤ b.maxFrames) : b.kept.length < b.maxFrames := by
  unfold kept
  split
  · rw [List.length_drop]
    omega
  · omega

theorem put_fst {b : PlaybackBuffer α} (hmax : 1 ≤ b.maxFrames) (frame : α) :
    (b.put noteDepth frame).1 = b.evicted.length := by
  unfold put evicted
  split
  · rw [List.length_take]
    dsimp only
    omega
  · rfl

theorem frames_of_get {b b' : PlaybackBuffer α} {frame : α}
    (h : b.get = (.returns (some frame), b')) : b.frames = frame :: b'.frames := by
  unfold get at h
  split at h
  · rename_i frame' rest hframes
    obtain ⟨rfl, rfl⟩ : frame' = frame ∧ { b with frames := rest } = b' := by simpa using h
    exact hframes
  · split at h <;> cases h

end PlaybackBuffer

/-! ## Tasks -/

/-- The sections of all tasks. `wake` is the section of a `get` that has been notified. -/
inductive PlaybackLabel (α : Type u) (T : Type v) where
  | put (frame : α)
  | get (t : T)
  | wake (t : T)
  | drain
  | clear
  | close
  deriving DecidableEq, Repr

/-- The buffer with the waiting tasks, and what became of the frames. Frames carry the
ordinals of their `put`. -/
structure PlaybackRun (α : Type u) (T : Type v) where
  buffer : PlaybackBuffer (ℕ × α)
  condition : Condition T := {}
  puts : List (ℕ × α) := []
  returned : List (T × (ℕ × α)) := []
  ended : List T := []
  evicted : List (ℕ × α) := []
  cleared : List (ℕ × α) := []
  drained : List (ℕ × α) := []
  putDrops : ℕ := 0
  clearDrops : ℕ := 0

namespace PlaybackRun

variable {α : Type u} {T : Type v} (noteDepth : ℕ → α → α)

/-- The observation is part of the frame. -/
def noteTagged (depth : ℕ) (frame : ℕ × α) : ℕ × α := (frame.1, noteDepth depth frame.2)

def getSection (s : PlaybackRun α T) (t : T) : PlaybackRun α T :=
  match s.buffer.get with
  | (.returns (some frame), buffer) => { s with buffer, returned := s.returned ++ [(t, frame)] }
  | (.returns none, buffer) => { s with buffer, ended := s.ended ++ [t] }
  | (.waits, buffer) => { s with buffer, condition := s.condition.wait t }

def next [DecidableEq T] (s : PlaybackRun α T) : PlaybackLabel α T → PlaybackRun α T
  | .put frame =>
      let tagged := (s.puts.length, frame)
      let result := s.buffer.put (noteTagged noteDepth) tagged
      { s with
        buffer := result.2
        condition := s.condition.notify
        puts := s.puts ++ [s.buffer.noted (noteTagged noteDepth) tagged]
        evicted := s.evicted ++ s.buffer.evicted
        putDrops := s.putDrops + result.1 }
  | .get t => s.getSection t
  | .wake t => { s with condition := s.condition.resume t }.getSection t
  | .drain =>
      let result := s.buffer.drain
      { s with buffer := result.2, drained := s.drained ++ result.1 }
  | .clear =>
      let result := s.buffer.clear
      { s with
        buffer := result.2
        cleared := s.cleared ++ s.buffer.frames
        clearDrops := s.clearDrops + result.1 }
  | .close => { s with buffer := s.buffer.close, condition := s.condition.notifyAll }

/-- A task has one `get` at a time, and goes on only when it has been notified. -/
def Enabled (s : PlaybackRun α T) : PlaybackLabel α T → Prop
  | .get t => ∀ w ∈ s.condition.waiters, w.1 ≠ t
  | .wake t => (t, true) ∈ s.condition.waiters
  | _ => True

end PlaybackRun

/-- The playback buffer from its construction on. -/
def playbackMachine {α : Type u} (T : Type v) [DecidableEq T] (noteDepth : ℕ → α → α)
    (maxFrames : ℕ) : Machine (PlaybackRun α T) (PlaybackLabel α T) where
  init s := s = { buffer := { maxFrames } }
  enabled := PlaybackRun.Enabled
  next := PlaybackRun.next noteDepth

/-! ## Where frames are -/

namespace PlaybackRun

variable {α : Type u} {T : Type v} {noteDepth : ℕ → α → α} {maxFrames : ℕ}

/-- The frames that were put, by what became of them. -/
def places (s : PlaybackRun α T) : List (ℕ × α) :=
  s.returned.map Prod.snd ++ s.evicted ++ s.cleared ++ s.drained ++ s.buffer.frames

/-- Where the frames are, and that nobody sleeps on a closed buffer. -/
structure Placed (maxFrames : ℕ) (s : PlaybackRun α T) : Prop where
  size : s.buffer.maxFrames = maxFrames
  bounded : s.buffer.frames.length ≤ maxFrames
  ordinals : s.puts.map Prod.fst = List.range s.puts.length
  places : s.puts.Perm s.places
  putDrops : s.putDrops = s.evicted.length
  clearDrops : s.clearDrops = s.cleared.length
  fifo : (s.returned.map Prod.snd ++ s.buffer.frames).Sublist s.puts
  awake : s.buffer.closed = true → ∀ t, ¬ s.condition.Sleeps t

/-- What every section keeps. -/
structure Conserved (maxFrames : ℕ) (s : PlaybackRun α T) : Prop
    extends Placed maxFrames s where
  supplied : s.condition.Supplied s.buffer.frames.length

/-- How a section of `get` ends, by the frames that are there. -/
theorem getSection_cons {s : PlaybackRun α T} {frame : ℕ × α} {rest : List (ℕ × α)}
    (h : s.buffer.frames = frame :: rest) (t : T) :
    s.getSection t =
      { s with
        buffer := { s.buffer with frames := rest }
        returned := s.returned ++ [(t, frame)] } := by
  simp [getSection, PlaybackBuffer.get, h]

theorem getSection_closed {s : PlaybackRun α T} (h : s.buffer.frames = [])
    (hclosed : s.buffer.closed = true) (t : T) :
    s.getSection t = { s with ended := s.ended ++ [t] } := by
  simp [getSection, PlaybackBuffer.get, h, hclosed]

theorem getSection_waits {s : PlaybackRun α T} (h : s.buffer.frames = [])
    (hclosed : s.buffer.closed = false) (t : T) :
    s.getSection t = { s with condition := s.condition.wait t } := by
  simp [getSection, PlaybackBuffer.get, h, hclosed]

/-- A `get` may look at the frames when everybody else who sleeps is supplied without the
frame that it takes. -/
theorem Placed.getSection {s : PlaybackRun α T} (hs : s.Placed maxFrames) (t : T)
    (hsupplied : s.condition.Supplied (s.buffer.frames.length - 1)) :
    (s.getSection t).Conserved maxFrames := by
  cases hframes : s.buffer.frames with
  | nil =>
      cases hclosed : s.buffer.closed with
      | true =>
          rw [getSection_closed hframes hclosed]
          refine ⟨{ hs with }, ?_⟩
          rw [hframes]
          exact Condition.supplied_zero _
      | false =>
          rw [getSection_waits hframes hclosed]
          refine ⟨{ hs with awake := ?_ }, ?_⟩
          · intro h
            rw [hclosed] at h
            cases h
          · rw [hframes]
            exact Condition.supplied_zero _
  | cons frame rest =>
      have hbounded := hs.bounded
      have hplaces := hs.places
      have hfifo := hs.fifo
      rw [hframes, List.length_cons, Nat.add_sub_cancel] at hsupplied
      rw [hframes, List.length_cons] at hbounded
      rw [hframes] at hfifo
      rw [getSection_cons hframes]
      refine ⟨{ hs with bounded := ?_, places := ?_, fifo := ?_ }, hsupplied⟩
      · dsimp only
        omega
      · -- the frame moves from the buffer to those that were returned
        refine hplaces.trans ?_
        simp only [PlaybackRun.places, hframes, List.map_append, List.map_cons, List.map_nil,
          List.append_assoc]
        refine List.Perm.append_left _ ?_
        simp only [← List.append_assoc]
        exact List.perm_middle
      · simpa using hfifo

theorem Conserved.put [DecidableEq T] (hmax : 1 ≤ maxFrames) {s : PlaybackRun α T}
    (hs : s.Conserved maxFrames) (frame : α) : (s.next noteDepth (.put frame)).Conserved maxFrames := by
  have hsplit := s.buffer.evicted_append_kept
  have hsize : 1 ≤ s.buffer.maxFrames := hs.size ▸ hmax
  have hroom := PlaybackBuffer.length_kept_lt hsize (hs.size ▸ hs.bounded)
  have hkept : s.buffer.kept.length ≤ s.buffer.frames.length := by
    rw [← hsplit, List.length_append]
    omega
  constructor
  · refine { hs with
      bounded := ?_, ordinals := ?_, places := ?_, putDrops := ?_, fifo := ?_, awake := ?_ }
    · simp only [next, PlaybackBuffer.put, List.length_append, List.length_singleton]
      have hsame := hs.size
      omega
    · simp only [next, List.map_append, List.length_append, List.length_singleton, hs.ordinals,
        List.range_succ]
      rfl
    · -- the evicted frame leaves the buffer, the new one enters it
      have hplaces := hs.places
      simp only [PlaybackRun.places, ← hsplit] at hplaces
      simp only [next, PlaybackBuffer.put, PlaybackRun.places, ← List.append_assoc]
      refine List.Perm.append_right _ (hplaces.trans ?_)
      simp only [List.append_assoc]
      refine List.Perm.append_left _ (List.Perm.append_left _ ?_)
      have hswap := @List.perm_append_comm _ (s.cleared ++ s.drained) s.buffer.evicted
      simpa only [List.append_assoc] using hswap.append_right s.buffer.kept
    · simp only [next, PlaybackBuffer.put_fst _ hsize, hs.putDrops, List.length_append]
    · have hfifo := hs.fifo
      rw [← hsplit] at hfifo
      simp only [next, PlaybackBuffer.put, ← List.append_assoc]
      refine List.Sublist.append (List.Sublist.trans ?_ hfifo) (List.Sublist.refl _)
      exact List.Sublist.append (List.Sublist.refl _) (List.sublist_append_right _ _)
    · intro hclosed t ht
      exact hs.awake hclosed t (Condition.mem_of_mem_notifyFirst ht)
  · simp only [next, PlaybackBuffer.put, List.length_append, List.length_singleton]
    exact hs.supplied.notify.mono (by omega)

/-- Frames that leave together. -/
theorem Conserved.next_other [DecidableEq T] {s : PlaybackRun α T} (hs : s.Conserved maxFrames) :
    (s.next noteDepth .drain).Conserved maxFrames ∧ (s.next noteDepth .clear).Conserved maxFrames ∧
      (s.next noteDepth .close).Conserved maxFrames := by
  have hreturned : (s.returned.map Prod.snd).Sublist s.puts :=
    (List.sublist_append_left _ _).trans hs.fifo
  refine ⟨⟨?_, Condition.supplied_zero _⟩, ⟨?_, Condition.supplied_zero _⟩,
    ⟨?_, Condition.supplied_notifyAll _ _⟩⟩
  · refine { hs with bounded := Nat.zero_le _, places := ?_, fifo := ?_ }
    · refine hs.places.trans ?_
      simp [PlaybackRun.places, next, PlaybackBuffer.drain]
    · simpa [next, PlaybackBuffer.drain] using hreturned
  · refine { hs with bounded := Nat.zero_le _, places := ?_, clearDrops := ?_, fifo := ?_ }
    · refine hs.places.trans ?_
      simp only [PlaybackRun.places, next, PlaybackBuffer.clear, List.append_assoc, List.append_nil]
      refine List.Perm.append_left _ (List.Perm.append_left _ (List.Perm.append_left _ ?_))
      exact List.perm_append_comm
    · simp [next, PlaybackBuffer.clear, hs.clearDrops]
    · simpa [next, PlaybackBuffer.clear] using hreturned
  · refine { hs with awake := ?_ }
    intro _ t ht
    obtain ⟨w, -, hw⟩ := List.mem_map.mp ht
    cases hw

/-- Every enabled section keeps what is conserved. -/
theorem Conserved.next [DecidableEq T] (hmax : 1 ≤ maxFrames) {s : PlaybackRun α T}
    (hs : s.Conserved maxFrames) {l : PlaybackLabel α T} (hl : s.Enabled l) :
    (s.next noteDepth l).Conserved maxFrames := by
  cases l with
  | put frame => exact hs.put hmax frame
  | get t => exact hs.getSection t (hs.supplied.mono (Nat.sub_le _ _))
  | wake t =>
      have hplaced : ({ s with condition := s.condition.resume t } : PlaybackRun α T).Placed
          maxFrames :=
        { hs with awake := fun hclosed u hu => hs.awake hclosed u (List.mem_of_mem_erase hu) }
      exact hplaced.getSection t (hs.supplied.resume hl)
  | drain => exact hs.next_other.1
  | clear => exact hs.next_other.2.1
  | close => exact hs.next_other.2.2

/-- The section of a `get` takes the oldest frame; without frames it returns `None`. -/
def Answers (s : PlaybackRun α T) (t : T) (s' : PlaybackRun α T) : Prop :=
  match s.buffer.frames with
  | frame :: rest =>
      s'.buffer.frames = rest ∧ s'.returned = s.returned ++ [(t, frame)] ∧ s'.ended = s.ended
  | [] => s'.buffer.frames = [] ∧ s'.returned = s.returned ∧ s'.ended = s.ended ++ [t]

/-- On a closed buffer no section of `get` waits. -/
theorem answers_getSection {s : PlaybackRun α T} (hclosed : s.buffer.closed = true) (t : T) :
    s.Answers t (s.getSection t) := by
  unfold Answers
  cases hframes : s.buffer.frames with
  | nil =>
      rw [getSection_closed hframes hclosed]
      exact ⟨hframes, rfl, rfl⟩
  | cons frame rest =>
      rw [getSection_cons hframes]
      exact ⟨rfl, rfl, rfl⟩

theorem closed_next [DecidableEq T] {s : PlaybackRun α T} (hclosed : s.buffer.closed = true)
    (l : PlaybackLabel α T) : (s.next noteDepth l).buffer.closed = true := by
  have hget : ∀ (r : PlaybackRun α T) (t : T), r.buffer.closed = true →
      (r.getSection t).buffer.closed = true := by
    intro r t hr
    cases hframes : r.buffer.frames with
    | nil => rw [getSection_closed hframes hr]; exact hr
    | cons frame rest => rw [getSection_cons hframes]; exact hr
  cases l with
  | put frame => exact hclosed
  | get t => exact hget s t hclosed
  | wake t => exact hget _ t hclosed
  | drain => exact hclosed
  | clear => exact hclosed
  | close => rfl

/-- A closed buffer stays closed and answers. -/
theorem along_closed [DecidableEq T] (maxFrames : ℕ) {s : PlaybackRun α T}
    (hclosed : s.buffer.closed = true) (ls : List (PlaybackLabel α T)) :
    (playbackMachine T noteDepth maxFrames).Along (fun r l => r.buffer.closed = true ∧
      ∀ t, l = .get t ∨ l = .wake t → r.Answers t (r.next noteDepth l)) s ls := by
  induction ls generalizing s with
  | nil => exact Machine.along_nil
  | cons l ls ih =>
      refine ⟨⟨hclosed, ?_⟩, ih (closed_next hclosed l)⟩
      rintro t (rfl | rfl)
      · exact answers_getSection hclosed t
      · have hresumed : ({ s with condition := s.condition.resume t } :
            PlaybackRun α T).buffer.closed = true := hclosed
        exact answers_getSection hresumed t

end PlaybackRun

/-- For every capacity and every run of any number of tasks: the buffer stays within its
capacity; every frame that was put is in exactly one place; the drops that `put` and `clear`
report are the frames that they dropped; frames are returned in the order in which they were
put; once the buffer is closed every section of `get` returns, the frames that are left and
then `None`; and those who wait do not all sleep while there is a frame or the end to get. -/
theorem playbackBuffer_conserves {α : Type u} {T : Type v} [DecidableEq T]
    {noteDepth : ℕ → α → α} {maxFrames : ℕ} (hmax : 1 ≤ maxFrames) {s : PlaybackRun α T}
    (hs : (playbackMachine T noteDepth maxFrames).Reachable s) :
    s.buffer.frames.length ≤ maxFrames ∧
    (s.puts.map Prod.fst = List.range s.puts.length ∧ s.puts.Perm s.places) ∧
    (s.putDrops = s.evicted.length ∧ s.clearDrops = s.cleared.length) ∧
    (s.returned.map Prod.snd).Sublist s.puts ∧
    (s.buffer.closed = true → ∀ ls, (playbackMachine T noteDepth maxFrames).Along
      (fun r l => r.buffer.closed = true ∧
        ∀ t, l = .get t ∨ l = .wake t → r.Answers t (r.next noteDepth l)) s ls) ∧
    ¬ (s.condition.waiters ≠ [] ∧ (∀ w ∈ s.condition.waiters, w.2 = false) ∧
      (s.buffer.frames ≠ [] ∨ s.buffer.closed = true)) := by
  have hinv : s.Conserved maxFrames := by
    refine hs.invariant ?_ fun r l hl hr => hr.next hmax hl
    rintro r rfl
    exact ⟨⟨rfl, Nat.zero_le _, rfl, List.Perm.nil, rfl, rfl, List.Sublist.slnil,
      fun h => by cases h⟩, Condition.supplied_zero _⟩
  refine ⟨hinv.bounded, ⟨hinv.ordinals, hinv.places⟩, ⟨hinv.putDrops, hinv.clearDrops⟩,
    (List.sublist_append_left _ _).trans hinv.fifo, ?_, ?_⟩
  · exact fun hclosed ls => PlaybackRun.along_closed maxFrames hclosed ls
  · rintro ⟨hne, hasleep, hframes | hclosed⟩
    · have hzero := hinv.supplied.eq_zero hasleep hne
      exact hframes (List.eq_nil_of_length_eq_zero hzero)
    · obtain ⟨w, ws, hw⟩ := List.exists_cons_of_ne_nil hne
      have hmem : w ∈ s.condition.waiters := by rw [hw]; exact List.mem_cons_self
      refine hinv.awake hclosed w.1 ?_
      rw [Condition.Sleeps, ← hasleep w hmem]
      exact hmem

/-- Room for one frame: of two frames put the first is dropped, the second goes to the task
that waited. -/
theorem playbackBuffer_conserves_one :
    let s := (playbackMachine ℕ (fun _ frame : ℕ => frame) 1).exec { buffer := { maxFrames := 1 } }
      [.get 0, .put 5, .put 6, .wake 0]
    s.returned = [(0, (1, 6))] ∧ s.evicted = [(0, 5)] ∧ s.putDrops = s.evicted.length := by
  intro s
  have hreachable : (playbackMachine ℕ (fun _ frame : ℕ => frame) 1).Reachable s := by
    refine ⟨_, _, rfl, ?_, rfl⟩
    refine ⟨?_, trivial, trivial, ?_, trivial⟩
    · intro w hw
      cases hw
    · exact List.mem_cons_self
  exact ⟨by decide, by decide, (playbackBuffer_conserves (Nat.le_refl 1) hreachable).2.2.1.1⟩

end VoxBench.Telephony
