import VoxBench.Lib.Stream

/-!
# Lines of a stream

A line goes up to and including its mark. What is left at the end of a stream is a line as well,
without a mark.

## Main definitions

* `nextLine` — the next line, and what follows it.
* `ReadsLines` — a reader that reads the lines of what is left, one by one.
* `Stream.readline` — the next line of a stream that arrives in chunks.

## Main results

* `prefix_cases` — a stream that is cut inside of a line, or after it.
* `Stream.readsLines` — `Stream.readline` reads lines, however they arrive.
-/

namespace VoxBench.Lib

universe u

variable {α : Type u} {mark : α} {body rest : List α}

/-! ## Lines -/

/-- A mark at most at the end. -/
def IsLine (mark : α) (line : List α) : Prop := mark ∉ line.dropLast

/-- The mark of a line that has one is its last element. -/
theorem isLine_append_mark (h : mark ∉ body) : IsLine mark (body ++ [mark]) := by
  rwa [IsLine, List.dropLast_concat]

theorem isLine_of_notMem (h : mark ∉ body) : IsLine mark body :=
  fun hmem => h (List.dropLast_subset body hmem)

/-- A stream that is cut ends before the mark of its first line, or after it. -/
theorem prefix_cases {cut : List α} (h : cut <+: body ++ mark :: rest) (hbody : mark ∉ body) :
    mark ∉ cut ∨ ∃ cut', cut = body ++ mark :: cut' ∧ cut' <+: rest := by
  induction body generalizing cut with
  | nil =>
      rw [List.nil_append] at h
      cases cut with
      | nil => exact Or.inl List.not_mem_nil
      | cons a cut =>
          obtain ⟨rfl, hcut⟩ := List.cons_prefix_cons.mp h
          exact Or.inr ⟨cut, rfl, hcut⟩
  | cons b body ih =>
      rw [List.mem_cons, not_or] at hbody
      cases cut with
      | nil => exact Or.inl List.not_mem_nil
      | cons a cut =>
          obtain ⟨rfl, hcut⟩ := List.cons_prefix_cons.mp h
          rcases ih hcut hbody.2 with hnot | ⟨cut', rfl, hrest⟩
          · exact Or.inl (List.not_mem_cons_of_ne_of_not_mem hbody.1 hnot)
          · exact Or.inr ⟨cut', rfl, hrest⟩

variable [DecidableEq α]

/-- The next line, and what follows it. -/
def nextLine (mark : α) : List α → List α × List α
  | [] => ([], [])
  | a :: rest =>
      if a = mark then ([a], rest)
      else (a :: (nextLine mark rest).1, (nextLine mark rest).2)

theorem nextLine_append (mark : α) (rest : List α) :
    (nextLine mark rest).1 ++ (nextLine mark rest).2 = rest := by
  induction rest with
  | nil => rfl
  | cons a rest ih =>
      rw [nextLine]
      by_cases ha : a = mark
      · rw [if_pos ha]
        rfl
      · rw [if_neg ha, List.cons_append, ih]

theorem eq_append_of_nextLine {line after : List α} (h : nextLine mark rest = (line, after)) :
    rest = line ++ after := by
  rw [← nextLine_append mark rest, h]

theorem nextLine_of_notMem (h : mark ∉ rest) : nextLine mark rest = (rest, []) := by
  induction rest with
  | nil => rfl
  | cons a rest ih =>
      rw [List.mem_cons, not_or] at h
      rw [nextLine, if_neg (Ne.symm h.1), ih h.2]

theorem nextLine_append_mark (h : mark ∉ body) (rest : List α) :
    nextLine mark (body ++ mark :: rest) = (body ++ [mark], rest) := by
  induction body with
  | nil => rw [List.nil_append, nextLine, if_pos rfl, List.nil_append]
  | cons a body ih =>
      rw [List.mem_cons, not_or] at h
      rw [List.cons_append, nextLine, if_neg (Ne.symm h.1), ih h.2, List.cons_append]

theorem nextLine_eq_nil_iff : (nextLine mark rest).1 = [] ↔ rest = [] := by
  cases rest with
  | nil => simp [nextLine]
  | cons a rest =>
      rw [nextLine]
      by_cases ha : a = mark
      · simp [ha]
      · simp [ha]

theorem isLine_nextLine (mark : α) (rest : List α) : IsLine mark (nextLine mark rest).1 := by
  by_cases hmem : mark ∈ rest
  · obtain ⟨body, after, rfl, hbody⟩ := List.eq_append_cons_of_mem hmem
    rw [nextLine_append_mark hbody]
    exact isLine_append_mark hbody
  · rw [nextLine_of_notMem hmem]
    exact isLine_of_notMem hmem

/-! ## Readers -/

/-- A reader that reads the lines of what is left, one by one, and never fails. -/
structure ReadsLines {σ ε : Type*} (mark : α) (readline : σ → Except ε (List α) × σ)
    (rest : σ → List α) : Prop where
  line : ∀ s, (readline s).1 = .ok (nextLine mark (rest s)).1
  after : ∀ s, rest (readline s).2 = (nextLine mark (rest s)).2

theorem ReadsLines.eq_of_rest {σ ε : Type*} {readline : σ → Except ε (List α) × σ}
    {rest : σ → List α} (h : ReadsLines mark readline rest) {s : σ} {line after : List α}
    (hnext : nextLine mark (rest s) = (line, after)) :
    ∃ s', readline s = (.ok line, s') ∧ rest s' = after := by
  refine ⟨(readline s).2, ?_, ?_⟩
  · rw [← Prod.eta (readline s), h.line, hnext]
  · rw [h.after, hnext]

namespace Stream

/-- The loop of `readline`: wait for the next chunk while there is no mark. -/
def readlineFrom (mark : α) : List α → List (List α) → List α × Stream α
  | buffer, [] => ((nextLine mark buffer).1, ⟨(nextLine mark buffer).2, []⟩)
  | buffer, chunk :: arrivals =>
      if mark ∈ buffer then
        ((nextLine mark buffer).1, ⟨(nextLine mark buffer).2, chunk :: arrivals⟩)
      else readlineFrom mark (buffer ++ chunk) arrivals

/-- The next line of a stream without a limit on the length of lines. -/
def readline {ε : Type*} (mark : α) (s : Stream α) : Except ε (List α) × Stream α :=
  let (line, s) := readlineFrom mark s.buffer s.arrivals
  (.ok line, s)

/-- A line that has arrived is the next line, whatever is still to arrive. -/
theorem nextLine_append_of_mem {buffer : List α} (h : mark ∈ buffer) (arrived : List α) :
    nextLine mark (buffer ++ arrived) =
      ((nextLine mark buffer).1, (nextLine mark buffer).2 ++ arrived) := by
  obtain ⟨body, after, rfl, hbody⟩ := List.eq_append_cons_of_mem h
  rw [List.append_assoc, List.cons_append, nextLine_append_mark hbody, nextLine_append_mark hbody]

theorem readlineFrom_spec (mark : α) (buffer : List α) (arrivals : List (List α)) :
    (readlineFrom mark buffer arrivals).1 = (nextLine mark (buffer ++ arrivals.flatten)).1 ∧
      (readlineFrom mark buffer arrivals).2.rest =
        (nextLine mark (buffer ++ arrivals.flatten)).2 := by
  induction arrivals generalizing buffer with
  | nil =>
      rw [readlineFrom, List.flatten_nil, List.append_nil]
      exact ⟨rfl, List.append_nil _⟩
  | cons chunk arrivals ih =>
      rw [readlineFrom]
      by_cases hmem : mark ∈ buffer
      · rw [if_pos hmem, nextLine_append_of_mem hmem]
        exact ⟨rfl, rfl⟩
      · rw [if_neg hmem, List.flatten_cons, ← List.append_assoc]
        exact ih (buffer ++ chunk)

theorem readsLines {ε : Type*} (mark : α) :
    ReadsLines mark (readline (ε := ε) mark) Stream.rest where
  line s := congrArg Except.ok (readlineFrom_spec mark s.buffer s.arrivals).1
  after s := (readlineFrom_spec mark s.buffer s.arrivals).2

end Stream
end VoxBench.Lib
