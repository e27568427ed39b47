import VoxBench.Telephony.CallAudio

/-!
# Where packet bytes come from

Processed audio waits in a byte buffer until there is enough of it for a packet. Beside the
buffer stands a queue of sources: one for every provider chunk with bytes in the buffer, and
how many they are. Taking bytes off the buffer consumes sources from the front of the queue;
what they were makes the source window of the packet.

## Main definitions

* `chunkTags sources` — for every byte of the buffer, the ordinal of its chunk.
* `consumeBufferedSources`, `bufferedSourceWindow` — the operations on the queue.

## Main results

* `consumeBufferedSources_spec` — the bytes that are taken, and those that stay.
-/

namespace VoxBench.Telephony

open VoxBench.Lib VoxBench.ControlPlane

/-- `_BufferedProviderAudioSource`. -/
structure BufferedProviderAudioSource where
  chunkOrdinal : ℕ
  receivedAt : Datetime
  receivedMonotonic : ℚ
  remainingBytes : ℕ
  deriving DecidableEq, Repr

inductive PacketError where
  | valueError (reason : String)
  | runtimeError (reason : String)
  | indexError
  deriving DecidableEq, Repr

def underrun : PacketError := .runtimeError "packet source accounting underrun"

/-- `_source_window`. -/
def sourceWindow (sources : List BufferedProviderAudioSource) :
    Except PacketError ProviderAudioSourceWindow :=
  match sources with
  | [] => .error .indexError
  | first :: rest =>
      .ok
        { chunkOrdinals := (sources.map BufferedProviderAudioSource.chunkOrdinal).eraseDups
          firstReceivedAt := first.receivedAt
          firstReceivedMonotonic := first.receivedMonotonic
          lastReceivedMonotonic := (rest.getLastD first).receivedMonotonic }

/-- `_buffered_source_window`. -/
def bufferedSourceWindow (sources : List BufferedProviderAudioSource) :
    Option ProviderAudioSourceWindow :=
  (sourceWindow sources).toOption

/-- The loop of `_consume_buffered_sources`: the sources it meets, and those that stay. -/
def consumeLoop : ℕ → List BufferedProviderAudioSource →
    Except PacketError (List BufferedProviderAudioSource × List BufferedProviderAudioSource)
  | 0, sources => .ok ([], sources)
  | _ + 1, [] => .error underrun
  | remaining + 1, source :: sources =>
      let consumedBytes := min (remaining + 1) source.remainingBytes
      if source.remainingBytes - consumedBytes = 0 then
        (consumeLoop (remaining + 1 - consumedBytes) sources).map fun out =>
          (source :: out.1, out.2)
      -- the source outlasts the request, which ends the loop
      else .ok ([source],
        { source with remainingBytes := source.remainingBytes - consumedBytes } :: sources)

/-- `_consume_buffered_sources`: the window, and the sources that stay. -/
def consumeBufferedSources (sources : List BufferedProviderAudioSource) (byteCount : ℕ) :
    Except PacketError (ProviderAudioSourceWindow × List BufferedProviderAudioSource) :=
  if byteCount = 0 then .error (.valueError "byte_count must be positive")
  else do
    let (consumed, rest) ← consumeLoop byteCount sources
    let window ← sourceWindow consumed
    return (window, rest)

/-! ## Tags -/

/-- The ordinals of the chunks, once for every byte that waits. -/
def chunkTags (sources : List BufferedProviderAudioSource) : List ℕ :=
  sources.flatMap fun source => List.replicate source.remainingBytes source.chunkOrdinal

@[simp] theorem chunkTags_nil : chunkTags [] = [] := rfl
@[simp] theorem chunkTags_cons (source : BufferedProviderAudioSource)
    (sources : List BufferedProviderAudioSource) : chunkTags (source :: sources) =
      List.replicate source.remainingBytes source.chunkOrdinal ++ chunkTags sources := rfl
@[simp] theorem chunkTags_append (sources sources' : List BufferedProviderAudioSource) :
    chunkTags (sources ++ sources') = chunkTags sources ++ chunkTags sources' :=
  List.flatMap_append

theorem length_chunkTags (sources : List BufferedProviderAudioSource) :
    (chunkTags sources).length =
      (sources.map BufferedProviderAudioSource.remainingBytes).sum := by
  induction sources with
  | nil => rfl
  | cons source sources ih => simp [ih]

/-- Sources with bytes left, in strict order of their chunks. -/
structure SourcesOk (sources : List BufferedProviderAudioSource) : Prop where
  positive : ∀ source ∈ sources, 0 < source.remainingBytes
  increasing : (sources.map BufferedProviderAudioSource.chunkOrdinal).Pairwise (· < ·)

theorem SourcesOk.nil : SourcesOk [] := ⟨nofun, List.Pairwise.nil⟩

theorem SourcesOk.mem_chunkTags {sources : List BufferedProviderAudioSource}
    (h : SourcesOk sources) (ordinal : ℕ) :
    ordinal ∈ sources.map BufferedProviderAudioSource.chunkOrdinal ↔
      ordinal ∈ chunkTags sources := by
  simp only [chunkTags, List.mem_map, List.mem_flatMap, List.mem_replicate]
  constructor
  · rintro ⟨source, hmem, rfl⟩
    exact ⟨source, hmem, (h.positive source hmem).ne', rfl⟩
  · rintro ⟨source, hmem, -, rfl⟩
    exact ⟨source, hmem, rfl⟩

/-- The first `n` bytes are there: the loop meets their sources and leaves the others. -/
theorem consumeLoop_spec {sources : List BufferedProviderAudioSource} {n : ℕ}
    (h : SourcesOk sources) (hn : n ≤ (chunkTags sources).length) :
    ∃ consumed rest, consumeLoop n sources = .ok (consumed, rest) ∧
      chunkTags rest = (chunkTags sources).drop n ∧
      (∀ ordinal, ordinal ∈ consumed.map BufferedProviderAudioSource.chunkOrdinal ↔
        ordinal ∈ (chunkTags sources).take n) ∧
      (consumed.map BufferedProviderAudioSource.chunkOrdinal).Sublist
        (sources.map BufferedProviderAudioSource.chunkOrdinal) ∧
      (rest.map BufferedProviderAudioSource.chunkOrdinal).Sublist
        (sources.map BufferedProviderAudioSource.chunkOrdinal) ∧
      ∀ source ∈ rest, 0 < source.remainingBytes := by
  induction sources generalizing n with
  | nil =>
      obtain rfl : n = 0 := by simpa using hn
      exact ⟨[], [], rfl, rfl, by simp, by simp, by simp, nofun⟩
  | cons source sources ih =>
      have hpos := h.positive source List.mem_cons_self
      have htail : SourcesOk sources :=
        ⟨fun s hs => h.positive s (List.mem_cons_of_mem _ hs), (List.pairwise_cons.mp h.increasing).2⟩
      cases n with
      | zero =>
          exact ⟨[], source :: sources, rfl, rfl, by simp, by simp, List.Sublist.refl _, h.positive⟩
      | succ n =>
          by_cases hall : source.remainingBytes ≤ n + 1
          · -- the source is used up
            have hmin : min (n + 1) source.remainingBytes = source.remainingBytes := by omega
            have hrest : n + 1 - source.remainingBytes ≤ (chunkTags sources).length := by
              rw [chunkTags_cons, List.length_append, List.length_replicate] at hn
              omega
            obtain ⟨consumed, rest, hloop, hdrop, hmem, hsub, hsubRest, hposRest⟩ := ih htail hrest
            have htake : (chunkTags (source :: sources)).take (n + 1) =
                List.replicate source.remainingBytes source.chunkOrdinal ++
                  (chunkTags sources).take (n + 1 - source.remainingBytes) := by
              rw [chunkTags_cons, List.take_append, List.take_of_length_le (by simpa using hall),
                List.length_replicate]
            refine ⟨source :: consumed, rest, ?_, ?_, fun ordinal => ?_, ?_, ?_, hposRest⟩
            · simp [consumeLoop, hmin, hloop, Except.map]
            · have hreplicate : (List.replicate source.remainingBytes source.chunkOrdinal).drop
                  (n + 1) = [] := List.drop_eq_nil_of_le (by simpa using hall)
              rw [hdrop, chunkTags_cons, List.drop_append, hreplicate, List.length_replicate,
                List.nil_append]
            · rw [htake, List.mem_append, ← hmem ordinal, List.map_cons, List.mem_cons,
                List.mem_replicate]
              simp [hpos.ne']
            · exact hsub.cons_cons _
            · exact hsubRest.cons _
          · -- the source outlasts the request
            have hmin : min (n + 1) source.remainingBytes = n + 1 := by omega
            have hleft : source.remainingBytes - (n + 1) ≠ 0 := by omega
            refine ⟨[source],
              { source with remainingBytes := source.remainingBytes - (n + 1) } :: sources,
              ?_, ?_, fun ordinal => ?_, ?_, ?_, ?_⟩
            · simp [consumeLoop, hmin, hleft]
            · rw [chunkTags_cons, chunkTags_cons, List.drop_append_of_le_length
                (by rw [List.length_replicate]; omega), List.drop_replicate]
            · rw [chunkTags_cons, List.take_append_of_le_length
                (by rw [List.length_replicate]; omega), List.take_replicate, List.mem_replicate]
              simp
              omega
            · exact List.Sublist.cons_cons _ (List.nil_sublist _)
            · exact List.Sublist.refl _
            · intro source' hsource'
              rcases List.mem_cons.mp hsource' with rfl | hmem
              · exact Nat.pos_of_ne_zero hleft
              · exact h.positive source' (List.mem_cons_of_mem _ hmem)

theorem eraseDups_of_pairwise {l : List ℕ} (h : l.Pairwise (· < ·)) : l.eraseDups = l := by
  induction l with
  | nil => rfl
  | cons a l ih =>
      obtain ⟨hhead, htail⟩ := List.pairwise_cons.mp h
      have hfilter : (l.filter fun b => !b == a) = l :=
        List.filter_eq_self.mpr fun b hb => by simp [(hhead b hb).ne']
      rw [List.eraseDups_cons, hfilter, ih htail]

/-- The window of sources in order has their chunks. -/
theorem sourceWindow_cons {first : BufferedProviderAudioSource}
    {rest : List BufferedProviderAudioSource}
    (h : ((first :: rest).map BufferedProviderAudioSource.chunkOrdinal).Pairwise (· < ·)) :
    ∃ window, sourceWindow (first :: rest) = .ok window ∧
      window.chunkOrdinals = (first :: rest).map BufferedProviderAudioSource.chunkOrdinal :=
  ⟨_, rfl, eraseDups_of_pairwise h⟩

/-- The chunks of a window: in order, and exactly those that gave bytes. -/
def ProviderAudioSourceWindow.Covers (window : ProviderAudioSourceWindow) (tags : List ℕ) :
    Prop :=
  window.chunkOrdinals.Pairwise (· < ·) ∧
    ∀ ordinal, ordinal ∈ window.chunkOrdinals ↔ ordinal ∈ tags

/-- With enough bytes in the queue, some of them are taken off it: the window covers their
chunks, and the others stay. -/
theorem consumeBufferedSources_spec {sources : List BufferedProviderAudioSource} {n : ℕ}
    (h : SourcesOk sources) (hpos : 0 < n) (hn : n ≤ (chunkTags sources).length) :
    ∃ window rest, consumeBufferedSources sources n = .ok (window, rest) ∧
      window.Covers ((chunkTags sources).take n) ∧
      chunkTags rest = (chunkTags sources).drop n ∧ SourcesOk rest ∧
      (rest.map BufferedProviderAudioSource.chunkOrdinal).Sublist
        (sources.map BufferedProviderAudioSource.chunkOrdinal) := by
  obtain ⟨consumed, rest, hloop, hdrop, hmem, hsub, hsubRest, hposRest⟩ := consumeLoop_spec h hn
  have hincreasing := h.increasing.sublist hsub
  cases consumed with
  | nil =>
      -- the first byte has a source
      have hlen : ((chunkTags sources).take n).length = n := by
        rw [List.length_take]
        omega
      obtain ⟨ordinal, htags⟩ := List.exists_mem_of_length_pos (hlen ▸ hpos)
      exact absurd ((hmem ordinal).mpr htags) List.not_mem_nil
  | cons first consumed =>
      obtain ⟨window, hwindow, hordinals⟩ := sourceWindow_cons hincreasing
      refine ⟨window, rest, ?_, ⟨?_, ?_⟩, hdrop, ⟨hposRest, h.increasing.sublist hsubRest⟩,
        hsubRest⟩
      · simp only [consumeBufferedSources, hpos.ne', if_false, hloop]
        exact congrArg (fun w => w.map fun w => (w, rest)) hwindow
      · rw [hordinals]
        exact hincreasing
      · rw [hordinals]
        exact hmem

/-- The window of all that waits. -/
theorem bufferedSourceWindow_spec {sources : List BufferedProviderAudioSource}
    (h : SourcesOk sources) :
    (bufferedSourceWindow sources = none ∧ chunkTags sources = []) ∨
      ∃ window, bufferedSourceWindow sources = some window ∧
        window.Covers (chunkTags sources) := by
  cases sources with
  | nil => exact .inl ⟨rfl, rfl⟩
  | cons first rest =>
      obtain ⟨window, hwindow, hordinals⟩ := sourceWindow_cons h.increasing
      refine .inr ⟨window, by rw [bufferedSourceWindow, hwindow]; rfl, ?_, ?_⟩
      · rw [hordinals]
        exact h.increasing
      · rw [hordinals]
        exact h.mem_chunkTags

end VoxBench.Telephony
