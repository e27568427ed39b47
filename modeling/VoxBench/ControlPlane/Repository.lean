import VoxBench.ControlPlane.Clock
import VoxBench.ControlPlane.RunStore
import VoxBench.Lib.Dict
import VoxBench.Observability.Payload

/-!
# The two run repositories

`PostgresRunRepository` spreads a run over eight tables and reads it back through the
validators of the models; `InMemoryRunRepository` keeps the runs in a `dict`. After the same
calls they hold the same runs.

## Main definitions

* `RunEnvironmentMetadata.modelValidate`, `ReadinessChecklistItem.modelValidate` — the
  validators that `_restore` runs.
* `RunStore.getRun`, `RunStore.listRecent`, `RunStore.listAll` — the reads of
  `PostgresRunRepository`.
* `InMemoryRunRepository` — the repository on a `dict`.
* `RepositoryCall`, `RunStore.perform`, `InMemoryRunRepository.perform` — sequences of calls.

## Main results

* `agrees_perform` — the relation that each call keeps.
* `repository_agreement` — what the repositories return after any sequence of calls.
-/

namespace VoxBench.ControlPlane

open VoxBench.Lib VoxBench.Observability

/-! ## The models of the JSON columns -/

/-- `RunEnvironmentMetadata.model_validate`. -/
def RunEnvironmentMetadata.modelValidate (m : RunEnvironmentMetadata) :
    Except RequestError RunEnvironmentMetadata := do
  let text := fun name => validateOptional (validateReferenceText · name)
  let texts := fun (values : List String) name => values.mapM (validateReferenceText · name)
  let serverAlias ← text "server_alias" m.serverAlias
  let integrationTargetAlias ← text "integration_target_alias" m.integrationTargetAlias
  let environmentSnapshotHash ← text "environment_snapshot_hash" m.environmentSnapshotHash
  let startedFrom ← text "started_from" m.startedFrom
  let operatorNote ← text "operator_note" m.operatorNote
  let manualBlockers ← texts m.manualBlockers "manual_blockers"
  let tags ← texts m.tags "tags"
  let relatedInternalRef ← text "related_internal_ref" m.relatedInternalRef
  let secretRefNames ← texts m.secretRefNames "secret_ref_names"
  return { environmentProfile := m.environmentProfile, serverAlias, integrationTargetAlias,
           environmentSnapshotHash, startedFrom, operatorNote, manualBlockers, tags,
           relatedInternalRef, secretRefNames }

/-- `ReadinessChecklistItem.model_validate`. -/
def ReadinessChecklistItem.modelValidate (item : ReadinessChecklistItem) :
    Except RequestError ReadinessChecklistItem := do
  let itemId ← validateReferenceText item.itemId "item_id"
  let label ← validateReferenceText item.label "label"
  let note ← validateOptional (validateReferenceText · "note") item.note
  return { itemId, label, status := item.status, note }

section Validated

/-- A text that passed the check passes it again, unchanged. -/
theorem validateReferenceText_again {value result fieldName : String}
    (h : validateReferenceText value fieldName = .ok result) :
    validateReferenceText result fieldName = .ok result := by
  unfold validateReferenceText at h
  split at h
  · rename_i hunmarked
    cases h
    have hagain : Unmarked (Text.strip value) := by
      intro marker hmarker
      rw [Text.strip_strip]
      exact hunmarked marker hmarker
    rw [validateReferenceText_eq_ok hagain, Text.strip_strip]
  · cases h

theorem validateOptional_again {value result : Option String} {fieldName : String}
    (h : validateOptional (validateReferenceText · fieldName) value = .ok result) :
    validateOptional (validateReferenceText · fieldName) result = .ok result := by
  cases value with
  | none =>
      cases h
      rfl
  | some value =>
      cases htext : validateReferenceText value fieldName with
      | error e => simp [validateOptional, htext, Except.map] at h
      | ok text =>
          simp only [validateOptional, htext, Except.map, Except.ok.injEq] at h
          rw [← h, validateOptional, validateReferenceText_again htext]
          rfl

/-- A list whose elements passed a check that does not change what it passed. -/
theorem mapM_again {α : Type} {validate : α → Except RequestError α} {values results : List α}
    (hvalidate : ∀ a b, validate a = .ok b → validate b = .ok b)
    (h : values.mapM validate = .ok results) : results.mapM validate = .ok results := by
  rw [mapM_eq_ok_iff] at h ⊢
  rw [List.forall₂_same]
  intro result hresult
  obtain ⟨value, -, hvalue⟩ := exists_mem_of_forall₂ h hresult
  exact hvalidate value result hvalue

theorem environment_again {raw m : RunEnvironmentMetadata} (h : raw.modelValidate = .ok m) :
    m.modelValidate = .ok m := by
  simp only [RunEnvironmentMetadata.modelValidate, bind_eq_ok, pure, Except.pure,
    Except.ok.injEq] at h
  obtain ⟨_, h₁, _, h₂, _, h₃, _, h₄, _, h₅, _, h₆, _, h₇, _, h₈, _, h₉, rfl⟩ := h
  have hlist := @validateReferenceText_again
  simp only [RunEnvironmentMetadata.modelValidate, validateOptional_again h₁,
    validateOptional_again h₂, validateOptional_again h₃, validateOptional_again h₄,
    validateOptional_again h₅, validateOptional_again h₈, mapM_again (fun _ _ => hlist) h₆,
    mapM_again (fun _ _ => hlist) h₇, mapM_again (fun _ _ => hlist) h₉, bind, Except.bind, pure,
    Except.pure]

theorem checklistItem_again {raw item : ReadinessChecklistItem} (h : raw.modelValidate = .ok item) :
    item.modelValidate = .ok item := by
  simp only [ReadinessChecklistItem.modelValidate, bind_eq_ok, pure, Except.pure,
    Except.ok.injEq] at h
  obtain ⟨_, h₁, _, h₂, _, h₃, rfl⟩ := h
  simp only [ReadinessChecklistItem.modelValidate, validateReferenceText_again h₁,
    validateReferenceText_again h₂, validateOptional_again h₃, bind, Except.bind, pure, Except.pure]

end Validated

/-! ## Reads of `PostgresRunRepository` -/

namespace RunStore

/-- `_restore` with its validators. A `ValidationError` is turned into `RunRepositoryError`. -/
def restoreRun (store : RunStore) (row : RunRow) : Except PyError StoredRun :=
  match row.environmentMetadata.modelValidate,
      row.readinessChecklist.mapM ReadinessChecklistItem.modelValidate with
  | .ok environment, .ok readinessChecklist =>
      .ok { store.restore row with environment, readinessChecklist }
  | _, _ => .error .runRepositoryError

/-- `PostgresRunRepository.get`. -/
def getRun (store : RunStore) (runId : String) : Except PyError (Option StoredRun) :=
  match (Uuid.parse runId).bind store.runs.find? with
  | none => .ok none
  | some row => (store.restoreRun row).map some

/-- The rows in the order of a column with ties in the order of the scan. -/
def orderedRows (store : RunStore) (scan : List RunRow → List RunRow)
    (r : Instant → Instant → Prop) [DecidableRel r] : List RunRow :=
  (scan store.runs.rows).insertionSort fun a b => r a.startedAt.instant b.startedAt.instant

/-- `PostgresRunRepository.list_recent`. -/
def listRecent (store : RunStore) (scan : List RunRow → List RunRow) :
    Except PyError (List StoredRun) :=
  (store.orderedRows scan (· ≥ ·)).mapM store.restoreRun

/-- `PostgresRunRepository.list_all`. -/
def listAll (store : RunStore) (scan : List RunRow → List RunRow) :
    Except PyError (List StoredRun) :=
  (store.orderedRows scan (· ≤ ·)).mapM store.restoreRun

end RunStore

/-! ## `InMemoryRunRepository` -/

structure InMemoryRunRepository where
  runs : List (String × StoredRun) := []

namespace InMemoryRunRepository

def save (memory : InMemoryRunRepository) (run : StoredRun) : InMemoryRunRepository :=
  ⟨Dict.set memory.runs run.runId run⟩

def get (memory : InMemoryRunRepository) (runId : String) : Option StoredRun :=
  Dict.get? memory.runs runId

/-- `self.runs.values()`. -/
def values (memory : InMemoryRunRepository) : List StoredRun := memory.runs.map Prod.snd

def listRecent (memory : InMemoryRunRepository) : Except ClockError (List StoredRun) :=
  sortedBy StoredRun.startedAt (fun a b => a.startedAt.instant ≥ b.startedAt.instant) memory.values

def listAll (memory : InMemoryRunRepository) : Except ClockError (List StoredRun) :=
  sortedBy StoredRun.startedAt (fun a b => a.startedAt.instant ≤ b.startedAt.instant) memory.values

end InMemoryRunRepository

/-! ## Sequences of calls -/

inductive RepositoryCall where
  | save (run : StoredRun)
  | get (runId : String)

/-- The calls on a `PostgresRunRepository`, up to the first save that raises. -/
def RunStore.perform (store : RunStore) : List RepositoryCall → Except PyError RunStore
  | [] => .ok store
  | .save run :: calls =>
      match store.save run with
      | .error e => .error e
      | .ok store => store.perform calls
  | .get _ :: calls => store.perform calls

/-- The calls on an `InMemoryRunRepository`. -/
def InMemoryRunRepository.perform (memory : InMemoryRunRepository) :
    List RepositoryCall → InMemoryRunRepository
  | [] => memory
  | .save run :: calls => (memory.save run).perform calls
  | .get _ :: calls => memory.perform calls

/-- The run of the last save under an identifier. -/
def lastSaved (runId : String) : List RepositoryCall → Option StoredRun
  | [] => none
  | .save run :: calls =>
      (lastSaved runId calls).or (if run.runId = runId then some run else none)
  | .get _ :: calls => lastSaved runId calls

/-- Every time of the run. -/
def StoredRun.times (run : StoredRun) : List Datetime :=
  run.startedAt :: run.endedAt.toList ++ run.metrics.map MetricArtifact.ts ++
    run.sipEvents.map SipEventResponse.ts ++ run.rtpStats.map RtpStatResponse.ts ++
    run.timelineEvents.map TimelineEventArtifact.ts

/-- A run with the text of a UUID as its identifier, aware times, different event ids, and an
environment and a checklist that their models accepted. -/
structure StoredRun.Storable (run : StoredRun) : Prop where
  runId : ∃ k : Uuid, run.runId = k.str
  aware : ∀ t ∈ run.times, t.isAware = true
  events_unique : (run.timelineEvents.map TimelineEventArtifact.eventId).Nodup
  environment : ∃ raw : RunEnvironmentMetadata, raw.modelValidate = .ok run.environment
  checklist : ∃ raw : List ReadinessChecklistItem,
    raw.mapM ReadinessChecklistItem.modelValidate = .ok run.readinessChecklist

/-! ## Agreement -/

/-- The tables hold the runs of the `dict`, read on the UTC clock. -/
structure Agrees (store : RunStore) (memory : InMemoryRunRepository) : Prop where
  nodup : (Dict.keys memory.runs).Nodup
  named : ∀ f ∈ memory.runs, f.1 = f.2.runId
  storable : ∀ run ∈ memory.values, run.Storable
  find : ∀ k : Uuid, store.find? k = (memory.get k.str).map StoredRun.asUtc

theorem agrees_empty : Agrees RunStore.empty {} :=
  ⟨by simp, by simp, by simp [InMemoryRunRepository.values], fun _ => rfl⟩

/-- One save on both sides. -/
theorem agrees_save {store : RunStore} {memory : InMemoryRunRepository} (h : Agrees store memory)
    {run : StoredRun} (hrun : run.Storable) :
    ∃ store', store.save run = .ok store' ∧ Agrees store' (memory.save run) := by
  obtain ⟨k, hk⟩ := hrun.runId
  have hsave : ∃ store', store.saveInSession run k = .ok store' := by
    rw [RunStore.saveInSession, dif_pos hrun.events_unique]
    exact ⟨_, rfl⟩
  obtain ⟨store', hsave⟩ := hsave
  refine ⟨store', by rw [RunStore.save, hk, Uuid.parse_str]; exact hsave, ?_, ?_, ?_, ?_⟩
  · exact Dict.nodup_keys_set h.nodup _ _
  · intro f hf
    rcases Dict.mem_set hf with rfl | hf
    · rfl
    · exact h.named f hf
  · intro stored hstored
    obtain ⟨f, hf, rfl⟩ := List.mem_map.mp hstored
    rcases Dict.mem_set hf with rfl | hf
    · exact hrun
    · exact h.storable _ (List.mem_map_of_mem hf)
  · intro k'
    rw [InMemoryRunRepository.get, InMemoryRunRepository.save, Dict.get?_set, hk]
    by_cases hk' : k' = k
    · subst hk'
      rw [RunStore.find?_saveInSession_self hsave, if_pos rfl, ← hk]
      rfl
    · rw [RunStore.find?_saveInSession_of_ne hsave hk', h.find k',
        if_neg fun heq => hk' (Uuid.str_injective heq).symm]
      rfl

/-- Any sequence of calls on both sides. -/
theorem agrees_perform {store : RunStore} {memory : InMemoryRunRepository}
    (h : Agrees store memory) {calls : List RepositoryCall}
    (hcalls : ∀ run, .save run ∈ calls → run.Storable) :
    ∃ store', store.perform calls = .ok store' ∧ Agrees store' (memory.perform calls) := by
  induction calls generalizing store memory with
  | nil => exact ⟨store, rfl, h⟩
  | cons call calls ih =>
      have hrest : ∀ run, RepositoryCall.save run ∈ calls → run.Storable :=
        fun run hrun => hcalls run (List.mem_cons_of_mem _ hrun)
      cases call with
      | get runId => exact ih h hrest
      | save run =>
          obtain ⟨store', hsave, hagrees⟩ := agrees_save h (hcalls run List.mem_cons_self)
          obtain ⟨store'', hperform, hagrees⟩ := ih hagrees hrest
          exact ⟨store'', by rw [RunStore.perform, hsave]; exact hperform, hagrees⟩

/-- The `dict` holds the last run that was saved under each identifier. -/
theorem get_perform (memory : InMemoryRunRepository) (calls : List RepositoryCall)
    (runId : String) :
    (memory.perform calls).get runId = (lastSaved runId calls).or (memory.get runId) := by
  induction calls generalizing memory with
  | nil => rfl
  | cons call calls ih =>
      cases call with
      | get _ => exact ih memory
      | save run =>
          rw [InMemoryRunRepository.perform, ih, lastSaved, Option.or_assoc,
            InMemoryRunRepository.get, InMemoryRunRepository.save, Dict.get?_set]
          by_cases hid : run.runId = runId <;> simp [hid, InMemoryRunRepository.get]

/-! ## Listings -/

section Listings

variable {store : RunStore} {memory : InMemoryRunRepository} (h : Agrees store memory)

theorem mem_rows_iff {row : RunRow} : row ∈ store.runs.rows ↔ store.runs.find? row.id = some row := by
  simp [Table.find?_eq_some_iff]

include h

/-- Every row is read back as the run it was written from. -/
theorem restore_of_mem {row : RunRow} (hrow : row ∈ store.runs.rows) :
    ∃ run, memory.get row.id.str = some run ∧ store.restore row = run.asUtc := by
  have hfind := h.find row.id
  rw [RunStore.find?, mem_rows_iff.mp hrow] at hfind
  obtain ⟨run, hrun, heq⟩ := Option.map_eq_some_iff.mp hfind.symm
  exact ⟨run, hrun, heq.symm⟩

theorem mem_values_of_get {runId : String} {run : StoredRun} (hget : memory.get runId = some run) :
    run ∈ memory.values ∧ run.runId = runId := by
  have hmem := Dict.mem_of_get?_eq_some hget
  exact ⟨List.mem_map_of_mem (f := Prod.snd) hmem, (h.named _ hmem).symm⟩

/-- The validators change nothing of a stored run. -/
theorem restoreRun_of_mem {row : RunRow} (hrow : row ∈ store.runs.rows) :
    store.restoreRun row = .ok (store.restore row) := by
  obtain ⟨run, hget, hrestore⟩ := restore_of_mem h hrow
  have hstorable := h.storable run (mem_values_of_get h hget).1
  have henvironment : row.environmentMetadata = run.environment := congrArg StoredRun.environment hrestore
  have hchecklist : row.readinessChecklist = run.readinessChecklist :=
    congrArg StoredRun.readinessChecklist hrestore
  obtain ⟨raw, hraw⟩ := hstorable.environment
  obtain ⟨raws, hraws⟩ := hstorable.checklist
  have hagain := environment_again hraw
  have hagains := mapM_again (fun _ _ => checklistItem_again) hraws
  rw [← henvironment] at hagain
  rw [← hchecklist] at hagains
  rw [RunStore.restoreRun, hagain, hagains]
  rfl

theorem getRun_eq (runId : String) : store.getRun runId =
    .ok ((Uuid.parse runId).bind fun k => (memory.get k.str).map StoredRun.asUtc) := by
  unfold RunStore.getRun
  cases hparse : Uuid.parse runId with
  | none => rfl
  | some k =>
      rw [Option.bind_some, Option.bind_some, ← h.find k, RunStore.find?]
      cases hrow : store.runs.find? k with
      | none => rfl
      | some row =>
          have hmem := (Table.find?_eq_some_iff.mp hrow).1
          simp [restoreRun_of_mem h hmem, Except.map]

/-- The tables and the `dict` hold the same runs. -/
theorem perm_values : (store.runs.rows.map store.restore).Perm (memory.values.map StoredRun.asUtc) := by
  have hrows : ((store.runs.rows.map store.restore).map StoredRun.runId).Nodup := by
    rw [List.map_map]
    have hid : StoredRun.runId ∘ store.restore = Uuid.str ∘ RunRow.id := rfl
    rw [hid, ← List.map_map]
    exact store.runs.nodup.map Uuid.str_injective
  have hkeys : (memory.values.map StoredRun.asUtc).map StoredRun.runId = Dict.keys memory.runs := by
    rw [InMemoryRunRepository.values, List.map_map, List.map_map, Dict.keys]
    exact List.map_congr_left fun f hf => (h.named f hf).symm
  have hvalues : ((memory.values.map StoredRun.asUtc).map StoredRun.runId).Nodup := by
    rw [hkeys]
    exact h.nodup
  rw [List.perm_ext_iff_of_nodup hrows.of_map hvalues.of_map]
  intro run
  rw [List.mem_map, List.mem_map]
  constructor
  · rintro ⟨row, hrow, rfl⟩
    obtain ⟨run, hget, hrestore⟩ := restore_of_mem h hrow
    exact ⟨run, (mem_values_of_get h hget).1, hrestore.symm⟩
  · rintro ⟨run, hrun, rfl⟩
    obtain ⟨f, hf, rfl⟩ := List.mem_map.mp hrun
    obtain ⟨k, hk⟩ := (h.storable _ hrun).runId
    have hget : memory.get k.str = some f.2 := by
      apply Dict.get?_eq_some_of_mem h.nodup
      rw [← hk, ← h.named f hf]
      exact hf
    have hfind := h.find k
    rw [hget, RunStore.find?] at hfind
    obtain ⟨row, hrow, hrestore⟩ := Option.map_eq_some_iff.mp hfind
    exact ⟨row, (Table.find?_eq_some_iff.mp hrow).1, hrestore⟩

variable {scan : List RunRow → List RunRow} (hscan : ∀ rows, (scan rows).Perm rows)
  {r : Instant → Instant → Prop} [DecidableRel r] [Std.Total r] [IsTrans Instant r]

include hscan

/-- Reading the rows in the order of a column gives the stored runs in that order. -/
theorem exists_orderedRows : ∃ runs,
    (store.orderedRows scan r).mapM store.restoreRun = .ok runs ∧
      runs.Perm (memory.values.map StoredRun.asUtc) ∧
      runs.Pairwise fun a b => r a.startedAt.instant b.startedAt.instant := by
  have hperm : (store.orderedRows scan r).Perm store.runs.rows :=
    (List.perm_insertionSort _ _).trans (hscan _)
  refine ⟨(store.orderedRows scan r).map store.restore, ?_, ?_, ?_⟩
  · rw [mapM_eq_ok_iff, List.forall₂_map_right_iff, List.forall₂_same]
    intro row hrow
    exact restoreRun_of_mem h (hperm.subset hrow)
  · exact (hperm.map _).trans (perm_values h)
  · rw [List.pairwise_map]
    have hsorted : (store.orderedRows scan r).Pairwise fun a b =>
        r a.startedAt.instant b.startedAt.instant := by
      apply List.pairwise_insertionSort
    exact hsorted.imp fun {a b} hab => by simpa [RunStore.restore] using hab

omit hscan in
/-- The values of the `dict` can be sorted, because their times are all aware. -/
theorem exists_sortedBy_values : ∃ runs,
    sortedBy StoredRun.startedAt (fun a b => r a.startedAt.instant b.startedAt.instant)
      memory.values = .ok runs ∧ runs.Perm memory.values ∧
      runs.Pairwise fun a b => r a.startedAt.instant b.startedAt.instant := by
  have hcomparable : Comparable (memory.values.map StoredRun.startedAt) := by
    apply comparable_of_aware
    intro t ht
    obtain ⟨run, hrun, rfl⟩ := List.mem_map.mp ht
    exact (h.storable run hrun).aware _ (by simp [StoredRun.times])
  obtain ⟨runs, hruns⟩ := (exists_sortedBy_iff (r := fun a b : StoredRun =>
    r a.startedAt.instant b.startedAt.instant)).mpr hcomparable
  exact ⟨runs, hruns, perm_of_sortedBy hruns, pairwise_of_sortedBy hruns⟩

end Listings

/-- The same runs in the same order of their start, one repository's on the UTC clock. Runs
that start at the same instant may stand in any order. -/
structure SameListing (r : Instant → Instant → Prop) (postgres memory : List StoredRun) : Prop where
  perm : postgres.Perm (memory.map StoredRun.asUtc)
  postgres_ordered : postgres.Pairwise fun a b => r a.startedAt.instant b.startedAt.instant
  memory_ordered : memory.Pairwise fun a b => r a.startedAt.instant b.startedAt.instant

/-- After any sequence of saves and reads of storable runs, whatever the order in which the
database scans its rows: no save has raised; a run read under any spelling of its identifier
is the last one that was saved, read on the UTC clock, and an identifier that is malformed
or was never saved names no run; both listings hold the same runs as those of the repository
in memory, ordered by their start. -/
theorem repository_agreement {scan : List RunRow → List RunRow}
    (hscan : ∀ rows, (scan rows).Perm rows) {calls : List RepositoryCall}
    (hcalls : ∀ run, .save run ∈ calls → run.Storable) :
    ∃ store, RunStore.empty.perform calls = .ok store ∧
      (∀ runId, store.getRun runId = .ok ((Uuid.parse runId).bind fun k =>
        (lastSaved k.str calls).map StoredRun.asUtc)) ∧
      (∃ postgres memory, store.listRecent scan = .ok postgres ∧
        (InMemoryRunRepository.perform {} calls).listRecent = .ok memory ∧
        SameListing (· ≥ ·) postgres memory) ∧
      (∃ postgres memory, store.listAll scan = .ok postgres ∧
        (InMemoryRunRepository.perform {} calls).listAll = .ok memory ∧
        SameListing (· ≤ ·) postgres memory) := by
  obtain ⟨store, hperform, hagrees⟩ := agrees_perform agrees_empty hcalls
  have hget : ∀ runId, (InMemoryRunRepository.perform {} calls).get runId = lastSaved runId calls := by
    intro runId
    rw [get_perform]
    exact Option.or_none
  refine ⟨store, hperform, ?_, ?_, ?_⟩
  · intro runId
    rw [getRun_eq hagrees]
    simp only [hget]
  · obtain ⟨postgres, hpostgres, hperm, hordered⟩ := exists_orderedRows hagrees hscan (r := (· ≥ ·))
    obtain ⟨memory, hmemory, hperm', hordered'⟩ := exists_sortedBy_values hagrees (r := (· ≥ ·))
    exact ⟨postgres, memory, hpostgres, hmemory, hperm.trans (hperm'.symm.map _), hordered,
      hordered'⟩
  · obtain ⟨postgres, hpostgres, hperm, hordered⟩ := exists_orderedRows hagrees hscan (r := (· ≤ ·))
    obtain ⟨memory, hmemory, hperm', hordered'⟩ := exists_sortedBy_values hagrees (r := (· ≤ ·))
    exact ⟨postgres, memory, hpostgres, hmemory, hperm.trans (hperm'.symm.map _), hordered,
      hordered'⟩

/-- A run with the given events. -/
def runWithEvents (events : List TimelineEventArtifact) : StoredRun :=
  { createRunningRun (Uuid.ofNat 7).str "hash" none "provider" "engine" (.utc 0) .null {} [] with
    timelineEvents := events }

theorem storable_runWithEvents {events : List TimelineEventArtifact}
    (haware : ∀ e ∈ events, e.ts.isAware = true)
    (hunique : (events.map TimelineEventArtifact.eventId).Nodup) :
    (runWithEvents events).Storable where
  runId := ⟨_, rfl⟩
  aware := by
    intro t ht
    simp only [StoredRun.times, runWithEvents, createRunningRun, Option.toList_none, List.map_nil,
      List.append_nil, List.cons_append, List.nil_append, List.mem_cons] at ht
    rcases ht with rfl | ht
    · rfl
    · obtain ⟨e, he, rfl⟩ := List.mem_map.mp ht
      exact haware e he
  events_unique := hunique
  environment := ⟨{}, rfl⟩
  checklist := ⟨[], rfl⟩

/-- A run with an event that is saved again without it is read back without it. -/
theorem repository_agreement_shorter_save :
    let event : TimelineEventArtifact := ⟨"e", .runtime, "n", .utc 5, "c", none, none, none, none, "s",
      none, []⟩
    let calls := [.save (runWithEvents [event]), .get "malformed", .save (runWithEvents [])]
    ∃ store, RunStore.empty.perform calls = .ok store ∧
      store.getRun (Uuid.ofNat 7).str = .ok (some (runWithEvents []).asUtc) := by
  intro event calls
  have hcalls : ∀ run, .save run ∈ calls → run.Storable := by
    intro run hrun
    simp only [calls, List.mem_cons, RepositoryCall.save.injEq, reduceCtorEq, List.not_mem_nil,
      or_false, false_or] at hrun
    rcases hrun with rfl | rfl
    · exact storable_runWithEvents (by simp [event, Datetime.isAware, Datetime.utc]) (by simp)
    · exact storable_runWithEvents (by simp) (by simp)
  obtain ⟨store, hperform, hget, -⟩ := repository_agreement (fun rows => rows.reverse_perm) hcalls
  refine ⟨store, hperform, ?_⟩
  rw [hget, Uuid.parse_str, Option.bind_some]
  simp [calls, lastSaved, runWithEvents, createRunningRun]

end VoxBench.ControlPlane
