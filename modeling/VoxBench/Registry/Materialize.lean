import VoxBench.Registry.Resolve
import VoxBench.Registry.Nullable

/-!
# Completed stages

The defaults of a manifest complete a dumped stage. The completed stage is again a stage: it
validates to the stage that has the manifest's values where it had none, dumps back to the
same items, needs no further completion, and passes the same checks.

## Main definitions

* `manifestValue` — what a manifest provides under a key.
* `completeStage` — a validated stage with the values of its manifest.
* `IsStage` — a validated stage whose manifest is registered.

## Main results

* `validate_materialized`, `IsStage.perm_dump_complete`, `IsStage.materializeStage_dump_complete`,
  `IsStage.validateStage_complete`.
-/

namespace VoxBench.Registry

open VoxBench.Lib VoxBench.ControlPlane RegistryService

variable {lib : Libraries}

/-- A validated value is read back from its own dump. -/
theorem validate_dump {schema : Schema} {document value : Json} (hc : schema.Canonical lib)
    (hn : schema.nullDefaults) (hk : document.keyed)
    (hvalid : validate lib schema document = some value) (hany : AnyPresent schema value) :
    validate lib schema (dump schema value) = some value := by
  have hretained : Retained schema none value :=
    retained_of_nullable hc hn none document value hvalid hany fun p _ _ => Or.inl rfl
  have h := survives hc none document value hk (mergeValue_none document) hvalid hretained
  rwa [mergeValue_none] at h

/-- A field of a model that is read back from its dump is itself read back. -/
theorem validate_dump_field {fields : List (String × Schema × Option Json)}
    {values : List (String × Json)} (hd : (Dict.keys fields).Nodup)
    (h : validate lib (.model fields) (dump (.model fields) (.obj values)) = some (.obj values))
    {f : String × Schema × Option Json} (hf : f ∈ fields) {value : Json}
    (hget : Dict.get? values f.1 = some value) (hvalue : value ≠ .null) :
    validate lib f.2.1 (dump f.2.1 value) = some value := by
  obtain ⟨given, values', hgiven, hvalues', -, hforall⟩ := validate_model_eq_some_iff.mp h
  obtain rfl := Json.obj.inj hvalues'
  rw [dump] at hgiven
  obtain rfl := Json.obj.inj hgiven
  obtain ⟨value', hget', hfield⟩ := fieldValue_of_mem hd hforall hf
  obtain rfl := Option.some.inj (hget.symm.trans hget')
  rwa [fieldValue, get?_dumpFields_of_ne_null hd hf hget hvalue] at hfield

/-! ## What a manifest provides -/

/-- The value of a manifest under a key that a stage can take from it. -/
def manifestValue (manifest : CapabilityManifest lib) (key : String) : Option Json :=
  if key = "io" then if manifest.io.isNull then none else some manifest.io
  else if key ∈ materializedFields then
    match manifest.document.field [key] with
    | .arr (x :: xs) => some (.arr (x :: xs))
    | _ => none
  else none

/-- The completed items of a stage. -/
def materialized (manifest : CapabilityManifest lib) (stage : List (String × Json)) :
    List (String × Json) :=
  materializedFields.foldl (materializeField manifest) (materializeIo manifest stage)

/-- The manifest's value as it is written into a stage. -/
def dumpedValue (key : String) (value : Json) : Json :=
  if key = "io" then dump Schema.ioContract value else value

theorem get?_materializeIo (manifest : CapabilityManifest lib) (stage : List (String × Json))
    (key : String) :
    Dict.get? (materializeIo manifest stage) key =
      (Dict.get? stage key).or
        (if key = "io" then (manifestValue manifest key).map (dumpedValue key) else none) := by
  unfold materializeIo
  by_cases hkey : key = "io"
  · subst hkey
    cases hstage : Dict.get? stage "io" with
    | some value => simp [hstage]
    | none =>
        by_cases hnull : manifest.io.isNull
        · simp [hstage, hnull, manifestValue]
        · simp [hnull, manifestValue, dumpedValue, Dict.get?_set]
  · have hne : ¬ "io" = key := fun h => hkey h.symm
    simp only [hkey, if_false, Option.or_none]
    split
    · rfl
    · simp [hne, Dict.get?_set]

theorem get?_materializeField (manifest : CapabilityManifest lib) (stage : List (String × Json))
    {name : String} (hname : name ∈ materializedFields) (key : String) :
    Dict.get? (materializeField manifest stage name) key =
      (Dict.get? stage key).or
        (if key = name then (manifestValue manifest key).map (dumpedValue key) else none) := by
  have hio : name ≠ "io" := by
    rintro rfl
    simp [materializedFields] at hname
  unfold materializeField
  by_cases hkey : key = name
  · subst hkey
    cases hstage : Dict.get? stage key with
    | some value => simp [hstage]
    | none =>
        simp only [manifestValue, hio, hname, if_false, if_true, Option.none_or]
        split
        · rename_i x xs _ hlist
          simp [hlist, Dict.get?_set, dumpedValue, hio]
        · rename_i hother
          split
          · rename_i x xs hlist
            exact absurd hlist (hother x xs rfl)
          · simpa using hstage
  · have hne : ¬ name = key := fun h => hkey h.symm
    simp only [hkey, if_false, Option.or_none]
    split
    · simp [hne, Dict.get?_set]
    · rfl

theorem get?_materializeFields (manifest : CapabilityManifest lib)
    (stage : List (String × Json)) {names : List String}
    (hnames : ∀ name ∈ names, name ∈ materializedFields) (key : String) :
    Dict.get? (names.foldl (materializeField manifest) stage) key =
      (Dict.get? stage key).or
        (if key ∈ names then (manifestValue manifest key).map (dumpedValue key) else none) := by
  induction names generalizing stage with
  | nil => simp
  | cons name names ih =>
      rw [List.foldl_cons, ih _ fun n hn => hnames n (List.mem_cons_of_mem name hn),
        get?_materializeField manifest stage (hnames name (by simp))]
      cases Dict.get? stage key with
      | some value => simp
      | none =>
          generalize (manifestValue manifest key).map (dumpedValue key) = provided
          by_cases hkey : key = name
          · subst hkey
            by_cases hmem : key ∈ names <;> simp [hmem]
          · simp [hkey]

/-- One key of a completed stage: its own value, else the manifest's. -/
theorem get?_materialized (manifest : CapabilityManifest lib) (stage : List (String × Json))
    (key : String) :
    Dict.get? (materialized manifest stage) key =
      (Dict.get? stage key).or ((manifestValue manifest key).map (dumpedValue key)) := by
  rw [materialized, get?_materializeFields manifest _ fun _ h => h, get?_materializeIo]
  by_cases hio : key = "io"
  · have hnot : key ∉ materializedFields := by
      rw [hio]
      decide
    simp [hio, hio ▸ hnot]
  · by_cases hkey : key ∈ materializedFields
    · simp [hio, hkey]
    · simp [hio, hkey, manifestValue]

/-- A stage that has every value that the manifest provides is complete. -/
theorem materialized_eq_self {manifest : CapabilityManifest lib} {stage : List (String × Json)}
    (h : ∀ key, Dict.get? stage key = none → manifestValue manifest key = none) :
    materialized manifest stage = stage := by
  have hio : materializeIo manifest stage = stage := by
    unfold materializeIo
    split
    · rfl
    · rename_i hmissing
      rw [not_or] at hmissing
      have hnone := h "io" (by simpa using hmissing.1)
      simp [manifestValue, hmissing.2] at hnone
  have hfield : ∀ name ∈ materializedFields, materializeField manifest stage name = stage := by
    intro name hname
    have hne : name ≠ "io" := by
      rintro rfl
      simp [materializedFields] at hname
    unfold materializeField
    split
    · rename_i x xs hmissing hlist
      have hnone := h name hmissing
      simp [manifestValue, hne, hname, hlist] at hnone
    · rfl
  rw [materialized, hio]
  generalize materializedFields = names at hfield
  induction names with
  | nil => rfl
  | cons name names ih =>
      rw [List.foldl_cons, hfield name (by simp)]
      exact ih fun n hn => hfield n (List.mem_cons_of_mem name hn)

/-! ## The fields of a stage -/

/-- The fields of `PipelineStage`. -/
def stageFields : List (String × Schema × Option Json) :=
  match Schema.pipelineStage with
  | .model fields => fields
  | _ => []

theorem pipelineStage_eq : Schema.pipelineStage = .model stageFields := rfl

theorem nodup_stageFields : (Dict.keys stageFields).Nodup := by
  decide

/-- A manifest is read back from its own dump. -/
theorem validate_dump_manifest (manifest : CapabilityManifest lib) :
    validate lib Schema.capabilityManifest (dump Schema.capabilityManifest manifest.document) =
      some manifest.document := by
  obtain ⟨raw, hvalid⟩ := manifest.valid
  exact validate_dump canonical_capabilityManifest (by decide) raw.keyed hvalid
    (anyPresent_of_not_hasAny (by decide) _)

/-- A value of a manifest is read back from its dump. -/
theorem validate_dump_manifestField (manifest : CapabilityManifest lib) {key : String}
    {type : Schema} (htype : Schema.capabilityManifest.descend [key] = some type)
    (hvalue : manifest.document.field [key] ≠ .null) :
    validate lib type (dump type (manifest.document.field [key])) =
      some (manifest.document.field [key]) := by
  obtain ⟨fields, f, hfields, hf, rfl, hdescend⟩ := descend_cons htype
  obtain rfl : f.2.1 = type := by simpa [Schema.descend] using hdescend
  have hback := validate_dump_manifest manifest
  have hc := @canonical_capabilityManifest lib
  rw [hfields] at hback hc
  rw [Schema.Canonical] at hc
  obtain ⟨-, values, -, hdoc, -⟩ := validate_model_eq_some_iff.mp hback
  have hfield : manifest.document.field [f.1] = ((Dict.get? values f.1).getD .null) := by
    rw [Json.field, hdoc, Json.lookup_cons, Json.get?_obj]
    cases Dict.get? values f.1 <;> simp
  rw [hdoc] at hback
  rw [hfield] at hvalue ⊢
  cases hget : Dict.get? values f.1 with
  | none => simp [hget] at hvalue
  | some value =>
      rw [hget] at hvalue
      exact validate_dump_field hc.1 hback hf hget hvalue

theorem manifestValue_io {manifest : CapabilityManifest lib} {value : Json}
    (h : manifestValue manifest "io" = some value) :
    manifest.document.field ["io"] = value ∧ value ≠ .null := by
  unfold manifestValue at h
  by_cases hnull : manifest.io.isNull
  · simp [hnull] at h
  · obtain rfl : manifest.io = value := by simpa [hnull] using h
    refine ⟨rfl, fun heq => hnull ?_⟩
    rw [heq]
    rfl

theorem manifestValue_list {manifest : CapabilityManifest lib} {key : String} {value : Json}
    (hkey : key ∈ materializedFields) (h : manifestValue manifest key = some value) :
    manifest.document.field [key] = value ∧ ∃ items, value = .arr items := by
  have hio : key ≠ "io" := by
    rintro rfl
    simp [materializedFields] at hkey
  simp only [manifestValue, hio, hkey, if_false, if_true] at h
  split at h
  · rename_i x xs hlist
    obtain rfl := Option.some.inj h
    exact ⟨hlist, _, rfl⟩
  · cases h

/-- The list a manifest provides is a value of the stage's field, and is dumped as it is. -/
theorem validate_manifestList (manifest : CapabilityManifest lib) {key : String} {item : Schema}
    {value : Json} (hkey : key ∈ materializedFields)
    (htype : Schema.capabilityManifest.descend [key] = some (.list item))
    (hitem : ∀ x, dump item x = x) (hvalue : manifestValue manifest key = some value) :
    validate lib (.optional (.list item)) (dumpedValue key value) = some value ∧ value ≠ .null ∧
      dump (.optional (.list item)) value = dumpedValue key value := by
  obtain ⟨hfield, items, rfl⟩ := manifestValue_list hkey hvalue
  have hio : key ≠ "io" := by
    rintro rfl
    simp [materializedFields] at hkey
  have hdump : dump (.list item) (.arr items) = .arr items := by
    have hid : dump item = id := funext hitem
    simp [dump, hid]
  have hback := validate_dump_manifestField manifest htype (by rw [hfield]; simp)
  rw [hfield, hdump] at hback
  have hwritten : dumpedValue key (.arr items) = .arr items := by simp [dumpedValue, hio]
  rw [hwritten]
  refine ⟨?_, by simp, ?_⟩
  · rw [validate_optional (by simp)]
    exact hback
  · rw [dump]
    exact hdump

/-- What a manifest provides is a value of the stage's field. -/
theorem validate_manifestValue (manifest : CapabilityManifest lib)
    {f : String × Schema × Option Json} (hf : f ∈ stageFields) {value : Json}
    (hvalue : manifestValue manifest f.1 = some value) :
    validate lib f.2.1 (dumpedValue f.1 value) = some value ∧ value ≠ .null ∧
      dump f.2.1 value = dumpedValue f.1 value := by
  have hkeys : f.1 = "io" ∨ f.1 ∈ materializedFields := by
    by_contra hkeys
    rw [not_or] at hkeys
    simp [manifestValue, hkeys] at hvalue
  simp only [stageFields, Schema.pipelineStage, List.mem_cons, List.not_mem_nil, or_false] at hf
  rcases hf with rfl | rfl | rfl | rfl | rfl | rfl | rfl | rfl | rfl | rfl
  · exact absurd hkeys (by decide)
  · exact absurd hkeys (by decide)
  · exact absurd hkeys (by decide)
  · obtain ⟨hfield, hnull⟩ := manifestValue_io hvalue
    have hback := validate_dump_manifestField manifest rfl (hfield ▸ hnull)
    rw [hfield] at hback
    have hwritten : dump (.optional Schema.ioContract) value = dumpedValue "io" value := by
      rw [dump]
      rfl
    exact ⟨hwritten ▸ hback, hnull, hwritten⟩
  · exact validate_manifestList manifest (by decide) rfl (by simp [Schema.invariant, dump]) hvalue
  · exact validate_manifestList manifest (by decide) rfl (by simp [Schema.invariant, dump]) hvalue
  · exact validate_manifestList manifest (by decide) rfl (by simp [dump]) hvalue
  · exact validate_manifestList manifest (by decide) rfl (by simp [dump]) hvalue
  · exact absurd hkeys (by decide)
  · exact absurd hkeys (by decide)

/-! ## Completed stages -/

/-- The value of a completed stage under a key. -/
def completeValue (manifest : CapabilityManifest lib) (values : List (String × Json))
    (key : String) : Json :=
  match Dict.get? values key with
  | none | some .null => (manifestValue manifest key).getD .null
  | some value => value

/-- A validated stage with the values of its manifest where it has none. -/
def completeStage (manifest : CapabilityManifest lib) (values : List (String × Json)) : Json :=
  .obj (stageFields.map fun f => (f.1, completeValue manifest values f.1))

section Complete

variable {manifest : CapabilityManifest lib} {values : List (String × Json)}

theorem keys_completeStage :
    Dict.keys (fieldsOf (completeStage manifest values)) = Dict.keys stageFields := by
  simp only [completeStage, fieldsOf, Dict.keys, List.map_map]
  exact List.map_congr_left fun f _ => rfl

theorem get?_completeStage {f : String × Schema × Option Json} (hf : f ∈ stageFields) :
    Dict.get? (fieldsOf (completeStage manifest values)) f.1 =
      some (completeValue manifest values f.1) := by
  have hd : (Dict.keys (fieldsOf (completeStage manifest values))).Nodup := by
    rw [keys_completeStage]
    exact nodup_stageFields
  refine Dict.get?_eq_some_of_mem hd ?_
  exact List.mem_map_of_mem (f := fun f => (f.1, completeValue manifest values f.1)) hf

/-- One field of a stage that is read back from its dump: dropped, or read back itself. -/
theorem stage_field_cases
    (hback : validate lib Schema.pipelineStage (dump Schema.pipelineStage (.obj values)) =
      some (.obj values)) {f : String × Schema × Option Json} (hf : f ∈ stageFields) :
    (Dict.get? values f.1 = some .null ∧ Dict.get? (dumpFields stageFields values) f.1 = none ∧
      f.2.2 = some .null) ∨
    (∃ value, Dict.get? values f.1 = some value ∧ value ≠ .null ∧
      Dict.get? (dumpFields stageFields values) f.1 = some (dump f.2.1 value) ∧
      validate lib f.2.1 (dump f.2.1 value) = some value) := by
  rw [pipelineStage_eq] at hback
  obtain ⟨given, values', hgiven, hvalues', -, hforall⟩ := validate_model_eq_some_iff.mp hback
  obtain rfl := Json.obj.inj hvalues'
  rw [dump] at hgiven
  obtain rfl := Json.obj.inj hgiven
  obtain ⟨value, hget, hfield⟩ := fieldValue_of_mem nodup_stageFields hforall hf
  by_cases hnull : value = .null
  · subst hnull
    have hdump : Dict.get? (dumpFields stageFields values) f.1 = none := by
      rw [get?_dumpFields nodup_stageFields values hf, hget]
    rw [fieldValue, hdump] at hfield
    exact Or.inl ⟨hget, hdump, hfield⟩
  · have hdump := get?_dumpFields_of_ne_null nodup_stageFields hf hget hnull
    rw [fieldValue, hdump] at hfield
    exact Or.inr ⟨value, hget, hnull, hdump, hfield⟩

theorem completeValue_of_null {key : String} (h : Dict.get? values key = some .null) :
    completeValue manifest values key = (manifestValue manifest key).getD .null := by
  simp [completeValue, h]

theorem completeValue_of_ne_null {key : String} {value : Json}
    (h : Dict.get? values key = some value) (hne : value ≠ .null) :
    completeValue manifest values key = value := by
  cases value with
  | null => exact absurd rfl hne
  | bool | int | float | negZero | str | arr | obj => simp [completeValue, h]

theorem mem_stageFields_of_manifestValue {key : String}
    (h : (manifestValue manifest key).isSome) : key ∈ Dict.keys stageFields := by
  by_cases hio : key = "io"
  · rw [hio]
    decide
  · by_cases hkey : key ∈ materializedFields
    · revert hkey
      have hsub : ∀ k ∈ materializedFields, k ∈ Dict.keys stageFields := by decide
      exact hsub key
    · simp [manifestValue, hio, hkey] at h

theorem mem_keys_of_materialized {key : String}
    (h : key ∈ Dict.keys (materialized manifest (dumpFields stageFields values))) :
    key ∈ Dict.keys stageFields := by
  rw [← Dict.isSome_get?_iff, get?_materialized] at h
  cases hdump : Dict.get? (dumpFields stageFields values) key with
  | some value =>
      refine (keys_dumpFields_sublist stageFields values).subset ?_
      rw [← Dict.isSome_get?_iff, hdump]
      rfl
  | none =>
      rw [hdump, Option.none_or, Option.isSome_map] at h
      exact mem_stageFields_of_manifestValue h

/-- The completed stage validates to the complete one. -/
theorem validate_materialized
    (hback : validate lib Schema.pipelineStage (dump Schema.pipelineStage (.obj values)) =
      some (.obj values)) :
    validate lib Schema.pipelineStage
      (.obj (materialized manifest (dumpFields stageFields values))) =
      some (completeStage manifest values) := by
  rw [pipelineStage_eq, validate_model_eq_some_iff]
  refine ⟨_, _, rfl, rfl, fun key => mem_keys_of_materialized, ?_⟩
  rw [List.forall₂_map_right_iff, List.forall₂_same]
  intro f hf
  refine ⟨rfl, ?_⟩
  rw [fieldValue, get?_materialized]
  rcases stage_field_cases hback hf with ⟨hget, hdump, hdefault⟩ | ⟨value, hget, hne, hdump, hvalid⟩
  · rw [hdump, completeValue_of_null hget, Option.none_or]
    cases hvalue : manifestValue manifest f.1 with
    | none => simpa using hdefault
    | some value => simpa using (validate_manifestValue manifest hf hvalue).1
  · rw [hdump, completeValue_of_ne_null hget hne, Option.some_or]
    exact hvalid

/-- The complete stage has, when dumped, the items of the completed one. -/
theorem get?_dump_completeStage
    (hback : validate lib Schema.pipelineStage (dump Schema.pipelineStage (.obj values)) =
      some (.obj values)) (key : String) :
    Dict.get? (dumpFields stageFields (fieldsOf (completeStage manifest values))) key =
      Dict.get? (materialized manifest (dumpFields stageFields values)) key := by
  by_cases hkey : key ∈ Dict.keys stageFields
  · obtain ⟨f, hf, rfl⟩ := List.mem_map.mp hkey
    have hcomplete := @get?_completeStage _ manifest values _ hf
    rw [get?_materialized]
    rcases stage_field_cases hback hf with ⟨hget, hdump, -⟩ | ⟨value, hget, hne, hdump, -⟩
    · rw [completeValue_of_null hget] at hcomplete
      rw [hdump, Option.none_or]
      cases hvalue : manifestValue manifest f.1 with
      | none =>
          rw [hvalue] at hcomplete
          rw [get?_dumpFields nodup_stageFields _ hf, hcomplete]
          rfl
      | some value =>
          rw [hvalue] at hcomplete
          obtain ⟨-, hnull, hwritten⟩ := validate_manifestValue manifest hf hvalue
          rw [get?_dumpFields_of_ne_null nodup_stageFields hf hcomplete hnull, Option.getD_some,
            hwritten]
          rfl
    · rw [completeValue_of_ne_null hget hne] at hcomplete
      rw [get?_dumpFields_of_ne_null nodup_stageFields hf hcomplete hne, hdump]
      rfl
  · have hleft : key ∉ Dict.keys
        (dumpFields stageFields (fieldsOf (completeStage manifest values))) := fun h =>
      hkey ((keys_dumpFields_sublist stageFields _).subset h)
    have hright : key ∉ Dict.keys (materialized manifest (dumpFields stageFields values)) :=
      fun h => hkey (mem_keys_of_materialized h)
    rw [Dict.get?_eq_none_iff.mpr hleft, Dict.get?_eq_none_iff.mpr hright]

/-- A complete stage needs no further completion. -/
theorem materialized_dump_completeStage
    (hback : validate lib Schema.pipelineStage (dump Schema.pipelineStage (.obj values)) =
      some (.obj values)) :
    materialized manifest (dumpFields stageFields (fieldsOf (completeStage manifest values))) =
      dumpFields stageFields (fieldsOf (completeStage manifest values)) := by
  refine materialized_eq_self fun key hkey => ?_
  rw [get?_dump_completeStage hback, get?_materialized, Option.or_eq_none_iff,
    Option.map_eq_none_iff] at hkey
  exact hkey.2

/-! ## The checks of a complete stage -/

theorem field_obj (values : List (String × Json)) (key : String) :
    (Json.obj values).field [key] = (Dict.get? values key).getD .null := by
  rw [Json.field, Json.lookup_cons, Json.get?_obj]
  cases Dict.get? values key <;> simp

/-- A value that no manifest provides is the stage's own. -/
theorem field_completeStage {key : String} (hkey : key ∈ Dict.keys stageFields) :
    (completeStage manifest values).field [key] =
      if ((Json.obj values).field [key]).isNull then (manifestValue manifest key).getD .null
      else (Json.obj values).field [key] := by
  obtain ⟨f, hf, rfl⟩ := List.mem_map.mp hkey
  have hcomplete := @get?_completeStage _ manifest values _ hf
  have hobj : completeStage manifest values =
      .obj (fieldsOf (completeStage manifest values)) := rfl
  rw [hobj, field_obj, hcomplete, Option.getD_some, field_obj, completeValue]
  cases hget : Dict.get? values f.1 with
  | none => rfl
  | some value => cases value <;> rfl

theorem field_completeStage_own {key : String} (hkey : key ∈ Dict.keys stageFields)
    (hio : key ≠ "io") (hlist : key ∉ materializedFields) :
    (completeStage manifest values).field [key] = (Json.obj values).field [key] := by
  rw [field_completeStage hkey]
  have hnone : manifestValue manifest key = none := by simp [manifestValue, hio, hlist]
  rw [hnone]
  cases (Json.obj values).field [key] <;> rfl

theorem effectiveIo_completeStage :
    effectiveIo (completeStage manifest values) manifest = effectiveIo (.obj values) manifest := by
  unfold effectiveIo
  rw [field_completeStage (by decide)]
  by_cases hown : ((Json.obj values).field ["io"]).isNull
  · cases hvalue : manifestValue manifest "io" with
    | none => simp [hown]
    | some value =>
        have hio : manifest.io = value := (manifestValue_io hvalue).1
        simp [hown, hio]
  · simp [hown]

theorem requiredHostCapabilities_completeStage :
    requiredHostCapabilities (completeStage manifest values) manifest =
      requiredHostCapabilities (.obj values) manifest := by
  unfold requiredHostCapabilities
  rw [field_completeStage (by decide)]
  by_cases hown : ((Json.obj values).field ["requires_host_capability"]).isNull
  · have hnull : ((Json.obj values).field ["requires_host_capability"]).texts = [] := by
      cases hfield : (Json.obj values).field ["requires_host_capability"] with
      | null => rfl
      | bool | int | float | negZero | str | arr | obj => simp [hfield, Json.isNull] at hown
    rw [if_pos hown, hnull]
    cases hvalue : manifestValue manifest "requires_host_capability" with
    | none => rfl
    | some value =>
        have hlist : manifest.requiresHostCapability = value.texts :=
          congrArg Json.texts (manifestValue_list (by decide) hvalue).1
        rw [Option.getD_some, hlist]
        split <;> simp_all
  · rw [if_neg hown]

/-- A complete stage passes the checks that the stage passes, with the same io contract. -/
theorem validateStage_completeStage {service : RegistryService lib}
    (hmanifest : service.manifest "processor" ((Json.obj values).field ["plugin"]).text =
      .ok manifest) :
    service.validateStage (completeStage manifest values) =
      service.validateStage (.obj values) := by
  have hplugin := @field_completeStage_own _ manifest values "plugin"
    (by decide) (by decide) (by decide)
  have hparams := @field_completeStage_own _ manifest values "params"
    (by decide) (by decide) (by decide)
  have hhost := @field_completeStage_own _ manifest values "host_capabilities"
    (by decide) (by decide) (by decide)
  have hoverrides := @field_completeStage_own _ manifest values "overrides"
    (by decide) (by decide) (by decide)
  unfold validateStage validateHostCapabilities validateOverrides
  simp only [hplugin, hparams, hhost, hoverrides, hmanifest, bind, Except.bind,
    effectiveIo_completeStage, requiredHostCapabilities_completeStage]

end Complete

/-! ## Stages of a service -/

/-- A validated stage whose manifest is registered. -/
structure IsStage (service : RegistryService lib) (stage : Json)
    (manifest : CapabilityManifest lib) (values : List (String × Json)) : Prop where
  obj : stage = .obj values
  registered : service.manifest "processor" (stage.field ["plugin"]).text = .ok manifest
  back : validate lib Schema.pipelineStage (dump Schema.pipelineStage stage) = some stage

namespace IsStage

variable {service : RegistryService lib} {stage : Json} {manifest : CapabilityManifest lib}
  {values : List (String × Json)}

theorem dump_eq (h : IsStage service stage manifest values) :
    dump Schema.pipelineStage stage = .obj (dumpFields stageFields values) := by
  rw [h.obj, pipelineStage_eq, dump]

theorem back' (h : IsStage service stage manifest values) :
    validate lib Schema.pipelineStage (dump Schema.pipelineStage (.obj values)) =
      some (.obj values) := by
  rw [← h.obj]
  exact h.back

/-- The dump keeps the plugin of a stage. -/
theorem field_plugin_dump {values : List (String × Json)}
    (hback : validate lib Schema.pipelineStage (dump Schema.pipelineStage (.obj values)) =
      some (.obj values)) :
    (Json.obj (dumpFields stageFields values)).field ["plugin"] =
      (Json.obj values).field ["plugin"] := by
  have hf : Schema.required "plugin" .str ∈ stageFields := by
    simp [stageFields, Schema.pipelineStage]
  rw [field_obj, field_obj]
  rcases stage_field_cases hback hf with ⟨hget, hdump, -⟩ | ⟨value, hget, -, hdump, -⟩
  · rw [Schema.required_fst] at hget hdump
    rw [hget, hdump]
    rfl
  · rw [Schema.required_fst] at hget hdump
    rw [hget, hdump]
    simp [Schema.required, dump]

/-- The stage that the defaults of its manifest make of a dumped stage. -/
theorem materializeStage_dump (h : IsStage service stage manifest values) :
    service.materializeStage (dump Schema.pipelineStage stage) =
      .ok (.obj (materialized manifest (dumpFields stageFields values))) := by
  have hregistered := h.registered
  rw [h.obj] at hregistered
  rw [h.dump_eq, materializeStage]
  simp only [field_plugin_dump h.back', hregistered]
  rfl

theorem keyed_materialized (h : IsStage service stage manifest values) (hk : stage.keyed) :
    (Json.obj (materialized manifest (dumpFields stageFields values))).keyed := by
  have hdump : (dump Schema.pipelineStage stage).keyed :=
    (@keyed_dump lib _) canonical_pipelineStage hk
  exact keyed_materializeStage hdump h.materializeStage_dump

/-- A complete stage is a stage of the service. -/
theorem complete (h : IsStage service stage manifest values) :
    IsStage service (completeStage manifest values) manifest
      (fieldsOf (completeStage manifest values)) where
  obj := rfl
  registered := by
    rw [field_completeStage_own (by decide) (by decide) (by decide), ← h.obj]
    exact h.registered
  back := by
    have hvalid := @validate_materialized _ manifest _ h.back'
    rw [pipelineStage_eq, validate_model_eq_some_iff] at hvalid
    obtain ⟨given, values', hgiven, hcomplete, -, hvalues⟩ := hvalid
    obtain rfl := Json.obj.inj hgiven
    rw [hcomplete, pipelineStage_eq, dump, validate_model_eq_some_iff]
    refine ⟨_, _, rfl, rfl, fun key => ?_, validated_congr hvalues fun f _ => ?_⟩
    · exact fun hkey => (keys_dumpFields_sublist stageFields values').subset hkey
    · have hget := @get?_dump_completeStage _ manifest _ h.back' f.1
      rw [hcomplete] at hget
      rw [fieldValue, fieldValue, ← hget]
      rfl

/-- The dump of a complete stage is completed to itself. -/
theorem materializeStage_dump_complete (h : IsStage service stage manifest values) :
    service.materializeStage (dump Schema.pipelineStage (completeStage manifest values)) =
      .ok (dump Schema.pipelineStage (completeStage manifest values)) := by
  rw [h.complete.materializeStage_dump, h.complete.dump_eq,
    materialized_dump_completeStage h.back']

/-- The dump of the complete stage has the items of the completed dump. -/
theorem perm_dump_complete (h : IsStage service stage manifest values) (hk : stage.keyed) :
    (materialized manifest (dumpFields stageFields values)).Perm
      (dumpFields stageFields (fieldsOf (completeStage manifest values))) :=
  Dict.perm_of_get? (Json.keyed_obj_iff.mp (h.keyed_materialized hk)).1
    ((keys_dumpFields_sublist stageFields _).nodup nodup_stageFields)
    fun key => (get?_dump_completeStage h.back' key).symm

theorem validateStage_complete (h : IsStage service stage manifest values) :
    service.validateStage (completeStage manifest values) = service.validateStage stage := by
  have hregistered := h.registered
  rw [h.obj] at hregistered ⊢
  exact validateStage_completeStage hregistered

end IsStage

end VoxBench.Registry
