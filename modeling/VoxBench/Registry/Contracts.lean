import VoxBench.Registry.Reproducible

/-!
# The contracts of the resolved stages

A resolved stage shows the io contract that it was accepted with, and the host capabilities
that it needs. Only a stage that lists no capabilities, and says so, is accepted with others:
those of its manifest. The formats of neighbours agree, and those of stages that lie apart when
the stages between them say what they forward.

## Main definitions

* `PinnedStage` — a validated stage beside the resolved one.
* `produced`, `accepted`, `Relays` — the formats of a resolved stage.

## Main results

* `pinned_contracts` — every stage of a resolved config is pinned.
* `formats_agree` — the format that is produced is the one that is accepted.
-/

namespace VoxBench.Registry

open VoxBench.Lib VoxBench.ControlPlane RegistryService

variable {lib : Libraries}

/-- The stage and what a reader of the resolved config sees of it. -/
structure PinnedStage (service : RegistryService lib) (stage resolved : Json)
    (manifest : CapabilityManifest lib) (io : Json) : Prop where
  registered : service.manifest "processor" (stage.field ["plugin"]).text = .ok manifest
  /-- The contract that takes part in the checks of the pipeline. -/
  checked : service.validateStage stage = .ok io
  /-- The resolved stage has this contract, or none. -/
  io_eq : resolved.lookup ["io"] = if io.isNull then none else some (dump Schema.ioContract io)
  /-- It is read back as the same contract. -/
  io_back : ¬ io.isNull → validate lib Schema.ioContract (dump Schema.ioContract io) = some io
  required_eq : ¬ (stage.field ["requires_host_capability"] = .arr [] ∧
      manifest.requiresHostCapability ≠ []) →
    (resolved.field ["requires_host_capability"]).texts = requiredHostCapabilities stage manifest
  available_eq : resolved.field ["host_capabilities"] = stage.field ["host_capabilities"]
  /-- What the resolved stage lists is there. -/
  listed : ∀ c ∈ (resolved.field ["requires_host_capability"]).texts,
    c ∈ (resolved.field ["host_capabilities"]).texts
  /-- What the manifest requires is there, when the stage does not list its own. -/
  required : (stage.field ["requires_host_capability"]).texts = [] →
    ∀ c ∈ manifest.requiresHostCapability, c ∈ (resolved.field ["host_capabilities"]).texts

/-! ## The fields of a resolved stage -/

section Fields

variable {manifest : CapabilityManifest lib} {values : List (String × Json)}

theorem completeValue_io :
    completeValue manifest values "io" = effectiveIo (.obj values) manifest := by
  have hprovided : (manifestValue manifest "io").getD .null = manifest.io := by
    by_cases hnull : manifest.io.isNull
    · have hio : manifest.io = .null := by
        cases hio : manifest.io with
        | null => rfl
        | bool | int | float | negZero | str | arr | obj => simp [hio, Json.isNull] at hnull
      simp [manifestValue, hio, Json.isNull]
    · simp [manifestValue, hnull]
  simp only [effectiveIo, field_obj, completeValue]
  cases Dict.get? values "io" with
  | none => simpa [Json.isNull] using hprovided
  | some value =>
      cases value with
      | null => simpa [Json.isNull] using hprovided
      | bool | int | float | negZero | str | arr | obj => simp [Json.isNull]

theorem completeValue_own {key : String} (hio : key ≠ "io") (hlist : key ∉ materializedFields) :
    completeValue manifest values key = (Json.obj values).field [key] := by
  have hnone : manifestValue manifest key = none := by simp [manifestValue, hio, hlist]
  rw [completeValue, field_obj, hnone]
  cases Dict.get? values key with
  | none => rfl
  | some value => cases value <;> rfl

/-- A field of the completed stage is the dump of the complete value, if there is one. -/
theorem get?_materialized_dump
    (hback : validate lib Schema.pipelineStage (dump Schema.pipelineStage (.obj values)) =
      some (.obj values)) {f : String × Schema × Option Json} (hf : f ∈ stageFields) :
    (Dict.get? (materialized manifest (dumpFields stageFields values)) f.1 =
      if (completeValue manifest values f.1).isNull then none
      else some (dump f.2.1 (completeValue manifest values f.1))) ∧
    (¬ (completeValue manifest values f.1).isNull →
      validate lib f.2.1 (dump f.2.1 (completeValue manifest values f.1)) =
        some (completeValue manifest values f.1)) := by
  have hisNull : ∀ {value : Json}, value ≠ .null → value.isNull = false := by
    intro value hne
    cases value with
    | null => exact absurd rfl hne
    | bool | int | float | negZero | str | arr | obj => rfl
  rw [get?_materialized]
  rcases stage_field_cases hback hf with ⟨hget, hdump, -⟩ | ⟨value, hget, hne, hdump, hvalid⟩
  · rw [hdump, completeValue_of_null hget, Option.none_or]
    cases hvalue : manifestValue manifest f.1 with
    | none => simp [Json.isNull]
    | some value =>
        obtain ⟨hvalid, hne, hwritten⟩ := validate_manifestValue manifest hf hvalue
        simp only [Option.map_some, Option.getD_some, hisNull hne, hwritten]
        exact ⟨rfl, fun _ => hvalid⟩
  · rw [hdump, completeValue_of_ne_null hget hne, Option.some_or, hisNull hne]
    exact ⟨rfl, fun _ => hvalid⟩

/-- A validated list field without elements is null or the empty list. -/
theorem null_or_empty_of_texts {item : Schema} {document value : Json}
    (h : validate lib (.optional (.list item)) document = some value) (hempty : value.texts = []) :
    value = .null ∨ value = .arr [] := by
  by_cases hnull : document = .null
  · subst hnull
    left
    simpa [validate] using h.symm
  · right
    rw [validate_optional hnull] at h
    cases document with
    | arr items =>
        rw [validate] at h
        obtain ⟨results, -, rfl⟩ := Option.map_eq_some_iff.mp h
        simpa [Json.texts, Json.elems] using hempty
    | null | bool | int | float | negZero | str | obj => simp [validate] at h

theorem dump_listOfTexts (value : Json) : dump (.list .str) value = value := by
  cases value with
  | arr items => simp [dump]
  | null | bool | int | float | negZero | str | obj => simp [dump]

theorem dump_texts (value : Json) : dump (.optional (.list .str)) value = value := by
  rw [dump]
  exact dump_listOfTexts value

/-- The complete stage has the capabilities that the checks used, unless its own list is empty. -/
theorem texts_completeValue
    (hback : validate lib Schema.pipelineStage (dump Schema.pipelineStage (.obj values)) =
      some (.obj values))
    (h : ¬ ((Json.obj values).field ["requires_host_capability"] = .arr [] ∧
      manifest.requiresHostCapability ≠ [])) :
    (completeValue manifest values "requires_host_capability").texts =
      requiredHostCapabilities (.obj values) manifest := by
  have hf : Schema.orNone "requires_host_capability" (.list .str) ∈ stageFields := by
    simp [stageFields, Schema.pipelineStage]
  have hprovided : ((manifestValue manifest "requires_host_capability").getD .null).texts =
      manifest.requiresHostCapability := by
    cases hvalue : manifestValue manifest "requires_host_capability" with
    | some value =>
        rw [Option.getD_some, CapabilityManifest.requiresHostCapability,
          (manifestValue_list (by decide) hvalue).1]
    | none =>
        simp only [manifestValue, show "requires_host_capability" ≠ "io" by decide, if_false,
          show "requires_host_capability" ∈ materializedFields by decide, if_true] at hvalue
        rw [CapabilityManifest.requiresHostCapability]
        split at hvalue
        · cases hvalue
        · rename_i hempty
          cases hlist : manifest.document.field ["requires_host_capability"] with
          | arr items =>
              cases items with
              | nil => rfl
              | cons x xs => exact absurd hlist (hempty x xs)
          | null | bool | int | float | negZero | str | obj => rfl
  rcases stage_field_cases hback hf with ⟨hget, -, -⟩ | ⟨value, hget, hne, -, hvalid⟩
  · rw [Schema.orNone_fst] at hget
    rw [completeValue_of_null hget, hprovided, requiredHostCapabilities, field_obj, hget]
    rfl
  · rw [Schema.orNone_fst] at hget
    have hfield : (Json.obj values).field ["requires_host_capability"] = value := by
      rw [field_obj, hget]
      rfl
    rw [hfield] at h
    rw [completeValue_of_ne_null hget hne, requiredHostCapabilities, hfield]
    by_cases hempty : value.texts = []
    · obtain rfl := (null_or_empty_of_texts hvalid hempty).resolve_left hne
      have hnone : manifest.requiresHostCapability = [] := by
        by_contra hsome
        exact h ⟨rfl, hsome⟩
      rw [hempty, hnone]
    · split
      · contradiction
      · rfl

end Fields

/-! ## Resolved stages -/

/-- The checks of a stage that passes. -/
theorem validateStage_eq_ok {service : RegistryService lib} {stage io : Json}
    {manifest : CapabilityManifest lib}
    (hmanifest : service.manifest "processor" (stage.field ["plugin"]).text = .ok manifest)
    (h : service.validateStage stage = .ok io) :
    io = effectiveIo stage manifest ∧ ∀ c ∈ requiredHostCapabilities stage manifest,
      c ∈ (stage.field ["host_capabilities"]).texts := by
  simp only [validateStage, bind_eq_ok] at h
  obtain ⟨found, hfound, _, _, _, hhost, _, _, hio⟩ := h
  obtain rfl := Except.ok.inj (hmanifest.symm.trans hfound)
  refine ⟨(Except.ok.inj hio).symm, fun c hc => ?_⟩
  simp only [validateHostCapabilities] at hhost
  split_ifs at hhost with hmissing
  by_contra habsent
  have hmem : c ∈ (requiredHostCapabilities stage manifest).filter
      (· ∉ (stage.field ["host_capabilities"]).texts) :=
    List.mem_filter.mpr ⟨hc, by simpa using habsent⟩
  rw [hmissing] at hmem
  exact List.not_mem_nil hmem

/-- A field that is dumped as it is. -/
theorem field_materialized {manifest : CapabilityManifest lib} {values : List (String × Json)}
    (hback : validate lib Schema.pipelineStage (dump Schema.pipelineStage (.obj values)) =
      some (.obj values)) {f : String × Schema × Option Json} (hf : f ∈ stageFields)
    (hdump : ∀ value, dump f.2.1 value = value) :
    (Json.obj (materialized manifest (dumpFields stageFields values))).field [f.1] =
      completeValue manifest values f.1 := by
  rw [field_obj, (get?_materialized_dump hback hf).1, hdump]
  cases completeValue manifest values f.1 <;> rfl

theorem IsStage.pinned {service : RegistryService lib} {stage io : Json}
    {manifest : CapabilityManifest lib} {values : List (String × Json)}
    (h : IsStage service stage manifest values) (hio : service.validateStage stage = .ok io) :
    PinnedStage service stage (.obj (materialized manifest (dumpFields stageFields values)))
      manifest io := by
  have hback := h.back'
  have hregistered := h.registered
  rw [h.obj] at hregistered hio ⊢
  obtain ⟨hcontract, hrequired⟩ := validateStage_eq_ok hregistered hio
  obtain ⟨hgetIo, hbackIo⟩ := @get?_materialized_dump _ manifest _ hback
    (Schema.orNone "io" Schema.ioContract) (by simp [stageFields, Schema.pipelineStage])
  have hhost := @field_materialized _ manifest _ hback (Schema.listField "host_capabilities" .str)
    (by simp [stageFields, Schema.pipelineStage]) dump_listOfTexts
  have hlist := @field_materialized _ manifest _ hback
    (Schema.orNone "requires_host_capability" (.list .str))
    (by simp [stageFields, Schema.pipelineStage]) dump_texts
  rw [Schema.orNone_fst, completeValue_io, ← hcontract] at hgetIo hbackIo
  rw [Schema.listField_fst] at hhost
  rw [Schema.orNone_fst] at hlist
  have havailable := hhost.trans (@completeValue_own _ manifest values "host_capabilities"
    (by decide) (by decide))
  exact {
    registered := hregistered
    checked := hio
    io_eq := by
      rw [Json.lookup_cons, Json.get?_obj, hgetIo]
      cases io <;> simp [Json.isNull, Schema.orNone, dump]
    io_back := fun hnull => by
      have hread := hbackIo hnull
      simp only [Schema.orNone, dump] at hread
      rwa [validate_optional] at hread
      intro hdumped
      rw [dump_eq_null_iff] at hdumped
      exact hnull (by rw [hdumped, Json.isNull_null])
    required_eq := fun hempty => by rw [hlist, texts_completeValue hback hempty]
    available_eq := havailable
    listed := by
      intro c hc
      rw [havailable]
      by_cases hempty : (Json.obj values).field ["requires_host_capability"] = .arr [] ∧
          manifest.requiresHostCapability ≠ []
      · have hget : Dict.get? values "requires_host_capability" = some (.arr []) := by
          have hfield := hempty.1
          rw [field_obj] at hfield
          cases hget : Dict.get? values "requires_host_capability" with
          | none => simp [hget] at hfield
          | some value => simpa [hget] using hfield
        rw [hlist, completeValue_of_ne_null hget (by simp)] at hc
        simp [Json.texts, Json.elems] at hc
      · rw [hlist, texts_completeValue hback hempty] at hc
        exact hrequired c hc
    required := by
      intro hempty c hc
      rw [havailable]
      apply hrequired c
      rw [requiredHostCapabilities, hempty]
      exact hc }

section Resolved

variable {service : RegistryService lib} {name : String} {result : ResolvedConfig}

/-- The stages of a resolved config are the completed dumps of the validated stages. -/
theorem materialized_stages {document config resolved : Json}
    (hvalid : validate lib Schema.voiceConfig document = some config)
    (hmat : service.materializeManifestDefaults (dump Schema.voiceConfig config) = .ok resolved) :
    List.Forall₂ (fun stage a =>
        service.materializeStage (dump Schema.pipelineStage stage) = .ok a)
      (pipelineOf config) (pipelineOf resolved) := by
  obtain ⟨-, stages, -, hstages, -⟩ := lookup_pipeline hvalid
  have hdumped := lookup_dump_pipeline lib hstages
  obtain ⟨completed, hcompleted, rfl⟩ := (materializeManifestDefaults_eq_ok_iff hdumped).mp hmat
  rw [List.forall₂_map_left_iff] at hcompleted
  rw [pipelineOf_eq hstages, pipelineOf_eq (lookup_setPath_self (by rw [hdumped]; rfl))]
  exact hcompleted

/-- The stages of a config that passes the checks are pinned in what it resolves to. -/
theorem forall₂_pinned {raw : JsonObject} {config resolved : Json}
    (hvalid : validate lib Schema.voiceConfig raw.json = some config)
    (hcross : service.validateCrossFields config = .ok ())
    (hmat : service.materializeManifestDefaults (dump Schema.voiceConfig config) = .ok resolved) :
    List.Forall₂ (fun stage resolved => ∃ manifest io,
        PinnedStage service stage resolved manifest io)
      (pipelineOf config) (pipelineOf resolved) := by
  obtain ⟨-, stages, -, hstages, -⟩ := lookup_pipeline hvalid
  have hall := isStage_of_validated raw.keyed hvalid hcross hstages
  have hchecked := validateStage_of_crossFields hcross
  have hmaterialized := materialized_stages hvalid hmat
  rw [pipelineOf_eq hstages] at hmaterialized hchecked ⊢
  have hstage : List.Forall₂ (fun stage resolved => stage ∈ stages ∧
      service.materializeStage (dump Schema.pipelineStage stage) = .ok resolved)
      stages (pipelineOf resolved) :=
    List.forall₂_and_left _ _ |>.mpr ⟨fun _ hmem => hmem, hmaterialized⟩
  refine hstage.imp fun stage resolved hboth => ?_
  obtain ⟨hmem, hresolved⟩ := hboth
  obtain ⟨-, manifest, values, his⟩ := hall stage hmem
  obtain ⟨io, hio⟩ := hchecked stage hmem
  obtain rfl := Except.ok.inj (his.materializeStage_dump.symm.trans hresolved)
  exact ⟨manifest, io, his.pinned hio⟩

/-- **Pinned contracts.** Every stage of a resolved config shows the io contract that it was
accepted with and, unless it lists none although its manifest lists some, the host capabilities
that it was accepted with. What it lists is among its capabilities, and so is what its manifest
requires when it has no list of its own. -/
theorem pinned_contracts (h : service.resolveConfig name = .ok result) :
    ∃ raw config, service.resolveRaw name [] = .ok raw ∧
      validate lib Schema.voiceConfig raw.json = some config ∧
      List.Forall₂ (fun stage resolved => ∃ manifest io,
          PinnedStage service stage resolved manifest io)
        (pipelineOf config) (pipelineOf result.resolved.json) := by
  obtain ⟨raw, config, hraw, hvalid, hcross, hmat, -⟩ := resolveConfig_spec h
  exact ⟨raw, config, hraw, hvalid, forall₂_pinned hvalid hcross hmat⟩

end Resolved

/-! ## Formats along a pipeline -/

/-- What a resolved stage produces under a key of its format. -/
def produced (stage : Json) (key : String) : Option Json := stage.lookup ["io", "produces", key]

/-- What a resolved stage accepts under a key of its format. -/
def accepted (stage : Json) (key : String) : Option Json := stage.lookup ["io", "accepts", key]

/-- What the left stage produces is what the right stage accepts, where both say. -/
def Agree (key : String) (left right : Json) : Prop :=
  ∀ x y, produced left key = some x → accepted right key = some y → Json.pyEq x y

/-- The stage says what it forwards under the key: what it accepts. -/
def Relays (stage : Json) (key : String) : Prop :=
  ∃ x y, accepted stage key = some x ∧ produced stage key = some y ∧ Json.pyEq x y

theorem validateAdjacent_eq_ok_iff {ios : List Json} {index : ℕ} :
    validateAdjacent index ios = .ok () ↔
      ios.IsChain fun left right => ioMismatches left right = [] := by
  induction ios generalizing index with
  | nil => simp [validateAdjacent]
  | cons left ios ih =>
      cases ios with
      | nil => simp [validateAdjacent]
      | cons right rest =>
          rw [validateAdjacent, List.isChain_cons_cons, ← @ih (index + 1)]
          cases ioMismatches left right with
          | nil => simp
          | cons mismatch mismatches => simp

/-- Contracts without a mismatch agree. -/
theorem pyEq_of_ioMismatches {left right x y : Json} {key : String}
    (h : ioMismatches left right = []) (hx : left.lookup ["produces", key] = some x)
    (hy : right.lookup ["accepts", key] = some y) : Json.pyEq x y := by
  obtain ⟨fields, produces, rfl, hproduces, hlookup⟩ := exists_obj_of_lookup hx
  obtain ⟨items, value, rfl, hvalue, hself⟩ := exists_obj_of_lookup hlookup
  obtain rfl : value = x := by simpa using hself
  have hright : right.isNull = false := by
    obtain ⟨_, _, rfl, -, -⟩ := exists_obj_of_lookup hy
    rfl
  have hitems : (Json.obj fields).field ["produces"] = .obj items := by
    rw [field_obj, hproduces]
    rfl
  have hleft : (Json.obj fields).isNull = false := rfl
  simp only [ioMismatches, hleft, hright, hitems, Bool.false_eq_true, or_self, if_false,
    List.filterMap_eq_nil_iff] at h
  have hpair := h (key, value) (Dict.mem_of_get?_eq_some hvalue)
  simp only [hy] at hpair
  by_contra hne
  simp [hne] at hpair

/-- A field of a model that is dumped as it is keeps what is below it. -/
theorem lookup_dump_below {fields : List (String × Schema × Option Json)}
    {values : List (String × Json)} (hd : (Dict.keys fields).Nodup)
    {f : String × Schema × Option Json} (hf : f ∈ fields) (hdump : ∀ value, dump f.2.1 value = value)
    (key : String) :
    (dump (.model fields) (.obj values)).lookup [f.1, key] =
      (Json.obj values).lookup [f.1, key] := by
  rw [dump, Json.lookup_cons, Json.lookup_cons, Json.get?_obj, Json.get?_obj,
    get?_dumpFields hd values hf]
  simp only [hdump]
  cases Dict.get? values f.1 with
  | none => rfl
  | some value =>
      cases value with
      | null => simp [Json.lookup_cons, Json.get?]
      | bool | int | float | negZero | str | arr | obj => rfl

/-- A resolved stage shows the formats of its contract. -/
theorem PinnedStage.formats {service : RegistryService lib} {stage resolved io : Json}
    {manifest : CapabilityManifest lib} (h : PinnedStage service stage resolved manifest io)
    (key : String) :
    produced resolved key = io.lookup ["produces", key] ∧
      accepted resolved key = io.lookup ["accepts", key] := by
  by_cases hnull : io.isNull
  · have hio : io = .null := by
      cases io with
      | null => rfl
      | bool | int | float | negZero | str | arr | obj => simp [Json.isNull] at hnull
    have hmissing := h.io_eq
    rw [if_pos hnull] at hmissing
    subst hio
    have hnone : ∀ path, resolved.lookup ("io" :: path) = none := by
      intro path
      rw [← List.singleton_append, Json.lookup_append, hmissing, Option.bind_none]
    rw [produced, accepted, hnone, hnone]
    exact ⟨rfl, rfl⟩
  · have hshown := h.io_eq
    rw [if_neg hnull] at hshown
    obtain ⟨given, values, -, rfl, -⟩ := validate_model_eq_some_iff.mp (h.io_back hnull)
    have hbelow : ∀ path, resolved.lookup ("io" :: path) =
        (dump Schema.ioContract (.obj values)).lookup path := by
      intro path
      rw [← List.singleton_append, Json.lookup_append, hshown, Option.bind_some]
    rw [produced, accepted, hbelow, hbelow]
    have hobject : ∀ value, dump .object value = value := by simp [dump]
    constructor
    · exact @lookup_dump_below _ values (by decide) (Schema.orNone "produces" .object)
        (by simp) (by simp [Schema.orNone, dump]) key
    · exact @lookup_dump_below _ values (by decide) (Schema.dictField "accepts")
        (by simp) (by simp [Schema.dictField, Schema.withDefault, dump]) key

section Formats

variable {service : RegistryService lib} {name : String} {result : ResolvedConfig}

/-- The next stage accepts what a stage produces. -/
theorem isChain_agree (h : service.resolveConfig name = .ok result) (key : String) :
    (pipelineOf result.resolved.json).IsChain (Agree key) := by
  obtain ⟨raw, config, -, hvalid, hcross, hmat, -⟩ := resolveConfig_spec h
  have hpinned := forall₂_pinned hvalid hcross hmat
  simp only [validateCrossFields, validatePipeline, bind_eq_ok] at hcross
  obtain ⟨-, -, -, -, -, -, -, -, -, -, ios, hios, hadjacent⟩ := hcross
  rw [mapM_eq_ok_iff] at hios
  rw [validateAdjacent_eq_ok_iff, List.isChain_iff_getElem] at hadjacent
  rw [List.isChain_iff_getElem]
  have hformats : ∀ i (hi : i < (pipelineOf result.resolved.json).length)
      (hi' : i < ios.length), ∀ key,
      produced (pipelineOf result.resolved.json)[i] key = ios[i].lookup ["produces", key] ∧
        accepted (pipelineOf result.resolved.json)[i] key = ios[i].lookup ["accepts", key] := by
    intro i hi hi' key
    have hconfig : i < (pipelineOf config).length := by
      rw [hpinned.length_eq]
      exact hi
    obtain ⟨manifest, io, hstage⟩ := hpinned.get hconfig hi
    have hio := hios.get hconfig hi'
    obtain rfl := Except.ok.inj (hstage.checked.symm.trans hio)
    exact hstage.formats key
  intro i hi x y hx hy
  have hlength : ios.length = (pipelineOf result.resolved.json).length :=
    hios.length_eq.symm.trans hpinned.length_eq
  have hi' : i + 1 < ios.length := by omega
  rw [(hformats i (by omega) (by omega) key).1] at hx
  rw [(hformats (i + 1) hi hi' key).2] at hy
  exact pyEq_of_ioMismatches (hadjacent i hi') hx hy

/-- **No format mismatch between neighbours, nor past stages that say what they forward.** -/
theorem formats_agree (h : service.resolveConfig name = .ok result) {key : String} {i j : ℕ}
    (hij : i < j) {left right x y : Json}
    (hleft : (pipelineOf result.resolved.json)[i]? = some left)
    (hright : (pipelineOf result.resolved.json)[j]? = some right)
    (hrelays : ∀ k stage, i < k → k < j → (pipelineOf result.resolved.json)[k]? = some stage →
      Relays stage key)
    (hx : produced left key = some x) (hy : accepted right key = some y) : Json.pyEq x y := by
  have hchain := isChain_agree h key
  rw [List.isChain_iff_getElem] at hchain
  induction j, hij using Nat.le_induction generalizing right y with
  | base =>
      obtain ⟨hi, rfl⟩ := List.getElem?_eq_some_iff.mp hleft
      obtain ⟨hj, rfl⟩ := List.getElem?_eq_some_iff.mp hright
      exact hchain i hj x y hx hy
  | succ j hij ih =>
      obtain ⟨hj, rfl⟩ := List.getElem?_eq_some_iff.mp hright
      have hlast : (pipelineOf result.resolved.json)[j]? =
          some (pipelineOf result.resolved.json)[j] := List.getElem?_eq_getElem _
      -- the stage before the right one forwards the value that it accepts
      obtain ⟨a, b, ha, hb, hab⟩ := hrelays j _ hij (by omega) hlast
      have hxa := ih hlast (fun k stage hik hkj => hrelays k stage hik (by omega)) ha
      exact Json.pyEq_trans hxa (Json.pyEq_trans hab (hchain j hj b y hb hy))

end Formats

/-! ## Pipelines of one config -/

/-- A config with this pipeline. -/
def pipelineConfig (stages : List Json) (h : (Json.arr stages).keyed) : JsonObject where
  fields := [
    ("apiVersion", .str "voxbench/v1"),
    ("kind", .str "VoiceConfig"),
    ("meta", .obj [("name", .str "voice"), ("version", .str "1.0.0")]),
    ("spec", .obj [
      ("engine", .obj [("kind", .str "loopback")]),
      ("transport", .obj [("codec", .str "pcmu"), ("ptime_ms", .int 20)]),
      ("media", .obj [("pipeline", .arr stages)]),
      ("turn_taking", .obj [("owner", .str "server_vad")]),
      ("ai", .obj [("provider", .str "realtime"), ("model", .str "m")])])]
  keyed := by
    rw [Json.keyed] at h
    simp [Json.keyed, Json.keyedFields, h]

/-- A processor that needs a host that paces. -/
def pacerManifest : JsonObject :=
  ⟨[("kind", .str "processor"), ("name", .str "pacer"), ("version", .str "1.0.0"),
    ("requires_host_capability", .arr [.str "cadence_pacing"])], by decide +kernel⟩

/-- A registry with this config. -/
def pipelineRegistry (config : JsonObject) :
    Except RegistryError (RegistryService plainLibraries) := do
  let service : RegistryService plainLibraries :=
    { manifests := [], configs := [], named := named_nil }
  let service ← (pacerManifest :: rawManifests).foldlM
    (fun s raw => return (← s.registerManifest raw).2) service
  service.registerConfig config

/-- A pacer that is told to need an output buffer instead, on a host that has one. -/
def bufferedPacer : JsonObject :=
  pipelineConfig [.obj [("type", .str "pace"), ("plugin", .str "pacer"),
    ("requires_host_capability", .arr [.str "output_buffering"]),
    ("host_capabilities", .arr [.str "output_buffering"])]] (by decide +kernel)

theorem pinned_contracts_bufferedPacer :
    ∃ service result, pipelineRegistry bufferedPacer = .ok service ∧
      service.resolveConfig "voice" = .ok result ∧
      ∃ raw config, service.resolveRaw "voice" [] = .ok raw ∧
        validate plainLibraries Schema.voiceConfig raw.json = some config ∧
        List.Forall₂ (fun stage resolved => ∃ manifest io,
            PinnedStage service stage resolved manifest io)
          (pipelineOf config) (pipelineOf result.resolved.json) := by
  have hrun : (do
      let service ← pipelineRegistry bufferedPacer
      let _ ← service.resolveConfig "voice"
      pure ()).toOption = some () := by
    decide +kernel
  have hrun := eq_ok_of_toOption hrun
  simp only [bind_eq_ok] at hrun
  obtain ⟨service, hservice, result, hresult, -⟩ := hrun
  exact ⟨service, result, hservice, hresult, pinned_contracts hresult⟩

/-- A list of the stage's own replaces the manifest's: the pacer is accepted without a host that
paces. -/
theorem own_list_replaces :
    ∃ service result stage manifest, pipelineRegistry bufferedPacer = .ok service ∧
      service.resolveConfig "voice" = .ok result ∧
      stage ∈ pipelineOf result.resolved.json ∧
      service.manifest "processor" (stage.field ["plugin"]).text = .ok manifest ∧
      "cadence_pacing" ∈ manifest.requiresHostCapability ∧
      "cadence_pacing" ∉ (stage.field ["host_capabilities"]).texts := by
  have hrun : (do
      let service ← pipelineRegistry bufferedPacer
      let result ← service.resolveConfig "voice"
      let manifest ← service.manifest "processor" "pacer"
      pure ((pipelineOf result.resolved.json).map fun (stage : Json) =>
        ((stage.field ["plugin"]).text, (stage.field ["host_capabilities"]).texts,
          manifest.requiresHostCapability))).toOption =
      some [("pacer", ["output_buffering"], ["cadence_pacing"])] := by
    decide +kernel
  have hrun := eq_ok_of_toOption hrun
  simp only [bind_eq_ok] at hrun
  obtain ⟨service, hservice, result, hresult, manifest, hmanifest, hstages⟩ := hrun
  obtain ⟨stage, rest, hpipeline, hstage, -⟩ := List.map_eq_cons_iff.mp (Except.ok.inj hstages)
  simp only [Prod.mk.injEq] at hstage
  obtain ⟨hplugin, hhost, hrequired⟩ := hstage
  refine ⟨service, result, stage, manifest, hservice, hresult, ?_, ?_, ?_, ?_⟩
  · rw [hpipeline]
    exact List.mem_cons_self
  · rwa [hplugin]
  · rw [hrequired]
    exact List.mem_singleton_self _
  · rw [hhost]
    decide

/-- A resampler with this io contract. -/
def resamplerStage (io : List (String × Json)) : Json :=
  .obj [("type", .str "resample"), ("plugin", .str "resampler"), ("io", .obj io)]

/-- A producer of 24 kHz, a stage that says nothing, and a consumer of 16 kHz. -/
def silentPipeline : JsonObject :=
  pipelineConfig [
    resamplerStage [("mode", .str "rate_changing"), ("produces", .obj [("rate", .int 24000)])],
    resamplerStage [("mode", .str "passthrough")],
    resamplerStage [("mode", .str "passthrough"), ("accepts", .obj [("rate", .int 16000)])]]
    (by decide +kernel)

/-- The format of a stage: its mode, whether it says what it produces, and the rates. -/
def formatOf (stage : Json) : String × Bool × Option ℚ × Option ℚ :=
  ((stage.field ["io", "mode"]).text, (stage.lookup ["io", "produces"]).isNone,
    (produced stage "rate").bind Json.number?, (accepted stage "rate").bind Json.number?)

/-- A passthrough stage that does not say what it forwards hides a mismatch. -/
theorem mismatch_past_passthrough :
    ∃ service result left middle right x y,
      pipelineRegistry silentPipeline = .ok service ∧
      service.resolveConfig "voice" = .ok result ∧
      pipelineOf result.resolved.json = [left, middle, right] ∧
      (middle.field ["io", "mode"]).text = "passthrough" ∧
      middle.lookup ["io", "produces"] = none ∧
      produced left "rate" = some x ∧ accepted right "rate" = some y ∧ ¬ Json.pyEq x y := by
  have hrun : (do
      let service ← pipelineRegistry silentPipeline
      let result ← service.resolveConfig "voice"
      pure ((pipelineOf result.resolved.json).map formatOf)).toOption =
      some [("rate_changing", false, some 24000, none), ("passthrough", true, none, none),
        ("passthrough", true, none, some 16000)] := by
    decide +kernel
  have hrun := eq_ok_of_toOption hrun
  simp only [bind_eq_ok] at hrun
  obtain ⟨service, hservice, result, hresult, hstages⟩ := hrun
  obtain ⟨left, rest, hpipeline, hleft, hrest⟩ := List.map_eq_cons_iff.mp (Except.ok.inj hstages)
  obtain ⟨middle, rest, rfl, hmiddle, hrest⟩ := List.map_eq_cons_iff.mp hrest
  obtain ⟨right, rest, rfl, hright, hrest⟩ := List.map_eq_cons_iff.mp hrest
  obtain rfl := List.map_eq_nil_iff.mp hrest
  simp only [formatOf, Prod.mk.injEq, Option.isNone_iff_eq_none, Option.bind_eq_some_iff]
    at hleft hmiddle hright
  obtain ⟨-, -, ⟨x, hx, hxrate⟩, -⟩ := hleft
  obtain ⟨hmode, hsilent, -, -⟩ := hmiddle
  obtain ⟨-, -, -, y, hy, hyrate⟩ := hright
  refine ⟨service, result, left, middle, right, x, y, hservice, hresult, hpipeline, hmode, hsilent,
    hx, hy, fun heq => ?_⟩
  rw [Json.pyEq_number_iff hxrate, hyrate] at heq
  norm_num at heq

/-- A middle stage that says what it forwards: here the rates agree. -/
def sayingPipeline : JsonObject :=
  pipelineConfig [
    resamplerStage [("mode", .str "rate_changing"), ("produces", .obj [("rate", .int 16000)])],
    resamplerStage [("mode", .str "passthrough"), ("accepts", .obj [("rate", .int 16000)]),
      ("produces", .obj [("rate", .int 16000)])],
    resamplerStage [("mode", .str "passthrough"), ("accepts", .obj [("rate", .int 16000)])]]
    (by decide +kernel)

theorem formats_agree_sayingPipeline :
    ∃ service result left middle right x y, pipelineRegistry sayingPipeline = .ok service ∧
      service.resolveConfig "voice" = .ok result ∧
      pipelineOf result.resolved.json = [left, middle, right] ∧
      produced left "rate" = some x ∧ accepted right "rate" = some y ∧ Json.pyEq x y := by
  have hrun : (do
      let service ← pipelineRegistry sayingPipeline
      let result ← service.resolveConfig "voice"
      pure ((pipelineOf result.resolved.json).map formatOf)).toOption =
      some [("rate_changing", false, some 16000, none),
        ("passthrough", false, some 16000, some 16000),
        ("passthrough", true, none, some 16000)] := by
    decide +kernel
  have hrun := eq_ok_of_toOption hrun
  simp only [bind_eq_ok] at hrun
  obtain ⟨service, hservice, result, hresult, hstages⟩ := hrun
  obtain ⟨left, rest, hpipeline, hleft, hrest⟩ := List.map_eq_cons_iff.mp (Except.ok.inj hstages)
  obtain ⟨middle, rest, rfl, hmiddle, hrest⟩ := List.map_eq_cons_iff.mp hrest
  obtain ⟨right, rest, rfl, hright, hrest⟩ := List.map_eq_cons_iff.mp hrest
  obtain rfl := List.map_eq_nil_iff.mp hrest
  simp only [formatOf, Prod.mk.injEq, Option.bind_eq_some_iff] at hleft hmiddle hright
  obtain ⟨-, -, ⟨x, hx, -⟩, -⟩ := hleft
  obtain ⟨-, -, ⟨b, hb, hbrate⟩, a, ha, harate⟩ := hmiddle
  obtain ⟨-, -, -, y, hy, -⟩ := hright
  refine ⟨service, result, left, middle, right, x, y, hservice, hresult, hpipeline, hx, hy, ?_⟩
  refine formats_agree (i := 0) (j := 2) hresult (by decide) (by rw [hpipeline]; rfl)
    (by rw [hpipeline]; rfl) (fun k stage hk hk' hstage => ?_) hx hy
  obtain rfl : k = 1 := by omega
  rw [hpipeline] at hstage
  obtain rfl := Option.some.inj hstage
  exact ⟨a, b, ha, hb, (Json.pyEq_number_iff harate).mpr hbrate⟩

end VoxBench.Registry
