import VoxBench.Registry.Service
import VoxBench.Registry.Paths
import VoxBench.Registry.Hashing

/-!
# Resolving a config

A resolved config is the merged document, validated against its contract, checked against the
manifests it refers to, dumped without its null fields, and completed with the defaults of the
manifests of its stages.

## Main definitions

* `validateCrossFields` — the checks against the manifests.
* `materializeStage`, `materializeManifestDefaults` — the defaults of the manifests.
* `resolveConfig` — the pipeline as a whole.
-/

namespace VoxBench.Registry

open VoxBench.Lib VoxBench.ControlPlane

variable {lib : Libraries}

namespace CapabilityManifest

def name (manifest : CapabilityManifest lib) : String := (manifest.document.field ["name"]).text

/-- `io`, null when the manifest declares none. -/
def io (manifest : CapabilityManifest lib) : Json := manifest.document.field ["io"]

def requiresHostCapability (manifest : CapabilityManifest lib) : List String :=
  (manifest.document.field ["requires_host_capability"]).texts

/-- The types of the override targets; a target that is listed twice has its last type. -/
def allowedOverrides (manifest : CapabilityManifest lib) : List (String × String) :=
  (manifest.document.field ["allowed_overrides"]).elems.foldl
    (fun allowed override =>
      Dict.set allowed (override.field ["target"]).text (override.field ["type"]).text) []

end CapabilityManifest

/-- `_matches_override_type`. -/
def matchesOverrideType (value : Json) (expected : String) : Bool :=
  if expected = "string" then
    match value with | .str _ => true | _ => false
  else if expected = "integer" then
    match value with | .int _ => true | _ => false
  else if expected = "number" ∨ expected = "float" then
    match value with | .int _ | .float _ | .negZero => true | _ => false
  else if expected = "boolean" then
    match value with | .bool _ => true | _ => false
  else if expected = "object" then
    match value with | .obj _ => true | _ => false
  else if expected = "array" then
    match value with | .arr _ => true | _ => false
  else false

/-- `_validate_params`. -/
def validateParams (label : String) (manifest : CapabilityManifest lib) (params : Json) :
    Except RegistryError Unit :=
  match lib.validateParams (manifest.document.field ["param_schema"]) params with
  | some reason => .error (.invalidParams label reason)
  | none => .ok ()

/-- `_validate_provider_caps`. -/
def validateProviderCaps (config : Json) (provider : CapabilityManifest lib) :
    Except RegistryError Unit :=
  let caps := provider.document.field ["provider_caps"]
  let owner := (config.field ["spec", "turn_taking", "owner"]).text
  let detector := config.field ["spec", "turn_taking", "detector"]
  let codec := (config.field ["spec", "transport", "codec"]).text
  let supported := (caps.field ["supported_codecs"]).texts
  if caps.isNull then .error (.noProviderCaps provider.name)
  else if owner ∉ (caps.field ["turn_taking_owners"]).texts then
    .error (.unsupportedOwner owner provider.name)
  else if owner = "server_vad" ∧ ¬ detector.isNull then .error .detectorTwice
  else if supported ≠ [] ∧ codec ∉ supported then
    .error (.unsupportedCodec codec provider.name)
  else .ok ()

/-- The host capabilities a stage must have: its own list, else the manifest's. -/
def requiredHostCapabilities (stage : Json) (manifest : CapabilityManifest lib) : List String :=
  match (stage.field ["requires_host_capability"]).texts with
  | [] => manifest.requiresHostCapability
  | required => required

/-- `_validate_host_capabilities`. -/
def validateHostCapabilities (stage : Json) (manifest : CapabilityManifest lib) :
    Except RegistryError Unit :=
  let available := (stage.field ["host_capabilities"]).texts
  let missing := (requiredHostCapabilities stage manifest).filter (· ∉ available)
  if missing = [] then .ok ()
  else .error (.missingHostCapabilities (stage.field ["plugin"]).text
    (missing.dedup.insertionSort (· ≤ ·)))

/-- One override of a stage against the allowed ones. -/
def validateOverride (plugin : String) (allowed : List (String × String)) (override : Json) :
    Except RegistryError Unit :=
  let target := (override.field ["target"]).text
  match Dict.get? allowed target with
  | none => .error (.overrideTarget plugin target)
  | some expected =>
      if matchesOverrideType (override.field ["value"]) expected then .ok ()
      else .error (.overrideType plugin target)

/-- `_validate_overrides`. -/
def validateOverrides (stage : Json) (manifest : CapabilityManifest lib) :
    Except RegistryError Unit := do
  let _ ← (stage.field ["overrides"]).elems.mapM
    (validateOverride (stage.field ["plugin"]).text manifest.allowedOverrides)
  return ()

/-- `stage.io or manifest.io`. -/
def effectiveIo (stage : Json) (manifest : CapabilityManifest lib) : Json :=
  if (stage.field ["io"]).isNull then manifest.io else stage.field ["io"]

/-- The keys that one stage produces and the next accepts with another value. -/
def ioMismatches (left right : Json) : List (String × Json × Json) :=
  if left.isNull ∨ right.isNull then []
  else
    match left.field ["produces"] with
    | .obj produces =>
        produces.filterMap fun f =>
          match right.lookup ["accepts", f.1] with
          | some value => if Json.pyEq f.2 value then none else some (f.1, f.2, value)
          | none => none
    | _ => []

/-- The loop over adjacent contracts. -/
def validateAdjacent (index : ℕ) : List Json → Except RegistryError Unit
  | left :: right :: rest =>
      match ioMismatches left right with
      | [] => validateAdjacent (index + 1) (right :: rest)
      | mismatches => .error (.ioMismatch index mismatches)
  | _ => .ok ()

namespace RegistryService

/-- `_manifest`. -/
def manifest (service : RegistryService lib) (kind name : String) :
    Except RegistryError (CapabilityManifest lib) :=
  match Dict.get? service.manifests (kind, name) with
  | some found => .ok found
  | none => .error (.manifestNotFound kind name)

/-- The checks of one stage, with the io contract that it takes part with. -/
def validateStage (service : RegistryService lib) (stage : Json) :
    Except RegistryError Json := do
  let plugin := (stage.field ["plugin"]).text
  let processor ← service.manifest "processor" plugin
  validateParams s!"processor '{plugin}'" processor (stage.field ["params"])
  validateHostCapabilities stage processor
  validateOverrides stage processor
  return effectiveIo stage processor

/-- `_validate_pipeline`. -/
def validatePipeline (service : RegistryService lib) (stages : List Json) :
    Except RegistryError Unit := do
  let ios ← stages.mapM service.validateStage
  validateAdjacent 0 ios

/-- The stages of a config. -/
def pipelineOf (config : Json) : List Json := (config.field ["spec", "media", "pipeline"]).elems

/-- `_validate_cross_fields`. -/
def validateCrossFields (service : RegistryService lib) (config : Json) :
    Except RegistryError Unit := do
  let engine ← service.manifest "engine" (config.field ["spec", "engine", "kind"]).text
  validateParams "engine" engine (config.field ["spec", "engine", "params"])
  let provider ← service.manifest "provider" (config.field ["spec", "ai", "provider"]).text
  validateParams "provider" provider (config.field ["spec", "ai", "params"])
  validateProviderCaps config provider
  service.validatePipeline (pipelineOf config)

/-- The list fields that a stage takes from its manifest. -/
def materializedFields : List String :=
  ["invariants_enforced", "invariants_applicable", "lossy_expected", "requires_host_capability"]

/-- A list of the manifest under a key that the stage does not have. -/
def materializeField (manifest : CapabilityManifest lib) (stage : List (String × Json))
    (name : String) : List (String × Json) :=
  match Dict.get? stage name, manifest.document.field [name] with
  | none, .arr (x :: xs) => Dict.set stage name (.arr (x :: xs))
  | _, _ => stage

/-- The io contract of the manifest, when the stage has none. -/
def materializeIo (manifest : CapabilityManifest lib) (stage : List (String × Json)) :
    List (String × Json) :=
  if (Dict.get? stage "io").isSome ∨ manifest.io.isNull then stage
  else Dict.set stage "io" (dump Schema.ioContract manifest.io)

/-- The defaults of a stage's manifest. -/
def materializeStage (service : RegistryService lib) (stage : Json) :
    Except RegistryError Json :=
  match stage with
  | .obj fields =>
      match service.manifest "processor" (stage.field ["plugin"]).text with
      | .error e => .error e
      | .ok processor =>
          .ok (.obj (materializedFields.foldl (materializeField processor)
            (materializeIo processor fields)))
  | stage => .ok stage

/-- `_materialize_manifest_defaults`. -/
def materializeManifestDefaults (service : RegistryService lib) (resolved : Json) :
    Except RegistryError Json := do
  let stages ← (pipelineOf resolved).mapM service.materializeStage
  return setPath (.arr stages) ["spec", "media", "pipeline"] resolved

/-! ## Documents stay objects with different keys -/

theorem keyed_document (manifest : CapabilityManifest lib) : manifest.document.keyed := by
  obtain ⟨raw, hvalid⟩ := manifest.valid
  exact keyed_validate canonical_capabilityManifest raw.keyed hvalid

theorem keyed_field {document : Json} (h : document.keyed) (path : List String) :
    (document.field path).keyed := by
  rw [Json.field]
  cases hget : document.lookup path with
  | none => rfl
  | some value => exact Json.keyed_of_lookup h hget

theorem keyed_set {fields : List (String × Json)} (h : (Json.obj fields).keyed) (key : String)
    {value : Json} (hv : value.keyed) : (Json.obj (Dict.set fields key value)).keyed := by
  rw [Json.keyed_obj_iff] at h ⊢
  refine ⟨Dict.nodup_keys_set h.1 _ _, fun f hf => ?_⟩
  rcases Dict.mem_set hf with rfl | hf
  · exact hv
  · exact h.2 f hf

theorem keyed_materializeIo (manifest : CapabilityManifest lib) {stage : List (String × Json)}
    (h : (Json.obj stage).keyed) : (Json.obj (materializeIo manifest stage)).keyed := by
  unfold materializeIo
  split
  · exact h
  · exact keyed_set h _ ((@keyed_dump lib _) canonical_ioContract
      (keyed_field (keyed_document manifest) _))

theorem keyed_materializeField (manifest : CapabilityManifest lib) {stage : List (String × Json)}
    (h : (Json.obj stage).keyed) (name : String) :
    (Json.obj (materializeField manifest stage name)).keyed := by
  unfold materializeField
  split
  · rename_i x xs _ hlist
    exact keyed_set h _ (hlist ▸ keyed_field (keyed_document manifest) [name])
  · exact h

theorem keyed_materializeFields (manifest : CapabilityManifest lib) {stage : List (String × Json)}
    (h : (Json.obj stage).keyed) (names : List String) :
    (Json.obj (names.foldl (materializeField manifest) stage)).keyed := by
  induction names generalizing stage with
  | nil => exact h
  | cons name names ih => exact ih (keyed_materializeField manifest h name)

theorem keyed_materializeStage {service : RegistryService lib} {stage stage' : Json}
    (h : stage.keyed) (hstage : service.materializeStage stage = .ok stage') : stage'.keyed := by
  cases stage with
  | obj fields =>
      rw [materializeStage] at hstage
      split at hstage
      · cases hstage
      · rename_i processor _
        obtain rfl := Except.ok.inj hstage
        exact keyed_materializeFields processor (keyed_materializeIo processor h) _
  | null | bool | int | float | negZero | str | arr =>
      obtain rfl := Except.ok.inj hstage
      exact h

/-- The items of an object. -/
def fieldsOf : Json → List (String × Json)
  | .obj fields => fields
  | _ => []

/-- The completed document is an object with different keys. -/
theorem keyed_materializeManifestDefaults {service : RegistryService lib} {raw : JsonObject}
    {config resolved : Json} (hvalid : validate lib Schema.voiceConfig raw.json = some config)
    (h : service.materializeManifestDefaults (dump Schema.voiceConfig config) = .ok resolved) :
    resolved = .obj (fieldsOf resolved) ∧ resolved.keyed := by
  have hdump : (dump Schema.voiceConfig config).keyed :=
    (@keyed_dump lib _) canonical_voiceConfig
      (keyed_validate canonical_voiceConfig raw.keyed hvalid)
  obtain ⟨given, values, -, rfl, -⟩ := validate_model_eq_some_iff.mp hvalid
  unfold materializeManifestDefaults at h
  rw [bind_eq_ok] at h
  obtain ⟨stages, hstages, h⟩ := h
  obtain rfl := Except.ok.inj h
  rw [mapM_eq_ok_iff] at hstages
  constructor
  · simp [Schema.voiceConfig, dump, setPath, fieldsOf]
  · refine keyed_setPath ?_ _ hdump
    rw [Json.keyed, Json.keyedItems_iff]
    intro stage' hstage'
    obtain ⟨stage, hmem, hstage⟩ := exists_mem_of_forall₂ hstages hstage'
    refine keyed_materializeStage ?_ hstage
    have hpipeline := keyed_field hdump ["spec", "media", "pipeline"]
    unfold pipelineOf at hmem
    cases hitems : (dump Schema.voiceConfig (.obj values)).field ["spec", "media", "pipeline"] with
    | arr items =>
        rw [hitems] at hmem hpipeline
        rw [Json.keyed, Json.keyedItems_iff] at hpipeline
        exact hpipeline stage hmem
    | null | bool | int | float | negZero | str | obj =>
        rw [hitems] at hmem
        simp [Json.elems] at hmem

end RegistryService

/-- `ResolvedConfig`. -/
structure ResolvedConfig where
  name : String
  resolved : JsonObject
  hash : String

namespace RegistryService

/-- `resolve_config`. -/
def resolveConfig (service : RegistryService lib) (name : String) :
    Except RegistryError ResolvedConfig :=
  match service.resolveRaw name [] with
  | .error e => .error e
  | .ok raw =>
      match hvalid : validate lib Schema.voiceConfig raw.json with
      | none => .error (.invalidDocument (lib.invalidText raw.json))
      | some config =>
          match service.validateCrossFields config with
          | .error e => .error e
          | .ok () =>
              match hresolved :
                  service.materializeManifestDefaults (dump Schema.voiceConfig config) with
              | .error e => .error e
              | .ok resolved =>
                  .ok {
                    name := (config.field ["meta", "name"]).text
                    resolved := {
                      fields := fieldsOf resolved
                      keyed := by
                        obtain ⟨hobj, hkeyed⟩ :=
                          keyed_materializeManifestDefaults hvalid hresolved
                        rwa [hobj] at hkeyed }
                    hash := resolvedHash lib resolved }

/-- What a successful resolution went through. -/
theorem resolveConfig_spec {service : RegistryService lib} {name : String}
    {result : ResolvedConfig} (h : service.resolveConfig name = .ok result) :
    ∃ raw config, service.resolveRaw name [] = .ok raw ∧
      validate lib Schema.voiceConfig raw.json = some config ∧
      service.validateCrossFields config = .ok () ∧
      service.materializeManifestDefaults (dump Schema.voiceConfig config) =
        .ok result.resolved.json ∧
      result.hash = resolvedHash lib result.resolved.json := by
  unfold resolveConfig at h
  split at h
  · cases h
  · rename_i raw hraw
    split at h
    · cases h
    · rename_i config hvalid
      split at h
      · cases h
      · rename_i hcross
        split at h
        · cases h
        · rename_i resolved hresolved
          have hobj := (keyed_materializeManifestDefaults hvalid hresolved).1
          obtain rfl := Except.ok.inj h
          exact ⟨raw, config, hraw, hvalid, hcross, hresolved.trans (congrArg Except.ok hobj),
            congrArg (resolvedHash lib) hobj⟩

/-- A resolution whose stages succeed is successful. -/
theorem exists_resolveConfig {service : RegistryService lib} {name : String} {raw : JsonObject}
    {config resolved : Json} (hraw : service.resolveRaw name [] = .ok raw)
    (hvalid : validate lib Schema.voiceConfig raw.json = some config)
    (hcross : service.validateCrossFields config = .ok ())
    (hresolved : service.materializeManifestDefaults (dump Schema.voiceConfig config) =
      .ok resolved) :
    ∃ result, service.resolveConfig name = .ok result ∧ result.resolved.json = resolved ∧
      result.hash = resolvedHash lib resolved := by
  have hobj := (keyed_materializeManifestDefaults hvalid hresolved).1
  unfold resolveConfig
  rw [hraw]
  split
  · rename_i e he
    cases he
  · rename_i raw' hraw'
    obtain rfl := Except.ok.inj hraw'
    split
    · rename_i hnone
      rw [hvalid] at hnone
      cases hnone
    · rename_i config' hvalid'
      obtain rfl := Option.some.inj (hvalid.symm.trans hvalid')
      rw [hcross]
      split
      · rename_i e he
        cases he
      · split
        · rename_i e he
          rw [hresolved] at he
          cases he
        · rename_i resolved' hresolved'
          obtain rfl := Except.ok.inj (hresolved.symm.trans hresolved')
          exact ⟨_, rfl, hobj.symm, rfl⟩

end RegistryService
end VoxBench.Registry
