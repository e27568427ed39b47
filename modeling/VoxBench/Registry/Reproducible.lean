import VoxBench.Registry.Materialize

/-!
# Resolving a resolved config

A resolved config keeps its parent, so resolving it again merges it over the parents again.
The merge brings back what the first resolution dropped: a field that the config set to null
over a value of its parents.

## Main definitions

* `RegistryService.inherited` — the merged document of the parents.
* `RegistryService.KeepsInherited` — the config nulls no optional field that its parents set.

## Main results

* `reproducible_iff` — a resolved config resolves to itself exactly when the config nulls
  nothing that it inherits.
-/

namespace VoxBench.Registry

open VoxBench.Lib VoxBench.ControlPlane

variable {lib : Libraries}

namespace RegistryService

/-- The merged document of the parents of a config. -/
def inherited (service : RegistryService lib) (name : String) : Option Json :=
  match service.parent? name with
  | none => none
  | some parent =>
      match service.resolveRaw parent [name] with
      | .ok base => some base.json
      | .error _ => none

/-- The optional fields of a config that an overlay can null. -/
def optionalPaths : List (List String) :=
  [["spec", "transport", "jitter_buffer"], ["spec", "turn_taking", "detector"],
    ["spec", "ai", "system_prompt_ref"]]

/-- The config sets no optional field to null that its parents give a value. -/
def KeepsInherited (service : RegistryService lib) (name : String) : Prop :=
  ∀ leaf, Dict.get? service.configs name = some leaf → ∀ p ∈ optionalPaths,
    leaf.json.lookup p = some .null →
      baseLookup (service.inherited name) p = none ∨
        baseLookup (service.inherited name) p = some .null

/-! ## The walk to the parents -/

theorem keyed_inherited {service : RegistryService lib} {name : String} :
    ∀ b, service.inherited name = some b → b.keyed := by
  intro b hb
  unfold inherited at hb
  split at hb
  · cases hb
  · split at hb
    · rename_i base _
      obtain rfl := Option.some.inj hb
      exact base.keyed
    · cases hb

/-- The parent named in a config's `meta`, as a path. -/
theorem metaGet_eq_ok_iff {raw : JsonObject} {key : String} {value : Json} :
    metaGet raw key = .ok (some value) ↔ raw.json.lookup ["meta", key] = some value := by
  rw [Json.lookup_cons, JsonObject.json, Json.get?_obj, metaGet]
  cases Dict.get? raw.fields "meta" with
  | none => simp
  | some document =>
      cases document with
      | obj fields =>
          rw [Option.bind_some, Json.lookup_cons, Json.get?_obj]
          cases hget : Dict.get? fields key <;> simp [hget]
      | null | bool | int | float | negZero | str | arr => simp [Json.lookup_cons, Json.get?]

theorem deepMerge_json (base overlay : JsonObject) :
    (base.deepMerge overlay).json = mergeValue (some base.json) overlay.json := by
  simp [JsonObject.json, JsonObject.deepMerge]

/-- A resolved raw document is the config merged over what it inherits. -/
theorem resolveRaw_eq_merge {service : RegistryService lib} {name : String} {raw : JsonObject}
    (h : service.resolveRaw name [] = .ok raw) :
    ∃ leaf, Dict.get? service.configs name = some leaf ∧
      raw.json = mergeValue (service.inherited name) leaf.json := by
  unfold resolveRaw at h
  simp only [List.not_mem_nil, if_false] at h
  split at h
  · cases h
  · rename_i leaf hleaf
    refine ⟨leaf, hleaf, ?_⟩
    unfold inherited parent?
    rw [hleaf]
    split at h
    · cases h
    · rename_i hparent
      obtain rfl := Except.ok.inj h
      simp [hparent]
    · rename_i hparent
      obtain rfl := Except.ok.inj h
      simp [hparent]
    · rename_i parent hparent
      split at h
      · cases h
      · rename_i base hbase
        obtain rfl := Except.ok.inj h
        simp only [hparent, hbase]
        exact deepMerge_json base leaf
    · cases h

/-- A resolved config whose parents are those of the config it came from merges over the same
document. -/
theorem resolveRaw_of_parent {service : RegistryService lib} {name : String} {leaf : JsonObject}
    (hleaf : Dict.get? service.configs name = some leaf)
    (hparent : match service.parent? name with
      | none => metaGet leaf "parent" = .ok none
      | some parent => metaGet leaf "parent" = .ok (some (.str parent)) ∧
          ∃ base, service.resolveRaw parent [name] = .ok base) :
    ∃ raw, service.resolveRaw name [] = .ok raw ∧
      raw.json = mergeValue (service.inherited name) leaf.json := by
  unfold resolveRaw inherited
  simp only [List.not_mem_nil, if_false]
  split
  · rename_i hnone
    rw [hleaf] at hnone
    cases hnone
  · rename_i leaf' hleaf'
    obtain rfl := Option.some.inj (hleaf.symm.trans hleaf')
    cases hp : service.parent? name with
    | none =>
        rw [hp] at hparent
        simp only at hparent
        rw [hparent]
        exact ⟨leaf, rfl, by simp⟩
    | some parent =>
        rw [hp] at hparent
        obtain ⟨hmeta, base, hbase⟩ := hparent
        rw [hmeta]
        simp only [hbase]
        exact ⟨base.deepMerge leaf, rfl, deepMerge_json base leaf⟩

/-- A config that was seen is not looked up again. -/
theorem resolveRaw_set {service service' : RegistryService lib} {name : String}
    {resolved : JsonObject} (hconfigs : service'.configs = Dict.set service.configs name resolved)
    (n : String) {seen : List String} (hseen : name ∈ seen) :
    service'.resolveRaw n seen = service.resolveRaw n seen := by
  induction hunseen : ((Dict.keys service.configs).filter (· ∉ seen)).length
    using Nat.strong_induction_on generalizing n seen with
  | _ unseen ih =>
      rw [resolveRaw_eq, resolveRaw_eq service]
      by_cases hn : n ∈ seen
      · rw [if_pos hn, if_pos hn]
      · have hget : Dict.get? service'.configs n = Dict.get? service.configs n := by
          rw [hconfigs, Dict.get?_set, if_neg fun h : name = n => hn (h ▸ hseen)]
        rw [if_neg hn, if_neg hn, hget]
        cases hraw : Dict.get? service.configs n with
        | none => rfl
        | some raw =>
            have hlt := length_unseen_lt hraw hn
            have hrec : ∀ parent, service'.resolveRaw parent (n :: seen) =
                service.resolveRaw parent (n :: seen) := fun parent =>
              ih _ (hunseen ▸ hlt) parent (List.mem_cons_of_mem n hseen) rfl
            simp only [hrec]

/-! ## What the checks of the stages say -/

theorem ne_null_of_matchesOverrideType {value : Json} {expected : String}
    (h : matchesOverrideType value expected) : value ≠ .null := by
  rintro rfl
  unfold matchesOverrideType at h
  split at h <;> try cases h
  split at h <;> try cases h
  split at h <;> try cases h
  split at h <;> try cases h
  split at h <;> try cases h
  split at h <;> cases h

/-- A stage that passes has a manifest, and values for its overrides. -/
theorem validateStage_spec {service : RegistryService lib} {stage io : Json}
    (h : service.validateStage stage = .ok io) :
    (∃ manifest, service.manifest "processor" (stage.field ["plugin"]).text = .ok manifest) ∧
      ∀ override ∈ (stage.field ["overrides"]).elems, override.field ["value"] ≠ .null := by
  unfold validateStage at h
  simp only [bind_eq_ok] at h
  obtain ⟨manifest, hmanifest, _, _, _, _, u, hoverrides, _⟩ := h
  refine ⟨⟨manifest, hmanifest⟩, fun override hmem => ?_⟩
  unfold validateOverrides at hoverrides
  rw [bind_eq_ok] at hoverrides
  obtain ⟨results, hresults, -⟩ := hoverrides
  rw [mapM_eq_ok_iff] at hresults
  obtain ⟨u, hu, hok⟩ := exists_mem_of_forall₂ hresults.flip hmem
  unfold validateOverride at hok
  simp only at hok
  split at hok
  · cases hok
  · split at hok
    · rename_i hmatches
      exact ne_null_of_matchesOverrideType hmatches
    · cases hok

/-- A config whose checks pass has stages that pass. -/
theorem validateStage_of_crossFields {service : RegistryService lib} {config : Json}
    (h : service.validateCrossFields config = .ok ()) :
    ∀ stage ∈ pipelineOf config, ∃ io, service.validateStage stage = .ok io := by
  unfold validateCrossFields validatePipeline at h
  simp only [bind_eq_ok] at h
  obtain ⟨-, -, -, -, -, -, -, -, -, -, ios, hios, -⟩ := h
  rw [mapM_eq_ok_iff] at hios
  intro stage hstage
  obtain ⟨io, -, hio⟩ := exists_mem_of_forall₂ hios.flip hstage
  exact ⟨io, hio⟩

end RegistryService

/-! ## The fields of arbitrary type of a config -/

/-- Only the fields that can hold one of arbitrary type matter. -/
theorem anyPresent_model {fields : List (String × Schema × Option Json)} {value : Json}
    (h : ∀ f ∈ fields, f.2.1.hasAny → ∀ x, value.lookup [f.1] = some x →
      (f.2.1 = .any → x ≠ .null) ∧ AnyPresent f.2.1 x) : AnyPresent (.model fields) value := by
  cases value with
  | obj values =>
      rw [AnyPresent, anyPresentFields_iff]
      intro f hf x hget
      by_cases hany : f.2.1.hasAny
      · exact h f hf hany x (by rw [lookup_obj_cons hget, Json.lookup_nil])
      · refine ⟨fun heq => ?_, anyPresent_of_not_hasAny (by simpa using hany) x⟩
        rw [heq] at hany
        exact absurd rfl hany
  | null | bool | int | float | negZero | str | arr => simp [AnyPresent]

/-- The one field of a model that can hold a value of arbitrary type. -/
theorem anyPresent_of_field {fields : List (String × Schema × Option Json)} {value : Json}
    (key : String) (type : Schema) {default : Option Json}
    (honly : fields.filter (·.2.1.hasAny) = [(key, type, default)]) (htype : type ≠ .any)
    (h : ∀ x, value.lookup [key] = some x → AnyPresent type x) :
    AnyPresent (.model fields) value := by
  refine anyPresent_model fun f hf hany x hx => ?_
  have hmem : f ∈ fields.filter (·.2.1.hasAny) := List.mem_filter.mpr ⟨hf, hany⟩
  rw [honly, List.mem_singleton] at hmem
  subst hmem
  exact ⟨fun heq => absurd heq htype, h x hx⟩

theorem anyPresent_overrideValue {override : Json} (h : override.field ["value"] ≠ .null) :
    AnyPresent Schema.overrideValue override := by
  refine anyPresent_model fun f hf hany x hx => ?_
  simp only [List.mem_cons, List.not_mem_nil, or_false] at hf
  rcases hf with rfl | rfl
  · exact absurd hany (by decide)
  · refine ⟨fun _ => ?_, by simp [Schema.required, AnyPresent]⟩
    rintro rfl
    refine h ?_
    rw [Json.field, show ["value"] = [(Schema.required "value" Schema.any).1] from rfl, hx]
    rfl

/-- A list has values where its items have. -/
theorem anyPresent_list {item : Schema} {value : Json}
    (h : ∀ x ∈ value.elems, AnyPresent item x) : AnyPresent (.list item) value := by
  cases value with
  | arr items =>
      rw [AnyPresent]
      exact h
  | null | bool | int | float | negZero | str | obj => simp [AnyPresent]

theorem anyPresent_pipelineStage {stage : Json}
    (h : ∀ override ∈ (stage.field ["overrides"]).elems, override.field ["value"] ≠ .null) :
    AnyPresent Schema.pipelineStage stage := by
  refine anyPresent_of_field "overrides" (.list Schema.overrideValue) rfl nofun fun x hx => ?_
  refine anyPresent_list fun override hmem => anyPresent_overrideValue (h override ?_)
  rwa [Json.field, hx]

/-- A config whose stages have values for their overrides has all values of arbitrary type. -/
theorem anyPresent_voiceConfig {config : Json}
    (h : ∀ stage ∈ RegistryService.pipelineOf config,
      ∀ override ∈ (stage.field ["overrides"]).elems, override.field ["value"] ≠ .null) :
    AnyPresent Schema.voiceConfig config := by
  refine anyPresent_of_field "spec" Schema.voiceSpec rfl nofun fun spec hspec => ?_
  refine anyPresent_of_field "media" Schema.mediaConfig rfl nofun fun media hmedia => ?_
  refine anyPresent_of_field "pipeline" (.list Schema.pipelineStage) rfl nofun
    fun pipeline hpipeline => ?_
  refine anyPresent_list fun stage hstage => anyPresent_pipelineStage (h stage ?_)
  have hlookup : config.lookup (["spec"] ++ (["media"] ++ ["pipeline"])) = some pipeline := by
    rw [Json.lookup_append, hspec, Option.bind_some, Json.lookup_append, hmedia, Option.bind_some,
      hpipeline]
  rw [List.singleton_append, List.singleton_append] at hlookup
  rwa [RegistryService.pipelineOf, Json.field, hlookup]

/-! ## The pipeline of a config -/

/-- The path of the stages. -/
def pipelinePath : List String := ["spec", "media", "pipeline"]

namespace RegistryService

variable {service : RegistryService lib}

theorem pipelineOf_eq {document : Json} {stages : List Json}
    (h : document.lookup pipelinePath = some (.arr stages)) : pipelineOf document = stages := by
  rw [pipelineOf, Json.field, show ["spec", "media", "pipeline"] = pipelinePath from rfl, h]
  rfl

/-- The dump of a config has the dumps of its stages. -/
theorem lookup_dump_pipeline (lib : Libraries) {config : Json} {stages : List Json}
    (h : config.lookup pipelinePath = some (.arr stages)) :
    (dump Schema.voiceConfig config).lookup pipelinePath =
      some (.arr (stages.map (dump Schema.pipelineStage))) := by
  rw [@lookup_dump lib _ (.list Schema.pipelineStage) _ _ _ canonical_voiceConfig rfl h (by simp),
    dump]

/-- The defaults of the manifests are written into the stages, and nowhere else. -/
theorem materializeManifestDefaults_eq_ok_iff {document resolved : Json} {stages : List Json}
    (h : document.lookup pipelinePath = some (.arr stages)) :
    service.materializeManifestDefaults document = .ok resolved ↔
      ∃ completed,
        List.Forall₂ (fun stage a => service.materializeStage stage = .ok a) stages completed ∧
        setPath (.arr completed) pipelinePath document = resolved := by
  simp only [materializeManifestDefaults, bind_eq_ok, pipelineOf_eq h, mapM_eq_ok_iff, pure,
    Except.pure, Except.ok.injEq]
  rfl

/-- The stages of a validated config. -/
theorem lookup_pipeline {document config : Json}
    (hvalid : validate lib Schema.voiceConfig document = some config) :
    ∃ rawStages stages, document.lookup pipelinePath = some (.arr rawStages) ∧
      config.lookup pipelinePath = some (.arr stages) ∧
      List.Forall₂ (fun x y => validate lib Schema.pipelineStage x = some y) rawStages stages := by
  obtain ⟨raw, result, hraw, hresult, hlist⟩ :=
    @lookup_of_required _ _ _ _ _ pipelinePath
      canonical_voiceConfig rfl hvalid
  cases raw with
  | arr rawStages =>
      rw [validate] at hlist
      obtain ⟨stages, hstages, rfl⟩ := Option.map_eq_some_iff.mp hlist
      exact ⟨rawStages, stages, hraw, hresult, mapM_eq_some_iff.mp hstages⟩
  | null | bool | int | float | negZero | str | obj => simp [validate] at hlist

/-- The stages of a config that passes the checks are stages of the service. -/
theorem isStage_of_validated {document config : Json} {stages : List Json}
    (hk : document.keyed) (hvalid : validate lib Schema.voiceConfig document = some config)
    (hcross : service.validateCrossFields config = .ok ())
    (hstages : config.lookup pipelinePath = some (.arr stages)) :
    ∀ stage ∈ stages, stage.keyed ∧ ∃ manifest values, IsStage service stage manifest values := by
  obtain ⟨rawStages, stages', hraw, hstages', hforall⟩ := lookup_pipeline hvalid
  obtain rfl : stages' = stages := by
    have heq := hstages'.symm.trans hstages
    exact Json.arr.inj (Option.some.inj heq)
  have hpipeline : pipelineOf config = stages' := pipelineOf_eq hstages
  intro stage hstage
  obtain ⟨x, hx, hxy⟩ := exists_mem_of_forall₂ hforall hstage
  have hkx : x.keyed := by
    have harr := Json.keyed_of_lookup hk hraw
    rw [Json.keyed, Json.keyedItems_iff] at harr
    exact harr x hx
  obtain ⟨io, hio⟩ := validateStage_of_crossFields hcross stage (hpipeline ▸ hstage)
  obtain ⟨⟨manifest, hmanifest⟩, hoverrides⟩ := validateStage_spec hio
  refine ⟨keyed_validate canonical_pipelineStage hkx hxy, manifest, ?_⟩
  obtain ⟨given, values, -, rfl, -⟩ := validate_model_eq_some_iff.mp (pipelineStage_eq ▸ hxy)
  exact ⟨values, rfl, hmanifest, validate_dump canonical_pipelineStage (by decide) hkx hxy
    (anyPresent_pipelineStage hoverrides)⟩

/-- The complete stages of a pipeline: what the completed dumps validate to, with the same
checks, the same dumps up to the order of keys, and nothing to complete. -/
theorem exists_complete {stages dumped : List Json}
    (hstages : ∀ stage ∈ stages, stage.keyed ∧
      ∃ manifest values, IsStage service stage manifest values)
    (h : List.Forall₂ (fun stage a =>
      service.materializeStage (dump Schema.pipelineStage stage) = .ok a) stages dumped) :
    ∃ complete,
      List.Forall₂ (fun a c => validate lib Schema.pipelineStage a = some c) dumped complete ∧
      List.Forall₂ (fun c stage => service.validateStage c = service.validateStage stage)
        complete stages ∧
      (∀ c ∈ complete, service.materializeStage (dump Schema.pipelineStage c) =
        .ok (dump Schema.pipelineStage c)) ∧
      List.Forall₂ (fun c a => Json.pyEq (dump Schema.pipelineStage c) a ∧
        (dump Schema.pipelineStage c).sortKeys = a.sortKeys) complete dumped := by
  induction h with
  | nil => exact ⟨[], List.Forall₂.nil, List.Forall₂.nil, by simp, List.Forall₂.nil⟩
  | @cons stage a stages dumped hstage _ ih =>
      obtain ⟨complete, hvalid, hchecks, hmat, hsame⟩ :=
        ih fun s hs => hstages s (List.mem_cons_of_mem stage hs)
      obtain ⟨hk, manifest, values, his⟩ := hstages stage (by simp)
      obtain rfl := Except.ok.inj (his.materializeStage_dump.symm.trans hstage)
      have hperm := his.perm_dump_complete hk
      have hkeyed := his.keyed_materialized hk
      refine ⟨completeStage manifest values :: complete, ?_, ?_, ?_, ?_⟩
      · exact List.Forall₂.cons (validate_materialized his.back') hvalid
      · exact List.Forall₂.cons his.validateStage_complete hchecks
      · intro c hc
        rcases List.mem_cons.mp hc with rfl | hc
        · exact his.materializeStage_dump_complete
        · exact hmat c hc
      · refine List.Forall₂.cons ⟨?_, ?_⟩ hsame
        · rw [his.complete.dump_eq]
          refine Json.pyEq_obj_of_perm (Json.keyed_obj_iff.mpr ⟨?_, fun f hf => ?_⟩) hperm.symm
          · exact (keys_dumpFields_sublist stageFields _).nodup nodup_stageFields
          · exact (Json.keyed_obj_iff.mp hkeyed).2 f (hperm.mem_iff.mpr hf)
        · rw [his.complete.dump_eq]
          exact (Json.sortKeys_obj_of_perm (Json.keyed_obj_iff.mp hkeyed).1 hperm).symm

/-! ## Registering a resolved config -/

/-- What a resolution writes outside the pipeline is the dump of the config. -/
theorem lookup_resolved {config resolved : Json}
    (h : service.materializeManifestDefaults (dump Schema.voiceConfig config) = .ok resolved)
    (common : List String) {a b : String} (hne : a ≠ b) (p q : List String)
    (hpath : pipelinePath = common ++ a :: p) :
    resolved.lookup (common ++ b :: q) =
      (dump Schema.voiceConfig config).lookup (common ++ b :: q) := by
  unfold materializeManifestDefaults at h
  rw [bind_eq_ok] at h
  obtain ⟨stages, -, h⟩ := h
  obtain rfl := Except.ok.inj h
  rw [show ["spec", "media", "pipeline"] = pipelinePath from rfl, hpath]
  exact lookup_setPath_of_fork common hne p q

/-- The `meta` of a resolved config is the dumped one. -/
theorem lookup_resolved_meta {config resolved : Json}
    (h : service.materializeManifestDefaults (dump Schema.voiceConfig config) = .ok resolved)
    (q : List String) :
    resolved.lookup ("meta" :: q) = (dump Schema.voiceConfig config).lookup ("meta" :: q) :=
  lookup_resolved h [] (a := "spec") (by decide) ["media", "pipeline"] q rfl

/-- The parts of a resolved config other than its pipeline are the dumped ones. -/
theorem lookup_resolved_part {config resolved : Json}
    (h : service.materializeManifestDefaults (dump Schema.voiceConfig config) = .ok resolved)
    {part : String} (hne : "media" ≠ part) (q : List String) :
    resolved.lookup (["spec"] ++ part :: q) =
      (dump Schema.voiceConfig config).lookup (["spec"] ++ part :: q) :=
  lookup_resolved h ["spec"] hne ["pipeline"] q rfl

/-- A key that the `meta` object lacks. -/
theorem metaGet_eq_ok_none {raw : JsonObject} {key key' : String} {value : Json}
    (h : metaGet raw key' = .ok (some value)) (hkey : raw.json.lookup ["meta", key] = none) :
    metaGet raw key = .ok none := by
  rw [JsonObject.json, Json.lookup_cons, Json.get?_obj] at hkey
  unfold metaGet at h ⊢
  cases hmeta : Dict.get? raw.fields "meta" with
  | none => rfl
  | some document =>
      cases document with
      | obj fields =>
          rw [hmeta, Option.bind_some, Json.lookup_cons, Json.get?_obj] at hkey
          cases hget : Dict.get? fields key with
          | none => simp [hget]
          | some x => simp [hget] at hkey
      | null | bool | int | float | negZero | str | arr => simp [hmeta] at h

theorem lookup_parent {name parent : String} {leaf : JsonObject}
    (hleaf : Dict.get? service.configs name = some leaf)
    (hparent : service.parent? name = some parent) :
    leaf.json.lookup ["meta", "parent"] = some (.str parent) := by
  refine metaGet_eq_ok_iff.mp ?_
  unfold parent? at hparent
  rw [hleaf] at hparent
  simp only at hparent
  split at hparent
  · rename_i p hp
    rw [hp, Option.some.inj hparent]
  · cases hparent

/-- A config that resolves and names no parent is a root. -/
theorem isRoot_of_resolveRaw {name : String} {raw : JsonObject}
    (hraw : service.resolveRaw name [] = .ok raw) (hparent : service.parent? name = none) :
    service.IsRoot name := by
  obtain ⟨leaf, hleaf, -⟩ := resolveRaw_eq_merge hraw
  refine ⟨leaf, hleaf, ?_⟩
  rw [resolveRaw_eq, if_neg (by simp), hleaf] at hraw
  unfold parent? at hparent
  rw [hleaf] at hparent
  simp only at hraw hparent
  split at hraw
  · cases hraw
  · rename_i h
    exact Or.inl h
  · rename_i h
    exact Or.inr h
  · rename_i parent h
    simp [h] at hparent
  · cases hraw

/-- The name of a config is the name of what it resolves to. -/
theorem metaGet_name_resolved {name : String} {raw resolved : JsonObject} {config : Json}
    (hraw : service.resolveRaw name [] = .ok raw)
    (hvalid : validate lib Schema.voiceConfig raw.json = some config)
    (hmat : service.materializeManifestDefaults (dump Schema.voiceConfig config) =
      .ok resolved.json) :
    name ≠ "" ∧ metaGet resolved "name" = .ok (some (.str name)) := by
  obtain ⟨leaf, hleaf, hmerge⟩ := resolveRaw_eq_merge hraw
  obtain ⟨hname, hmeta⟩ := service.named _ (Dict.mem_of_get?_eq_some hleaf)
  refine ⟨hname, metaGet_eq_ok_iff.mpr ?_⟩
  have hlookup : raw.json.lookup ["meta", "name"] = some (.str name) := by
    rw [hmerge]
    exact lookup_mergeValue leaf.keyed (metaGet_eq_ok_iff.mp hmeta) (by rintro ⟨_, h⟩; cases h)
  obtain ⟨value, hvalue, hstr⟩ := @validate_lookup _ _ .str _ _ _ _ canonical_voiceConfig rfl hvalid
    hlookup
  obtain rfl : Json.str name = value := by simpa [validate] using hstr
  rw [lookup_resolved_meta hmat,
    @lookup_dump lib _ .str _ _ _ canonical_voiceConfig rfl hvalue (by simp)]
  simp [dump]

/-- The parent of a config is the parent of what it resolves to. -/
theorem metaGet_parent_resolved {name : String} {raw resolved : JsonObject} {config : Json}
    (hraw : service.resolveRaw name [] = .ok raw)
    (hvalid : validate lib Schema.voiceConfig raw.json = some config)
    (hmat : service.materializeManifestDefaults (dump Schema.voiceConfig config) =
      .ok resolved.json) :
    metaGet resolved "parent" = .ok ((service.parent? name).map .str) := by
  obtain ⟨leaf, hleaf, hmerge⟩ := resolveRaw_eq_merge hraw
  cases hparent : service.parent? name with
  | none =>
      obtain ⟨leaf', hleaf', hroot⟩ := isRoot_of_resolveRaw hraw hparent
      obtain rfl := Option.some.inj (hleaf.symm.trans hleaf')
      have hsame : raw.json = leaf.json := by
        rw [hmerge, inherited, hparent, mergeValue_none]
      obtain ⟨given, result, hgiven, hresult, hfield⟩ := @lookup_field _ _ _ _ _ ["meta"]
        canonical_voiceConfig rfl hvalid (Schema.orNone "parent" .str) (by simp)
      have hnull : result = .null := by
        rw [fieldValue, Schema.orNone_fst] at hfield
        split at hfield
        · rename_i x hx
          have hlookup : leaf.json.lookup ["meta", "parent"] = some x := by
            rw [← hsame, show ["meta", "parent"] = ["meta"] ++ ["parent"] from rfl,
              Json.lookup_append, hgiven, Option.bind_some, lookup_obj_cons hx, Json.lookup_nil]
          have hmeta := metaGet_eq_ok_iff.mpr hlookup
          rcases hroot with hroot | hroot
          · simp [hmeta] at hroot
          · obtain rfl : x = .null := by simpa [hmeta] using hroot
            simpa [Schema.orNone, validate] using hfield.symm
        · exact (Option.some.inj hfield).symm
      rw [hnull] at hresult
      refine metaGet_eq_ok_none (metaGet_name_resolved hraw hvalid hmat).2 ?_
      rw [lookup_resolved_meta hmat]
      exact @lookup_dump_null lib _ _ _ _ canonical_voiceConfig rfl
        (by simp) hresult
  | some parent =>
      refine metaGet_eq_ok_iff.mpr ?_
      have hmeta : leaf.json.lookup ["meta", "parent"] = some (.str parent) :=
        lookup_parent hleaf hparent
      have hlookup : raw.json.lookup ["meta", "parent"] = some (.str parent) := by
        rw [hmerge]
        exact lookup_mergeValue leaf.keyed hmeta (by rintro ⟨_, h⟩; cases h)
      obtain ⟨value, hvalue, hstr⟩ := @validate_lookup _ _ (.optional .str) _ _ _ _
        canonical_voiceConfig rfl hvalid hlookup
      obtain rfl : Json.str parent = value := by simpa [validate] using hstr
      rw [lookup_resolved_meta hmat,
        @lookup_dump lib _ (.optional .str) _ _ _ canonical_voiceConfig rfl hvalue
          (by simp)]
      simp [dump]

/-- Registering a resolved config replaces the config. -/
theorem exists_registerConfig {name : String} {resolved : JsonObject} (hname : name ≠ "")
    (h : metaGet resolved "name" = .ok (some (.str name))) :
    ∃ service', service.registerConfig resolved = .ok service' ∧
      service'.configs = Dict.set service.configs name resolved ∧
      service'.manifests = service.manifests := by
  unfold registerConfig
  split
  · rename_i e he
    rw [h] at he
    cases he
  · rename_i name' hname'
    obtain rfl : name = name' := by
      have heq := h.symm.trans hname'
      exact Json.str.inj (Option.some.inj (Except.ok.inj heq))
    rw [dif_neg hname]
    exact ⟨_, rfl, rfl, rfl⟩
  · rename_i value hstr hvalue
    exact absurd (Except.ok.inj (h.symm.trans hvalue)).symm (hstr name)

/-- The parent of a config that resolves resolves too. -/
theorem resolveRaw_parent {name parent : String} {raw : JsonObject}
    (hraw : service.resolveRaw name [] = .ok raw) (hparent : service.parent? name = some parent) :
    ∃ base, service.resolveRaw parent [name] = .ok base := by
  obtain ⟨leaf, hleaf, -⟩ := resolveRaw_eq_merge hraw
  rw [resolveRaw_eq, if_neg (by simp), hleaf] at hraw
  unfold parent? at hparent
  rw [hleaf] at hparent
  simp only at hraw hparent
  split at hparent
  · rename_i p hp
    obtain rfl := Option.some.inj hparent
    rw [hp] at hraw
    simp only at hraw
    split at hraw
    · cases hraw
    · rename_i base hbase
      exact ⟨base, hbase⟩
  · cases hparent

/-- A registered resolved config is merged over what the config inherited. -/
theorem resolveRaw_registered {service' : RegistryService lib} {name : String}
    {raw resolved : JsonObject} {config : Json}
    (hraw : service.resolveRaw name [] = .ok raw)
    (hvalid : validate lib Schema.voiceConfig raw.json = some config)
    (hmat : service.materializeManifestDefaults (dump Schema.voiceConfig config) =
      .ok resolved.json)
    (hconfigs : service'.configs = Dict.set service.configs name resolved) :
    ∃ raw', service'.resolveRaw name [] = .ok raw' ∧
      raw'.json = mergeValue (service.inherited name) resolved.json := by
  have hget : Dict.get? service'.configs name = some resolved := by
    rw [hconfigs, Dict.get?_set, if_pos rfl]
  have hmeta := metaGet_parent_resolved hraw hvalid hmat
  have hparent : service'.parent? name = service.parent? name := by
    cases hp : service.parent? name with
    | none =>
        rw [hp] at hmeta
        simp [parent?, hget, hmeta]
    | some parent =>
        rw [hp] at hmeta
        simp [parent?, hget, hmeta]
  have hinherited : service'.inherited name = service.inherited name := by
    unfold inherited
    rw [hparent]
    cases service.parent? name with
    | none => rfl
    | some parent => simp only [resolveRaw_set hconfigs parent (List.mem_singleton_self name)]
  rw [← hinherited]
  refine resolveRaw_of_parent hget ?_
  rw [hparent]
  cases hp : service.parent? name with
  | none => simpa [hp] using hmeta
  | some parent =>
      obtain ⟨base, hbase⟩ := resolveRaw_parent hraw hp
      refine ⟨by simpa [hp] using hmeta, base, ?_⟩
      rw [resolveRaw_set hconfigs parent (List.mem_singleton_self name), hbase]

/-! ## Checks and defaults depend on the manifests only -/

theorem manifest_congr {service' : RegistryService lib}
    (h : service'.manifests = service.manifests) : service'.manifest = service.manifest := by
  funext kind name
  rw [manifest, manifest, h]

theorem validateCrossFields_congr {service' : RegistryService lib}
    (h : service'.manifests = service.manifests) :
    service'.validateCrossFields = service.validateCrossFields := by
  have hstage : service'.validateStage = service.validateStage := by
    funext stage
    unfold validateStage
    rw [manifest_congr h]
  funext config
  unfold validateCrossFields validatePipeline
  rw [manifest_congr h, hstage]

theorem materializeManifestDefaults_congr {service' : RegistryService lib}
    (h : service'.manifests = service.manifests) :
    service'.materializeManifestDefaults = service.materializeManifestDefaults := by
  have hstage : service'.materializeStage = service.materializeStage := by
    funext stage
    unfold materializeStage
    rw [manifest_congr h]
  funext resolved
  unfold materializeManifestDefaults
  rw [hstage]

/-! ## Nulls over inherited values -/

/-- A merged document absorbs what it was merged over. -/
theorem mergeValue_inherited {name : String} {raw : JsonObject}
    (hraw : service.resolveRaw name [] = .ok raw) :
    mergeValue (service.inherited name) raw.json = raw.json := by
  obtain ⟨leaf, -, hmerge⟩ := resolveRaw_eq_merge hraw
  rw [hmerge]
  exact mergeValue_mergeValue keyed_inherited leaf.keyed

/-- An optional path ends at an optional field of an object that is reached through required
fields. -/
theorem optionalPaths_spec {p : List String} (hp : p ∈ optionalPaths) :
    ∃ part key inner fields, p = ["spec", part] ++ [key] ∧ "media" ≠ part ∧
      Schema.voiceConfig.descend p = some (.optional inner) ∧
      Schema.voiceConfig.descendRequired ["spec", part] = some (.model fields) ∧
      Schema.orNone key inner ∈ fields := by
  simp only [optionalPaths, List.mem_cons, List.not_mem_nil, or_false] at hp
  rcases hp with rfl | rfl | rfl
  · exact ⟨"transport", "jitter_buffer", Schema.jitterBufferConfig, _, rfl, by decide, rfl, rfl,
      by simp⟩
  · exact ⟨"turn_taking", "detector", Schema.detectorConfig, _, rfl, by decide, rfl, rfl, by simp⟩
  · exact ⟨"ai", "system_prompt_ref", .str, _, rfl, by decide, rfl, rfl, by simp⟩

/-- A null of the config at an optional path is a null of the merged document, or the parents
have nothing there. -/
theorem lookup_null_cases {name : String} {raw : JsonObject} {config : Json} {p : List String}
    (hraw : service.resolveRaw name [] = .ok raw)
    (hvalid : validate lib Schema.voiceConfig raw.json = some config)
    (hp : p ∈ optionalPaths) (hnull : config.lookup p = some .null) :
    raw.json.lookup p = some .null ∨ baseLookup (service.inherited name) p = none := by
  obtain ⟨part, key, inner, fields, rfl, -, -, hrequired, hf⟩ := optionalPaths_spec hp
  obtain ⟨given, result, hgiven, hresult, hfield⟩ :=
    lookup_field canonical_voiceConfig hrequired hvalid hf
  rw [Schema.orNone_fst] at hresult
  obtain rfl : result = .null := Option.some.inj (hresult.symm.trans hnull)
  rw [fieldValue, Schema.orNone_fst] at hfield
  split at hfield
  · rename_i x hx
    obtain rfl := validate_null_iff hfield
    refine Or.inl ?_
    rw [Json.lookup_append, hgiven, Option.bind_some, lookup_obj_cons hx, Json.lookup_nil]
  · -- the merged document has no such key, so the parents have none either
    rename_i hkey
    refine Or.inr ?_
    cases hbase : baseLookup (service.inherited name) (["spec", part] ++ [key]) with
    | none => rfl
    | some value =>
        have hlookup := lookup_mergeValue_base raw.keyed hgiven hkey hbase
        rw [show Json.obj raw.fields = raw.json from rfl, mergeValue_inherited hraw,
          Json.lookup_append, hgiven, Option.bind_some, Json.lookup_cons, Json.get?_obj, hkey]
          at hlookup
        cases hlookup

/-- A null of the config over nothing that is inherited is retained. -/
theorem retained_of_keepsInherited {name : String} {raw : JsonObject} {config : Json}
    (hraw : service.resolveRaw name [] = .ok raw)
    (hvalid : validate lib Schema.voiceConfig raw.json = some config)
    (hcross : service.validateCrossFields config = .ok ())
    (hkeeps : service.KeepsInherited name) :
    Retained Schema.voiceConfig (service.inherited name) config := by
  obtain ⟨leaf, hleaf, hmerge⟩ := resolveRaw_eq_merge hraw
  have hany : AnyPresent Schema.voiceConfig config := by
    refine anyPresent_voiceConfig fun stage hstage => ?_
    obtain ⟨io, hio⟩ := validateStage_of_crossFields hcross stage hstage
    exact (validateStage_spec hio).2
  refine retained_of_nullable canonical_voiceConfig nullDefaults_voiceConfig _ raw.json config
    hvalid hany fun p hp hnull => ?_
  have hcases : p = ["meta", "parent"] ∨ p ∈ optionalPaths := by
    rw [nullable_voiceConfig] at hp
    exact List.mem_cons.mp hp
  rcases hcases with rfl | hp
  · -- a config with a parent is dumped with it
    cases hparent : service.parent? name with
    | none => exact Or.inl (by rw [inherited, hparent]; rfl)
    | some parent =>
        have hmeta : leaf.json.lookup ["meta", "parent"] = some (.str parent) :=
          lookup_parent hleaf hparent
        have hlookup : raw.json.lookup ["meta", "parent"] = some (.str parent) := by
          rw [hmerge]
          exact lookup_mergeValue leaf.keyed hmeta (by rintro ⟨_, h⟩; cases h)
        obtain ⟨value, hvalue, hstr⟩ := @validate_lookup _ _ (.optional .str) _ _ _ _
          canonical_voiceConfig rfl hvalid hlookup
        obtain rfl : Json.str parent = value := by simpa [validate] using hstr
        rw [hnull] at hvalue
        cases hvalue
  · rcases lookup_null_cases hraw hvalid hp hnull with hnull | hnone
    · rw [hmerge] at hnull
      rcases lookup_mergeValue_cases leaf.keyed hnull with ⟨x, hx, hxnull⟩ | ⟨-, hbase⟩
      · obtain rfl := mergeValue_eq_null_iff.mp hxnull.symm
        exact hkeeps leaf hleaf p hp hx
      · exact Or.inr hbase
    · exact Or.inl hnone

/-! ## Resolving again -/

/-- The checks of a config with other stages that pass the same checks. -/
theorem validateCrossFields_setPath {config : Json} {stages complete : List Json}
    (hcross : service.validateCrossFields config = .ok ())
    (hstages : config.lookup pipelinePath = some (.arr stages))
    (hsame : List.Forall₂ (fun c stage => service.validateStage c = service.validateStage stage)
      complete stages) :
    service.validateCrossFields (setPath (.arr complete) pipelinePath config) = .ok () := by
  have hfield : ∀ {a : String} (q : List String), "media" ≠ a →
      (setPath (.arr complete) pipelinePath config).field (["spec"] ++ a :: q) =
        config.field (["spec"] ++ a :: q) := by
    intro a q hne
    exact congrArg (Option.getD · .null)
      (lookup_setPath_of_fork ["spec"] hne ["pipeline"] q)
  have hkind := hfield (a := "engine") ["kind"] (by decide)
  have hengine := hfield (a := "engine") ["params"] (by decide)
  have hprovider := hfield (a := "ai") ["provider"] (by decide)
  have hparams := hfield (a := "ai") ["params"] (by decide)
  have howner := hfield (a := "turn_taking") ["owner"] (by decide)
  have hdetector := hfield (a := "turn_taking") ["detector"] (by decide)
  have hcodec := hfield (a := "transport") ["codec"] (by decide)
  have hpipeline : pipelineOf (setPath (.arr complete) pipelinePath config) = complete :=
    pipelineOf_eq (lookup_setPath_self (by rw [hstages]; rfl))
  have hold : pipelineOf config = stages := pipelineOf_eq hstages
  simp only [List.singleton_append] at hkind hengine hprovider hparams howner hdetector hcodec
  unfold validateCrossFields validatePipeline validateProviderCaps at hcross ⊢
  rw [hkind, hengine, hprovider, hparams, howner, hdetector, hcodec, hpipeline,
    mapM_congr_of_forall₂ hsame, ← hold]
  exact hcross

/-- A config that keeps what it inherits resolves again to the same document. -/
theorem exists_again {service' : RegistryService lib} {name : String} {raw resolved : JsonObject}
    {config : Json} (hraw : service.resolveRaw name [] = .ok raw)
    (hvalid : validate lib Schema.voiceConfig raw.json = some config)
    (hcross : service.validateCrossFields config = .ok ())
    (hmat : service.materializeManifestDefaults (dump Schema.voiceConfig config) =
      .ok resolved.json)
    (hconfigs : service'.configs = Dict.set service.configs name resolved)
    (hmanifests : service'.manifests = service.manifests)
    (hkeeps : service.KeepsInherited name) :
    ∃ again, service'.resolveConfig name = .ok again ∧
      Json.pyEq again.resolved.json resolved.json ∧
      again.hash = resolvedHash lib resolved.json := by
  obtain ⟨-, stages, -, hstages, -⟩ := lookup_pipeline hvalid
  have hkc : config.keyed := keyed_validate canonical_voiceConfig raw.keyed hvalid
  have hkd : (dump Schema.voiceConfig config).keyed :=
    (@keyed_dump lib _) canonical_voiceConfig hkc
  have hdumped := lookup_dump_pipeline lib hstages
  obtain ⟨raw', hraw', hmerge'⟩ := resolveRaw_registered hraw hvalid hmat hconfigs
  -- the first resolution: the dumped stages, completed
  obtain ⟨completed, hcompleted, hresolved⟩ :=
    (materializeManifestDefaults_eq_ok_iff hdumped).mp hmat
  rw [List.forall₂_map_left_iff] at hcompleted
  obtain ⟨complete, hcvalid, hcchecks, hcmat, hcsame⟩ := exists_complete
    (isStage_of_validated raw.keyed hvalid hcross hstages) hcompleted
  -- the second resolution: the merge and the validation give the config with complete stages
  have hsurvives := survives canonical_voiceConfig _ raw.json config raw.keyed
    (mergeValue_inherited hraw) hvalid (retained_of_keepsInherited hraw hvalid hcross hkeeps)
  have hvalid' : validate lib Schema.voiceConfig raw'.json =
      some (setPath (.arr complete) pipelinePath config) := by
    rw [hmerge', ← hresolved, mergeValue_setPath hkd keyed_inherited (by rw [hdumped]; rfl)]
    refine @validate_setPath _ _ (.list Schema.pipelineStage) _ _ _ _ _ _ canonical_voiceConfig rfl
      hsurvives (lookup_mergeValue hkd hdumped (by rintro ⟨_, h⟩; cases h)) ?_
    rw [validate, mapM_eq_some_iff.mpr hcvalid]
    rfl
  have hdump' : dump Schema.voiceConfig (setPath (.arr complete) pipelinePath config) =
      setPath (.arr (complete.map (dump Schema.pipelineStage))) pipelinePath
        (dump Schema.voiceConfig config) := by
    rw [@dump_setPath lib _ (.list Schema.pipelineStage) _ _ _ _ canonical_voiceConfig rfl
      hstages (by simp) (by simp), dump]
  have hmat' : service.materializeManifestDefaults
      (dump Schema.voiceConfig (setPath (.arr complete) pipelinePath config)) =
      .ok (setPath (.arr (complete.map (dump Schema.pipelineStage))) pipelinePath
        (dump Schema.voiceConfig config)) := by
    have hself := @lookup_setPath_self (.arr (complete.map (dump Schema.pipelineStage))) _ _
      (by rw [hdumped]; rfl)
    rw [hdump', materializeManifestDefaults_eq_ok_iff hself]
    refine ⟨complete.map (dump Schema.pipelineStage), ?_, setPath_setPath pipelinePath⟩
    rw [List.forall₂_map_left_iff, List.forall₂_map_right_iff, List.forall₂_same]
    exact hcmat
  obtain ⟨again, hagain, hjson, hhash⟩ := exists_resolveConfig hraw' hvalid'
    (by rw [validateCrossFields_congr hmanifests]
        exact validateCrossFields_setPath hcross hstages hcchecks)
    (by rw [materializeManifestDefaults_congr hmanifests]; exact hmat')
  -- the two documents differ in the order of the keys of the stages
  have hsame : List.Forall₂ (fun x y => Json.pyEq x y ∧ x.sortKeys = y.sortKeys)
      (complete.map (dump Schema.pipelineStage)) completed := by
    rw [List.forall₂_map_left_iff]
    exact hcsame
  refine ⟨again, hagain, ?_, ?_⟩
  · rw [hjson, ← hresolved]
    exact pyEq_setPath hkd (Json.pyEq_arr (hsame.imp fun _ _ h => h.1)) pipelinePath
  · rw [hhash, ← hresolved, resolvedHash, resolvedHash, canonicalJson, canonicalJson,
      sortKeys_setPath (Json.sortKeys_arr (hsame.imp fun _ _ h => h.2)) pipelinePath]

/-- A null over an inherited value is lost: the second resolution inherits the value. -/
theorem lookup_again {service' : RegistryService lib} {name : String} {raw resolved : JsonObject}
    {config : Json} {again : ResolvedConfig} {p : List String} {leaf : JsonObject} {value : Json}
    (hraw : service.resolveRaw name [] = .ok raw)
    (hvalid : validate lib Schema.voiceConfig raw.json = some config)
    (hmat : service.materializeManifestDefaults (dump Schema.voiceConfig config) =
      .ok resolved.json)
    (hconfigs : service'.configs = Dict.set service.configs name resolved)
    (hagain : service'.resolveConfig name = .ok again)
    (hleaf : Dict.get? service.configs name = some leaf) (hp : p ∈ optionalPaths)
    (hnull : leaf.json.lookup p = some .null)
    (hbase : baseLookup (service.inherited name) p = some value) (hvalue : value ≠ .null) :
    resolved.json.lookup p = none ∧ (again.resolved.json.lookup p).isSome := by
  obtain ⟨part, key, inner, fields, rfl, hpart, hdescend, hrequired, hf⟩ := optionalPaths_spec hp
  have hnotObj : ¬ IsObj Json.null := by
    rintro ⟨_, h⟩
    cases h
  -- the first resolution drops the field
  obtain ⟨leaf', hleaf', hmerge⟩ := resolveRaw_eq_merge hraw
  obtain rfl := Option.some.inj (hleaf.symm.trans hleaf')
  have hrawNull : raw.json.lookup (["spec", part] ++ [key]) = some .null := by
    rw [hmerge]
    exact lookup_mergeValue leaf.keyed hnull hnotObj
  obtain ⟨result, hresult, hoptional⟩ :=
    validate_lookup canonical_voiceConfig hdescend hvalid hrawNull
  obtain rfl : Json.null = result := by simpa [validate] using hoptional
  have hdropped : resolved.json.lookup (["spec", part] ++ [key]) = none :=
    (lookup_resolved_part hmat hpart [key]).trans
      (@lookup_dump_null lib _ _ _ _ canonical_voiceConfig hdescend (by simp) hresult)
  refine ⟨hdropped, ?_⟩
  -- the part itself is there, so that the merge takes the field from the parents
  obtain ⟨rawPart, partValue, _, hpartValue, hpartValid⟩ :=
    lookup_of_required canonical_voiceConfig hrequired hvalid
  obtain ⟨given, values, _, rfl, _⟩ := validate_model_eq_some_iff.mp hpartValid
  have hpartDescend := descend_of_descendRequired hrequired
  have hresolvedPart : resolved.json.lookup ["spec", part] =
      some (.obj (dumpFields fields values)) := by
    have hdumped :=
      @lookup_dump lib _ _ _ _ _ canonical_voiceConfig hpartDescend hpartValue (by simp)
    rw [dump] at hdumped
    exact (lookup_resolved_part hmat hpart []).trans hdumped
  have hmissing : Dict.get? (dumpFields fields values) key = none := by
    rw [Json.lookup_append, hresolvedPart, Option.bind_some, Json.lookup_cons, Json.get?_obj]
      at hdropped
    cases hget : Dict.get? (dumpFields fields values) key with
    | none => rfl
    | some x => simp [hget] at hdropped
  obtain ⟨raw', config', hraw', hvalid', -, hmat', -⟩ := resolveConfig_spec hagain
  obtain ⟨raw'', hraw'', hmerge'⟩ := resolveRaw_registered hraw hvalid hmat hconfigs
  obtain rfl := Except.ok.inj (hraw'.symm.trans hraw'')
  have hinherited : raw'.json.lookup (["spec", part] ++ [key]) = some value := by
    rw [hmerge']
    exact lookup_mergeValue_base resolved.keyed hresolvedPart hmissing hbase
  obtain ⟨y, hy, hyvalid⟩ := validate_lookup canonical_voiceConfig hdescend hvalid' hinherited
  have hyne : y ≠ .null := fun hnull => hvalue (validate_null_iff (hnull ▸ hyvalid))
  have hdumped := @lookup_dump lib _ _ _ _ _ canonical_voiceConfig hdescend hy hyne
  have hwritten := (lookup_resolved_part hmat' hpart [key]).trans hdumped
  exact Option.isSome_iff_exists.mpr ⟨_, hwritten⟩

end RegistryService

open RegistryService

/-- **A resolved config resolves to itself** exactly when the config sets none of its optional
fields to null over a value of its parents: registering the resolved document under its name
and resolving again gives an equal document with the same hash. -/
theorem reproducible_iff {service : RegistryService lib} {name : String}
    {result : ResolvedConfig} (h : service.resolveConfig name = .ok result) :
    (∃ service' again, service.registerConfig result.resolved = .ok service' ∧
      service'.resolveConfig name = .ok again ∧
      Json.pyEq again.resolved.json result.resolved.json ∧ again.hash = result.hash) ↔
    service.KeepsInherited name := by
  obtain ⟨raw, config, hraw, hvalid, hcross, hmat, hhash⟩ := resolveConfig_spec h
  obtain ⟨hname, hmeta⟩ := metaGet_name_resolved hraw hvalid hmat
  obtain ⟨service', hservice', hconfigs, hmanifests⟩ :=
    exists_registerConfig hname hmeta
  constructor
  · rintro ⟨service'', again, hservice'', hagain, heq, -⟩ leaf hleaf p hp hnull
    obtain rfl := Except.ok.inj (hservice'.symm.trans hservice'')
    cases hbase : baseLookup (service.inherited name) p with
    | none => exact Or.inl rfl
    | some value =>
        by_cases hvalue : value = .null
        · exact Or.inr (by rw [hvalue])
        · obtain ⟨hnone, hsome⟩ :=
            lookup_again hraw hvalid hmat hconfigs hagain hleaf hp hnull hbase hvalue
          obtain ⟨x, hx⟩ := Option.isSome_iff_exists.mp hsome
          obtain ⟨y, hy, -⟩ := lookup_of_pyEq heq hx
          rw [hnone] at hy
          cases hy
  · intro hkeeps
    obtain ⟨again, hagain, heq, hsame⟩ :=
      exists_again hraw hvalid hcross hmat hconfigs hmanifests hkeeps
    exact ⟨service', again, hservice', hagain, heq, hsame.trans hhash.symm⟩

/-! ## A registry with one overlay -/

/-- Conversions that change nothing, and schemas that accept everything. -/
def plainLibraries : Libraries where
  toInt := fun
    | .int n => some n
    | _ => none
  toBool := fun
    | .bool b => some b
    | _ => none
  toFloat := fun
    | .float q => some (.float q)
    | .negZero => some .negZero
    | .int n => some (.float n)
    | _ => none
  toInt_int := fun _ => rfl
  toBool_bool := fun _ => rfl
  toFloat_isFloat := by
    intro value number h
    cases value <;> cases h <;> rfl
  toFloat_of_isFloat := by
    intro number h
    cases number <;> first | rfl | cases h
  invalidText := fun _ => "validation error"
  checkSchema := fun _ => none
  validateParams := fun _ _ => none
  floatRepr := fun q => s!"{q.num}.0"

/-- A base config with a jitter buffer. -/
def baseConfig : JsonObject where
  fields := [
    ("apiVersion", .str "voxbench/v1"),
    ("kind", .str "VoiceConfig"),
    ("meta", .obj [("name", .str "base"), ("version", .str "1.0.0")]),
    ("spec", .obj [
      ("engine", .obj [("kind", .str "loopback")]),
      ("transport", .obj [("codec", .str "pcmu"), ("ptime_ms", .int 20),
        ("jitter_buffer", .obj [("mode", .str "fixed"), ("max_ms", .int 60)])]),
      ("media", .obj [("pipeline", .arr [
        .obj [("type", .str "resample"), ("plugin", .str "resampler")]])]),
      ("turn_taking", .obj [("owner", .str "server_vad")]),
      ("ai", .obj [("provider", .str "realtime"), ("model", .str "m")])])]
  keyed := by decide +kernel

/-- An overlay of the base that sets the jitter buffer to `value`. -/
def overlayConfig (value : Json) (h : value.keyed) : JsonObject where
  fields := [
    ("meta", .obj [("name", .str "overlay"), ("version", .str "1.0.1"), ("parent", .str "base")]),
    ("spec", .obj [("transport", .obj [("jitter_buffer", value)])])]
  keyed := by
    simp [Json.keyed, Json.keyedFields, h]

def rawManifests : List JsonObject := [
  ⟨[("kind", .str "engine"), ("name", .str "loopback"), ("version", .str "1.0.0")],
    by decide +kernel⟩,
  ⟨[("kind", .str "provider"), ("name", .str "realtime"), ("version", .str "1.0.0"),
    ("provider_caps", .obj [("turn_taking_owners", .arr [.str "server_vad"])])],
    by decide +kernel⟩,
  ⟨[("kind", .str "processor"), ("name", .str "resampler"), ("version", .str "1.0.0"),
    ("io", .obj [("mode", .str "rate_changing")]),
    ("invariants_applicable", .arr [.str "duration_preserving"])], by decide +kernel⟩]

/-- Nothing is asked of a registry without configs. -/
theorem named_nil : ∀ entry ∈ ([] : List (String × JsonObject)),
    entry.1 ≠ "" ∧ metaGet entry.2 "name" = .ok (some (.str entry.1)) := by
  simp

/-- A registry with the base and an overlay of it. -/
def overlayRegistry (overlay : JsonObject) :
    Except RegistryError (RegistryService plainLibraries) := do
  let service : RegistryService plainLibraries :=
    { manifests := [], configs := [], named := by simp }
  let service ← rawManifests.foldlM (fun s raw => return (← s.registerManifest raw).2) service
  let service ← service.registerConfig baseConfig
  service.registerConfig overlay

theorem eq_ok_of_toOption {ε α : Type} {x : Except ε α} {a : α}
    (h : x.toOption = some a) : x = .ok a := by
  cases x with
  | error e => simp [Except.toOption] at h
  | ok b => simpa [Except.toOption] using h

/-- The theorem at an overlay that changes the jitter buffer of its base. -/
theorem reproducible_overlay :
    ∃ service result,
      overlayRegistry (overlayConfig (.obj [("max_ms", .int 40)]) rfl) = .ok service ∧
      service.resolveConfig "overlay" = .ok result ∧
      ((∃ service' again, service.registerConfig result.resolved = .ok service' ∧
        service'.resolveConfig "overlay" = .ok again ∧
        Json.pyEq again.resolved.json result.resolved.json ∧ again.hash = result.hash) ↔
      service.KeepsInherited "overlay") := by
  have hrun : (do
      let service ← overlayRegistry (overlayConfig (.obj [("max_ms", .int 40)]) rfl)
      let _ ← service.resolveConfig "overlay"
      pure ()).toOption = some () := by
    decide +kernel
  have hrun := eq_ok_of_toOption hrun
  simp only [bind_eq_ok] at hrun
  obtain ⟨service, hservice, result, hresult, -⟩ := hrun
  exact ⟨service, result, hservice, hresult, reproducible_iff hresult⟩

/-- An overlay that sets the jitter buffer of its base to null: the resolved config has none,
and has the base's again when it is resolved again. -/
theorem nulled_jitter_buffer_returns :
    ∃ service result service' again,
      overlayRegistry (overlayConfig .null rfl) = .ok service ∧
      service.resolveConfig "overlay" = .ok result ∧
      service.registerConfig result.resolved = .ok service' ∧
      service'.resolveConfig "overlay" = .ok again ∧
      Json.pyEq again.resolved.json result.resolved.json = false := by
  have hrun : (do
      let service ← overlayRegistry (overlayConfig .null rfl)
      let result ← service.resolveConfig "overlay"
      let service' ← service.registerConfig result.resolved
      let again ← service'.resolveConfig "overlay"
      pure (Json.pyEq again.resolved.json result.resolved.json)).toOption = some false := by
    decide +kernel
  have hrun := eq_ok_of_toOption hrun
  simp only [bind_eq_ok] at hrun
  obtain ⟨service, hservice, result, hresult, service', hservice', again, hagain, heq⟩ := hrun
  exact ⟨service, result, service', again, hservice, hresult, hservice', hagain,
    Except.ok.inj heq⟩

end VoxBench.Registry
