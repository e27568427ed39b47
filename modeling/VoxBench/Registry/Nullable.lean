import VoxBench.Registry.Paths

/-!
# Which fields can be dropped

A contract lists the paths of its optional fields. A value is retained over a base when none
of the fields that it leaves null has a value there, and when no field of arbitrary type is
null, for such a field is required.

## Main definitions

* `Schema.nullable` — the paths of the optional fields outside lists.
* `AnyPresent` — no field of arbitrary type is null.

## Main results

* `retained_of_nullable` — `Retained` from the nulls at the optional paths.
* `nullable_voiceConfig` — the optional paths of a config.
-/

namespace VoxBench.Registry

open VoxBench.Lib VoxBench.ControlPlane

def Schema.isOptional : Schema → Bool
  | .optional _ => true
  | _ => false

mutual

/-- The paths of the optional fields, those inside lists apart. -/
def Schema.nullable : Schema → List (List String)
  | .model fields => nullableFields fields
  | .optional inner => inner.nullable
  | _ => []

def nullableFields : List (String × Schema × Option Json) → List (List String)
  | [] => []
  | (name, schema, _) :: fields =>
      (if schema.isOptional then [[name]] else []) ++ schema.nullable.map (name :: ·) ++
        nullableFields fields

end

mutual

/-- The fields with the default `None` are the optional ones. -/
def Schema.nullDefaults : Schema → Bool
  | .list item => item.nullDefaults
  | .optional inner => inner.nullDefaults
  | .model fields => nullDefaultsFields fields
  | _ => true

def nullDefaultsFields : List (String × Schema × Option Json) → Bool
  | [] => true
  | (_, schema, default) :: fields =>
      (schema.isOptional == default.any Json.isNull) && schema.nullDefaults &&
        nullDefaultsFields fields

end

mutual

/-- No field of arbitrary type is null. -/
def AnyPresent : Schema → Json → Prop
  | .list item, .arr items => ∀ x ∈ items, AnyPresent item x
  | .optional inner, value => value = .null ∨ AnyPresent inner value
  | .model fields, .obj values => AnyPresentFields fields values
  | _, _ => True

def AnyPresentFields : List (String × Schema × Option Json) → List (String × Json) → Prop
  | [], _ => True
  | (name, schema, _) :: fields, values =>
      (∀ value, Dict.get? values name = some value →
        (schema = .any → value ≠ .null) ∧ AnyPresent schema value) ∧
      AnyPresentFields fields values

end

theorem anyPresentFields_iff {fields : List (String × Schema × Option Json)}
    {values : List (String × Json)} :
    AnyPresentFields fields values ↔
      ∀ f ∈ fields, ∀ value, Dict.get? values f.1 = some value →
        (f.2.1 = .any → value ≠ .null) ∧ AnyPresent f.2.1 value := by
  induction fields with
  | nil => simp [AnyPresentFields]
  | cons f fields ih =>
      obtain ⟨name, schema, default⟩ := f
      simp only [AnyPresentFields, ih, List.forall_mem_cons]

theorem mem_nullableFields {fields : List (String × Schema × Option Json)}
    {f : String × Schema × Option Json} (hf : f ∈ fields) :
    (f.2.1.isOptional → [f.1] ∈ nullableFields fields) ∧
      ∀ p ∈ f.2.1.nullable, f.1 :: p ∈ nullableFields fields := by
  induction fields with
  | nil => simp at hf
  | cons g fields ih =>
      obtain ⟨name, schema, default⟩ := g
      rw [nullableFields]
      rcases List.mem_cons.mp hf with rfl | hf
      · exact ⟨fun h => by simp [h], fun p hp => by simp [hp]⟩
      · obtain ⟨hopt, hpath⟩ := ih hf
        exact ⟨fun h => List.mem_append_right _ (hopt h),
          fun p hp => List.mem_append_right _ (hpath p hp)⟩

theorem nullDefaultsFields_iff {fields : List (String × Schema × Option Json)} :
    nullDefaultsFields fields ↔ ∀ f ∈ fields,
      (f.2.1.isOptional ↔ f.2.2 = some .null) ∧ f.2.1.nullDefaults := by
  induction fields with
  | nil => simp [nullDefaultsFields]
  | cons f fields ih =>
      obtain ⟨name, schema, default⟩ := f
      have hnull : default.any Json.isNull = true ↔ default = some .null := by
        cases default with
        | none => simp
        | some d => cases d <;> simp [Json.isNull]
      simp only [nullDefaultsFields, Bool.and_eq_true, beq_iff_eq, ih, List.forall_mem_cons]
      rw [Bool.eq_iff_iff, hnull]

/-- Only optional fields and fields of arbitrary type can be null. -/
theorem ne_null_of_validate {lib : Libraries} {schema : Schema} {document value : Json}
    (h : validate lib schema document = some value) (ho : schema.isOptional = false)
    (ha : schema ≠ .any) : value ≠ .null := by
  rintro rfl
  have hdoc := validate_null_iff h
  cases schema with
  | any => exact ha rfl
  | optional inner => simp [Schema.isOptional] at ho
  | str | object | literal | list | model => simp [hdoc, validate] at h
  | int | bool => simp [validate] at h
  | float =>
      rw [validate] at h
      cases lib.toFloat_isFloat h

/-- Values of the contract are retained when the nulls at optional paths are nulls of the
base. -/
def Retainable (lib : Libraries) (schema : Schema) : Prop :=
  ∀ (base : Option Json) (document value : Json), validate lib schema document = some value →
    AnyPresent schema value →
    (∀ p ∈ schema.nullable, value.lookup p = some .null →
      baseLookup base p = none ∨ baseLookup base p = some .null) →
    Retained schema base value

mutual

theorem retained_of_nullable {lib : Libraries} : ∀ {schema : Schema}, schema.Canonical lib →
    schema.nullDefaults → Retainable lib schema
  | .str, _, _ | .int, _, _ | .bool, _, _ | .float, _, _ | .any, _, _ | .object, _, _
  | .literal _, _, _ => by
      intro base document value _ _ _
      simp [Retained]
  | .list item, hc, hn => by
      intro base document value hvalid hany _
      cases document with
      | arr items =>
          rw [validate] at hvalid
          obtain ⟨values, hvalues, rfl⟩ := Option.map_eq_some_iff.mp hvalid
          rw [mapM_eq_some_iff] at hvalues
          rw [AnyPresent] at hany
          rw [Retained]
          rw [Schema.Canonical] at hc
          rw [Schema.nullDefaults] at hn
          intro y hy
          obtain ⟨x, -, hxy⟩ := exists_mem_of_forall₂ hvalues hy
          exact retained_of_nullable hc hn none x y hxy (hany y hy) fun p _ _ => Or.inl rfl
      | null | bool | int | float | negZero | str | obj => simp [validate] at hvalid
  | .optional inner, hc, hn => by
      intro base document value hvalid hany hnulls
      rw [Retained]
      by_cases hnull : document = .null
      · subst hnull
        exact Or.inl (by simpa [validate] using hvalid.symm)
      · rw [validate_optional hnull] at hvalid
        rw [Schema.Canonical] at hc
        rw [Schema.nullDefaults] at hn
        rw [Schema.nullable] at hnulls
        rw [AnyPresent] at hany
        rcases hany with hany | hany
        · exact Or.inl hany
        · exact Or.inr (retained_of_nullable hc hn base document value hvalid hany hnulls)
  | .model fields, hc, hn => by
      intro base document value hvalid hany hnulls
      obtain ⟨given, values, rfl, rfl, -, hvalues⟩ := validate_model_eq_some_iff.mp hvalid
      rw [Schema.Canonical] at hc
      rw [Schema.nullDefaults] at hn
      rw [Schema.nullable] at hnulls
      rw [AnyPresent, anyPresentFields_iff] at hany
      rw [Retained, retainedFields_iff]
      intro f hf value hget
      obtain ⟨value', hget', hvalue⟩ := fieldValue_of_mem hc.1 hvalues hf
      obtain rfl : value = value' := Option.some.inj (hget.symm.trans hget')
      obtain ⟨hcf, hdefault⟩ := canonicalFields_iff.mp hc.2 f hf
      obtain ⟨hoptional, hnf⟩ := nullDefaultsFields_iff.mp hn f hf
      obtain ⟨hanyf, hanyValue⟩ := hany f hf value hget
      constructor
      · rintro rfl
        have hopt : f.2.1.isOptional = true := by
          by_contra hopt
          unfold fieldValue at hvalue
          split at hvalue
          · exact ne_null_of_validate hvalue (by simpa using hopt) (fun ha => hanyf ha rfl) rfl
          · exact hopt (hoptional.mpr hvalue)
        have hpath := hnulls [f.1] ((mem_nullableFields hf).1 hopt)
          (by rw [lookup_obj_cons hget, Json.lookup_nil])
        rw [baseLookup_singleton] at hpath
        exact ⟨hoptional.mp hopt, hpath⟩
      · intro hne
        -- a default is the validated form of its own dump
        obtain ⟨x, hx⟩ : ∃ x, validate lib f.2.1 x = some value := by
          unfold fieldValue at hvalue
          split at hvalue
          · exact ⟨_, hvalue⟩
          · exact ⟨_, (hdefault value hvalue).2 hne⟩
        refine retained_of_mem hc.2 hn f hf _ x value hx hanyValue fun p hp hlookup => ?_
        rw [← baseLookup_cons]
        exact hnulls (f.1 :: p) ((mem_nullableFields hf).2 p hp)
          (by rw [lookup_obj_cons hget, hlookup])

theorem retained_of_mem {lib : Libraries} :
    ∀ {fields : List (String × Schema × Option Json)}, CanonicalFields lib fields →
      nullDefaultsFields fields → ∀ f ∈ fields, Retainable lib f.2.1
  | [], _, _, f, hf => by simp at hf
  | (name, schema, default) :: fields, hc, hn, f, hf => by
      rw [CanonicalFields] at hc
      rw [nullDefaultsFields, Bool.and_eq_true, Bool.and_eq_true] at hn
      rcases List.mem_cons.mp hf with rfl | hf
      · exact retained_of_nullable hc.1 hn.1.2
      · exact retained_of_mem hc.2.2 hn.2 f hf

end

/-! ## Fields of arbitrary type -/

mutual

/-- The contract has a field of arbitrary type. -/
def Schema.hasAny : Schema → Bool
  | .any => true
  | .list item => item.hasAny
  | .optional inner => inner.hasAny
  | .model fields => hasAnyFields fields
  | _ => false

def hasAnyFields : List (String × Schema × Option Json) → Bool
  | [] => false
  | (_, schema, _) :: fields => schema.hasAny || hasAnyFields fields

end

mutual

theorem anyPresent_of_not_hasAny : ∀ {schema : Schema}, schema.hasAny = false →
    ∀ value, AnyPresent schema value
  | .str, _, _ | .int, _, _ | .bool, _, _ | .float, _, _ | .any, _, _ | .object, _, _
  | .literal _, _, _ => by simp [AnyPresent]
  | .list item, h, value => by
      rw [Schema.hasAny] at h
      cases value with
      | arr items =>
          rw [AnyPresent]
          exact fun x _ => anyPresent_of_not_hasAny h x
      | null | bool | int | float | negZero | str | obj => simp [AnyPresent]
  | .optional inner, h, value => by
      rw [Schema.hasAny] at h
      rw [AnyPresent]
      exact Or.inr (anyPresent_of_not_hasAny h value)
  | .model fields, h, value => by
      rw [Schema.hasAny] at h
      cases value with
      | obj values =>
          rw [AnyPresent]
          exact anyPresentFields_of_not_hasAny h values
      | null | bool | int | float | negZero | str | arr => simp [AnyPresent]

theorem anyPresentFields_of_not_hasAny : ∀ {fields : List (String × Schema × Option Json)},
    hasAnyFields fields = false → ∀ values, AnyPresentFields fields values
  | [], _, _ => by simp [AnyPresentFields]
  | (name, schema, default) :: fields, h, values => by
      rw [hasAnyFields, Bool.or_eq_false_iff] at h
      rw [AnyPresentFields]
      refine ⟨fun value _ => ⟨?_, anyPresent_of_not_hasAny h.1 value⟩,
        anyPresentFields_of_not_hasAny h.2 values⟩
      rintro rfl
      simp [Schema.hasAny] at h

end

/-- The optional fields of a config. -/
theorem nullable_voiceConfig : Schema.voiceConfig.nullable =
    [["meta", "parent"], ["spec", "transport", "jitter_buffer"],
      ["spec", "turn_taking", "detector"], ["spec", "ai", "system_prompt_ref"]] := by
  decide

theorem nullDefaults_voiceConfig : Schema.voiceConfig.nullDefaults := by
  decide

end VoxBench.Registry
