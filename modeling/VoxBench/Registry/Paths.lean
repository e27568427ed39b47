import VoxBench.Registry.Validation
import VoxBench.Registry.Hashing

/-!
# Paths into documents

Replacing the value at the end of a path, and how validation, dumping and merging act on the
values along a path of model fields.

## Main definitions

* `setPath` — replace the value at a path.
* `Schema.descend` — the type of the field at the end of a path.

## Main results

* `validate_lookup` — the value at a path of a validated document.
* `validate_setPath`, `dump_setPath`, `mergeValue_setPath` — replacing a value commutes with
  the steps of a resolution.
-/

namespace VoxBench.Registry

open VoxBench.Lib VoxBench.ControlPlane

/-- Replace the value at a path of keys. -/
def setPath (value : Json) : List String → Json → Json
  | [], _ => value
  | key :: path, .obj fields =>
      .obj (Dict.set fields key (setPath value path ((Dict.get? fields key).getD .null)))
  | _, document => document

/-- The type of the field at the end of a path. -/
def Schema.descend : Schema → List String → Option Schema
  | schema, [] => some schema
  | .model fields, key :: path =>
      match Dict.get? fields key with
      | some f => f.1.descend path
      | none => none
  | _, _ => none

/-! ## Lookups -/

/-- A path that can be followed starts at an object. -/
theorem exists_obj_of_lookup {document value : Json} {key : String} {path : List String}
    (h : document.lookup (key :: path) = some value) :
    ∃ fields next, document = .obj fields ∧ Dict.get? fields key = some next ∧
      next.lookup path = some value := by
  rw [Json.lookup_cons] at h
  obtain ⟨next, hnext, hlookup⟩ := Option.bind_eq_some_iff.mp h
  cases document with
  | obj fields => exact ⟨fields, next, rfl, hnext, hlookup⟩
  | null | bool | int | float | negZero | str | arr => simp [Json.get?] at hnext

theorem lookup_obj_cons {fields : List (String × Json)} {key : String} {next : Json}
    (h : Dict.get? fields key = some next) (path : List String) :
    (Json.obj fields).lookup (key :: path) = next.lookup path := by
  rw [Json.lookup_cons, Json.get?_obj, h, Option.bind_some]

theorem setPath_obj_cons {value next : Json} {fields : List (String × Json)} {key : String}
    (h : Dict.get? fields key = some next) (path : List String) :
    setPath value (key :: path) (.obj fields) =
      .obj (Dict.set fields key (setPath value path next)) := by
  simp [setPath, h]

theorem lookup_setPath_self {value document : Json} {path : List String}
    (h : (document.lookup path).isSome) : (setPath value path document).lookup path = some value := by
  induction path generalizing document with
  | nil => simp [setPath]
  | cons key path ih =>
      obtain ⟨old, hold⟩ := Option.isSome_iff_exists.mp h
      obtain ⟨fields, next, rfl, hnext, hlookup⟩ := exists_obj_of_lookup hold
      rw [setPath_obj_cons hnext, lookup_obj_cons (by rw [Dict.get?_set, if_pos rfl])]
      exact ih (by rw [hlookup]; rfl)

/-- A path that leaves the replaced one is unaffected. -/
theorem lookup_setPath_of_fork {value document : Json} (common : List String) {a b : String}
    (hne : a ≠ b) (p q : List String) :
    (setPath value (common ++ a :: p) document).lookup (common ++ b :: q) =
      document.lookup (common ++ b :: q) := by
  induction common generalizing document with
  | nil =>
      cases document with
      | obj fields =>
          simp only [List.nil_append, setPath, Json.lookup_cons, Json.get?_obj, Dict.get?_set,
            if_neg hne]
      | null | bool | int | float | negZero | str | arr => simp [setPath]
  | cons key common ih =>
      cases document with
      | obj fields =>
          simp only [List.cons_append, setPath, Json.lookup_cons, Json.get?_obj, Dict.get?_set,
            if_true, Option.bind_some, ih]
          cases hget : Dict.get? fields key with
          | some next => simp
          | none =>
              -- nothing is found below a key that is not there
              cases common <;> simp [Json.lookup_cons, Json.get?]
      | null | bool | int | float | negZero | str | arr => simp [setPath]

theorem setPath_setPath {x y document : Json} (path : List String) :
    setPath y path (setPath x path document) = setPath y path document := by
  induction path generalizing document with
  | nil => simp [setPath]
  | cons key path ih =>
      cases document with
      | obj fields => simp [setPath, Dict.get?_set, Dict.set_set, ih]
      | null | bool | int | float | negZero | str | arr => simp [setPath]

theorem keyed_setPath {value document : Json} (hv : value.keyed) (path : List String)
    (hd : document.keyed) : (setPath value path document).keyed := by
  induction path generalizing document with
  | nil => simpa [setPath] using hv
  | cons key path ih =>
      cases document with
      | obj fields =>
          rw [setPath, Json.keyed_obj_iff]
          obtain ⟨hkeys, hvalues⟩ := Json.keyed_obj_iff.mp hd
          refine ⟨Dict.nodup_keys_set hkeys _ _, fun f hf => ?_⟩
          rcases Dict.mem_set hf with rfl | hf
          · refine ih ?_
            cases hget : Dict.get? fields key with
            | none => rfl
            | some next => exact hvalues _ (Dict.mem_of_get?_eq_some hget)
          · exact hvalues f hf
      | null | bool | int | float | negZero | str | arr => simpa [setPath] using hd

/-! ## Merging -/

/-- A value of the overlay that is no object stands in the merged document. -/
theorem lookup_mergeValue {base : Option Json} {overlay value : Json} {path : List String}
    (hk : overlay.keyed) (h : overlay.lookup path = some value) (hv : ¬ IsObj value) :
    (mergeValue base overlay).lookup path = some value := by
  induction path generalizing base overlay with
  | nil =>
      obtain rfl : overlay = value := by simpa using h
      rw [mergeValue_of_not_obj fun hobj => hv hobj.2, Json.lookup_nil]
  | cons key path ih =>
      obtain ⟨fields, next, rfl, hnext, hlookup⟩ := exists_obj_of_lookup h
      obtain ⟨merged, hmerged⟩ := exists_mergeValue_obj base fields
      have hget := get?_mergeValue (Json.keyed_obj_iff.mp hk).1 hmerged key
      simp only [hnext] at hget
      rw [hmerged, lookup_obj_cons hget]
      exact ih (Json.keyed_of_get? hk hnext) hlookup

/-- The value of the base at a path. -/
def baseLookup (base : Option Json) (path : List String) : Option Json :=
  base.bind fun document => document.lookup path

theorem baseLookup_cons (base : Option Json) (key : String) (path : List String) :
    baseLookup base (key :: path) = baseLookup (baseField base key) path := by
  cases base with
  | none => rfl
  | some document => exact Json.lookup_cons document key path

theorem baseLookup_singleton (base : Option Json) (key : String) :
    baseLookup base [key] = baseField base key := by
  rw [baseLookup_cons]
  cases baseField base key with
  | none => rfl
  | some value => exact Json.lookup_nil value

/-- A value of a merged document is one of the overlay, merged, or one of the base. -/
theorem lookup_mergeValue_cases {base : Option Json} {overlay result : Json} {path : List String}
    (hk : overlay.keyed) (h : (mergeValue base overlay).lookup path = some result) :
    (∃ x, overlay.lookup path = some x ∧ result = mergeValue (baseLookup base path) x) ∨
      (overlay.lookup path = none ∧ baseLookup base path = some result) := by
  induction path generalizing base overlay with
  | nil =>
      refine Or.inl ⟨overlay, by simp, ?_⟩
      rw [Json.lookup_nil] at h
      have hbase : baseLookup base [] = base := by
        cases base <;> simp [baseLookup]
      rw [hbase, Option.some.inj h]
  | cons key path ih =>
      cases overlay with
      | obj fields =>
          obtain ⟨merged, hmerged⟩ := exists_mergeValue_obj base fields
          have hget := get?_mergeValue (Json.keyed_obj_iff.mp hk).1 hmerged key
          rw [hmerged, Json.lookup_cons, Json.get?_obj] at h
          rw [Json.lookup_cons, Json.get?_obj, baseLookup_cons]
          cases hfield : Dict.get? fields key with
          | none =>
              simp only [hfield] at hget
              rw [hget] at h
              exact Or.inr ⟨rfl, h⟩
          | some x =>
              simp only [hfield] at hget
              rw [hget, Option.bind_some] at h
              exact ih (Json.keyed_of_get? hk hfield) h
      | null | bool | int | float | negZero | str | arr =>
          simp [mergeValue, Json.lookup_cons, Json.get?] at h

/-- A key that an object of the overlay lacks comes from the base. -/
theorem lookup_mergeValue_base {base : Option Json} {overlay value : Json}
    {fields : List (String × Json)} {path : List String} {key : String} (hk : overlay.keyed)
    (ho : overlay.lookup path = some (.obj fields)) (hkey : Dict.get? fields key = none)
    (hb : baseLookup base (path ++ [key]) = some value) :
    (mergeValue base overlay).lookup (path ++ [key]) = some value := by
  induction path generalizing base overlay with
  | nil =>
      obtain rfl : overlay = .obj fields := by simpa using ho
      obtain ⟨merged, hmerged⟩ := exists_mergeValue_obj base fields
      have hget := get?_mergeValue (Json.keyed_obj_iff.mp hk).1 hmerged key
      simp only [hkey] at hget
      rw [List.nil_append, baseLookup_singleton] at hb
      rw [List.nil_append, hmerged, lookup_obj_cons (hget.trans hb), Json.lookup_nil]
  | cons k path ih =>
      obtain ⟨outer, next, rfl, hnext, hlookup⟩ := exists_obj_of_lookup ho
      obtain ⟨merged, hmerged⟩ := exists_mergeValue_obj base outer
      have hget := get?_mergeValue (Json.keyed_obj_iff.mp hk).1 hmerged k
      simp only [hnext] at hget
      rw [List.cons_append, baseLookup_cons] at hb
      rw [List.cons_append, hmerged, lookup_obj_cons hget]
      exact ih (Json.keyed_of_get? hk hnext) hlookup hb

/-- Assigning to a key of the overlay, before or after the merge. -/
theorem mergeValue_set {base : Option Json} {fields merged : List (String × Json)} {key : String}
    {value : Json} (hk : (Dict.keys fields).Nodup) (hb : ∀ b, base = some b → b.keyed)
    (hkey : key ∈ Dict.keys fields) (h : mergeValue base (.obj fields) = .obj merged) :
    mergeValue base (.obj (Dict.set fields key value)) =
      .obj (Dict.set merged key (mergeValue (baseField base key) value)) := by
  by_cases hobj : ∃ b, base = some (.obj b)
  · obtain ⟨b, rfl⟩ := hobj
    rw [mergeValue_obj] at h ⊢
    obtain rfl := Json.obj.inj h
    have hbase := (Json.keyed_obj_iff.mp (hb _ rfl)).1
    have hset : (Dict.keys (Dict.set fields key value)).Nodup := Dict.nodup_keys_set hk _ _
    have hsame : Dict.keys (Dict.set fields key value) = Dict.keys fields := by
      rw [Dict.keys_set, if_pos hkey]
    have hmem : key ∈ Dict.keys (deepMerge b fields) := mem_keys_deepMerge.mpr (Or.inr hkey)
    refine congrArg Json.obj (Dict.ext_of_keys (nodup_keys_deepMerge hbase _) ?_ fun k _ => ?_)
    · rw [keys_deepMerge hset, hsame, Dict.keys_set, if_pos hmem, keys_deepMerge hk]
    · rw [get?_deepMerge hset, Dict.get?_set, Dict.get?_set, get?_deepMerge hk]
      by_cases hkk : key = k
      · subst hkk
        simp [baseField, Json.get?_obj]
      · simp [hkk]
  · have hskip : ∀ document, mergeValue base document = document := by
      intro document
      refine mergeValue_of_not_obj ?_
      rintro ⟨⟨v, rfl, b, rfl⟩, -⟩
      exact hobj ⟨b, rfl⟩
    have hnone : mergeValue (baseField base key) value = value := by
      refine mergeValue_of_not_obj ?_
      rintro ⟨⟨v, hv, -⟩, -⟩
      cases base with
      | none => simp [baseField] at hv
      | some document =>
          cases document with
          | obj b => exact hobj ⟨b, rfl⟩
          | null | bool | int | float | negZero | str | arr => simp [baseField, Json.get?] at hv
    rw [hskip] at h ⊢
    obtain rfl := Json.obj.inj h
    rw [hnone]

/-- Replacing a value of the overlay by an array, before or after the merge. -/
theorem mergeValue_setPath {base : Option Json} {overlay : Json} {items : List Json}
    {path : List String} (hk : overlay.keyed) (hb : ∀ b, base = some b → b.keyed)
    (h : (overlay.lookup path).isSome) :
    mergeValue base (setPath (.arr items) path overlay) =
      setPath (.arr items) path (mergeValue base overlay) := by
  induction path generalizing base overlay with
  | nil => simp [setPath, mergeValue]
  | cons key path ih =>
      obtain ⟨old, hold⟩ := Option.isSome_iff_exists.mp h
      obtain ⟨fields, next, rfl, hnext, hlookup⟩ := exists_obj_of_lookup hold
      obtain ⟨merged, hmerged⟩ := exists_mergeValue_obj base fields
      have hkeys := (Json.keyed_obj_iff.mp hk).1
      have hget := get?_mergeValue hkeys hmerged key
      simp only [hnext] at hget
      have hkey : key ∈ Dict.keys fields := by
        rw [← Dict.isSome_get?_iff, hnext]
        rfl
      have hbase : ∀ b, baseField base key = some b → b.keyed := by
        intro b hbk
        obtain ⟨document, hdoc, hget⟩ := Option.bind_eq_some_iff.mp hbk
        exact Json.keyed_of_get? (hb document hdoc) hget
      rw [setPath_obj_cons hnext, mergeValue_set hkeys hb hkey hmerged, hmerged,
        setPath_obj_cons hget, ih (Json.keyed_of_get? hk hnext) hbase (by rw [hlookup]; rfl)]

/-! ## Validation -/

section Validate

variable {lib : Libraries}

/-- One step along a path of fields. -/
theorem descend_cons {schema target : Schema} {key : String} {path : List String}
    (h : schema.descend (key :: path) = some target) :
    ∃ fields f, schema = .model fields ∧ f ∈ fields ∧ f.1 = key ∧
      f.2.1.descend path = some target := by
  cases schema with
  | model fields =>
      rw [Schema.descend] at h
      cases hget : Dict.get? fields key with
      | none => simp [hget] at h
      | some f =>
          simp only [hget] at h
          exact ⟨fields, (key, f), rfl, Dict.mem_of_get?_eq_some hget, rfl, h⟩
  | str | int | bool | float | any | object | literal | list | optional =>
      simp [Schema.descend] at h

theorem canonical_descend {schema target : Schema} {path : List String}
    (hc : schema.Canonical lib) (h : schema.descend path = some target) :
    target.Canonical lib := by
  induction path generalizing schema with
  | nil =>
      obtain rfl : schema = target := by simpa [Schema.descend] using h
      exact hc
  | cons key path ih =>
      obtain ⟨fields, f, rfl, hf, -, hdescend⟩ := descend_cons h
      rw [Schema.Canonical] at hc
      exact ih (canonicalFields_iff.mp hc.2 f hf).1 hdescend

/-- The value at a path of a validated document is the raw one validated. -/
theorem validate_lookup {schema target : Schema} {document value raw : Json} {path : List String}
    (hc : schema.Canonical lib) (hpath : schema.descend path = some target)
    (hvalid : validate lib schema document = some value) (hraw : document.lookup path = some raw) :
    ∃ result, value.lookup path = some result ∧ validate lib target raw = some result := by
  induction path generalizing schema document value with
  | nil =>
      obtain rfl : schema = target := by simpa [Schema.descend] using hpath
      obtain rfl : document = raw := by simpa using hraw
      exact ⟨value, by simp, hvalid⟩
  | cons key path ih =>
      obtain ⟨fields, f, rfl, hf, rfl, hdescend⟩ := descend_cons hpath
      obtain ⟨given, values, rfl, rfl, -, hvalues⟩ := validate_model_eq_some_iff.mp hvalid
      rw [Schema.Canonical] at hc
      obtain ⟨next, hget, hnext⟩ := fieldValue_of_mem hc.1 hvalues hf
      obtain ⟨given', rawNext, heq, hrawNext, hlookup⟩ := exists_obj_of_lookup hraw
      obtain rfl := Json.obj.inj heq
      rw [fieldValue, hrawNext] at hnext
      rw [lookup_obj_cons hget]
      exact ih (canonicalFields_iff.mp hc.2 f hf).1 hdescend hnext hlookup

/-- The type of the field at the end of a path of required fields. -/
def Schema.descendRequired : Schema → List String → Option Schema
  | schema, [] => some schema
  | .model fields, key :: path =>
      match Dict.get? fields key with
      | some (type, none) => type.descendRequired path
      | _ => none
  | _, _ => none

theorem descend_of_descendRequired {schema target : Schema} {path : List String}
    (h : schema.descendRequired path = some target) : schema.descend path = some target := by
  induction path generalizing schema with
  | nil => simpa [Schema.descend, Schema.descendRequired] using h
  | cons key path ih =>
      cases schema with
      | model fields =>
          rw [Schema.descendRequired] at h
          rw [Schema.descend]
          split at h
          · rename_i type hget
            rw [hget]
            exact ih h
          · cases h
      | str | int | bool | float | any | object | literal | list | optional =>
          simp [Schema.descendRequired] at h

/-- Required fields are in the raw document. -/
theorem lookup_of_required {schema target : Schema} {document value : Json} {path : List String}
    (hc : schema.Canonical lib) (hpath : schema.descendRequired path = some target)
    (hvalid : validate lib schema document = some value) :
    ∃ raw result, document.lookup path = some raw ∧ value.lookup path = some result ∧
      validate lib target raw = some result := by
  induction path generalizing schema document value with
  | nil =>
      obtain rfl : schema = target := by simpa [Schema.descendRequired] using hpath
      exact ⟨document, value, by simp, by simp, hvalid⟩
  | cons key path ih =>
      cases schema with
      | model fields =>
          rw [Schema.descendRequired] at hpath
          split at hpath
          · rename_i type hget
            have hf := Dict.mem_of_get?_eq_some hget
            obtain ⟨given, values, rfl, rfl, -, hvalues⟩ := validate_model_eq_some_iff.mp hvalid
            rw [Schema.Canonical] at hc
            obtain ⟨next, hnext, hfield⟩ := fieldValue_of_mem hc.1 hvalues hf
            rw [fieldValue] at hfield
            split at hfield
            · rename_i raw hraw
              rw [lookup_obj_cons hraw, lookup_obj_cons hnext]
              exact ih (canonicalFields_iff.mp hc.2 _ hf).1 hpath hfield
            · cases hfield
          · cases hpath
      | str | int | bool | float | any | object | literal | list | optional =>
          simp [Schema.descendRequired] at hpath

/-- A field of an object that is reached through required fields: the raw value validated,
else the default. -/
theorem lookup_field {schema : Schema} {fields : List (String × Schema × Option Json)}
    {document value : Json} {path : List String} (hc : schema.Canonical lib)
    (hpath : schema.descendRequired path = some (.model fields))
    (hvalid : validate lib schema document = some value)
    {f : String × Schema × Option Json} (hf : f ∈ fields) :
    ∃ given result, document.lookup path = some (.obj given) ∧
      value.lookup (path ++ [f.1]) = some result ∧ fieldValue lib f given = some result := by
  obtain ⟨raw, model, hraw, hmodel, hvalid'⟩ := lookup_of_required hc hpath hvalid
  have hcm : (Schema.model fields).Canonical lib := canonical_descend hc (descend_of_descendRequired hpath)
  rw [Schema.Canonical] at hcm
  obtain ⟨given, values, rfl, rfl, -, hvalues⟩ := validate_model_eq_some_iff.mp hvalid'
  obtain ⟨result, hget, hfield⟩ := fieldValue_of_mem hcm.1 hvalues hf
  refine ⟨given, result, hraw, ?_, hfield⟩
  rw [Json.lookup_append, hmodel, Option.bind_some, lookup_obj_cons hget, Json.lookup_nil]

/-- The fields of a model, when one of them gets another value. -/
theorem validated_set {fields : List (String × Schema × Option Json)}
    {given given' values : List (String × Json)} (hd : (Dict.keys fields).Nodup)
    (h : List.Forall₂ (fun f kv => f.1 = kv.1 ∧ fieldValue lib f given = some kv.2) fields values)
    {f : String × Schema × Option Json} (hf : f ∈ fields) {y : Json}
    (hy : fieldValue lib f given' = some y)
    (hother : ∀ g ∈ fields, g.1 ≠ f.1 → fieldValue lib g given' = fieldValue lib g given) :
    List.Forall₂ (fun f kv => f.1 = kv.1 ∧ fieldValue lib f given' = some kv.2) fields
      (Dict.set values f.1 y) := by
  induction h with
  | nil => simp at hf
  | @cons g kv fields values hg htail ih =>
      obtain ⟨hgd, hd⟩ := List.nodup_cons.mp hd
      by_cases hgf : g.1 = f.1
      · have hsame : f = g := by
          rcases List.mem_cons.mp hf with rfl | hf
          · rfl
          · exact absurd (List.mem_map_of_mem (f := Prod.fst) hf) (hgf ▸ hgd)
        subst hsame
        rw [Dict.set, if_pos hg.1.symm]
        refine List.Forall₂.cons ⟨rfl, hy⟩ (validated_congr htail fun e he => ?_)
        refine hother e (List.mem_cons_of_mem f he) fun heq => hgd ?_
        exact heq ▸ List.mem_map_of_mem (f := Prod.fst) he
      · have hmem : f ∈ fields := by
          rcases List.mem_cons.mp hf with rfl | hf
          · exact absurd rfl hgf
          · exact hf
        rw [Dict.set, if_neg (hg.1 ▸ hgf)]
        refine List.Forall₂.cons ⟨hg.1, ?_⟩
          (ih hd hmem fun e he => hother e (List.mem_cons_of_mem g he))
        rw [hother g (by simp) hgf]
        exact hg.2

/-- Replacing a raw value replaces the validated one. -/
theorem validate_setPath {schema target : Schema} {document value raw x y : Json}
    {path : List String} (hc : schema.Canonical lib) (hpath : schema.descend path = some target)
    (hvalid : validate lib schema document = some value) (hraw : document.lookup path = some raw)
    (hxy : validate lib target x = some y) :
    validate lib schema (setPath x path document) = some (setPath y path value) := by
  induction path generalizing schema document value with
  | nil =>
      obtain rfl : schema = target := by simpa [Schema.descend] using hpath
      simpa [setPath] using hxy
  | cons key path ih =>
      obtain ⟨fields, f, rfl, hf, rfl, hdescend⟩ := descend_cons hpath
      obtain ⟨given, values, rfl, rfl, hknown, hvalues⟩ := validate_model_eq_some_iff.mp hvalid
      rw [Schema.Canonical] at hc
      obtain ⟨next, hget, hnext⟩ := fieldValue_of_mem hc.1 hvalues hf
      obtain ⟨given', rawNext, heq, hrawNext, hlookup⟩ := exists_obj_of_lookup hraw
      obtain rfl := Json.obj.inj heq
      rw [fieldValue, hrawNext] at hnext
      have hrec := ih (canonicalFields_iff.mp hc.2 f hf).1 hdescend hnext hlookup
      rw [setPath_obj_cons hrawNext, setPath_obj_cons hget, validate_model_eq_some_iff]
      have hkey : f.1 ∈ Dict.keys given := by
        rw [← Dict.isSome_get?_iff, hrawNext]
        rfl
      refine ⟨_, _, rfl, rfl, ?_, ?_⟩
      · rwa [Dict.keys_set, if_pos hkey]
      · refine validated_set hc.1 hvalues hf ?_ fun g _ hne => ?_
        · rw [fieldValue, Dict.get?_set, if_pos rfl]
          exact hrec
        · rw [fieldValue, fieldValue, Dict.get?_set, if_neg (Ne.symm hne)]

end Validate

/-! ## Dumping -/

/-- A path to a value that is not null does not start at null. -/
theorem ne_null_of_lookup {document x : Json} {path : List String}
    (h : document.lookup path = some x) (hx : x ≠ .null) : document ≠ .null := by
  rintro rfl
  cases path with
  | nil => exact hx (by simpa using h.symm)
  | cons key path => simp [Json.lookup_cons, Json.get?] at h

/-- A value that is not dropped is dumped at its path. -/
theorem lookup_dump {lib : Libraries} {schema target : Schema} {value x : Json}
    {path : List String} (hc : schema.Canonical lib) (hpath : schema.descend path = some target)
    (h : value.lookup path = some x) (hx : x ≠ .null) :
    (dump schema value).lookup path = some (dump target x) := by
  induction path generalizing schema value with
  | nil =>
      obtain rfl : schema = target := by simpa [Schema.descend] using hpath
      obtain rfl : value = x := by simpa using h
      simp
  | cons key path ih =>
      obtain ⟨fields, f, rfl, hf, rfl, hdescend⟩ := descend_cons hpath
      obtain ⟨values, next, rfl, hget, hlookup⟩ := exists_obj_of_lookup h
      rw [Schema.Canonical] at hc
      have hdump : Dict.get? (dumpFields fields values) f.1 = some (dump f.2.1 next) :=
        get?_dumpFields_of_ne_null hc.1 hf hget (ne_null_of_lookup hlookup hx)
      rw [dump, lookup_obj_cons hdump]
      exact ih (canonicalFields_iff.mp hc.2 f hf).1 hdescend hlookup

/-- A null field is not dumped. -/
theorem lookup_dump_null {lib : Libraries} {schema target : Schema} {value : Json}
    {path : List String} (hc : schema.Canonical lib) (hpath : schema.descend path = some target)
    (hne : path ≠ []) (h : value.lookup path = some .null) :
    (dump schema value).lookup path = none := by
  induction path generalizing schema value with
  | nil => exact absurd rfl hne
  | cons key path ih =>
      obtain ⟨fields, f, rfl, hf, rfl, hdescend⟩ := descend_cons hpath
      obtain ⟨values, next, rfl, hget, hlookup⟩ := exists_obj_of_lookup h
      rw [Schema.Canonical] at hc
      rw [dump, Json.lookup_cons, Json.get?_obj]
      cases path with
      | nil =>
          obtain rfl : next = .null := by simpa using hlookup
          rw [get?_dumpFields hc.1 values hf, hget]
          rfl
      | cons k path =>
          obtain ⟨inner, _, rfl, -, -⟩ := exists_obj_of_lookup hlookup
          rw [get?_dumpFields_of_ne_null hc.1 hf hget (by simp), Option.bind_some]
          exact ih (canonicalFields_iff.mp hc.2 f hf).1 hdescend (by simp) hlookup

/-- The dump reads only the fields of the contract. -/
theorem dumpFields_congr {fields : List (String × Schema × Option Json)}
    {values values' : List (String × Json)}
    (h : ∀ f ∈ fields, Dict.get? values f.1 = Dict.get? values' f.1) :
    dumpFields fields values = dumpFields fields values' := by
  induction fields with
  | nil => simp [dumpFields]
  | cons f fields ih =>
      rw [dumpFields_cons, dumpFields_cons, h f (by simp),
        ih fun g hg => h g (List.mem_cons_of_mem f hg)]

theorem dumpFields_set {fields : List (String × Schema × Option Json)}
    (hd : (Dict.keys fields).Nodup) {values : List (String × Json)}
    {f : String × Schema × Option Json} (hf : f ∈ fields) {x y : Json}
    (hget : Dict.get? values f.1 = some x) (hx : x ≠ .null) (hy : y ≠ .null) :
    dumpFields fields (Dict.set values f.1 y) =
      Dict.set (dumpFields fields values) f.1 (dump f.2.1 y) := by
  induction fields with
  | nil => simp at hf
  | cons g fields ih =>
      obtain ⟨hg, hd⟩ := List.nodup_cons.mp hd
      by_cases hgf : g.1 = f.1
      · have hsame : f = g := by
          rcases List.mem_cons.mp hf with rfl | hf
          · rfl
          · exact absurd (List.mem_map_of_mem (f := Prod.fst) hf) (hgf ▸ hg)
        subst hsame
        have hrest : dumpFields fields (Dict.set values f.1 y) = dumpFields fields values := by
          refine dumpFields_congr fun e he => ?_
          have hne : f.1 ≠ e.1 := fun heq => hg (heq ▸ List.mem_map_of_mem (f := Prod.fst) he)
          rw [Dict.get?_set, if_neg hne]
        have hset : Dict.get? (Dict.set values f.1 y) f.1 = some y := by
          rw [Dict.get?_set, if_pos rfl]
        rw [dumpFields_cons_of_ne_null fields hset hy, dumpFields_cons_of_ne_null fields hget hx,
          hrest, Dict.set, if_pos rfl]
      · have hmem : f ∈ fields := by
          rcases List.mem_cons.mp hf with rfl | hf
          · exact absurd rfl hgf
          · exact hf
        rw [dumpFields_cons, dumpFields_cons, Dict.get?_set, if_neg (Ne.symm hgf), ih hd hmem]
        split
        · rfl
        · rfl
        · rw [Dict.set, if_neg hgf]

/-- Replacing a value by one that is not dropped either replaces the dumped one. -/
theorem dump_setPath {lib : Libraries} {schema target : Schema} {value x y : Json}
    {path : List String} (hc : schema.Canonical lib) (hpath : schema.descend path = some target)
    (h : value.lookup path = some x) (hx : x ≠ .null) (hy : y ≠ .null) :
    dump schema (setPath y path value) = setPath (dump target y) path (dump schema value) := by
  induction path generalizing schema value with
  | nil =>
      obtain rfl : schema = target := by simpa [Schema.descend] using hpath
      simp [setPath]
  | cons key path ih =>
      obtain ⟨fields, f, rfl, hf, rfl, hdescend⟩ := descend_cons hpath
      obtain ⟨values, next, rfl, hget, hlookup⟩ := exists_obj_of_lookup h
      rw [Schema.Canonical] at hc
      have hnext : next ≠ .null := ne_null_of_lookup hlookup hx
      have hset : setPath y path next ≠ .null := by
        cases path with
        | nil => simpa [setPath] using hy
        | cons k path =>
            obtain ⟨fields', next', rfl, hget', -⟩ := exists_obj_of_lookup hlookup
            rw [setPath_obj_cons hget']
            simp
      have hdump : Dict.get? (dumpFields fields values) f.1 = some (dump f.2.1 next) :=
        get?_dumpFields_of_ne_null hc.1 hf hget hnext
      rw [setPath_obj_cons hget, dump, dump, setPath_obj_cons hdump,
        dumpFields_set hc.1 hf hget hnext hset,
        ih (canonicalFields_iff.mp hc.2 f hf).1 hdescend hlookup]

/-! ## Equality up to the order of keys -/

/-- Equal documents have equal values at every path. -/
theorem lookup_of_pyEq {a b x : Json} {path : List String} (h : Json.pyEq a b)
    (hx : a.lookup path = some x) : ∃ y, b.lookup path = some y ∧ Json.pyEq x y := by
  induction path generalizing a b with
  | nil =>
      obtain rfl : a = x := by simpa using hx
      exact ⟨b, by simp, h⟩
  | cons key path ih =>
      obtain ⟨fields, next, rfl, hnext, hlookup⟩ := exists_obj_of_lookup hx
      cases b with
      | obj fields' =>
          rw [Json.pyEq, Bool.and_eq_true, Json.pyEqFields_iff] at h
          obtain ⟨next', hnext', heq⟩ := h.2 _ (Dict.mem_of_get?_eq_some hnext)
          rw [lookup_obj_cons hnext']
          exact ih heq hlookup
      | null | bool | int | float | negZero | str | arr => simp [Json.pyEq, Json.number?] at h

theorem pyEq_set {fields : List (String × Json)} (hk : (Json.obj fields).keyed) (key : String)
    {x y : Json} (h : Json.pyEq x y) :
    Json.pyEq (.obj (Dict.set fields key x)) (.obj (Dict.set fields key y)) := by
  have hkeys : ∀ v, (Dict.set fields key v).length = (Dict.keys (Dict.set fields key v)).length :=
    fun v => (List.length_map ..).symm
  rw [Json.pyEq, Bool.and_eq_true, beq_iff_eq, Json.pyEqFields_iff]
  obtain ⟨hd, hvalues⟩ := Json.keyed_obj_iff.mp hk
  refine ⟨by rw [hkeys, hkeys, Dict.keys_set, Dict.keys_set], fun f hf => ?_⟩
  have hget := Dict.get?_eq_some_of_mem (Dict.nodup_keys_set hd key x) hf
  rw [Dict.get?_set] at hget ⊢
  by_cases hkey : key = f.1
  · rw [if_pos hkey] at hget ⊢
    exact ⟨y, rfl, Option.some.inj hget ▸ h⟩
  · rw [if_neg hkey] at hget ⊢
    exact ⟨f.2, hget, Json.pyEq_self (hvalues _ (Dict.mem_of_get?_eq_some hget))⟩

theorem pyEq_setPath {document x y : Json} (hk : document.keyed) (h : Json.pyEq x y)
    (path : List String) : Json.pyEq (setPath x path document) (setPath y path document) := by
  induction path generalizing document with
  | nil => simpa [setPath] using h
  | cons key path ih =>
      cases document with
      | obj fields =>
          rw [setPath, setPath]
          refine pyEq_set hk key (ih ?_)
          cases hget : Dict.get? fields key with
          | none => rfl
          | some next => exact Json.keyed_of_get? hk hget
      | null | bool | int | float | negZero | str | arr =>
          rw [setPath, setPath]
          · exact Json.pyEq_self hk
          all_goals simp

theorem sortKeys_set {fields : List (String × Json)} {key : String} {x y : Json}
    (h : x.sortKeys = y.sortKeys) :
    (Json.obj (Dict.set fields key x)).sortKeys = (Json.obj (Dict.set fields key y)).sortKeys := by
  rw [Json.sortKeys, Json.sortKeys, Json.sortFields_eq_map, Json.sortFields_eq_map]
  have hmap : ∀ v, (Dict.set fields key v).map (fun f => (f.1, f.2.sortKeys)) =
      Dict.set (fields.map fun f => (f.1, f.2.sortKeys)) key v.sortKeys := by
    intro v
    induction fields with
    | nil => rfl
    | cons f fields ih => by_cases hf : f.1 = key <;> simp [Dict.set, hf, ih]
  rw [hmap, hmap, h]

theorem sortKeys_setPath {document x y : Json} (h : x.sortKeys = y.sortKeys)
    (path : List String) :
    (setPath x path document).sortKeys = (setPath y path document).sortKeys := by
  induction path generalizing document with
  | nil => simpa [setPath] using h
  | cons key path ih =>
      cases document with
      | obj fields =>
          rw [setPath, setPath]
          exact sortKeys_set ih
      | null | bool | int | float | negZero | str | arr => simp [setPath]

end VoxBench.Registry
