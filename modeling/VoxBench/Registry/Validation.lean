import VoxBench.Registry.Schemas
import VoxBench.Lib.Traverse

/-!
# Validating what was dumped

A dumped document is read back as the value it came from, also when it is first merged over
the base that the value was merged from, as long as no field that was dropped as `None` comes
back from the base.

## Main definitions

* `Schema.Canonical` — contracts with different field names whose defaults are values of the
  contract.
* `Retained` — no field of the value that `dump` drops is a field of the base, or a required
  one.

## Main results

* `survives` — a value is read again from its dump merged over the base.
-/

namespace VoxBench.Registry

open VoxBench.Lib VoxBench.ControlPlane

section Fields

variable (lib : Libraries)

/-- The value of one field: the given one validated, else the default. -/
def fieldValue (f : String × Schema × Option Json) (given : List (String × Json)) :
    Option Json :=
  match Dict.get? given f.1 with
  | some value => validate lib f.2.1 value
  | none => f.2.2

variable {lib}

theorem validateFields_eq_some_iff {fields : List (String × Schema × Option Json)}
    {given values : List (String × Json)} :
    validateFields lib fields given = some values ↔
      List.Forall₂ (fun f kv => f.1 = kv.1 ∧ fieldValue lib f given = some kv.2) fields values := by
  induction fields generalizing values with
  | nil =>
      rw [validateFields, List.forall₂_nil_left_iff]
      exact ⟨fun h => (Option.some.inj h).symm, fun h => by rw [h]⟩
  | cons f fields ih =>
      obtain ⟨name, schema, default⟩ := f
      have hcons : validateFields lib ((name, schema, default) :: fields) given =
          (fieldValue lib (name, schema, default) given).bind fun value =>
            (validateFields lib fields given).map ((name, value) :: ·) := by
        rw [validateFields]
        unfold fieldValue
        cases Dict.get? given name with
        | none => cases default <;> rfl
        | some value =>
            dsimp only
            cases validate lib schema value <;> rfl
      rw [hcons]
      cases hvalue : fieldValue lib (name, schema, default) given with
      | none =>
          refine ⟨fun h => by simp at h, fun h => ?_⟩
          cases h with
          | cons h _ => simp [hvalue] at h
      | some value =>
          constructor
          · intro h
            obtain ⟨rest, hrest, rfl⟩ := Option.map_eq_some_iff.mp h
            exact List.Forall₂.cons ⟨rfl, hvalue⟩ (ih.mp hrest)
          · intro h
            cases h with
            | @cons _ kv _ rest h htail =>
                obtain ⟨hname, hkv⟩ := h
                have hvalue' : value = kv.2 := Option.some.inj (hvalue.symm.trans hkv)
                simp [ih.mpr htail, hvalue', show name = kv.1 from hname]

theorem keys_eq_of_validated {fields : List (String × Schema × Option Json)}
    {given values : List (String × Json)}
    (h : List.Forall₂ (fun f kv => f.1 = kv.1 ∧ fieldValue lib f given = some kv.2)
      fields values) : Dict.keys values = Dict.keys fields := by
  induction h with
  | nil => rfl
  | cons h _ ih => simp [ih, h.1]

/-- A validated model: an object with known keys, and a value for every field. -/
theorem validate_model_eq_some_iff {fields : List (String × Schema × Option Json)}
    {document value : Json} :
    validate lib (.model fields) document = some value ↔
      ∃ given values, document = .obj given ∧ value = .obj values ∧
        (∀ key ∈ Dict.keys given, key ∈ Dict.keys fields) ∧
        List.Forall₂ (fun f kv => f.1 = kv.1 ∧ fieldValue lib f given = some kv.2)
          fields values := by
  constructor
  · intro h
    cases document with
    | obj given =>
        by_cases hkeys : ∀ key ∈ Dict.keys given, key ∈ Dict.keys fields
        · rw [validate, if_pos hkeys] at h
          obtain ⟨values, hvalues, rfl⟩ := Option.map_eq_some_iff.mp h
          exact ⟨given, values, rfl, rfl, hkeys, validateFields_eq_some_iff.mp hvalues⟩
        · rw [validate, if_neg hkeys] at h
          simp at h
    | null | bool | int | float | negZero | str | arr => simp [validate] at h
  · rintro ⟨given, values, rfl, rfl, hkeys, hvalues⟩
    rw [validate, if_pos hkeys, validateFields_eq_some_iff.mpr hvalues]
    rfl

/-- The value of a field in a validated model. -/
theorem fieldValue_of_mem {fields : List (String × Schema × Option Json)}
    {given values : List (String × Json)} (hd : (Dict.keys fields).Nodup)
    (h : List.Forall₂ (fun f kv => f.1 = kv.1 ∧ fieldValue lib f given = some kv.2)
      fields values) {f : String × Schema × Option Json} (hf : f ∈ fields) :
    ∃ value, Dict.get? values f.1 = some value ∧ fieldValue lib f given = some value := by
  have hdv : (Dict.keys values).Nodup := keys_eq_of_validated h ▸ hd
  induction h with
  | nil => simp at hf
  | @cons g kv fields values hg htail ih =>
      obtain ⟨hgd, hd⟩ := List.nodup_cons.mp hd
      rcases List.mem_cons.mp hf with rfl | hf
      · exact ⟨kv.2, by simp [Dict.get?_cons, hg.1], hg.2⟩
      · obtain ⟨value, hget, hvalue⟩ := ih hd hf (List.nodup_cons.mp hdv).2
        refine ⟨value, ?_, hvalue⟩
        have hne : kv.1 ≠ f.1 := by
          intro heq
          exact hgd (hg.1.trans heq ▸ List.mem_map_of_mem (f := Prod.fst) hf)
        simp [Dict.get?_cons, hne, hget]

/-- Other raw fields with the same values give the same model. -/
theorem validated_congr {fields : List (String × Schema × Option Json)}
    {given given' values : List (String × Json)}
    (h : List.Forall₂ (fun f kv => f.1 = kv.1 ∧ fieldValue lib f given = some kv.2) fields values)
    (hsame : ∀ f ∈ fields, fieldValue lib f given' = fieldValue lib f given) :
    List.Forall₂ (fun f kv => f.1 = kv.1 ∧ fieldValue lib f given' = some kv.2)
      fields values := by
  induction h with
  | nil => exact List.Forall₂.nil
  | @cons f kv fields values hf _ ih =>
      refine List.Forall₂.cons ⟨hf.1, ?_⟩ (ih fun g hg => hsame g (List.mem_cons_of_mem f hg))
      rw [hsame f (by simp)]
      exact hf.2

theorem dumpFields_cons (f : String × Schema × Option Json)
    (fields : List (String × Schema × Option Json)) (values : List (String × Json)) :
    dumpFields (f :: fields) values =
      match Dict.get? values f.1 with
      | none | some .null => dumpFields fields values
      | some value => (f.1, dump f.2.1 value) :: dumpFields fields values := by
  obtain ⟨name, schema, default⟩ := f
  rfl

theorem dumpFields_cons_of_ne_null {f : String × Schema × Option Json}
    (fields : List (String × Schema × Option Json)) {values : List (String × Json)} {value : Json}
    (hget : Dict.get? values f.1 = some value) (hvalue : value ≠ .null) :
    dumpFields (f :: fields) values = (f.1, dump f.2.1 value) :: dumpFields fields values := by
  rw [dumpFields_cons, hget]
  cases value with
  | null => exact absurd rfl hvalue
  | bool | int | float | negZero | str | arr | obj => rfl

theorem keys_dumpFields_sublist (fields : List (String × Schema × Option Json))
    (values : List (String × Json)) :
    List.Sublist (Dict.keys (dumpFields fields values)) (Dict.keys fields) := by
  induction fields with
  | nil => simp [dumpFields]
  | cons f fields ih =>
      rw [dumpFields_cons]
      split
      · exact ih.cons f.1
      · exact ih.cons f.1
      · exact ih.cons_cons f.1

/-- A field of a dumped model: left out when it is `None`. -/
theorem get?_dumpFields {fields : List (String × Schema × Option Json)}
    (hd : (Dict.keys fields).Nodup) (values : List (String × Json))
    {f : String × Schema × Option Json} (hf : f ∈ fields) :
    Dict.get? (dumpFields fields values) f.1 =
      match Dict.get? values f.1 with
      | none | some .null => none
      | some value => some (dump f.2.1 value) := by
  induction fields with
  | nil => simp at hf
  | cons g fields ih =>
      obtain ⟨hg, hd⟩ := List.nodup_cons.mp hd
      have hskip : g.1 ∉ Dict.keys (dumpFields fields values) := fun h =>
        hg ((keys_dumpFields_sublist fields values).subset h)
      rw [dumpFields_cons]
      rcases List.mem_cons.mp hf with rfl | hf
      · split
        · exact Dict.get?_eq_none_iff.mpr hskip
        · exact Dict.get?_eq_none_iff.mpr hskip
        · simp [Dict.get?_cons]
      · have hne : g.1 ≠ f.1 := fun h => hg (h ▸ List.mem_map_of_mem (f := Prod.fst) hf)
        split
        · exact ih hd hf
        · exact ih hd hf
        · simpa [Dict.get?_cons, hne] using ih hd hf

/-- A field that is not `None` is dumped. -/
theorem get?_dumpFields_of_ne_null {fields : List (String × Schema × Option Json)}
    (hd : (Dict.keys fields).Nodup) {values : List (String × Json)}
    {f : String × Schema × Option Json} (hf : f ∈ fields) {value : Json}
    (hget : Dict.get? values f.1 = some value) (hvalue : value ≠ .null) :
    Dict.get? (dumpFields fields values) f.1 = some (dump f.2.1 value) := by
  rw [get?_dumpFields hd values hf, hget]
  cases value with
  | null => exact absurd rfl hvalue
  | bool | int | float | negZero | str | arr | obj => rfl

end Fields

/-! ## Nulls -/

theorem validate_null_iff {lib : Libraries} : ∀ {schema : Schema} {document : Json},
    validate lib schema document = some .null → document = .null
  | .str, document, h => by cases document <;> simp [validate] at h
  | .int, _, h => by simp [validate] at h
  | .bool, _, h => by simp [validate] at h
  | .float, _, h => by
      rw [validate] at h
      cases lib.toFloat_isFloat h
  | .any, _, h => by simpa [validate] using h
  | .object, document, h => by cases document <;> simp [validate] at h
  | .literal values, document, h => by cases document <;> simp [validate] at h
  | .list item, document, h => by cases document <;> simp [validate] at h
  | .optional inner, document, h => by
      cases document with
      | null => rfl
      | bool | int | float | negZero | str | arr | obj => exact validate_null_iff (by simpa [validate] using h)
  | .model fields, document, h => by
      obtain ⟨given, values, -, hv, -⟩ := validate_model_eq_some_iff.mp h
      cases hv

theorem validate_optional {lib : Libraries} {inner : Schema} {document : Json} (h : document ≠ .null) :
    validate lib (.optional inner) document = validate lib inner document := by
  cases document with
  | null => exact absurd rfl h
  | bool | int | float | negZero | str | arr | obj => simp [validate]

theorem dump_eq_null_iff : ∀ {schema : Schema} {value : Json},
    dump schema value = .null ↔ value = .null
  | .str, _ | .int, _ | .bool, _ | .float, _ | .any, _ | .object, _ | .literal _, _ => by
      simp [dump]
  | .list item, value => by cases value <;> simp [dump]
  | .optional inner, value => by
      rw [dump]
      exact dump_eq_null_iff
  | .model fields, value => by cases value <;> simp [dump]

theorem mergeValue_eq_null_iff {old : Option Json} {value : Json} :
    mergeValue old value = .null ↔ value = .null := by
  cases value with
  | obj new =>
      by_cases hobj : ∃ fields, old = some (.obj fields)
      · obtain ⟨fields, rfl⟩ := hobj
        simp
      · rw [mergeValue_of_not_obj]
        rintro ⟨⟨v, rfl, fields, rfl⟩, -⟩
        exact hobj ⟨fields, rfl⟩
  | null | bool | int | float | negZero | str | arr => simp [mergeValue]

/-! ## Contracts and what they retain -/

mutual

/-- Field names are different, and a default is read back from its dump. -/
def Schema.Canonical (lib : Libraries) : Schema → Prop
  | .list item => item.Canonical lib
  | .optional inner => inner.Canonical lib
  | .model fields => (Dict.keys fields).Nodup ∧ CanonicalFields lib fields
  | _ => True

def CanonicalFields (lib : Libraries) : List (String × Schema × Option Json) → Prop
  | [] => True
  | (_, schema, default) :: fields =>
      schema.Canonical lib ∧
      (∀ d, default = some d → d.keyed ∧ (d ≠ .null → validate lib schema (dump schema d) = some d)) ∧
      CanonicalFields lib fields

end

theorem canonicalFields_iff {lib : Libraries} {fields : List (String × Schema × Option Json)} :
    CanonicalFields lib fields ↔ ∀ f ∈ fields, f.2.1.Canonical lib ∧
      ∀ d, f.2.2 = some d → d.keyed ∧ (d ≠ .null → validate lib f.2.1 (dump f.2.1 d) = some d) := by
  induction fields with
  | nil => simp [CanonicalFields]
  | cons f fields ih =>
      obtain ⟨name, schema, default⟩ := f
      simp only [CanonicalFields, ih, List.forall_mem_cons, and_assoc]

mutual

/-- A validated document has pairwise different keys where the raw one has. -/
theorem keyed_validate {lib : Libraries} : ∀ {schema : Schema}, schema.Canonical lib →
    ∀ {document value : Json}, document.keyed → validate lib schema document = some value →
      value.keyed
  | .str, _, document, value, hk, h => by
      cases document with
      | str s =>
          obtain rfl : Json.str s = value := by simpa [validate] using h
          exact hk
      | null | bool | int | float | negZero | arr | obj => simp [validate] at h
  | .int, _, _, _, _, h => by
      rw [validate] at h
      obtain ⟨n, -, rfl⟩ := Option.map_eq_some_iff.mp h
      simp [Json.keyed]
  | .bool, _, _, _, _, h => by
      rw [validate] at h
      obtain ⟨n, -, rfl⟩ := Option.map_eq_some_iff.mp h
      simp [Json.keyed]
  | .float, _, _, value, _, h => by
      rw [validate] at h
      have hfloat := lib.toFloat_isFloat h
      cases value with
      | float | negZero => simp [Json.keyed]
      | null | bool | int | str | arr | obj => cases hfloat
  | .any, _, document, value, hk, h => by
      obtain rfl : document = value := by simpa [validate] using h
      exact hk
  | .object, _, document, value, hk, h => by
      cases document with
      | obj fields =>
          obtain rfl : Json.obj fields = value := by simpa [validate] using h
          exact hk
      | null | bool | int | float | negZero | str | arr => simp [validate] at h
  | .literal values, _, document, value, hk, h => by
      cases document with
      | str s =>
          by_cases hs : s ∈ values
          · obtain rfl : Json.str s = value := by simpa [validate, hs] using h
            exact hk
          · simp [validate, hs] at h
      | null | bool | int | float | negZero | arr | obj => simp [validate] at h
  | .list item, hc, document, value, hk, h => by
      cases document with
      | arr items =>
          rw [validate] at h
          obtain ⟨values, hvalues, rfl⟩ := Option.map_eq_some_iff.mp h
          rw [mapM_eq_some_iff] at hvalues
          rw [Json.keyed, Json.keyedItems_iff] at hk ⊢
          rw [Schema.Canonical] at hc
          intro y hy
          obtain ⟨x, hx, hxy⟩ := exists_mem_of_forall₂ hvalues hy
          exact keyed_validate hc (hk x hx) hxy
      | null | bool | int | float | negZero | str | obj => simp [validate] at h
  | .optional inner, hc, document, value, hk, h => by
      rw [Schema.Canonical] at hc
      by_cases hnull : document = .null
      · subst hnull
        obtain rfl : Json.null = value := by simpa [validate] using h
        exact hk
      · rw [validate_optional hnull] at h
        exact keyed_validate hc hk h
  | .model fields, hc, document, value, hk, h => by
      obtain ⟨given, values, rfl, rfl, -, hvalues⟩ := validate_model_eq_some_iff.mp h
      rw [Schema.Canonical] at hc
      refine Json.keyed_obj_iff.mpr ⟨keys_eq_of_validated hvalues ▸ hc.1, fun kv hkv => ?_⟩
      obtain ⟨f, hf, -, hvalue⟩ := exists_mem_of_forall₂ hvalues hkv
      exact keyed_fieldValue hc.2 f hf hk hvalue

theorem keyed_fieldValue {lib : Libraries} : ∀ {fields : List (String × Schema × Option Json)},
    CanonicalFields lib fields → ∀ f ∈ fields, ∀ {given : List (String × Json)} {value : Json},
      (Json.obj given).keyed → fieldValue lib f given = some value → value.keyed
  | [], _, f, hf => by simp at hf
  | (name, schema, default) :: fields, hc, f, hf => by
      intro hk hvalue
      rw [CanonicalFields] at hc
      rcases List.mem_cons.mp hf with rfl | hf
      · unfold fieldValue at hvalue
        split at hvalue
        · rename_i x hget
          exact keyed_validate hc.1 (Json.keyed_of_get? hk hget) hvalue
        · exact (hc.2.1 _ hvalue).1
      · exact keyed_fieldValue hc.2.2 f hf hk hvalue

end

mutual

/-- Dumping keeps the keys pairwise different. -/
theorem keyed_dump {lib : Libraries} : ∀ {schema : Schema}, schema.Canonical lib →
    ∀ {value : Json}, value.keyed → (dump schema value).keyed
  | .str, _, _, h | .int, _, _, h | .bool, _, _, h | .float, _, _, h | .any, _, _, h
  | .object, _, _, h | .literal _, _, _, h => by simpa [dump] using h
  | .list item, hc, value, h => by
      cases value with
      | arr items =>
          rw [dump, Json.keyed, Json.keyedItems_iff]
          rw [Json.keyed, Json.keyedItems_iff] at h
          rw [Schema.Canonical] at hc
          intro y hy
          obtain ⟨x, hx, rfl⟩ := List.mem_map.mp hy
          exact keyed_dump hc (h x hx)
      | null | bool | int | float | negZero | str | obj => simpa [dump] using h
  | .optional inner, hc, value, h => by
      rw [dump]
      exact keyed_dump (by rwa [Schema.Canonical] at hc) h
  | .model fields, hc, value, h => by
      cases value with
      | obj values =>
          rw [Schema.Canonical] at hc
          rw [dump, Json.keyed_obj_iff]
          exact ⟨(keys_dumpFields_sublist fields values).nodup hc.1, keyed_dumpFields hc.2 h⟩
      | null | bool | int | float | negZero | str | arr => simpa [dump] using h

theorem keyed_dumpFields {lib : Libraries} :
    ∀ {fields : List (String × Schema × Option Json)}, CanonicalFields lib fields →
      ∀ {values : List (String × Json)}, (Json.obj values).keyed →
        ∀ f ∈ dumpFields fields values, f.2.keyed
  | [], _, values, _, f, hf => by simp [dumpFields] at hf
  | (name, schema, default) :: fields, hc, values, h, f, hf => by
      rw [CanonicalFields] at hc
      rw [dumpFields_cons] at hf
      split at hf
      · exact keyed_dumpFields hc.2.2 h f hf
      · exact keyed_dumpFields hc.2.2 h f hf
      · rename_i value _ hget
        rcases List.mem_cons.mp hf with rfl | hf
        · exact keyed_dump hc.1 (Json.keyed_of_get? h hget)
        · exact keyed_dumpFields hc.2.2 h f hf

end

/-- The value of a key in the base, when the base is an object that has it. -/
def baseField (base : Option Json) (key : String) : Option Json :=
  base.bind fun document => document.get? key

mutual

/-- No field that `dump` drops is required, or has a value in the base. -/
def Retained : Schema → Option Json → Json → Prop
  | .list item, _, .arr items => ∀ x ∈ items, Retained item none x
  | .optional inner, base, value => value = .null ∨ Retained inner base value
  | .model fields, base, .obj values => RetainedFields fields base values
  | _, _, _ => True

def RetainedFields : List (String × Schema × Option Json) → Option Json →
    List (String × Json) → Prop
  | [], _, _ => True
  | (name, schema, default) :: fields, base, values =>
      (∀ value, Dict.get? values name = some value →
        (value = .null → default = some .null ∧
          (baseField base name = none ∨ baseField base name = some .null)) ∧
        (value ≠ .null → Retained schema (baseField base name) value)) ∧
      RetainedFields fields base values

end

theorem retainedFields_iff {fields : List (String × Schema × Option Json)} {base : Option Json}
    {values : List (String × Json)} :
    RetainedFields fields base values ↔
      ∀ f ∈ fields, ∀ value, Dict.get? values f.1 = some value →
        (value = .null → f.2.2 = some .null ∧
          (baseField base f.1 = none ∨ baseField base f.1 = some .null)) ∧
        (value ≠ .null → Retained f.2.1 (baseField base f.1) value) := by
  induction fields with
  | nil => simp [RetainedFields]
  | cons f fields ih =>
      obtain ⟨name, schema, default⟩ := f
      simp only [RetainedFields, ih, List.forall_mem_cons]

/-- One key of an object that was merged over a base. -/
theorem get?_mergeValue {base : Option Json} {fields merged : List (String × Json)}
    (hd : (Dict.keys fields).Nodup) (h : mergeValue base (.obj fields) = .obj merged)
    (key : String) :
    Dict.get? merged key =
      match Dict.get? fields key with
      | none => baseField base key
      | some value => some (mergeValue (baseField base key) value) := by
  by_cases hobj : ∃ b, base = some (.obj b)
  · obtain ⟨b, rfl⟩ := hobj
    rw [mergeValue_obj] at h
    obtain rfl := Json.obj.inj h
    exact get?_deepMerge hd key
  · have hbase : baseField base key = none := by
      cases base with
      | none => rfl
      | some document =>
          cases document with
          | obj b => exact absurd ⟨b, rfl⟩ hobj
          | null | bool | int | float | negZero | str | arr => rfl
    rw [mergeValue_of_not_obj] at h
    · obtain rfl := Json.obj.inj h
      rw [hbase]
      cases Dict.get? fields key with
      | none => rfl
      | some value => simp
    · rintro ⟨⟨v, rfl, b, rfl⟩, -⟩
      exact hobj ⟨b, rfl⟩

/-- Merging an object gives an object. -/
theorem exists_mergeValue_obj (base : Option Json) (fields : List (String × Json)) :
    ∃ merged, mergeValue base (.obj fields) = .obj merged := by
  by_cases hobj : ∃ b, base = some (.obj b)
  · obtain ⟨b, rfl⟩ := hobj
    exact ⟨_, mergeValue_obj b fields⟩
  · refine ⟨fields, mergeValue_of_not_obj ?_⟩
    rintro ⟨⟨v, rfl, b, rfl⟩, -⟩
    exact hobj ⟨b, rfl⟩

/-! ## A value survives the dump, the merge and the validation -/

/-- A value that was read from a document that absorbs the base is read again from its own
dump merged over the base. -/
def Survives (lib : Libraries) (schema : Schema) : Prop :=
  ∀ (base : Option Json) (document value : Json), document.keyed →
    mergeValue base document = document → validate lib schema document = some value →
    Retained schema base value →
    validate lib schema (mergeValue base (dump schema value)) = some value

section Survives

variable {lib : Libraries}

theorem survives_list {item : Schema} (h : Survives lib item) : Survives lib (.list item) := by
  intro base document value hkeyed habsorbs hvalid hretained
  clear habsorbs
  cases document with
  | arr items =>
      rw [validate] at hvalid
      obtain ⟨values, hvalues, rfl⟩ := Option.map_eq_some_iff.mp hvalid
      rw [mapM_eq_some_iff] at hvalues
      have hitems : ∀ x ∈ items, x.keyed := by
        rw [Json.keyed] at hkeyed
        exact Json.keyedItems_iff.mp hkeyed
      rw [Retained] at hretained
      have hagain : List.Forall₂ (fun x y => validate lib item x = some y)
          (values.map (dump item)) values := by
        clear hvalid hkeyed
        induction hvalues with
        | nil => exact List.Forall₂.nil
        | @cons x y xs ys hxy _ ih =>
            refine List.Forall₂.cons ?_ (ih (fun z hz => hretained z (List.mem_cons_of_mem y hz))
              fun z hz => hitems z (List.mem_cons_of_mem x hz))
            have hx := h none x y (hitems x (by simp)) (by simp) hxy (hretained y (by simp))
            simpa using hx
      have hmerge : mergeValue base (dump (.list item) (.arr values)) =
          .arr (values.map (dump item)) := by simp [dump, mergeValue]
      rw [hmerge, validate, mapM_eq_some_iff.mpr hagain]
      rfl
  | null | bool | int | float | negZero | str | obj => simp [validate] at hvalid

theorem survives_optional {inner : Schema} (h : Survives lib inner) :
    Survives lib (.optional inner) := by
  intro base document value hkeyed habsorbs hvalid hretained
  by_cases hnull : document = .null
  · subst hnull
    obtain rfl : Json.null = value := by simpa [validate] using hvalid
    have hdump : mergeValue base (dump (.optional inner) .null) = .null :=
      mergeValue_eq_null_iff.mpr (dump_eq_null_iff.mpr rfl)
    rw [hdump, validate]
  · rw [validate_optional hnull] at hvalid
    have hvalue : value ≠ .null := fun hv => hnull (validate_null_iff (hv ▸ hvalid))
    have hinner : Retained inner base value := by
      rw [Retained] at hretained
      exact hretained.resolve_left hvalue
    have hagain := h base document value hkeyed habsorbs hvalid hinner
    rw [dump, validate_optional]
    · exact hagain
    · rw [ne_eq, mergeValue_eq_null_iff, dump_eq_null_iff]
      exact hvalue

/-- The fields of a dumped model, merged over the base, have the values they had. -/
theorem survives_field {fields : List (String × Schema × Option Json)}
    {f : String × Schema × Option Json} {base : Option Json}
    {given values merged : List (String × Json)} (hd : (Dict.keys fields).Nodup)
    (hcanonical : CanonicalFields lib fields) (h : Survives lib f.2.1) (hf : f ∈ fields)
    (hkeyed : (Json.obj given).keyed) (habsorbs : mergeValue base (.obj given) = .obj given)
    (hvalues : List.Forall₂ (fun f kv => f.1 = kv.1 ∧ fieldValue lib f given = some kv.2)
      fields values)
    (hretained : RetainedFields fields base values)
    (hmerged : mergeValue base (.obj (dumpFields fields values)) = .obj merged) :
    fieldValue lib f merged = fieldValue lib f given := by
  obtain ⟨value, hget, hvalue⟩ := fieldValue_of_mem hd hvalues hf
  obtain ⟨hnull, hkept⟩ := retainedFields_iff.mp hretained f hf value hget
  have hgiven := get?_mergeValue (Json.keyed_obj_iff.mp hkeyed).1 habsorbs f.1
  have hdumped := get?_dumpFields hd values hf
  have hmergedf := get?_mergeValue
    ((keys_dumpFields_sublist fields values).nodup hd) hmerged f.1
  rw [hvalue]
  rw [hget] at hdumped
  by_cases hv : value = .null
  · -- the field was dropped, and the base brings nothing back
    subst hv
    obtain ⟨hdefault, hbase⟩ := hnull rfl
    rw [hdumped] at hmergedf
    simp only at hmergedf
    unfold fieldValue at hvalue ⊢
    rw [hmergedf]
    rcases hbase with hbase | hbase
    · simp only [hbase, hdefault]
    · simp only [hbase]
      cases hg : Dict.get? given f.1 with
      | none => simp [hg, hbase] at hgiven
      | some x =>
          simp only [hg] at hvalue
          rwa [validate_null_iff hvalue] at hvalue
  · have hdump : Dict.get? (dumpFields fields values) f.1 = some (dump f.2.1 value) :=
      get?_dumpFields_of_ne_null hd hf hget hv
    rw [hdump] at hmergedf
    simp only at hmergedf
    unfold fieldValue at hvalue ⊢
    rw [hmergedf]
    simp only
    cases hg : Dict.get? given f.1 with
    | none =>
        -- the value is the default, and the base has no such key
        simp only [hg] at hvalue hgiven
        rw [← hgiven, mergeValue_none]
        exact ((canonicalFields_iff.mp hcanonical f hf).2 value hvalue).2 hv
    | some x =>
        simp only [hg, Option.some.injEq] at hvalue hgiven
        exact h _ x value (Json.keyed_of_get? hkeyed hg) hgiven.symm
          hvalue (hkept hv)

theorem survives_model {fields : List (String × Schema × Option Json)}
    (hcanonical : (Schema.model fields).Canonical lib)
    (h : ∀ f ∈ fields, Survives lib f.2.1) : Survives lib (.model fields) := by
  intro base document value hkeyed habsorbs hvalid hretained
  obtain ⟨given, values, rfl, rfl, hknown, hvalues⟩ := validate_model_eq_some_iff.mp hvalid
  rw [Schema.Canonical] at hcanonical
  obtain ⟨hd, hcanonical⟩ := hcanonical
  rw [Retained] at hretained
  obtain ⟨merged, hmerged⟩ := exists_mergeValue_obj base (dumpFields fields values)
  have hdump : dump (.model fields) (.obj values) = .obj (dumpFields fields values) := by
    rw [dump]
  rw [hdump, hmerged, validate_model_eq_some_iff]
  refine ⟨merged, values, rfl, rfl, fun key hkey => ?_, ?_⟩
  · -- a key of the merged object is one of the dump, or one of the base and so of the document
    rw [← Dict.isSome_get?_iff,
      get?_mergeValue ((keys_dumpFields_sublist fields values).nodup hd) hmerged] at hkey
    cases hk : Dict.get? (dumpFields fields values) key with
    | some x =>
        have hmem : key ∈ Dict.keys (dumpFields fields values) := by
          rw [← Dict.isSome_get?_iff, hk]
          rfl
        exact (keys_dumpFields_sublist fields values).subset hmem
    | none =>
        rw [hk] at hkey
        have hgiven := get?_mergeValue (Json.keyed_obj_iff.mp hkeyed).1 habsorbs key
        refine hknown key ?_
        rw [← Dict.isSome_get?_iff]
        cases hg : Dict.get? given key with
        | none =>
            rw [hg] at hgiven
            simp [← hgiven] at hkey
        | some x => rfl
  · exact validated_congr hvalues fun f hf =>
      survives_field hd hcanonical (h f hf) hf hkeyed habsorbs hvalues hretained hmerged

mutual

theorem survives : ∀ {schema : Schema}, schema.Canonical lib → Survives lib schema
  | .str, _ => by
      intro base document value _ _ hvalid _
      cases document with
      | str s =>
          obtain rfl : Json.str s = value := by simpa [validate] using hvalid
          simp [dump, mergeValue, validate]
      | null | bool | int | float | negZero | arr | obj => simp [validate] at hvalid
  | .int, _ => by
      intro base document value _ _ hvalid _
      rw [validate] at hvalid
      obtain ⟨n, -, rfl⟩ := Option.map_eq_some_iff.mp hvalid
      simp [dump, mergeValue, validate, lib.toInt_int]
  | .bool, _ => by
      intro base document value _ _ hvalid _
      rw [validate] at hvalid
      obtain ⟨b, -, rfl⟩ := Option.map_eq_some_iff.mp hvalid
      simp [dump, mergeValue, validate, lib.toBool_bool]
  | .float, _ => by
      intro base document value _ _ hvalid _
      rw [validate] at hvalid
      have hfloat := lib.toFloat_isFloat hvalid
      cases value with
      | float | negZero => simpa [dump, mergeValue, validate] using lib.toFloat_of_isFloat hfloat
      | null | bool | int | str | arr | obj => cases hfloat
  | .any, _ => by
      intro base document value _ habsorbs hvalid _
      obtain rfl : document = value := by simpa [validate] using hvalid
      simp [dump, habsorbs, validate]
  | .object, _ => by
      intro base document value _ habsorbs hvalid _
      cases document with
      | obj fields =>
          obtain rfl : Json.obj fields = value := by simpa [validate] using hvalid
          simp [dump, habsorbs, validate]
      | null | bool | int | float | negZero | str | arr => simp [validate] at hvalid
  | .literal values, _ => by
      intro base document value _ _ hvalid _
      cases document with
      | str s =>
          by_cases hs : s ∈ values
          · obtain rfl : Json.str s = value := by simpa [validate, hs] using hvalid
            simp [dump, mergeValue, validate, hs]
          · simp [validate, hs] at hvalid
      | null | bool | int | float | negZero | arr | obj => simp [validate] at hvalid
  | .list item, h => survives_list (survives (by rwa [Schema.Canonical] at h))
  | .optional inner, h => survives_optional (survives (by rwa [Schema.Canonical] at h))
  | .model fields, h =>
      survives_model h fun f hf =>
        survives_of_mem (by rw [Schema.Canonical] at h; exact h.2) f hf

theorem survives_of_mem : ∀ {fields : List (String × Schema × Option Json)},
    CanonicalFields lib fields → ∀ f ∈ fields, Survives lib f.2.1
  | [], _, f, hf => by simp at hf
  | (name, schema, default) :: fields, h, f, hf => by
      rw [CanonicalFields] at h
      rcases List.mem_cons.mp hf with rfl | hf
      · exact survives h.1
      · exact survives_of_mem h.2.2 f hf

end

end Survives

/-! ## The contracts of the repository -/

section Contracts

variable {lib : Libraries} {name : String} {type item : Schema}
  {fields : List (String × Schema × Option Json)}

@[simp] theorem canonicalFields_nil : CanonicalFields lib [] := by
  simp [CanonicalFields]

@[simp] theorem canonicalFields_required :
    CanonicalFields lib (Schema.required name type :: fields) ↔
      type.Canonical lib ∧ CanonicalFields lib fields := by
  simp [Schema.required, CanonicalFields]

@[simp] theorem canonicalFields_orNone :
    CanonicalFields lib (Schema.orNone name type :: fields) ↔
      type.Canonical lib ∧ CanonicalFields lib fields := by
  simp [Schema.orNone, CanonicalFields, Schema.Canonical, Json.keyed]

@[simp] theorem canonicalFields_withDefault {d : Json} :
    CanonicalFields lib (Schema.withDefault name type d :: fields) ↔
      type.Canonical lib ∧ (d.keyed ∧ (d ≠ .null → validate lib type (dump type d) = some d)) ∧
        CanonicalFields lib fields := by
  simp [Schema.withDefault, CanonicalFields]

@[simp] theorem canonicalFields_dictField :
    CanonicalFields lib (Schema.dictField name :: fields) ↔ CanonicalFields lib fields := by
  simp [Schema.dictField, Schema.withDefault, CanonicalFields, Schema.Canonical, validate, dump,
    Json.keyed, Json.keyedFields]

@[simp] theorem canonicalFields_listField :
    CanonicalFields lib (Schema.listField name item :: fields) ↔
      item.Canonical lib ∧ CanonicalFields lib fields := by
  simp [Schema.listField, Schema.withDefault, CanonicalFields, Schema.Canonical, validate, dump,
    Json.keyed, Json.keyedItems]

@[simp] theorem Schema.canonical_model_iff :
    (Schema.model fields).Canonical lib ↔
      (Dict.keys fields).Nodup ∧ CanonicalFields lib fields := by
  simp [Schema.Canonical]

@[simp] theorem canonical_ioContract : Schema.ioContract.Canonical lib := by
  simp [Schema.ioContract, Schema.Canonical]

@[simp] theorem canonical_pipelineStage : Schema.pipelineStage.Canonical lib := by
  simp [Schema.pipelineStage, Schema.overrideValue, Schema.invariant, Schema.Canonical]

@[simp] theorem canonical_observabilityConfig : Schema.observabilityConfig.Canonical lib := by
  simp [Schema.observabilityConfig, Schema.Canonical, validate, dump, Json.keyed, lib.toBool_bool,
    lib.toFloat_float]

@[simp] theorem canonical_voiceSpec : Schema.voiceSpec.Canonical lib := by
  have hdefault : validate lib Schema.observabilityConfig
      (dump Schema.observabilityConfig Schema.observabilityDefault) =
        some Schema.observabilityDefault := by
    simp [Schema.observabilityConfig, Schema.observabilityDefault, Schema.withDefault,
      Schema.listField, dump, dumpFields, validate, validateFields, Dict.get?, lib.toBool_bool,
      lib.toFloat_float]
  have hkeyed : Schema.observabilityDefault.keyed := by decide
  simp [Schema.voiceSpec, Schema.engineConfig, Schema.transportConfig, Schema.jitterBufferConfig,
    Schema.mediaConfig, Schema.turnTakingConfig, Schema.turnTakingOwner, Schema.detectorConfig,
    Schema.aiConfig, Schema.Canonical, validate, dump, Json.keyed, lib.toBool_bool, hdefault, hkeyed]

theorem canonical_voiceConfig : Schema.voiceConfig.Canonical lib := by
  simp [Schema.voiceConfig, Schema.configMeta, Schema.Canonical]

theorem canonical_capabilityManifest : Schema.capabilityManifest.Canonical lib := by
  simp [Schema.capabilityManifest, Schema.pluginKind, Schema.invariant,
    Schema.overridePermission, Schema.overrideType, Schema.providerCaps, Schema.turnTakingOwner,
    Schema.Canonical]

end Contracts

end VoxBench.Registry
