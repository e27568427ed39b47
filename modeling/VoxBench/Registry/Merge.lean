import VoxBench.ControlPlane.Models
import VoxBench.Lib.Dict
import Mathlib.Data.Nat.Find

/-!
# Overlay merge

`deep_merge` puts the items of an overlay over those of a base, going into the objects that
both sides hold under one key.

## Main definitions

* `Json.keyed`, `JsonObject` — objects whose keys are pairwise different at every depth, as
  those of a Python `dict` are.
* `deepMerge` — the merge; `Json.lookup` — the value at the end of a path of keys.

## Main results

* `get?_deepMerge` — one key of a merged object.
* `lookup_deepMerge_of_objects` — where both sides hold objects, the merged one holds their
  merge.
-/

namespace VoxBench.ControlPlane.Json

open VoxBench.Lib

mutual

/-- Pairwise different keys in every object of the document. -/
def keyed : Json → Bool
  | .arr items => keyedItems items
  | .obj fields => decide (Dict.keys fields).Nodup && keyedFields fields
  | _ => true

def keyedItems : List Json → Bool
  | [] => true
  | item :: items => keyed item && keyedItems items

def keyedFields : List (String × Json) → Bool
  | [] => true
  | (_, value) :: fields => keyed value && keyedFields fields

end

theorem keyedItems_iff {items : List Json} : keyedItems items ↔ ∀ x ∈ items, keyed x := by
  induction items with
  | nil => simp [keyedItems]
  | cons x xs ih => simp [keyedItems, ih]

theorem keyedFields_iff {fields : List (String × Json)} :
    keyedFields fields ↔ ∀ f ∈ fields, keyed f.2 := by
  induction fields with
  | nil => simp [keyedFields]
  | cons f fs ih => simp [keyedFields, ih]

theorem keyed_obj_iff {fields : List (String × Json)} :
    keyed (.obj fields) ↔ (Dict.keys fields).Nodup ∧ ∀ f ∈ fields, keyed f.2 := by
  rw [← keyedFields_iff]
  simp [keyed]

/-- The value at the end of a path of keys. -/
def lookup (document : Json) : List String → Option Json
  | [] => some document
  | key :: path => (document.get? key).bind fun value => value.lookup path

/-- The value at a path of attributes, `None` where there is none. -/
def field (document : Json) (path : List String) : Json := (document.lookup path).getD .null

/-- `document is None`. -/
def isNull : Json → Bool
  | .null => true
  | _ => false

@[simp] theorem isNull_null : isNull .null = true := rfl

/-- The text of a string. -/
def text (document : Json) : String := document.str?.getD ""

/-- The texts of a list of strings. -/
def texts (document : Json) : List String := document.elems.map text

@[simp] theorem lookup_nil (document : Json) : document.lookup [] = some document := by
  simp [lookup]

theorem lookup_cons (document : Json) (key : String) (path : List String) :
    document.lookup (key :: path) = (document.get? key).bind fun v => v.lookup path := by
  simp [lookup]

theorem lookup_append (document : Json) (p q : List String) :
    document.lookup (p ++ q) = (document.lookup p).bind fun v => v.lookup q := by
  induction p generalizing document with
  | nil => simp
  | cons key p ih =>
      rw [List.cons_append, lookup_cons, lookup_cons]
      cases document.get? key with
      | none => rfl
      | some v => exact ih v

theorem get?_obj (fields : List (String × Json)) (key : String) :
    (Json.obj fields).get? key = Dict.get? fields key := rfl

theorem keyed_of_get? {document value : Json} {key : String} (h : document.keyed)
    (hv : document.get? key = some value) : value.keyed := by
  cases document with
  | obj fields => exact (keyed_obj_iff.mp h).2 _ (Dict.mem_of_get?_eq_some hv)
  | null | bool | int | float | negZero | str | arr => simp [get?] at hv

theorem keyed_of_lookup {document value : Json} {path : List String} (h : document.keyed)
    (hv : document.lookup path = some value) : value.keyed := by
  induction path generalizing document with
  | nil =>
      rw [lookup_nil] at hv
      exact Option.some.inj hv ▸ h
  | cons key path ih =>
      rw [lookup_cons] at hv
      obtain ⟨v, hget, hv⟩ := Option.bind_eq_some_iff.mp hv
      exact ih (keyed_of_get? h hget) hv

end VoxBench.ControlPlane.Json

namespace VoxBench.Registry

open VoxBench.Lib VoxBench.ControlPlane

mutual

/-- `deep_merge`: the loop over the items of the overlay. -/
def deepMerge (merged : List (String × Json)) :
    List (String × Json) → List (String × Json)
  | [] => merged
  | (key, value) :: overlay =>
      deepMerge (Dict.set merged key (mergeValue (Dict.get? merged key) value)) overlay

/-- What a key of the overlay gets: the merge of two objects, else the overlay's value. -/
def mergeValue (old : Option Json) : Json → Json
  | .obj new =>
      match old with
      | some (.obj fields) => .obj (deepMerge fields new)
      | _ => .obj new
  | value => value

end

@[simp] theorem deepMerge_nil (base : List (String × Json)) : deepMerge base [] = base := by
  simp [deepMerge]

theorem deepMerge_cons (base overlay : List (String × Json)) (key : String) (value : Json) :
    deepMerge base ((key, value) :: overlay) =
      deepMerge (Dict.set base key (mergeValue (Dict.get? base key) value)) overlay := by
  simp [deepMerge]

@[simp] theorem mergeValue_none (value : Json) : mergeValue none value = value := by
  cases value <;> simp [mergeValue]

@[simp] theorem mergeValue_obj (fields new : List (String × Json)) :
    mergeValue (some (.obj fields)) (.obj new) = .obj (deepMerge fields new) := by
  simp [mergeValue]

/-- The document is an object. -/
def IsObj (document : Json) : Prop := ∃ fields, document = .obj fields

theorem mergeValue_of_not_obj {old : Option Json} {value : Json}
    (h : ¬ ((∃ v, old = some v ∧ IsObj v) ∧ IsObj value)) : mergeValue old value = value := by
  cases value with
  | obj new =>
      cases old with
      | none => simp
      | some v =>
          cases v with
          | obj fields => exact absurd ⟨⟨_, rfl, fields, rfl⟩, new, rfl⟩ h
          | null | bool | int | float | negZero | str | arr => simp [mergeValue]
  | null | bool | int | float | negZero | str | arr => simp [mergeValue]

/-- One key of a merged object: the base's value where the overlay has no such key, else the
overlay's value put over the base's. -/
theorem get?_deepMerge {base overlay : List (String × Json)} (h : (Dict.keys overlay).Nodup)
    (key : String) :
    Dict.get? (deepMerge base overlay) key =
      match Dict.get? overlay key with
      | none => Dict.get? base key
      | some value => some (mergeValue (Dict.get? base key) value) := by
  induction overlay generalizing base with
  | nil => simp
  | cons f overlay ih =>
      obtain ⟨k, v⟩ := f
      obtain ⟨hk, hd⟩ := List.nodup_cons.mp h
      rw [deepMerge_cons, ih hd, Dict.get?_cons]
      by_cases hkey : k = key
      · subst hkey
        simp [Dict.get?_eq_none_iff.mpr hk, Dict.get?_set]
      · simp [hkey, Dict.get?_set]

theorem mem_keys_deepMerge {base overlay : List (String × Json)} {key : String} :
    key ∈ Dict.keys (deepMerge base overlay) ↔ key ∈ Dict.keys base ∨ key ∈ Dict.keys overlay := by
  induction overlay generalizing base with
  | nil => simp
  | cons f overlay ih =>
      rw [deepMerge_cons, ih, Dict.mem_keys_set]
      simp only [Dict.keys_cons, List.mem_cons]
      tauto

/-- The keys of the base come first, then the new ones of the overlay. -/
theorem keys_deepMerge {base overlay : List (String × Json)} (h : (Dict.keys overlay).Nodup) :
    Dict.keys (deepMerge base overlay) =
      Dict.keys base ++ (Dict.keys overlay).filter (· ∉ Dict.keys base) := by
  induction overlay generalizing base with
  | nil => simp
  | cons f overlay ih =>
      obtain ⟨hf, hd⟩ := List.nodup_cons.mp h
      rw [deepMerge_cons, ih hd, Dict.keys_set]
      by_cases hk : f.1 ∈ Dict.keys base
      · simp [hk]
      · have hrest : (Dict.keys overlay).filter (· ∉ Dict.keys base ++ [f.1]) =
            (Dict.keys overlay).filter (· ∉ Dict.keys base) := by
          refine List.filter_congr fun k hmem => ?_
          have hne : k ≠ f.1 := fun h => hf (h ▸ hmem)
          simp [hne]
        simp only [hk, if_false, hrest]
        simp [hk]

theorem nodup_keys_deepMerge {base : List (String × Json)} (h : (Dict.keys base).Nodup)
    (overlay : List (String × Json)) : (Dict.keys (deepMerge base overlay)).Nodup := by
  induction overlay generalizing base with
  | nil => simpa using h
  | cons f overlay ih =>
      rw [deepMerge_cons]
      exact ih (Dict.nodup_keys_set h _ _)

mutual

theorem keyed_deepMerge {base : List (String × Json)} (hb : (Json.obj base).keyed) :
    ∀ {overlay : List (String × Json)}, (Json.keyedFields overlay) →
      (Json.obj (deepMerge base overlay)).keyed
  | [], _ => by simpa using hb
  | (key, value) :: overlay, ho => by
      rw [Json.keyedFields, Bool.and_eq_true] at ho
      rw [deepMerge_cons]
      refine keyed_deepMerge (Json.keyed_obj_iff.mpr ⟨?_, fun f hf => ?_⟩) ho.2
      · exact Dict.nodup_keys_set (Json.keyed_obj_iff.mp hb).1 _ _
      · rcases Dict.mem_set hf with rfl | hf
        · refine keyed_mergeValue (fun v hv => ?_) ho.1
          exact Json.keyed_of_get? hb hv
        · exact (Json.keyed_obj_iff.mp hb).2 f hf

theorem keyed_mergeValue {old : Option Json} (hold : ∀ v, old = some v → v.keyed) :
    ∀ {value : Json}, value.keyed → (mergeValue old value).keyed
  | .obj new, hv => by
      by_cases hobj : ∃ fields, old = some (.obj fields)
      · obtain ⟨fields, rfl⟩ := hobj
        rw [mergeValue_obj]
        exact keyed_deepMerge (hold _ rfl) (Json.keyedFields_iff.mpr (Json.keyed_obj_iff.mp hv).2)
      · rw [mergeValue_of_not_obj]
        · exact hv
        · rintro ⟨⟨v, rfl, fields, rfl⟩, -⟩
          exact hobj ⟨fields, rfl⟩
  | .null, hv | .bool _, hv | .int _, hv | .float _, hv | .negZero, hv | .str _, hv | .arr _, hv => by
      simpa [mergeValue] using hv

end

/-! ## Merging again -/

/-- Merging an object over a base is without effect when the object has the keys of the base
first and absorbs the base's value under each of its keys. -/
theorem deepMerge_eq_right {base merged : List (String × Json)} {rest : List String}
    (hd : (Dict.keys merged).Nodup) (hkeys : Dict.keys merged = Dict.keys base ++ rest)
    (hvalues : ∀ f ∈ merged, mergeValue (Dict.get? base f.1) f.2 = f.2) :
    deepMerge base merged = merged := by
  have hnew : (Dict.keys merged).filter (· ∉ Dict.keys base) = rest := by
    have hrest : ∀ k ∈ rest, k ∉ Dict.keys base := by
      intro k hk hbase
      rw [hkeys] at hd
      exact (List.nodup_append.mp hd).2.2 k hbase k hk rfl
    rw [hkeys, List.filter_append]
    have hold : (Dict.keys base).filter (· ∉ Dict.keys base) = [] :=
      List.filter_eq_nil_iff.mpr (by simp)
    rw [hold, List.nil_append]
    exact List.filter_eq_self.mpr (by simpa using hrest)
  have hmerged : Dict.keys (deepMerge base merged) = Dict.keys merged := by
    rw [keys_deepMerge hd, hnew, hkeys]
  refine Dict.ext_of_keys (hmerged ▸ hd) hmerged fun k hk => ?_
  rw [hmerged, ← Dict.isSome_get?_iff] at hk
  obtain ⟨v, hv⟩ := Option.isSome_iff_exists.mp hk
  have hvalue : mergeValue (Dict.get? base k) v = v := hvalues _ (Dict.mem_of_get?_eq_some hv)
  rw [get?_deepMerge hd, hv]
  exact congrArg some hvalue

mutual

/-- Merging a document over itself is without effect. -/
theorem mergeValue_self : ∀ {value : Json}, value.keyed → mergeValue (some value) value = value
  | .obj fields, h => by
      obtain ⟨hd, hvalues⟩ := Json.keyed_obj_iff.mp h
      rw [mergeValue_obj]
      refine congrArg Json.obj (@deepMerge_eq_right _ _ [] hd (by simp) fun f hf => ?_)
      rw [Dict.get?_eq_some_of_mem hd hf]
      exact mergeFields_self (Json.keyedFields_iff.mpr hvalues) f hf
  | .null, _ | .bool _, _ | .int _, _ | .float _, _ | .negZero, _ | .str _, _ | .arr _, _ => by
      simp [mergeValue]

theorem mergeFields_self : ∀ {fields : List (String × Json)}, Json.keyedFields fields →
    ∀ f ∈ fields, mergeValue (some f.2) f.2 = f.2
  | [], _, f, hf => by simp at hf
  | (key, value) :: fields, h, f, hf => by
      rw [Json.keyedFields, Bool.and_eq_true] at h
      rcases List.mem_cons.mp hf with rfl | hf
      · exact mergeValue_self h.1
      · exact mergeFields_self h.2 f hf

end

mutual

/-- A merged document absorbs its base: merging it over the base again changes nothing. -/
theorem mergeValue_mergeValue {old : Option Json} (hold : ∀ v, old = some v → v.keyed) :
    ∀ {value : Json}, value.keyed →
      mergeValue old (mergeValue old value) = mergeValue old value
  | .obj new, h => by
      by_cases hobj : ∃ fields, old = some (.obj fields)
      · obtain ⟨fields, rfl⟩ := hobj
        obtain ⟨hd, hvalues⟩ := Json.keyed_obj_iff.mp h
        have hbase := Json.keyed_obj_iff.mp (hold _ rfl)
        rw [mergeValue_obj, mergeValue_obj]
        refine congrArg Json.obj
          (deepMerge_eq_right (nodup_keys_deepMerge hbase.1 new) (keys_deepMerge hd) fun f hf => ?_)
        have hget := Dict.get?_eq_some_of_mem (nodup_keys_deepMerge hbase.1 new) hf
        rw [get?_deepMerge hd] at hget
        cases hnew : Dict.get? new f.1 with
        | none =>
            -- a key of the base alone: its value is merged over itself
            simp only [hnew] at hget
            rw [hget]
            exact mergeValue_self (hbase.2 _ (Dict.mem_of_get?_eq_some hget))
        | some value =>
            simp only [hnew, Option.some.injEq] at hget
            rw [← hget]
            refine mergeFields_mergeValue (Json.keyedFields_iff.mpr hvalues) _
              (Dict.mem_of_get?_eq_some hnew) fun v hv => ?_
            exact hbase.2 _ (Dict.mem_of_get?_eq_some hv)
      · have hsame : mergeValue old (.obj new) = .obj new := by
          refine mergeValue_of_not_obj ?_
          rintro ⟨⟨v, rfl, fields, rfl⟩, -⟩
          exact hobj ⟨fields, rfl⟩
        rw [hsame, hsame]
  | .null, _ | .bool _, _ | .int _, _ | .float _, _ | .negZero, _ | .str _, _ | .arr _, _ => by
      simp [mergeValue]

theorem mergeFields_mergeValue : ∀ {fields : List (String × Json)}, Json.keyedFields fields →
    ∀ f ∈ fields, ∀ {old : Option Json}, (∀ v, old = some v → v.keyed) →
      mergeValue old (mergeValue old f.2) = mergeValue old f.2
  | [], _, f, hf => by simp at hf
  | (key, value) :: fields, h, f, hf => by
      rw [Json.keyedFields, Bool.and_eq_true] at h
      intro hold
      rcases List.mem_cons.mp hf with rfl | hf
      · exact mergeValue_mergeValue hold h.1
      · exact mergeFields_mergeValue h.2 f hf hold

end

/-! ## Objects with different keys -/

/-- A JSON object as Python holds it: no key twice, at any depth. -/
structure JsonObject where
  fields : List (String × Json)
  keyed : (Json.obj fields).keyed

namespace JsonObject

/-- The object as a document. -/
def json (o : JsonObject) : Json := .obj o.fields

/-- `deep_merge(base, overlay)`. -/
def deepMerge (base overlay : JsonObject) : JsonObject where
  fields := Registry.deepMerge base.fields overlay.fields
  keyed := keyed_deepMerge base.keyed
    (Json.keyedFields_iff.mpr (Json.keyed_obj_iff.mp overlay.keyed).2)

end JsonObject

/-! ## Paths into a merged object -/

/-- Both documents hold an object at the path. -/
def BothObjects (base overlay : Json) (path : List String) : Prop :=
  (∃ b, base.lookup path = some (.obj b)) ∧ ∃ o, overlay.lookup path = some (.obj o)

/-- Where both sides hold objects, the merged document holds their merge. -/
theorem lookup_deepMerge_of_objects {base overlay b o : List (String × Json)}
    (h : (Json.obj overlay).keyed) {path : List String}
    (hb : (Json.obj base).lookup path = some (.obj b))
    (ho : (Json.obj overlay).lookup path = some (.obj o)) :
    (Json.obj (deepMerge base overlay)).lookup path = some (.obj (deepMerge b o)) := by
  induction path generalizing base overlay with
  | nil =>
      rw [Json.lookup_nil] at hb ho ⊢
      cases hb
      cases ho
      rfl
  | cons key path ih =>
      rw [Json.lookup_cons] at hb ho ⊢
      obtain ⟨vb, hvb, hb⟩ := Option.bind_eq_some_iff.mp hb
      obtain ⟨vo, hvo, ho⟩ := Option.bind_eq_some_iff.mp ho
      rw [Json.get?_obj] at hvb hvo ⊢
      rw [get?_deepMerge (Json.keyed_obj_iff.mp h).1, hvo, hvb]
      -- an object at the end of the path is reached through objects, or is the end itself
      have hobj : ∀ {v : Json} {fields : List (String × Json)},
          v.lookup path = some (.obj fields) → ∃ fs, v = .obj fs := by
        intro v fields hv
        cases path with
        | nil => exact ⟨fields, by simpa using hv⟩
        | cons k p =>
            rw [Json.lookup_cons] at hv
            obtain ⟨w, hw, -⟩ := Option.bind_eq_some_iff.mp hv
            cases v with
            | obj fs => exact ⟨fs, rfl⟩
            | null | bool | int | float | negZero | str | arr => simp [Json.get?] at hw
      obtain ⟨fb, rfl⟩ := hobj hb
      obtain ⟨fo, rfl⟩ := hobj ho
      have hfo : (Json.obj fo).keyed :=
        Json.keyed_of_get? h hvo
      simpa using ih hfo hb ho

section Paths

variable {base overlay : JsonObject} {q r : List String} {k : String}

/-- Below the last common objects, a key that the overlay lacks keeps the base's value. -/
theorem lookup_deepMerge_of_no_key (hq : BothObjects base.json overlay.json q)
    (hk : overlay.json.lookup (q ++ [k]) = none) :
    (base.deepMerge overlay).json.lookup (q ++ k :: r) = base.json.lookup (q ++ k :: r) := by
  obtain ⟨⟨b, hb⟩, o, ho⟩ := hq
  have hmerged : (base.deepMerge overlay).json.lookup q = some (.obj (deepMerge b o)) :=
    lookup_deepMerge_of_objects overlay.keyed hb ho
  have hko : Dict.get? o k = none := by
    rw [Json.lookup_append, ho] at hk
    simpa [Json.lookup_cons, Json.get?_obj] using hk
  have hkeyed : (Json.obj o).keyed := Json.keyed_of_lookup overlay.keyed ho
  rw [Json.lookup_append, Json.lookup_append, hmerged, hb]
  simp only [Option.bind_some, Json.lookup_cons, Json.get?_obj]
  rw [get?_deepMerge (Json.keyed_obj_iff.mp hkeyed).1, hko]

/-- Below the last common objects, a key that the overlay has gets the overlay's value. -/
theorem lookup_deepMerge_of_key (hq : BothObjects base.json overlay.json q)
    (hlast : ¬ BothObjects base.json overlay.json (q ++ [k]))
    (hk : (overlay.json.lookup (q ++ [k])).isSome) :
    (base.deepMerge overlay).json.lookup (q ++ k :: r) = overlay.json.lookup (q ++ k :: r) := by
  obtain ⟨⟨b, hb⟩, o, ho⟩ := hq
  have hmerged : (base.deepMerge overlay).json.lookup q = some (.obj (deepMerge b o)) :=
    lookup_deepMerge_of_objects overlay.keyed hb ho
  have hkeyed : (Json.obj o).keyed := Json.keyed_of_lookup overlay.keyed ho
  have hgeto : overlay.json.lookup (q ++ [k]) = Dict.get? o k := by
    rw [Json.lookup_append, ho]
    simp [Json.lookup_cons, Json.get?_obj]
  have hgetb : base.json.lookup (q ++ [k]) = Dict.get? b k := by
    rw [Json.lookup_append, hb]
    simp [Json.lookup_cons, Json.get?_obj]
  rw [hgeto] at hk
  obtain ⟨value, hvalue⟩ := Option.isSome_iff_exists.mp hk
  have hover : mergeValue (Dict.get? b k) value = value := by
    refine mergeValue_of_not_obj ?_
    rintro ⟨⟨v, hv, fields, rfl⟩, new, rfl⟩
    exact hlast ⟨⟨fields, hgetb.trans hv⟩, new, hgeto.trans hvalue⟩
  rw [Json.lookup_append, Json.lookup_append, hmerged, ho]
  simp only [Option.bind_some, Json.lookup_cons, Json.get?_obj]
  rw [get?_deepMerge (Json.keyed_obj_iff.mp hkeyed).1, hvalue, Option.bind_some, hover,
    Option.bind_some]

/-- A common object of the merged documents has the keys of both sides and no others. -/
theorem keys_deepMerge_of_objects (hq : BothObjects base.json overlay.json q) :
    ∃ merged, (base.deepMerge overlay).json.lookup q = some (.obj merged) ∧
      ∀ key, key ∈ Dict.keys merged ↔
        (base.json.lookup (q ++ [key])).isSome ∨ (overlay.json.lookup (q ++ [key])).isSome := by
  obtain ⟨⟨b, hb⟩, o, ho⟩ := hq
  refine ⟨deepMerge b o, lookup_deepMerge_of_objects overlay.keyed hb ho, fun key => ?_⟩
  rw [mem_keys_deepMerge, ← Dict.isSome_get?_iff, ← Dict.isSome_get?_iff, Json.lookup_append,
    Json.lookup_append, hb, ho]
  simp [Json.lookup_cons, Json.get?_obj]

/-- `q` is the longest proper prefix of `p` at which both documents hold objects. -/
def IsLastCommon (base overlay : Json) (p q : List String) : Prop :=
  BothObjects base overlay q ∧ q <+: p ∧ q ≠ p ∧
    ∀ q', q' <+: p → q' ≠ p → BothObjects base overlay q' → q'.length ≤ q.length

/-- Every path has a longest proper prefix of that kind: the empty one is of it. -/
theorem exists_isLastCommon (base overlay : JsonObject) {p : List String} (hp : p ≠ []) :
    ∃ q, IsLastCommon base.json overlay.json p q := by
  classical
  set P : ℕ → Prop := fun n => BothObjects base.json overlay.json (p.take n) with hP
  set n := Nat.findGreatest P (p.length - 1) with hn
  have hpos : 0 < p.length := List.length_pos_iff.mpr hp
  have hle : n ≤ p.length - 1 := Nat.findGreatest_le _
  have hzero : P 0 := ⟨⟨base.fields, by simp [JsonObject.json]⟩,
    overlay.fields, by simp [JsonObject.json]⟩
  have hlength : (p.take n).length = n := by
    rw [List.length_take]
    omega
  refine ⟨p.take n, Nat.findGreatest_spec (Nat.zero_le _) hzero, List.take_prefix n p, ?_, ?_⟩
  · intro h
    rw [h] at hlength
    omega
  · intro q' hpre hne hboth
    have htake : p.take q'.length = q' := (List.prefix_iff_eq_take.mp hpre).symm
    have hlt : q'.length < p.length :=
      lt_of_le_of_ne hpre.length_le fun h => hne (hpre.eq_of_length h)
    rw [hlength]
    refine Nat.le_findGreatest (by omega) ?_
    simp only [hP, htake]
    exact hboth

end Paths

end VoxBench.Registry
