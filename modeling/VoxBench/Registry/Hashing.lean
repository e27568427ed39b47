import VoxBench.Registry.Schemas
import VoxBench.Lib.Sha256
import Mathlib.Data.List.Forall2
import Mathlib.Data.List.Sort
import Mathlib.Data.String.Basic

/-!
# Deterministic hashing of resolved configs

`canonical_json` prints a document with the keys of every object sorted; the hash of a
resolved config is the digest of that text.

## Main definitions

* `Json.sortKeys`, `Json.render`, `canonicalJson`, `resolvedHash`.
* `Json.pyEq` — `==` between documents.

## Main results

* `Json.sortKeys_obj_of_perm`, `Json.pyEq_obj_of_perm` — the order of the keys matters to
  neither.
-/

namespace VoxBench.ControlPlane.Json

open VoxBench.Lib

mutual

/-- The document with the keys of every object sorted. -/
def sortKeys : Json → Json
  | .arr items => .arr (sortItems items)
  | .obj fields => .obj ((sortFields fields).insertionSort fun f g => f.1 ≤ g.1)
  | document => document

def sortItems : List Json → List Json
  | [] => []
  | item :: items => sortKeys item :: sortItems items

def sortFields : List (String × Json) → List (String × Json)
  | [] => []
  | (key, value) :: fields => (key, sortKeys value) :: sortFields fields

end

/-- The number of a JSON number or boolean. -/
def number? : Json → Option ℚ
  | .bool b => some (if b then 1 else 0)
  | .int n => some n
  | .float q => some q
  | .negZero => some 0
  | _ => none

mutual

/-- `a == b`: numbers by value, objects without regard to the order of their keys. -/
def pyEq : Json → Json → Bool
  | .null, .null => true
  | .str a, .str b => a == b
  | .arr xs, .arr ys => pyEqItems xs ys
  | .obj fields, .obj fields' => fields.length == fields'.length && pyEqFields fields fields'
  | a, b =>
      match a.number?, b.number? with
      | some p, some q => p == q
      | _, _ => false

def pyEqItems : List Json → List Json → Bool
  | [], [] => true
  | x :: xs, y :: ys => pyEq x y && pyEqItems xs ys
  | _, _ => false

def pyEqFields : List (String × Json) → List (String × Json) → Bool
  | [], _ => true
  | (key, value) :: fields, fields' =>
      (match Dict.get? fields' key with
        | some value' => pyEq value value'
        | none => false) && pyEqFields fields fields'

end

/-! ## Text -/

/-- A character of a JSON string, with `ensure_ascii=False`. -/
def escapeChar (c : Char) : String :=
  if c = '"' then "\\\""
  else if c = '\\' then "\\\\"
  else if c = '\n' then "\\n"
  else if c = '\r' then "\\r"
  else if c = '\t' then "\\t"
  else if c = '\x08' then "\\b"
  else if c = '\x0c' then "\\f"
  else if c.toNat < 32 then
    "\\u00" ++ String.ofList [Nat.digitChar (c.toNat / 16), Nat.digitChar (c.toNat % 16)]
  else String.singleton c

def quote (s : String) : String := "\"" ++ String.join (s.toList.map escapeChar) ++ "\""

mutual

/-- `json.dumps(…, ensure_ascii=False, separators=(",", ":"))`. -/
def render (floatRepr : ℚ → String) : Json → String
  | .null => "null"
  | .bool b => if b then "true" else "false"
  | .int n => toString n
  | .float q => floatRepr q
  | .negZero => "-0.0"
  | .str s => quote s
  | .arr items => "[" ++ ",".intercalate (renderItems floatRepr items) ++ "]"
  | .obj fields => "\x7b" ++ ",".intercalate (renderFields floatRepr fields) ++ "\x7d"

def renderItems (floatRepr : ℚ → String) : List Json → List String
  | [] => []
  | item :: items => render floatRepr item :: renderItems floatRepr items

def renderFields (floatRepr : ℚ → String) : List (String × Json) → List String
  | [] => []
  | (key, value) :: fields =>
      (quote key ++ ":" ++ render floatRepr value) :: renderFields floatRepr fields

end

/-! ## The order of keys -/

theorem sortItems_eq_map (items : List Json) : sortItems items = items.map sortKeys := by
  induction items with
  | nil => simp [sortItems]
  | cons x xs ih => simp [sortItems, ih]

theorem sortFields_eq_map (fields : List (String × Json)) :
    sortFields fields = fields.map fun f => (f.1, sortKeys f.2) := by
  induction fields with
  | nil => simp [sortFields]
  | cons f fs ih => simp [sortFields, ih]

/-- Sorting forgets the order in which the keys of an object stood. -/
theorem sortKeys_obj_of_perm {fields fields' : List (String × Json)}
    (hd : (Dict.keys fields).Nodup) (h : fields.Perm fields') :
    sortKeys (.obj fields) = sortKeys (.obj fields') := by
  rw [sortKeys, sortKeys, sortFields_eq_map, sortFields_eq_map]
  set sorted := fields.map fun f => (f.1, sortKeys f.2) with hsorted
  set sorted' := fields'.map fun f => (f.1, sortKeys f.2) with hsorted'
  have hperm : sorted.Perm sorted' := h.map _
  have hkeys : (sorted.map Prod.fst).Nodup := by
    have hmap : sorted.map Prod.fst = Dict.keys fields := by
      rw [hsorted, List.map_map]
      rfl
    rwa [hmap]
  refine congrArg Json.obj ?_
  refine List.Perm.eq_of_pairwise ?_ (List.pairwise_insertionSort _ sorted)
    (List.pairwise_insertionSort _ sorted')
    ((List.perm_insertionSort _ sorted).trans
      (hperm.trans (List.perm_insertionSort _ sorted').symm))
  intro f g hf hg hle hge
  rw [List.mem_insertionSort] at hf hg
  exact List.inj_on_of_nodup_map hkeys hf (hperm.mem_iff.mpr hg) (le_antisymm hle hge)

theorem pyEqFields_iff {fields fields' : List (String × Json)} :
    pyEqFields fields fields' ↔
      ∀ f ∈ fields, ∃ value, Dict.get? fields' f.1 = some value ∧ pyEq f.2 value := by
  induction fields with
  | nil => simp [pyEqFields]
  | cons f fields ih =>
      obtain ⟨key, value⟩ := f
      rw [pyEqFields, Bool.and_eq_true, ih, List.forall_mem_cons]
      refine and_congr_left fun _ => ?_
      cases Dict.get? fields' key with
      | none => simp
      | some value' => simp

mutual

theorem pyEq_self : ∀ {document : Json}, document.keyed → pyEq document document
  | .null, _ => by simp [pyEq]
  | .bool b, _ => by simp [pyEq, number?]
  | .int n, _ => by simp [pyEq, number?]
  | .float q, _ => by simp [pyEq, number?]
  | .negZero, _ => by simp [pyEq, number?]
  | .str s, _ => by simp [pyEq]
  | .arr items, h => by
      rw [pyEq]
      exact pyEqItems_self (by rwa [keyed] at h)
  | .obj fields, h => by
      rw [keyed_obj_iff] at h
      rw [pyEq, pyEqFields_iff.mpr]
      · simp
      · intro f hf
        exact ⟨f.2, Dict.get?_eq_some_of_mem h.1 hf,
          pyEqFields_self (keyedFields_iff.mpr h.2) f hf⟩

theorem pyEqItems_self : ∀ {items : List Json}, keyedItems items → pyEqItems items items
  | [], _ => by simp [pyEqItems]
  | item :: items, h => by
      rw [keyedItems, Bool.and_eq_true] at h
      rw [pyEqItems, pyEq_self h.1, pyEqItems_self h.2]
      rfl

theorem pyEqFields_self : ∀ {fields : List (String × Json)}, keyedFields fields →
    ∀ f ∈ fields, pyEq f.2 f.2
  | [], _, f, hf => by simp at hf
  | (key, value) :: fields, h, f, hf => by
      rw [keyedFields, Bool.and_eq_true] at h
      rcases List.mem_cons.mp hf with rfl | hf
      · exact pyEq_self h.1
      · exact pyEqFields_self h.2 f hf

end

/-- A number equals the numbers of its value. -/
theorem pyEq_number_iff {a b : Json} {p : ℚ} (h : a.number? = some p) :
    pyEq a b ↔ b.number? = some p := by
  have heq : pyEq a b =
      match a.number?, b.number? with
      | some p, some q => p == q
      | _, _ => false := by
    cases a with
    | bool | int | float | negZero => cases b <;> rfl
    | null | str | arr | obj => cases h
  rw [heq, h]
  cases b.number? with
  | none => simp
  | some q =>
      rw [beq_iff_eq, Option.some_inj]
      exact eq_comm

mutual

theorem pyEq_trans : ∀ {a b c : Json}, pyEq a b → pyEq b c → pyEq a c
  | .null, b, c, hab, hbc => by
      cases b with
      | null => exact hbc
      | bool | int | float | negZero | str | arr | obj => simp [pyEq, number?] at hab
  | .str s, b, c, hab, hbc => by
      cases b with
      | str t =>
          obtain rfl : s = t := by simpa [pyEq] using hab
          exact hbc
      | null | bool | int | float | negZero | arr | obj => simp [pyEq, number?] at hab
  | .bool x, b, c, hab, hbc => by
      have hb := (pyEq_number_iff rfl).mp hab
      exact (pyEq_number_iff rfl).mpr ((pyEq_number_iff hb).mp hbc)
  | .int x, b, c, hab, hbc => by
      have hb := (pyEq_number_iff rfl).mp hab
      exact (pyEq_number_iff rfl).mpr ((pyEq_number_iff hb).mp hbc)
  | .float x, b, c, hab, hbc => by
      have hb := (pyEq_number_iff rfl).mp hab
      exact (pyEq_number_iff rfl).mpr ((pyEq_number_iff hb).mp hbc)
  | .negZero, b, c, hab, hbc => by
      have hb := (pyEq_number_iff rfl).mp hab
      exact (pyEq_number_iff rfl).mpr ((pyEq_number_iff hb).mp hbc)
  | .arr xs, b, c, hab, hbc => by
      cases b with
      | arr ys =>
          cases c with
          | arr zs =>
              rw [pyEq] at hab hbc ⊢
              exact pyEqItems_trans hab hbc
          | null | bool | int | float | negZero | str | obj => simp [pyEq, number?] at hbc
      | null | bool | int | float | negZero | str | obj => simp [pyEq, number?] at hab
  | .obj fields, b, c, hab, hbc => by
      cases b with
      | obj fields' =>
          cases c with
          | obj fields'' =>
              rw [pyEq, Bool.and_eq_true, beq_iff_eq] at hab hbc ⊢
              rw [pyEqFields_iff] at hbc
              exact ⟨hab.1.trans hbc.1, pyEqFields_trans hab.2 hbc.2⟩
          | null | bool | int | float | negZero | str | arr => simp [pyEq, number?] at hbc
      | null | bool | int | float | negZero | str | arr => simp [pyEq, number?] at hab

theorem pyEqItems_trans : ∀ {xs ys zs : List Json}, pyEqItems xs ys → pyEqItems ys zs →
    pyEqItems xs zs
  | [], [], zs, _, hbc => hbc
  | [], _ :: _, _, hab, _ => by simp [pyEqItems] at hab
  | _ :: _, [], _, hab, _ => by simp [pyEqItems] at hab
  | _ :: _, _ :: _, [], _, hbc => by simp [pyEqItems] at hbc
  | x :: xs, y :: ys, z :: zs, hab, hbc => by
      rw [pyEqItems, Bool.and_eq_true] at hab hbc ⊢
      exact ⟨pyEq_trans hab.1 hbc.1, pyEqItems_trans hab.2 hbc.2⟩

theorem pyEqFields_trans : ∀ {fields fields' fields'' : List (String × Json)},
    pyEqFields fields fields' →
    (∀ f ∈ fields', ∃ value, Dict.get? fields'' f.1 = some value ∧ pyEq f.2 value) →
      pyEqFields fields fields''
  | [], _, _, _, _ => by simp [pyEqFields]
  | (key, value) :: fields, fields', fields'', hab, hbc => by
      rw [pyEqFields, Bool.and_eq_true] at hab ⊢
      refine ⟨?_, pyEqFields_trans hab.2 hbc⟩
      cases hget : Dict.get? fields' key with
      | none => simp [hget] at hab
      | some value' =>
          obtain ⟨value'', hget', heq⟩ := hbc (key, value') (Dict.mem_of_get?_eq_some hget)
          rw [hget']
          rw [hget] at hab
          exact pyEq_trans hab.1 heq

end

/-- The order of the keys does not matter to equality. -/
theorem pyEq_obj_of_perm {fields fields' : List (String × Json)} (hk : (Json.obj fields).keyed)
    (h : fields.Perm fields') : pyEq (.obj fields) (.obj fields') := by
  obtain ⟨hd, hvalues⟩ := keyed_obj_iff.mp hk
  have hd' : (Dict.keys fields').Nodup := (h.map Prod.fst).nodup_iff.mp hd
  rw [pyEq, Bool.and_eq_true, beq_iff_eq, pyEqFields_iff]
  refine ⟨h.length_eq, fun f hf => ?_⟩
  exact ⟨f.2, Dict.get?_eq_some_of_mem hd' (h.mem_iff.mp hf), pyEq_self (hvalues f hf)⟩

theorem pyEq_arr {xs ys : List Json} (h : List.Forall₂ (fun x y => pyEq x y) xs ys) :
    pyEq (.arr xs) (.arr ys) := by
  rw [pyEq]
  induction h with
  | nil => simp [pyEqItems]
  | cons hxy _ ih => rw [pyEqItems, hxy, ih]; rfl

theorem sortKeys_arr {xs ys : List Json} (h : List.Forall₂ (fun x y => sortKeys x = sortKeys y) xs ys) :
    sortKeys (.arr xs) = sortKeys (.arr ys) := by
  rw [sortKeys, sortKeys, sortItems_eq_map, sortItems_eq_map]
  refine congrArg Json.arr ?_
  induction h with
  | nil => rfl
  | cons hxy _ ih => rw [List.map_cons, List.map_cons, hxy, ih]

end VoxBench.ControlPlane.Json

namespace VoxBench.Registry

open VoxBench.Lib VoxBench.ControlPlane

/-- `canonical_json`. -/
def canonicalJson (lib : Libraries) (value : Json) : String :=
  value.sortKeys.render lib.floatRepr

/-- `resolved_hash`. -/
def resolvedHash (lib : Libraries) (value : Json) : String :=
  Sha256.hexdigest (canonicalJson lib value).toUTF8.toList

end VoxBench.Registry
