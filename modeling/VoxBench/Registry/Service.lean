import VoxBench.Registry.Schemas
import VoxBench.Lib.Walk

/-!
# The registry and its overlays

Configs are registered raw under their own name. A config may name a parent; resolving it
follows the parents up to a root and merges the documents back down.

## Main definitions

* `RegistryService`, `registerConfig`, `registerManifest`.
* `resolveRaw` — the walk up the parents and the merge down.

## Main results

* `overlay_resolution` — which outcome each walk leads to, the merged document as a fold
  along the walk, and every path of a merge of two documents.
-/

namespace VoxBench.Registry

open VoxBench.Lib VoxBench.ControlPlane

/-- What the registry raises, by its cause. -/
inductive RegistryError where
  | attributeError (reason : String)
  | schemaError (reason : String)
  | configNotFound (name : String)
  | manifestNotFound (kind name : String)
  | nameRequired
  | cyclicOverlay (name : String)
  | parentType (name : String)
  | invalidDocument (reason : String)
  | invalidParams (label reason : String)
  | noProviderCaps (provider : String)
  | unsupportedOwner (owner provider : String)
  | detectorTwice
  | unsupportedCodec (codec provider : String)
  | missingHostCapabilities (plugin : String) (missing : List String)
  | overrideTarget (plugin target : String)
  | overrideType (plugin target : String)
  | ioMismatch (index : ℕ) (mismatches : List (String × Json × Json))
  deriving Repr

/-- The text of the error; `repr` prints a list or a dictionary. -/
def RegistryError.message (repr : Json → String) : RegistryError → String
  | .attributeError reason => reason
  | .schemaError reason => reason
  | .configNotFound name => s!"unknown config '{name}'"
  | .manifestNotFound kind name => s!"unknown {kind} manifest '{name}'"
  | .nameRequired => "config meta.name is required"
  | .cyclicOverlay name => s!"cyclic parent overlay detected for config '{name}'"
  | .parentType name => s!"config '{name}' meta.parent must be a string"
  | .invalidDocument reason => reason
  | .invalidParams label reason => s!"{label} params do not match param_schema: {reason}"
  | .noProviderCaps provider => s!"provider '{provider}' manifest must declare provider_caps"
  | .unsupportedOwner owner provider =>
      s!"turn_taking.owner '{owner}' is not supported by provider '{provider}'"
  | .detectorTwice =>
      "turn_taking.detector with owner=server_vad configures server/client VAD twice"
  | .unsupportedCodec codec provider =>
      s!"transport.codec '{codec}' is not supported by provider '{provider}'"
  | .missingHostCapabilities plugin missing =>
      s!"stage '{plugin}' requires host capabilities not present at its position: " ++
        repr (.arr (missing.map .str))
  | .overrideTarget plugin target =>
      s!"stage '{plugin}' override target is not allowed: {target}"
  | .overrideType plugin target =>
      s!"stage '{plugin}' override target '{target}' has invalid type"
  | .ioMismatch index mismatches =>
      s!"adjacent pipeline io mismatch after stage {index}: " ++
        repr (.obj (mismatches.map fun m => (m.1, .arr [m.2.1, m.2.2])))

/-- The name of a document's type in an `AttributeError`. -/
def typeName : Json → String
  | .null => "NoneType"
  | .bool _ => "bool"
  | .int _ => "int"
  | .float _ | .negZero => "float"
  | .str _ => "str"
  | .arr _ => "list"
  | .obj _ => "dict"

/-- `raw.get("meta", {}).get(key)`. -/
def metaGet (raw : JsonObject) (key : String) : Except RegistryError (Option Json) :=
  match Dict.get? raw.fields "meta" with
  | none => .ok none
  | some (.obj fields) => .ok (Dict.get? fields key)
  | some value => .error (.attributeError s!"'{typeName value}' object has no attribute 'get'")

/-- A manifest: a document that the contract has validated. -/
structure CapabilityManifest (lib : Libraries) where
  document : Json
  valid : ∃ raw : JsonObject, validate lib Schema.capabilityManifest raw.json = some document

/-- The registry: manifests under their kind and name, raw configs under the non-empty name
that they carry. -/
structure RegistryService (lib : Libraries) where
  manifests : List ((String × String) × CapabilityManifest lib)
  configs : List (String × JsonObject)
  named : ∀ entry ∈ configs,
    entry.1 ≠ "" ∧ metaGet entry.2 "name" = .ok (some (.str entry.1))

namespace RegistryService

variable {lib : Libraries}

/-- `register_config`. -/
def registerConfig (service : RegistryService lib) (raw : JsonObject) :
    Except RegistryError (RegistryService lib) :=
  match h : metaGet raw "name" with
  | .error e => .error e
  | .ok (some (.str name)) =>
      if hname : name = "" then .error .nameRequired
      else .ok { service with
        configs := Dict.set service.configs name raw
        named := by
          intro entry hentry
          rcases Dict.mem_set hentry with rfl | hold
          · exact ⟨hname, h⟩
          · exact service.named entry hold }
  | .ok _ => .error .nameRequired

/-- `register_manifest`. An invalid parameter schema raises the library's own error. -/
def registerManifest (service : RegistryService lib) (raw : JsonObject) :
    Except RegistryError (CapabilityManifest lib × RegistryService lib) :=
  match h : validate lib Schema.capabilityManifest raw.json with
  | none => .error (.invalidDocument (lib.invalidText raw.json))
  | some document =>
      match lib.checkSchema (document.field ["param_schema"]) with
      | some reason => .error (.schemaError reason)
      | none =>
          let manifest : CapabilityManifest lib := ⟨document, raw, h⟩
          let key := ((document.field ["kind"]).text, (document.field ["name"]).text)
          .ok (manifest, { service with manifests := Dict.set service.manifests key manifest })

/-- The parent of a config, when it is registered and names one. -/
def parent? (service : RegistryService lib) (name : String) : Option String :=
  match Dict.get? service.configs name with
  | none => none
  | some raw =>
      match metaGet raw "parent" with
      | .ok (some (.str parent)) => some parent
      | _ => none

/-- A registered name that is seen for the first time leaves fewer unseen ones. -/
theorem length_unseen_lt {configs : List (String × JsonObject)} {name : String} {raw : JsonObject}
    {seen : List String} (h : Dict.get? configs name = some raw) (hseen : name ∉ seen) :
    ((Dict.keys configs).filter (· ∉ name :: seen)).length <
      ((Dict.keys configs).filter (· ∉ seen)).length := by
  have hmem : name ∈ (Dict.keys configs).filter (· ∉ seen) := by
    have hkey : name ∈ Dict.keys configs := by
      rw [← Dict.isSome_get?_iff, h]
      rfl
    simpa [hkey] using hseen
  have hsub : (Dict.keys configs).filter (· ∉ name :: seen) =
      ((Dict.keys configs).filter (· ∉ seen)).filter (· ≠ name) := by
    rw [List.filter_filter]
    refine List.filter_congr fun x _ => ?_
    simp [not_or]
  rw [hsub]
  exact List.length_filter_lt_length_iff_exists.mpr ⟨name, hmem, by simp⟩

/-- `_resolve_raw`. The registered names that are not yet seen bound the recursion. -/
def resolveRaw (service : RegistryService lib) (name : String) (seen : List String) :
    Except RegistryError JsonObject :=
  if name ∈ seen then .error (.cyclicOverlay name)
  else
    match _hconfig : Dict.get? service.configs name with
    | none => .error (.configNotFound name)
    | some raw =>
        match metaGet raw "parent" with
        | .error e => .error e
        | .ok none | .ok (some .null) => .ok raw
        | .ok (some (.str parent)) =>
            match resolveRaw service parent (name :: seen) with
            | .error e => .error e
            | .ok base => .ok (base.deepMerge raw)
        | .ok (some _) => .error (.parentType name)
termination_by ((Dict.keys service.configs).filter (· ∉ seen)).length
decreasing_by exact length_unseen_lt ‹_› ‹_›

/-- One step of the recursion. -/
theorem resolveRaw_eq (service : RegistryService lib) (name : String) (seen : List String) :
    service.resolveRaw name seen =
      if name ∈ seen then .error (.cyclicOverlay name)
      else
        match Dict.get? service.configs name with
        | none => .error (.configNotFound name)
        | some raw =>
            match metaGet raw "parent" with
            | .error e => .error e
            | .ok none | .ok (some .null) => .ok raw
            | .ok (some (.str parent)) =>
                match service.resolveRaw parent (name :: seen) with
                | .error e => .error e
                | .ok base => .ok (base.deepMerge raw)
            | .ok (some _) => .error (.parentType name) := by
  rw [resolveRaw]
  split
  · rfl
  · split <;> rename_i hget <;> rw [hget]

/-! ## Where a walk up the parents ends -/

/-- A registered config without a parent. -/
def IsRoot (service : RegistryService lib) (name : String) : Prop :=
  ∃ raw, Dict.get? service.configs name = some raw ∧
    (metaGet raw "parent" = .ok none ∨ metaGet raw "parent" = .ok (some .null))

/-- A registered config whose parent is neither absent nor a string. -/
def HasNonStringParent (service : RegistryService lib) (name : String) : Prop :=
  ∃ raw value, Dict.get? service.configs name = some raw ∧
    metaGet raw "parent" = .ok (some value) ∧ value ≠ .null ∧ ∀ s, value ≠ .str s

/-- A registered config carries an object as its `meta`. -/
theorem metaGet_ok {service : RegistryService lib} {name : String} {raw : JsonObject}
    (h : Dict.get? service.configs name = some raw) (key : String) :
    ∃ value, metaGet raw key = .ok value := by
  have hname := (service.named _ (Dict.mem_of_get?_eq_some h)).2
  cases hmeta : Dict.get? raw.fields "meta" with
  | none => exact ⟨none, by simp [metaGet, hmeta]⟩
  | some value =>
      cases value with
      | obj fields => exact ⟨Dict.get? fields key, by simp [metaGet, hmeta]⟩
      | null | bool | int | float | negZero | str | arr => simp [metaGet, hmeta] at hname

theorem parent?_of_str {service : RegistryService lib} {name parent : String} {raw : JsonObject}
    (h : Dict.get? service.configs name = some raw)
    (hparent : metaGet raw "parent" = .ok (some (.str parent))) :
    service.parent? name = some parent := by
  simp [parent?, h, hparent]

theorem parent?_of_unregistered {service : RegistryService lib} {name : String}
    (h : Dict.get? service.configs name = none) : service.parent? name = none := by
  simp [parent?, h]

theorem IsRoot.parent?_eq_none {service : RegistryService lib} {name : String}
    (h : service.IsRoot name) : service.parent? name = none := by
  obtain ⟨raw, hraw, hparent | hparent⟩ := h <;> simp [parent?, hraw, hparent]

theorem HasNonStringParent.parent?_eq_none {service : RegistryService lib} {name : String}
    (h : service.HasNonStringParent name) : service.parent? name = none := by
  obtain ⟨raw, value, hraw, hparent, -, hstr⟩ := h
  cases value with
  | str s => exact absurd rfl (hstr s)
  | null | bool | int | float | negZero | arr | obj => simp [parent?, hraw, hparent]

/-- What a walk leads to, when the names `seen` were visited before it. -/
inductive Outcome (service : RegistryService lib) (seen : List String) :
    List String → Except RegistryError JsonObject → Prop where
  | cyclic {path : List String} {last : String} (h : last ∈ seen ++ path) :
      Outcome service seen (path ++ [last]) (.error (.cyclicOverlay last))
  | notFound {path : List String} {last : String}
      (h : Dict.get? service.configs last = none) :
      Outcome service seen (path ++ [last]) (.error (.configNotFound last))
  | parentType {path : List String} {last : String} (h : service.HasNonStringParent last) :
      Outcome service seen (path ++ [last]) (.error (.parentType last))
  | root {path : List String} {last : String} {raw : JsonObject} {others : List JsonObject}
      (h : service.IsRoot last)
      (hraws : List.Forall₂ (fun n r => Dict.get? service.configs n = some r)
        (path ++ [last]).reverse (raw :: others)) :
      Outcome service seen (path ++ [last]) (.ok (others.foldl JsonObject.deepMerge raw))

/-- One step up: the outcome of the parent, merged under the child where there is one. -/
theorem Outcome.cons {service : RegistryService lib} {name : String} {seen path : List String}
    {raw : JsonObject} {result : Except RegistryError JsonObject}
    (h : Outcome service (name :: seen) path result)
    (hraw : Dict.get? service.configs name = some raw) :
    Outcome service seen (name :: path)
      (match result with
        | .error e => .error e
        | .ok base => .ok (base.deepMerge raw)) := by
  cases h with
  | cyclic h =>
      refine @Outcome.cyclic _ _ _ (name :: _) _ ?_
      simpa [or_comm, or_left_comm, or_assoc] using h
  | notFound h => exact @Outcome.notFound _ _ _ (name :: _) _ h
  | parentType h => exact @Outcome.parentType _ _ _ (name :: _) _ h
  | @root path last rootRaw others h hraws =>
      have hfold : (others.foldl JsonObject.deepMerge rootRaw).deepMerge raw =
          (others ++ [raw]).foldl JsonObject.deepMerge rootRaw := by simp
      have hraws' : List.Forall₂ (fun n r => Dict.get? service.configs n = some r)
          ((name :: path) ++ [last]).reverse (rootRaw :: (others ++ [raw])) := by
        rw [List.cons_append, List.reverse_cons, ← List.cons_append]
        exact List.rel_append hraws (List.Forall₂.cons hraw List.Forall₂.nil)
      simp only [hfold]
      exact Outcome.root h hraws'

/-- Resolving a name walks up the parents to one of the outcomes. -/
theorem resolveRaw_outcome (service : RegistryService lib) (name : String) (seen : List String) :
    ∃ rest, IsWalk service.parent? (name :: rest) ∧
      Outcome service seen (name :: rest) (service.resolveRaw name seen) := by
  fun_induction resolveRaw service name seen with
  | case1 name seen hseen =>
      exact ⟨[], IsWalk.singleton name, @Outcome.cyclic _ _ _ [] _ (by simpa using hseen)⟩
  | case2 name seen hseen hraw =>
      exact ⟨[], IsWalk.singleton name, @Outcome.notFound _ _ _ [] _ hraw⟩
  | case3 name seen hseen raw hraw e he =>
      obtain ⟨value, hvalue⟩ := metaGet_ok hraw "parent"
      rw [hvalue] at he
      cases he
  | case4 name seen hseen raw hraw hparent =>
      refine ⟨[], IsWalk.singleton name, @Outcome.root _ _ _ [] _ _ []
        ⟨raw, hraw, Or.inl hparent⟩ ?_⟩
      simpa using hraw
  | case5 name seen hseen raw hraw hparent =>
      refine ⟨[], IsWalk.singleton name, @Outcome.root _ _ _ [] _ _ []
        ⟨raw, hraw, Or.inr hparent⟩ ?_⟩
      simpa using hraw
  | case6 name seen hseen raw hraw parent hparent e he ih =>
      obtain ⟨rest, hwalk, hout⟩ := ih
      refine ⟨parent :: rest, IsWalk.cons_cons_iff.mpr ⟨parent?_of_str hraw hparent, hwalk⟩, ?_⟩
      rw [he] at hout
      exact hout.cons hraw
  | case7 name seen hseen raw hraw parent hparent base hbase ih =>
      obtain ⟨rest, hwalk, hout⟩ := ih
      refine ⟨parent :: rest, IsWalk.cons_cons_iff.mpr ⟨parent?_of_str hraw hparent, hwalk⟩, ?_⟩
      rw [hbase] at hout
      exact hout.cons hraw
  | case8 name seen hseen raw hraw value hnull hstr hparent =>
      exact ⟨[], IsWalk.singleton name, @Outcome.parentType _ _ _ [] _
        ⟨raw, value, hraw, hparent, by simpa using hnull, by simpa using hstr⟩⟩

/-- A name that was met before is met twice by the walk. -/
theorem not_nodup_of_mem {path : List String} {last : String} (h : last ∈ path) :
    ¬ (path ++ [last]).Nodup := by
  intro hnodup
  exact (List.nodup_append.mp hnodup).2.2 last h last (by simp) rfl

/-- A walk that ends decides the outcome by its last name. -/
theorem resolveRaw_of_ends {service : RegistryService lib} {name : String} {rest : List String}
    (hwalk : IsWalk service.parent? (name :: rest))
    (hend : service.parent? ((name :: rest).getLast (by simp)) = none) :
    (Dict.get? service.configs ((name :: rest).getLast (by simp)) = none ∧
      service.resolveRaw name [] =
        .error (.configNotFound ((name :: rest).getLast (by simp)))) ∨
    (service.HasNonStringParent ((name :: rest).getLast (by simp)) ∧
      service.resolveRaw name [] = .error (.parentType ((name :: rest).getLast (by simp)))) ∨
    (service.IsRoot ((name :: rest).getLast (by simp)) ∧ ∃ raw others,
      List.Forall₂ (fun n r => Dict.get? service.configs n = some r)
        (name :: rest).reverse (raw :: others) ∧
      service.resolveRaw name [] = .ok (others.foldl JsonObject.deepMerge raw)) := by
  obtain ⟨rest', hwalk', hout⟩ := service.resolveRaw_outcome name []
  generalize service.resolveRaw name [] = result at hout ⊢
  -- both walks end, so they are one
  have hsame : service.parent? ((name :: rest').getLast (by simp)) = none → rest = rest' :=
    hwalk.eq_of_ends hwalk' hend
  generalize hpath : name :: rest' = path at hwalk' hout
  cases hout with
  | @cyclic path last h =>
      refine (IsWalk.not_ends_of_revisit (hpath ▸ hwalk') ?_ hwalk hend).elim
      rw [hpath]
      exact not_nodup_of_mem (by simpa using h)
  | notFound h =>
      obtain rfl := hsame (by simpa [hpath] using parent?_of_unregistered h)
      simp only [hpath, List.getLast_append_singleton]
      exact Or.inl ⟨h, trivial⟩
  | parentType h =>
      obtain rfl := hsame (by simpa [hpath] using h.parent?_eq_none)
      simp only [hpath, List.getLast_append_singleton]
      exact Or.inr (Or.inl ⟨h, trivial⟩)
  | root h hraws =>
      obtain rfl := hsame (by simpa [hpath] using h.parent?_eq_none)
      simp only [hpath, List.getLast_append_singleton]
      exact Or.inr (Or.inr ⟨h, _, _, hraws, rfl⟩)

theorem IsRoot.registered {service : RegistryService lib} {name : String}
    (h : service.IsRoot name) : Dict.get? service.configs name ≠ none := by
  obtain ⟨raw, hraw, -⟩ := h
  simp [hraw]

theorem HasNonStringParent.registered {service : RegistryService lib} {name : String}
    (h : service.HasNonStringParent name) : Dict.get? service.configs name ≠ none := by
  obtain ⟨raw, value, hraw, -⟩ := h
  simp [hraw]

theorem HasNonStringParent.not_isRoot {service : RegistryService lib} {name : String}
    (h : service.HasNonStringParent name) : ¬ service.IsRoot name := by
  obtain ⟨raw, value, hraw, hparent, hnull, -⟩ := h
  rintro ⟨raw', hraw', hroot⟩
  obtain rfl : raw = raw' := Option.some.inj (hraw.symm.trans hraw')
  rw [hparent] at hroot
  rcases hroot with hroot | hroot
  · simp at hroot
  · exact hnull (Option.some.inj (Except.ok.inj hroot))

/-- The documents along a walk are determined by it. -/
theorem eq_of_forall₂_get? {configs : List (String × JsonObject)} {path : List String}
    {raws raws' : List JsonObject}
    (h : List.Forall₂ (fun n r => Dict.get? configs n = some r) path raws)
    (h' : List.Forall₂ (fun n r => Dict.get? configs n = some r) path raws') : raws = raws' := by
  induction h generalizing raws' with
  | nil => cases h'; rfl
  | cons hr _ ih =>
      cases h' with
      | cons hr' h' => rw [Option.some.inj (hr.symm.trans hr'), ih h']

end RegistryService

open RegistryService

/-- **Overlay resolution.** The walk up the parents decides the outcome: a name met twice is a
cyclic overlay, an unregistered name is not found, a parent that is no string is a type error,
and a walk to a root gives the left fold of the merge from the root down. In a merge of two
documents, each path takes its value from one side, decided below the last objects that both
sides hold, and every common object has the keys of both sides and no others. -/
theorem overlay_resolution {lib : Libraries} (service : RegistryService lib) (name : String) :
    (∀ e, service.resolveRaw name [] = .error e →
      ∃ n, e = .cyclicOverlay n ∨ e = .configNotFound n ∨ e = .parentType n) ∧
    ((∃ n, service.resolveRaw name [] = .error (.cyclicOverlay n)) ↔
      ∃ rest, IsWalk service.parent? (name :: rest) ∧ ¬ (name :: rest).Nodup) ∧
    (∀ n, service.resolveRaw name [] = .error (.configNotFound n) ↔
      ∃ rest, IsWalk service.parent? (name :: rest) ∧ (name :: rest).getLast (by simp) = n ∧
        Dict.get? service.configs n = none) ∧
    (∀ n, service.resolveRaw name [] = .error (.parentType n) ↔
      ∃ rest, IsWalk service.parent? (name :: rest) ∧ (name :: rest).getLast (by simp) = n ∧
        service.HasNonStringParent n) ∧
    (∀ result, service.resolveRaw name [] = .ok result ↔
      ∃ rest root others, IsWalk service.parent? (name :: rest) ∧
        service.IsRoot ((name :: rest).getLast (by simp)) ∧
        List.Forall₂ (fun n raw => Dict.get? service.configs n = some raw)
          (name :: rest).reverse (root :: others) ∧
        result = others.foldl JsonObject.deepMerge root) ∧
    (∀ (base overlay : JsonObject) (p : List String), p ≠ [] →
      ∃ q, IsLastCommon base.json overlay.json p q ∧ ∀ k r, p = q ++ k :: r →
        ((overlay.json.lookup (q ++ [k])).isSome → ¬ BothObjects base.json overlay.json p →
          (base.deepMerge overlay).json.lookup p = overlay.json.lookup p) ∧
        (overlay.json.lookup (q ++ [k]) = none →
          (base.deepMerge overlay).json.lookup p = base.json.lookup p)) ∧
    (∀ (base overlay : JsonObject) (q : List String), BothObjects base.json overlay.json q →
      ∃ merged, (base.deepMerge overlay).json.lookup q = some (.obj merged) ∧
        ∀ key, key ∈ Dict.keys merged ↔ (base.json.lookup (q ++ [key])).isSome ∨
          (overlay.json.lookup (q ++ [key])).isSome) := by
  obtain ⟨rest, hwalk, hout⟩ := service.resolveRaw_outcome name []
  refine ⟨?_, ⟨?_, ?_⟩, fun n => ⟨?_, ?_⟩, fun n => ⟨?_, ?_⟩, fun merged => ⟨?_, ?_⟩, ?_, ?_⟩
  · intro e he
    rw [he] at hout
    generalize name :: rest = path at hout
    cases hout with
    | cyclic _ => exact ⟨_, Or.inl rfl⟩
    | notFound _ => exact ⟨_, Or.inr (Or.inl rfl)⟩
    | parentType _ => exact ⟨_, Or.inr (Or.inr rfl)⟩
  · rintro ⟨n, hn⟩
    refine ⟨rest, hwalk, ?_⟩
    rw [hn] at hout
    generalize name :: rest = path at hout
    cases hout with
    | cyclic h => exact not_nodup_of_mem (by simpa using h)
  · rintro ⟨rest', hwalk', hrevisit⟩
    -- the walk of the resolution cannot have come to an end
    have hgoes : service.parent? ((name :: rest).getLast (by simp)) ≠ none := fun hend =>
      hwalk'.not_ends_of_revisit hrevisit hwalk hend
    generalize service.resolveRaw name [] = result at hout ⊢
    generalize hpath : name :: rest = path at hout
    simp only [hpath] at hgoes
    cases hout with
    | cyclic _ => exact ⟨_, rfl⟩
    | notFound h => exact absurd (parent?_of_unregistered h) (by simpa using hgoes)
    | parentType h => exact absurd h.parent?_eq_none (by simpa using hgoes)
    | root h _ => exact absurd h.parent?_eq_none (by simpa using hgoes)
  · intro hn
    rw [hn] at hout
    generalize hpath : name :: rest = path at hout
    cases hout with
    | notFound h => exact ⟨rest, hwalk, by simp [hpath], h⟩
  · rintro ⟨rest', hwalk', rfl, h⟩
    rcases resolveRaw_of_ends hwalk' (parent?_of_unregistered h) with ⟨-, hr⟩ | ⟨h', -⟩ | ⟨h', -⟩
    · exact hr
    · exact absurd h h'.registered
    · exact absurd h h'.registered
  · intro hn
    rw [hn] at hout
    generalize hpath : name :: rest = path at hout
    cases hout with
    | parentType h => exact ⟨rest, hwalk, by simp [hpath], h⟩
  · rintro ⟨rest', hwalk', rfl, h⟩
    rcases resolveRaw_of_ends hwalk' h.parent?_eq_none with ⟨h', -⟩ | ⟨-, hr⟩ | ⟨h', -⟩
    · exact absurd h' h.registered
    · exact hr
    · exact absurd h' h.not_isRoot
  · intro hn
    rw [hn] at hout
    generalize hpath : name :: rest = path at hout
    cases hout with
    | root h hraws =>
        exact ⟨rest, _, _, hwalk, by simpa [hpath] using h, by simpa [hpath] using hraws, rfl⟩
  · rintro ⟨rest', root, others, hwalk', h, hraws, rfl⟩
    rcases resolveRaw_of_ends hwalk' h.parent?_eq_none with ⟨h', -⟩ | ⟨h', -⟩ | ⟨-, raw, os, hr, heq⟩
    · exact absurd h' h.registered
    · exact absurd h h'.not_isRoot
    · obtain ⟨rfl, rfl⟩ := List.cons.inj (eq_of_forall₂_get? hraws hr)
      exact heq
  · intro base overlay p hp
    obtain ⟨q, hq⟩ := exists_isLastCommon base overlay hp
    refine ⟨q, hq, ?_⟩
    rintro k r rfl
    refine ⟨fun hkey hboth => lookup_deepMerge_of_key hq.1 (fun hnext => ?_) hkey,
      lookup_deepMerge_of_no_key hq.1⟩
    -- common objects below `q` would be at `p` itself or at a longer proper prefix
    cases r with
    | nil => exact hboth hnext
    | cons k' r =>
        have hlonger := hq.2.2.2 (q ++ [k]) ⟨k' :: r, by simp⟩ (by simp) hnext
        simp at hlonger
  · intro base overlay q hq
    exact keys_deepMerge_of_objects hq

end VoxBench.Registry
