import VoxBench.Registry.Merge

/-!
# Config and manifest contracts

The contracts are tables of fields, each with its type and its default. `validate` reads a raw
document against a contract: unknown keys and missing required fields are errors, scalars go
through the validator's lax conversions, and the result has every field of the contract in
its order. `dump` writes it back without the fields that are `None`.

## Main definitions

* `Libraries` — what the code takes from its libraries.
* `Schema`, `validate`, `dump` — contracts, `model_validate` and
  `model_dump(mode="json", exclude_none=True)`.
* `Schema.voiceConfig`, `Schema.capabilityManifest` — the contracts of the repository.
-/

namespace VoxBench.Registry

open VoxBench.Lib VoxBench.ControlPlane

/-- What the registry takes from its libraries: the lax conversions of scalar fields, which
leave values of the type itself alone, the outcome of a JSON-schema check as the text of its
error, and the printing of floats. -/
structure Libraries where
  toInt : Json → Option ℤ
  toBool : Json → Option Bool
  toFloat : Json → Option Json
  toInt_int : ∀ n, toInt (.int n) = some n
  toBool_bool : ∀ b, toBool (.bool b) = some b
  toFloat_isFloat : ∀ {value number}, toFloat value = some number → number.isFloat
  toFloat_of_isFloat : ∀ {number : Json}, number.isFloat → toFloat number = some number
  /-- The text of the error that reports an invalid document. -/
  invalidText : Json → String
  /-- `check_schema`. -/
  checkSchema : (schema : Json) → Option String
  /-- `Draft202012Validator(schema).validate(params)`. -/
  validateParams : (schema params : Json) → Option String
  /-- `float.__repr__`. -/
  floatRepr : ℚ → String

theorem Libraries.toFloat_float (lib : Libraries) (q : ℚ) :
    lib.toFloat (.float q) = some (.float q) := lib.toFloat_of_isFloat rfl

/-- The type of a field. -/
inductive Schema where
  | str
  | int
  | bool
  | float
  | any
  | object
  | literal (values : List String)
  | list (item : Schema)
  | optional (inner : Schema)
  | model (fields : List (String × Schema × Option Json))

section Validate

variable (lib : Libraries)

mutual

/-- `model_validate`: the validated value, or nothing for an error. -/
def validate : Schema → Json → Option Json
  | .str, .str s => some (.str s)
  | .int, value => (lib.toInt value).map .int
  | .bool, value => (lib.toBool value).map .bool
  | .float, value => lib.toFloat value
  | .any, value => some value
  | .object, .obj fields => some (.obj fields)
  | .literal values, .str s => if s ∈ values then some (.str s) else none
  | .list item, .arr items => (items.mapM (validate item)).map .arr
  | .optional inner, value =>
      match value with
      | .null => some .null
      | value => validate inner value
  | .model fields, .obj given =>
      if ∀ key ∈ Dict.keys given, key ∈ Dict.keys fields then
        (validateFields fields given).map .obj
      else none
  | _, _ => none

/-- Each field of a contract: the given value validated, else the default. -/
def validateFields : List (String × Schema × Option Json) → List (String × Json) →
    Option (List (String × Json))
  | [], _ => some []
  | (name, schema, default) :: fields, given =>
      match (match Dict.get? given name with
        | some value => validate schema value
        | none => default) with
      | none => none
      | some value => (validateFields fields given).map ((name, value) :: ·)

end

end Validate

mutual

/-- `model_dump(mode="json", exclude_none=True)`: only fields of models are left out. -/
def dump : Schema → Json → Json
  | .list item, .arr items => .arr (items.map (dump item))
  | .optional inner, value => dump inner value
  | .model fields, .obj values => .obj (dumpFields fields values)
  | _, value => value

def dumpFields : List (String × Schema × Option Json) → List (String × Json) →
    List (String × Json)
  | [], _ => []
  | (name, schema, _) :: fields, values =>
      match Dict.get? values name with
      | none | some .null => dumpFields fields values
      | some value => (name, dump schema value) :: dumpFields fields values

end

/-! ## The contracts -/

namespace Schema

def required (name : String) (type : Schema) : String × Schema × Option Json :=
  (name, type, none)

def withDefault (name : String) (type : Schema) (default : Json) :
    String × Schema × Option Json :=
  (name, type, some default)

/-- A field `T | None = None`. -/
def orNone (name : String) (type : Schema) : String × Schema × Option Json :=
  (name, .optional type, some .null)

def dictField (name : String) : String × Schema × Option Json :=
  withDefault name .object (.obj [])

def listField (name : String) (item : Schema) : String × Schema × Option Json :=
  withDefault name (.list item) (.arr [])

section Names

variable (name : String) (type : Schema) (default : Json)

@[simp] theorem required_fst : (required name type).1 = name := rfl
@[simp] theorem withDefault_fst : (withDefault name type default).1 = name := rfl
@[simp] theorem orNone_fst : (orNone name type).1 = name := rfl
@[simp] theorem dictField_fst : (dictField name).1 = name := rfl
@[simp] theorem listField_fst : (listField name type).1 = name := rfl

end Names

def pluginKind : Schema := .literal ["engine", "provider", "processor"]

def overrideType : Schema :=
  .literal ["string", "integer", "number", "float", "boolean", "object", "array"]

def invariant : Schema := .literal ["duration_preserving", "level_preserving", "isochronous"]

def turnTakingOwner : Schema := .literal ["server_vad", "client_vad", "semantic", "external"]

def overridePermission : Schema := .model [
  required "target" .str,
  required "type" overrideType]

def overrideValue : Schema := .model [
  required "target" .str,
  required "value" .any]

def ioContract : Schema := .model [
  required "mode" (.literal ["passthrough", "rate_changing", "format_changing"]),
  dictField "accepts",
  orNone "produces" .object]

def providerCaps : Schema := .model [
  listField "turn_taking_owners" turnTakingOwner,
  listField "supported_codecs" .str,
  orNone "input_rate" .int,
  orNone "output_rate" .int]

def capabilityManifest : Schema := .model [
  required "kind" pluginKind,
  required "name" .str,
  required "version" .str,
  dictField "param_schema",
  orNone "io" ioContract,
  listField "invariants_enforced" invariant,
  listField "invariants_applicable" invariant,
  listField "lossy_expected" .str,
  listField "requires_host_capability" .str,
  listField "allowed_overrides" overridePermission,
  orNone "provider_caps" providerCaps]

def configMeta : Schema := .model [
  required "name" .str,
  required "version" .str,
  orNone "parent" .str,
  dictField "labels"]

def engineConfig : Schema := .model [
  required "kind" .str,
  dictField "params"]

def jitterBufferConfig : Schema := .model [
  required "mode" .str,
  required "max_ms" .int]

def transportConfig : Schema := .model [
  required "codec" .str,
  required "ptime_ms" .int,
  orNone "jitter_buffer" jitterBufferConfig]

def pipelineStage : Schema := .model [
  required "type" .str,
  required "plugin" .str,
  dictField "params",
  orNone "io" ioContract,
  orNone "invariants_enforced" (.list invariant),
  orNone "invariants_applicable" (.list invariant),
  orNone "lossy_expected" (.list .str),
  orNone "requires_host_capability" (.list .str),
  listField "host_capabilities" .str,
  listField "overrides" overrideValue]

def mediaConfig : Schema := .model [
  required "pipeline" (.list pipelineStage)]

def detectorConfig : Schema := .model [
  required "plugin" .str,
  dictField "params"]

def turnTakingConfig : Schema := .model [
  required "owner" turnTakingOwner,
  orNone "detector" detectorConfig,
  withDefault "barge_in" .bool (.bool false)]

def aiConfig : Schema := .model [
  required "provider" .str,
  required "model" .str,
  dictField "params",
  orNone "system_prompt_ref" .str,
  listField "tools" .object]

def observabilityConfig : Schema := .model [
  withDefault "stage_taps" .bool (.bool false),
  withDefault "record_audio" .bool (.bool false),
  withDefault "trace_sample" .float (.float 0),
  listField "signal_metrics" .str,
  listField "host_metrics" .str,
  listField "cross_session" .str]

/-- `ObservabilityConfig()`. -/
def observabilityDefault : Json := .obj [
  ("stage_taps", .bool false),
  ("record_audio", .bool false),
  ("trace_sample", .float 0),
  ("signal_metrics", .arr []),
  ("host_metrics", .arr []),
  ("cross_session", .arr [])]

def voiceSpec : Schema := .model [
  required "engine" engineConfig,
  required "transport" transportConfig,
  required "media" mediaConfig,
  required "turn_taking" turnTakingConfig,
  required "ai" aiConfig,
  withDefault "observability" observabilityConfig observabilityDefault]

def voiceConfig : Schema := .model [
  required "apiVersion" (.literal ["voxbench/v1"]),
  required "kind" (.literal ["VoiceConfig"]),
  required "meta" configMeta,
  required "spec" voiceSpec]

end Schema

end VoxBench.Registry
