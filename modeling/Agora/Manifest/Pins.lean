import Agora.Lib.Decimal
import Agora.Lib.Mapping
import Agora.Replay.Records
import Mathlib.Data.PNat.Notation

namespace Agora.Manifest

open Ledger (NonBlank Payload)
open Marl (Hash Text canonicalHash isHash sha256Hash uuidCodec)
open Replay (ReplayImplementationIdentity ReplayStep ReplayStepKind ReplayStepPolicy)

/-!
# What a run manifest pins

The versioned parts of a run manifest and its replay steps, each with the codec that dumps it and
loads it back with its validators.  A free-form value is kept as the JSON that it is dumped as.
-/

/-! ### Fields -/

/-- How validation reads a time: in the text that it is dumped as, among others. -/
class Runtime extends Marl.Runtime where
  parseDatetime : Json → Option Datetime
  parseDatetime_zulu : ∀ t : Datetime, parseDatetime (.text (String.ofList t.zulu)) = some t

def nonBlankCodec : Codec NonBlank := Text.codec fun s => !isBlank s

def hashCodec : Codec Hash := Text.codec isHash

theorem dump_text_ne {valid : String → Bool} (t : Text valid) : (Text.codec valid).dump t ≠ .null :=
  nofun

def optionalHashCodec : Codec (Option Hash) := hashCodec.option dump_text_ne

def optionalNonBlankCodec : Codec (Option NonBlank) := nonBlankCodec.option dump_text_ne

def optionalStringCodec : Codec (Option String) := Codec.string.option nofun

def optionalUuidCodec [Runtime] : Codec (Option UUID) := uuidCodec.option nofun

def optionalIntCodec : Codec (Option ℤ) := Codec.int.option nofun

/-- `int = Field(gt=0)`. -/
def positiveCodec : Codec ℕ+ :=
  Codec.nat.validated (fun n => 0 < n) (fun n h => ⟨n, h⟩) PNat.val (fun n => n.property)
    (fun _ => rfl) (fun _ _ => rfl)

/-- A decimal is dumped as `str` writes it. -/
def decimalCodec : Codec Decimal :=
  Codec.spelled
    (fun
      | .str s => (PyStr.chars? s).bind Decimal.ofText
      | .int n => some ⟨decide (n < 0), n.natAbs, 0⟩
      | .float mantissa exponent => some ⟨decide (mantissa < 0), mantissa.natAbs, exponent⟩
      | _ => none)
    (fun d => String.ofList d.str)
    (fun d => by simp [Json.text, PyStr.ofString, Decimal.ofText_str])

def datetimeCodec [Runtime] : Codec Datetime :=
  Codec.spelled Runtime.parseDatetime (fun t => String.ofList t.zulu) Runtime.parseDatetime_zulu

/-- `dict[str, Any]`. -/
structure FreeForm where
  entries : Entries
  normal : (Json.obj entries).Normal = true

/-- A test of JSON values that objects pass. -/
def isObject : Json → Bool
  | .obj _ => true
  | _ => false

/-- The object of a JSON value that is one. -/
def objectEntries : Json → Entries
  | .obj es => es
  | _ => []

theorem obj_objectEntries {j : Json} (h : isObject j = true) : .obj (objectEntries j) = j := by
  cases j <;> first | rfl | cases h

def freeFormCodec : Codec FreeForm :=
  (Codec.json isObject).refine
    (fun j => some ⟨objectEntries j.val, by
      rw [obj_objectEntries j.property.2]
      exact j.property.1⟩)
    (fun f => ⟨.obj f.entries, f.normal, rfl⟩)
    (fun _ => rfl)
    (fun {j f} h => by
      rw [← Option.some.inj h]
      exact Subtype.ext (obj_objectEntries j.property.2))

/-- An object that has a hash. -/
def payloadCodec : Codec Payload :=
  freeFormCodec.validated (fun f => (Json.obj f.entries).encodable = true)
    (fun f h => ⟨f.entries, h, f.normal⟩) (fun p => ⟨p.entries, p.normal⟩) (fun p => p.encodable)
    (fun _ => rfl) (fun _ _ => rfl)

/-! ### Pins -/

/-- `value.startswith("sha256:") and len(value) == 71`. -/
def isImageDigest (s : String) : Bool :=
  s.toList.take 7 = ['s', 'h', 'a', '2', '5', '6', ':'] && s.toList.length = 71

/-- `not name.strip()`, for a string that may hold surrogates. -/
def isBlankName (name : PyStr) : Bool :=
  ((PyStr.chars? name).map fun cs => cs.all isSpace).getD false

structure CodePin where
  gitSha : NonBlank
  imageDigests : Mapping (Text isImageDigest)
  some_image : imageDigests.entries ≠ []
  names : ∀ e ∈ imageDigests.entries, isBlankName e.1 = false

def CodePin.codec : Codec CodePin :=
  (Codec.record ((Fields.one "git_sha" nonBlankCodec).field "image_digests"
      (Text.codec isImageDigest).mapping) (by decide)).validated
    (fun t => t.2.entries ≠ [] ∧ ∀ e ∈ t.2.entries, isBlankName e.1 = false)
    (fun t h => ⟨t.1, t.2, h.1, h.2⟩) (fun p => (p.gitSha, p.imageDigests))
    (fun p => ⟨p.some_image, p.names⟩) (fun _ => rfl) (fun _ _ => rfl)

structure SchemaPin where
  migrationHead : NonBlank
  artifactSchemaVersion : ℕ+

def SchemaPin.codec : Codec SchemaPin :=
  Codec.record (((Fields.one "artifact_schema_version" positiveCodec).field "migration_head"
      nonBlankCodec).iso (fun t => ⟨t.2, t.1⟩) (fun p => (p.artifactSchemaVersion, p.migrationHead))
    (fun _ => rfl) (fun _ => rfl)) (by decide)

structure ConsensusPin where
  strategyId : NonBlank
  strategyVersion : NonBlank
  parameters : FreeForm
  inputHash : Option Hash := none

def ConsensusPin.codec : Codec ConsensusPin :=
  Codec.record (((((Fields.oneDefault "input_hash" optionalHashCodec none).field "parameters"
        freeFormCodec).field "strategy_id" nonBlankCodec).field "strategy_version" nonBlankCodec).iso
      (fun t => ⟨t.1.2, t.2, t.1.1.2, t.1.1.1⟩)
      (fun p => (((p.inputHash, p.parameters), p.strategyId), p.strategyVersion))
      (fun _ => rfl) (fun _ => rfl))
    (by decide)

structure InferencePin where
  provider : NonBlank
  model : NonBlank
  apiVersion : Option String := none
  temperature : Decimal
  maxOutputTokens : ℕ+
  stop : List String := []
  timeoutS : Decimal
  seed : Option ℤ := none
  temperature_range : 0 ≤ temperature.value ∧ temperature.value ≤ 2
  positive_timeout : 0 < timeoutS.value

def InferencePin.codec : Codec InferencePin :=
  (Codec.record ((((((((Fields.oneDefault "api_version" optionalStringCodec none).field
      "max_output_tokens" positiveCodec).field "model" nonBlankCodec).field "provider"
      nonBlankCodec).defaulted "seed" optionalIntCodec none).defaulted "stop" Codec.string.list
      []).field "temperature" decimalCodec).field "timeout_s" decimalCodec) (by decide)).validated
    (fun t => (0 ≤ t.1.2.value ∧ t.1.2.value ≤ 2) ∧ 0 < t.2.value)
    (fun t h =>
      { provider := t.1.1.1.1.2
        model := t.1.1.1.1.1.2
        apiVersion := t.1.1.1.1.1.1.1
        temperature := t.1.2
        maxOutputTokens := t.1.1.1.1.1.1.2
        stop := t.1.1.2
        timeoutS := t.2
        seed := t.1.1.1.2
        temperature_range := h.1
        positive_timeout := h.2 })
    (fun p => (((((((p.apiVersion, p.maxOutputTokens), p.model), p.provider), p.seed), p.stop),
      p.temperature), p.timeoutS))
    (fun p => ⟨p.temperature_range, p.positive_timeout⟩) (fun _ => rfl) (fun _ _ => rfl)

/-- `Literal["SOURCE", "CHUNK", "ARTIFACT", "PROVIDER_RESPONSE"]`. -/
inductive ContentKind where
  | source
  | chunk
  | artifact
  | providerResponse
deriving DecidableEq, Repr

def ContentKind.value : ContentKind → String
  | .source => "SOURCE"
  | .chunk => "CHUNK"
  | .artifact => "ARTIFACT"
  | .providerResponse => "PROVIDER_RESPONSE"

def ContentKind.codec : Codec ContentKind :=
  Codec.enum [.source, .chunk, .artifact, .providerResponse] value (by intro a; cases a <;> decide)

structure AgentPin where
  definitionId : UUID
  definitionVersion : ℕ+
  promptRef : NonBlank
  promptHash : Hash
  strategyId : NonBlank
  strategyVersion : NonBlank
  inference : Option InferencePin := none

structure RetrievalPin where
  queryHash : Hash
  namespaceIds : List UUID
  indexVersion : NonBlank
  embeddingModel : NonBlank
  embeddingVersion : NonBlank
  rerankerVersion : Option String := none

structure MetricPin where
  metricId : NonBlank
  metricVersion : NonBlank
  inputsHash : Option Hash := none
  codeVersion : Option String := none

structure SymbolicPin where
  formalizationRevisionId : UUID
  astHash : Hash
  engine : NonBlank
  engineVersion : NonBlank
  timeoutMs : ℕ+
  configurationId : NonBlank
  evidenceHash : Option Hash := none

structure SimulationPin where
  runId : UUID
  specHash : Hash
  engine : NonBlank
  engineVersion : NonBlank
  seed : ℤ

structure MarlPin where
  episodeId : UUID
  environmentVersion : NonBlank
  codeIdentity : Hash
  trajectoryHash : Hash
  episodeHash : Hash

structure ContentPin where
  contentId : UUID
  kind : ContentKind
  version : Option ℕ+ := none
  ref : Option String := none
  contentHash : Hash

structure RandomnessPin where
  use : NonBlank
  seed : ℤ
  stream : ℕ

def MetricPin.codec : Codec MetricPin :=
  Codec.record (((((Fields.oneDefault "code_version" optionalStringCodec none).defaulted "inputs_hash"
        optionalHashCodec none).field "metric_id" nonBlankCodec).field "metric_version"
        nonBlankCodec).iso
      (fun t => ⟨t.1.2, t.2, t.1.1.2, t.1.1.1⟩)
      (fun p => (((p.codeVersion, p.inputsHash), p.metricId), p.metricVersion))
      (fun _ => rfl) (fun _ => rfl))
    (by decide)

def RandomnessPin.codec : Codec RandomnessPin :=
  Codec.record ((((Fields.one "seed" Codec.int).field "stream" Codec.nat).field "use"
        nonBlankCodec).iso
      (fun t => ⟨t.2, t.1.1, t.1.2⟩) (fun p => ((p.seed, p.stream), p.use))
      (fun _ => rfl) (fun _ => rfl))
    (by decide)

section Codecs

variable [Runtime]

def AgentPin.codec : Codec AgentPin :=
  Codec.record ((((((((Fields.one "definition_id" uuidCodec).field "definition_version"
        positiveCodec).defaulted "inference" (InferencePin.codec.option nofun) none).field
        "prompt_hash" hashCodec).field "prompt_ref" nonBlankCodec).field "strategy_id"
        nonBlankCodec).field "strategy_version" nonBlankCodec).iso
      (fun t =>
        { definitionId := t.1.1.1.1.1.1
          definitionVersion := t.1.1.1.1.1.2
          promptRef := t.1.1.2
          promptHash := t.1.1.1.2
          strategyId := t.1.2
          strategyVersion := t.2
          inference := t.1.1.1.1.2 })
      (fun p => ((((((p.definitionId, p.definitionVersion), p.inference), p.promptHash), p.promptRef),
        p.strategyId), p.strategyVersion))
      (fun _ => rfl) (fun _ => rfl))
    (by decide)

def RetrievalPin.codec : Codec RetrievalPin :=
  Codec.record (((((((Fields.one "embedding_model" nonBlankCodec).field "embedding_version"
        nonBlankCodec).field "index_version" nonBlankCodec).field "namespace_ids"
        uuidCodec.list).field "query_hash" hashCodec).defaulted "reranker_version"
        optionalStringCodec none).iso
      (fun t =>
        { queryHash := t.1.2
          namespaceIds := t.1.1.2
          indexVersion := t.1.1.1.2
          embeddingModel := t.1.1.1.1.1
          embeddingVersion := t.1.1.1.1.2
          rerankerVersion := t.2 })
      (fun p => (((((p.embeddingModel, p.embeddingVersion), p.indexVersion), p.namespaceIds),
        p.queryHash), p.rerankerVersion))
      (fun _ => rfl) (fun _ => rfl))
    (by decide)

def SymbolicPin.codec : Codec SymbolicPin :=
  Codec.record ((((((((Fields.one "ast_hash" hashCodec).field "configuration_id"
        nonBlankCodec).field "engine" nonBlankCodec).field "engine_version" nonBlankCodec).defaulted
        "evidence_hash" optionalHashCodec none).field "formalization_revision_id" uuidCodec).field
        "timeout_ms" positiveCodec).iso
      (fun t =>
        { formalizationRevisionId := t.1.2
          astHash := t.1.1.1.1.1.1
          engine := t.1.1.1.1.2
          engineVersion := t.1.1.1.2
          timeoutMs := t.2
          configurationId := t.1.1.1.1.1.2
          evidenceHash := t.1.1.2 })
      (fun p => ((((((p.astHash, p.configurationId), p.engine), p.engineVersion), p.evidenceHash),
        p.formalizationRevisionId), p.timeoutMs))
      (fun _ => rfl) (fun _ => rfl))
    (by decide)

def SimulationPin.codec : Codec SimulationPin :=
  Codec.record ((((((Fields.one "engine" nonBlankCodec).field "engine_version" nonBlankCodec).field
        "run_id" uuidCodec).field "seed" Codec.int).field "spec_hash" hashCodec).iso
      (fun t => ⟨t.1.1.2, t.2, t.1.1.1.1, t.1.1.1.2, t.1.2⟩)
      (fun p => ((((p.engine, p.engineVersion), p.runId), p.seed), p.specHash))
      (fun _ => rfl) (fun _ => rfl))
    (by decide)

def MarlPin.codec : Codec MarlPin :=
  Codec.record ((((((Fields.one "code_identity" hashCodec).field "environment_version"
        nonBlankCodec).field "episode_hash" hashCodec).field "episode_id" uuidCodec).field
        "trajectory_hash" hashCodec).iso
      (fun t => ⟨t.1.2, t.1.1.1.2, t.1.1.1.1, t.2, t.1.1.2⟩)
      (fun p => ((((p.codeIdentity, p.environmentVersion), p.episodeHash), p.episodeId),
        p.trajectoryHash))
      (fun _ => rfl) (fun _ => rfl))
    (by decide)

def ContentPin.codec : Codec ContentPin :=
  Codec.record ((((((Fields.one "content_hash" hashCodec).field "content_id" uuidCodec).field "kind"
        ContentKind.codec).defaulted "ref" optionalStringCodec none).defaulted "version"
        (positiveCodec.option nofun) none).iso
      (fun t => ⟨t.1.1.1.2, t.1.1.2, t.2, t.1.2, t.1.1.1.1⟩)
      (fun p => ((((p.contentHash, p.contentId), p.kind), p.ref), p.version))
      (fun _ => rfl) (fun _ => rfl))
    (by decide)

end Codecs

/-! ### Replay steps -/

def stepKindValue : ReplayStepKind → String
  | .artifact => "ARTIFACT"
  | .event => "EVENT"
  | .metric => "METRIC"
  | .consensus => "CONSENSUS"
  | .symbolic => "SYMBOLIC"
  | .simulation => "SIMULATION"
  | .retrieval => "RETRIEVAL"
  | .llm => "LLM"

def stepKindCodec : Codec ReplayStepKind :=
  Codec.enum [.artifact, .event, .metric, .consensus, .symbolic, .simulation, .retrieval, .llm]
    stepKindValue (by intro a; cases a <;> decide)

def stepPolicyValue : ReplayStepPolicy → String
  | .recorded => "RECORDED"
  | .deterministic => "DETERMINISTIC"
  | .external => "EXTERNAL"

def stepPolicyCodec : Codec ReplayStepPolicy :=
  Codec.enum [.recorded, .deterministic, .external] stepPolicyValue (by intro a; cases a <;> decide)

def implementationCodec : Codec ReplayImplementationIdentity :=
  Codec.record ((((((Fields.oneDefault "configuration_hash" optionalHashCodec none).field
        "implementation_id" nonBlankCodec).field "implementation_version" nonBlankCodec).defaulted
        "model" optionalNonBlankCodec none).defaulted "provider" optionalNonBlankCodec none).iso
      (fun t => ⟨t.1.1.1.2, t.1.1.2, t.2, t.1.2, t.1.1.1.1⟩)
      (fun i => ((((i.configurationHash, i.implementationId), i.implementationVersion), i.model),
        i.provider))
      (fun _ => rfl) (fun _ => rfl))
    (by decide)

/-- The hash of an object that has one. -/
def payloadHash (p : Payload) : Hash := sha256Hash (utf8 p.json.canonical)

theorem canonicalHash_payload {p : Payload} {h : Hash} :
    canonicalHash p.json = .ok h ↔ h = payloadHash p := by
  rw [Marl.canonicalHash_eq_ok, and_iff_right (show p.json.encodable = true from p.encodable),
    payloadHash]

def replayStepCodec [Runtime] : Codec ReplayStep :=
  (Codec.record (((((((((((((Fields.one "expected_output" payloadCodec).field "expected_output_hash"
      hashCodec).defaulted "expected_status" optionalNonBlankCodec none).defaulted "implementation"
      (implementationCodec.option nofun) none).field "input" payloadCodec).field "input_hash"
      hashCodec).field "kind" stepKindCodec).field "order" positiveCodec).field "policy"
      stepPolicyCodec).field "step_id" uuidCodec).defaulted "timing_sensitive" Codec.bool
      false).defaulted "tolerant_reexecution_allowed" Codec.bool false)) (by decide)).validated
    (fun t => t.1.1.1.1.1.1.2 = payloadHash t.1.1.1.1.1.1.1.2
      ∧ t.1.1.1.1.1.1.1.1.1.1.2 = payloadHash t.1.1.1.1.1.1.1.1.1.1.1
      ∧ (t.1.1.1.2 ≠ .recorded → t.1.1.1.1.1.1.1.1.2.isSome)
      ∧ (t.1.1.1.2 = .recorded → t.2 = false) ∧ (t.1.1.1.2 = .external → t.2 = true))
    (fun t h =>
      { stepId := t.1.1.2
        order := t.1.1.1.1.2
        kind := t.1.1.1.1.1.2
        policy := t.1.1.1.2
        implementation := t.1.1.1.1.1.1.1.1.2
        input := t.1.1.1.1.1.1.1.2
        inputHash := t.1.1.1.1.1.1.2
        expectedOutput := t.1.1.1.1.1.1.1.1.1.1.1
        expectedOutputHash := t.1.1.1.1.1.1.1.1.1.1.2
        expectedStatus := t.1.1.1.1.1.1.1.1.1.2
        tolerantReexecutionAllowed := t.2
        timingSensitive := t.1.2
        positive_order := t.1.1.1.1.2.property
        input_hash := canonicalHash_payload.mpr h.1
        output_hash := canonicalHash_payload.mpr h.2.1
        executable := h.2.2.1
        recorded_only := h.2.2.2.1
        external_permitted := h.2.2.2.2 })
    (fun s => (((((((((((s.expectedOutput, s.expectedOutputHash), s.expectedStatus),
      s.implementation), s.input), s.inputHash), s.kind), ⟨s.order, s.positive_order⟩), s.policy),
      s.stepId), s.timingSensitive), s.tolerantReexecutionAllowed))
    (fun s => ⟨canonicalHash_payload.mp s.input_hash, canonicalHash_payload.mp s.output_hash,
      s.executable, s.recorded_only, s.external_permitted⟩)
    (fun _ => rfl) (fun _ _ => rfl)

end Agora.Manifest
