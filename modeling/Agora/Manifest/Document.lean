import Agora.Manifest.Pins

namespace Agora.Manifest

open Ledger (NonBlank)
open Marl (Hash canonicalHash isHash sha256Hash uuidCodec modelValidateJson)
open Replay (MarlReplayBundle ReplayStep)

/-!
# The run manifest document

What a run manifest says, with the validators of the document, its canonical bytes and their hash,
and the way back from the bytes.  The bytes of a MARL bundle are dumped as the text that they are
the UTF-8 of, so a document is dumped in two steps: its bundles first, then the whole.
-/

/-! ### Documents -/

/-- Everything but the MARL bundles. -/
structure ManifestFields where
  workspaceId : UUID
  sessionId : UUID
  sourceSessionId : Option UUID := none
  code : CodePin
  schemaPin : SchemaPin
  configurationHash : Hash
  protocol : NonBlank
  rounds : ℕ+
  budget : FreeForm
  consensus : ConsensusPin
  agents : List AgentPin
  retrieval : List RetrievalPin := []
  metrics : List MetricPin
  symbolic : List SymbolicPin := []
  simulations : List SimulationPin := []
  marl : List MarlPin := []
  contents : List ContentPin
  randomness : List RandomnessPin := []
  replaySteps : List ReplayStep
  startedAt : Datetime

/-- `required_pins`. -/
structure ManifestFields.RequiredPins (d : ManifestFields) : Prop where
  other_source : d.sourceSessionId ≠ some d.sessionId
  some_agents : d.agents ≠ []
  some_metrics : d.metrics ≠ []
  some_contents : d.contents ≠ []
  some_steps : d.replaySteps ≠ []
  unique_agents : (d.agents.map fun a => (a.definitionId, a.definitionVersion)).Nodup
  unique_metrics : (d.metrics.map fun m => (m.metricId, m.metricVersion)).Nodup
  unique_contents : (d.contents.map fun c => (c.kind, c.contentId, c.version)).Nodup
  unique_steps : (d.replaySteps.map (·.stepId)).Nodup
  -- `sorted` leaves equal orders where they are.
  ordered_steps : (d.replaySteps.map (·.order)).Pairwise (· ≤ ·)

instance (d : ManifestFields) : Decidable d.RequiredPins :=
  decidable_of_iff
    (d.sourceSessionId ≠ some d.sessionId
      ∧ d.agents.isEmpty = false ∧ d.metrics.isEmpty = false ∧ d.contents.isEmpty = false
      ∧ d.replaySteps.isEmpty = false
      ∧ (d.agents.map fun a => (a.definitionId, a.definitionVersion)).Nodup
      ∧ (d.metrics.map fun m => (m.metricId, m.metricVersion)).Nodup
      ∧ (d.contents.map fun c => (c.kind, c.contentId, c.version)).Nodup
      ∧ (d.replaySteps.map (·.stepId)).Nodup
      ∧ (d.replaySteps.map (·.order)).Pairwise (· ≤ ·))
    (by
      simp only [List.isEmpty_eq_false_iff]
      exact ⟨fun ⟨h₁, h₂, h₃, h₄, h₅, h₆, h₇, h₈, h₉, h₁₀⟩ => ⟨h₁, h₂, h₃, h₄, h₅, h₆, h₇, h₈, h₉, h₁₀⟩,
        fun ⟨h₁, h₂, h₃, h₄, h₅, h₆, h₇, h₈, h₉, h₁₀⟩ => ⟨h₁, h₂, h₃, h₄, h₅, h₆, h₇, h₈, h₉, h₁₀⟩⟩)

/-- `RunManifestDocument`. -/
structure RunManifestDocument extends ManifestFields where
  marlBundles : List MarlReplayBundle := []
  required_pins : toManifestFields.RequiredPins

/-! ### Dumping and loading -/

/-- A MARL bundle as it is dumped. -/
structure BundleText where
  manifest : String
  trajectory : String

def BundleText.codec : Codec BundleText :=
  Codec.record (((Fields.one "manifest" Codec.string).field "trajectory" Codec.string).iso
      (fun t => ⟨t.1, t.2⟩) (fun b => (b.manifest, b.trajectory)) (fun _ => rfl) (fun _ => rfl))
    (by decide)

/-- The text of bytes, which have to be UTF-8. -/
def bytesText (b : Bytes) : Py String :=
  match decodeUtf8 b with
  | some cs => .ok (String.ofList cs)
  | none => .error (.valueError "invalid utf-8 sequence")

def bundleText (b : MarlReplayBundle) : Py BundleText := do
  let manifest ← bytesText b.manifest
  let trajectory ← bytesText b.trajectory
  pure ⟨manifest, trajectory⟩

def BundleText.bundle (t : BundleText) : MarlReplayBundle where
  manifest := utf8 t.manifest.toList
  trajectory := utf8 t.trajectory.toList

/-- A document with its bundles as they are dumped. -/
structure DocumentText extends ManifestFields where
  marlBundles : List BundleText
  required_pins : toManifestFields.RequiredPins

section Codecs

variable [Runtime]

def fieldsCodec : Codec (ManifestFields × List BundleText) :=
  Codec.record ((((((((((((((((((((((((Fields.one "agents" AgentPin.codec.list).field "budget"
        freeFormCodec).field "code" CodePin.codec).field "configuration_hash" hashCodec).field
        "consensus" ConsensusPin.codec).field "contents" ContentPin.codec.list).constant
        "manifest_version" (Codec.literalInt 1)).defaulted "marl" MarlPin.codec.list []).defaulted
        "marl_bundles" BundleText.codec.list []).field "metrics" MetricPin.codec.list).constant
        "ordering" (Codec.literalText "ledger_seq")).field "protocol" nonBlankCodec).defaulted
        "randomness" RandomnessPin.codec.list []).field "replay_steps" replayStepCodec.list).defaulted
        "retrieval" RetrievalPin.codec.list []).field "rounds" positiveCodec).append
        (Fields.aliased "schema" "schema_pin" SchemaPin.codec)).field "session_id"
        uuidCodec).defaulted "simulations" SimulationPin.codec.list []).defaulted "source_session_id"
        optionalUuidCodec none).field "started_at" datetimeCodec).defaulted "symbolic"
        SymbolicPin.codec.list []).field "workspace_id" uuidCodec).iso
      (fun t => (
        {
            workspaceId := t.2
            sessionId := t.1.1.1.1.1.2
            sourceSessionId := t.1.1.1.2
            code := t.1.1.1.1.1.1.1.1.1.1.1.1.1.1.1.1.1.1.2
            schemaPin := t.1.1.1.1.1.1.2
            configurationHash := t.1.1.1.1.1.1.1.1.1.1.1.1.1.1.1.1.1.2
            protocol := t.1.1.1.1.1.1.1.1.1.1.1.2
            rounds := t.1.1.1.1.1.1.1.2
            budget := t.1.1.1.1.1.1.1.1.1.1.1.1.1.1.1.1.1.1.1.2
            consensus := t.1.1.1.1.1.1.1.1.1.1.1.1.1.1.1.1.2
            agents := t.1.1.1.1.1.1.1.1.1.1.1.1.1.1.1.1.1.1.1.1
            retrieval := t.1.1.1.1.1.1.1.1.2
            metrics := t.1.1.1.1.1.1.1.1.1.1.1.1.2
            symbolic := t.1.2
            simulations := t.1.1.1.1.2
            marl := t.1.1.1.1.1.1.1.1.1.1.1.1.1.1.2
            contents := t.1.1.1.1.1.1.1.1.1.1.1.1.1.1.1.2
            randomness := t.1.1.1.1.1.1.1.1.1.1.2
            replaySteps := t.1.1.1.1.1.1.1.1.1.2
            startedAt := t.1.1.2 },
        t.1.1.1.1.1.1.1.1.1.1.1.1.1.2))
      (fun x => ((((((((((((((((((((x.1.agents, x.1.budget), x.1.code), x.1.configurationHash),
        x.1.consensus), x.1.contents), x.1.marl), x.2), x.1.metrics), x.1.protocol),
        x.1.randomness), x.1.replaySteps), x.1.retrieval), x.1.rounds), x.1.schemaPin),
        x.1.sessionId), x.1.simulations), x.1.sourceSessionId), x.1.startedAt), x.1.symbolic),
        x.1.workspaceId))
      (fun _ => rfl) (fun _ => rfl))
    (by decide)

def documentCodec : Codec DocumentText :=
  fieldsCodec.validated (fun x => x.1.RequiredPins) (fun x h => ⟨x.1, x.2, h⟩)
    (fun d => (d.toManifestFields, d.marlBundles)) (fun d => d.required_pins) (fun _ => rfl)
    (fun _ _ => rfl)

namespace RunManifestDocument

/-- `model_dump(mode="json", by_alias=True)`. -/
def modelDump (d : RunManifestDocument) : Py Json := do
  let texts ← d.marlBundles.mapM bundleText
  pure (documentCodec.dump ⟨d.toManifestFields, texts, d.required_pins⟩)

/-- `run_manifest_bytes`. -/
def runManifestBytes (d : RunManifestDocument) : Py Bytes := do
  let dumped ← d.modelDump
  dumped.canonicalJson

/-- `run_manifest_hash`. -/
def runManifestHash (d : RunManifestDocument) : Py Hash := do
  let dumped ← d.modelDump
  canonicalHash dumped

/-- `model_validate_json(body, by_alias=True, by_name=True)`. -/
def validateJson (body : Bytes) : Py RunManifestDocument := do
  let x ← modelValidateJson documentCodec body
  pure ⟨x.toManifestFields, x.marlBundles.map BundleText.bundle, x.required_pins⟩

end RunManifestDocument

end Codecs

end Agora.Manifest
