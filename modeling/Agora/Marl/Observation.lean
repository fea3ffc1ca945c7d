import Agora.Marl.Values

namespace Agora.Marl

/-!
# Observations

Source snapshots, observation sources and features, and observations.  Every model with a hash of
its own is given by its content, with the validators as propositions, and by its fields in key
order; the model itself is the `Hashed` content.  `schema_version` and `record_type` are
constants of a model, so they are in its fields and not in its content.
-/

/-! ### Implementations and payloads -/

structure ImplementationRefV1 where
  implementationId : Identifier
  implementationVersion : Version
deriving DecidableEq

def ImplementationRefV1.codec : Codec ImplementationRefV1 :=
  (Codec.record ((Fields.one "implementation_id" (Text.codec isIdentifier)).field
      "implementation_version" (Text.codec isVersion)) (by decide)).validated
    (fun _ => True) (fun t _ => ⟨t.1, t.2⟩)
    (fun r => (r.implementationId, r.implementationVersion)) (fun _ => trivial) (fun _ => rfl)
    (fun _ _ => rfl)

def isObject : Json → Bool
  | .obj _ => true
  | _ => false

/-- A `dict[str, Any]`. -/
abbrev Payload := { j : Json // j.Normal = true ∧ isObject j = true }

/-- A `dict[str, Any]` that has canonical text. -/
abbrev ActionPayload := { j : Json // j.Normal = true ∧ (isObject j && j.encodable) = true }

/-- A feature value: what has canonical text. -/
abbrev FeatureValue := { j : Json // j.Normal = true ∧ j.encodable = true }

/-- The constant `schema_version`. -/
def Fields.schemaVersion {α : Type} {ks : List PyStr} (f : Fields ks α) :
    Fields (ks ++ [PyStr.ofString "schema_version"]) α :=
  f.constant "schema_version" (Codec.literalInt 1)

@[simp] theorem Fields.dump_schemaVersion {α : Type} {ks : List PyStr} (f : Fields ks α) (a : α) :
    (Fields.schemaVersion f).dump a = f.dump a ++ [(PyStr.ofString "schema_version", .int 1)] := rfl

/-- Hashes in the order of their texts. -/
def HashesOrdered (hashes : List Hash) : Prop := hashes.Pairwise fun a b => a.text ≤ b.text

instance (hashes : List Hash) : Decidable (HashesOrdered hashes) :=
  inferInstanceAs (Decidable (List.Pairwise _ _))

/-- UUIDs in the order of their bytes. -/
def IdsOrdered (ids : List UUID) : Prop := ids.Pairwise fun a b => a.text ≤ b.text

instance (ids : List UUID) : Decidable (IdsOrdered ids) :=
  inferInstanceAs (Decidable (List.Pairwise _ _))

variable [Runtime]

/-! ### Observations -/

structure SourceSnapshot where
  sourceId : UUID
  sourceKind : Identifier
  sourceVersion : ℕ
  payload : Payload
  sourceVersion_pos : 1 ≤ sourceVersion

instance : HashedModel SourceSnapshot where
  before := Fields.schemaVersion (Fields.one "payload" (Codec.json isObject))
  after := ((Fields.one "source_id" uuidCodec).field "source_kind" (Text.codec isIdentifier)).field
    "source_version" Codec.nat
  hashField := "snapshot_hash"
  Valid := fun (_, ((_, _), version)) => 1 ≤ version
  decValid := fun _ => inferInstance
  build := fun (payload, ((id, kind), version)) h => ⟨id, kind, version, payload, h⟩
  repr := fun s => (s.payload, ((s.sourceId, s.sourceKind), s.sourceVersion))
  holds := fun s => s.sourceVersion_pos
  build_repr := fun _ => rfl
  repr_build := fun _ _ => rfl
  ordered := by decide +kernel

abbrev SourceSnapshotV1 := Hashed SourceSnapshot

structure ObservationSource where
  ordinal : ℕ
  snapshot : SourceSnapshotV1

instance : HashedModel ObservationSource where
  before := (Fields.schemaVersion (Fields.one "ordinal" Codec.nat)).field "snapshot" Hashed.codec
  after := Fields.nil
  hashField := "source_hash"
  Valid := fun _ => True
  decValid := fun _ => inferInstance
  build := fun ((ordinal, snapshot), _) _ => ⟨ordinal, snapshot⟩
  repr := fun s => ((s.ordinal, s.snapshot), ())
  holds := fun _ => trivial
  build_repr := fun _ => rfl
  repr_build := fun _ _ => rfl
  ordered := by decide +kernel

abbrev ObservationSourceV1 := Hashed ObservationSource

structure ObservationFeature where
  featureId : Identifier
  featureVersion : Version
  value : FeatureValue
  sourceHashes : List Hash
  sources_ordered : HashesOrdered sourceHashes
  sources_unique : sourceHashes.Nodup

instance : HashedModel ObservationFeature where
  before := Fields.nil
  after := (Fields.schemaVersion ((Fields.one "feature_id" (Text.codec isIdentifier)).field
      "feature_version" (Text.codec isVersion))).field
    "source_hashes" (Text.codec isHash).list |>.field "value" (Codec.json Json.encodable)
  hashField := "feature_hash"
  Valid := fun (_, (((_, _), hashes), _)) => HashesOrdered hashes ∧ hashes.Nodup
  decValid := fun _ => inferInstance
  build := fun (_, (((id, version), hashes), value)) h => ⟨id, version, value, hashes, h.1, h.2⟩
  repr := fun f => ((), (((f.featureId, f.featureVersion), f.sourceHashes), f.value))
  holds := fun f => ⟨f.sources_ordered, f.sources_unique⟩
  build_repr := fun _ => rfl
  repr_build := fun _ _ => rfl
  ordered := by decide +kernel

abbrev ObservationFeatureV1 := Hashed ObservationFeature

/-- The sort key of a feature. -/
def ObservationFeature.key (f : ObservationFeature) : String × String :=
  (f.featureId.text, f.featureVersion.text)

/-- The order of pairs of strings. -/
def KeyLe (a b : String × String) : Prop := a.1 < b.1 ∨ a.1 = b.1 ∧ a.2 ≤ b.2

instance (a b : String × String) : Decidable (KeyLe a b) :=
  inferInstanceAs (Decidable (_ ∨ _))

structure MarlObservation where
  observationId : UUID
  episodeId : UUID
  workspaceId : UUID
  sessionId : UUID
  decisionIndex : ℕ
  environmentVersion : Identifier
  observationImplementation : ImplementationRefV1
  ledgerSeq : ℕ
  ledgerEventId : Option UUID
  ledgerHash : Hash
  terminal : Bool
  terminalReason : Option ReasonCode
  sources : List ObservationSourceV1
  features : List ObservationFeatureV1
  sourcesHash : Hash
  featuresHash : Hash
  terminal_shape : terminal = terminalReason.isSome
  ordinals_gapless : sources.map (·.content.ordinal) = List.range sources.length
  features_ordered : (features.map (·.content.key)).Pairwise KeyLe
  features_unique : (features.map (·.content.key)).Nodup

instance : HashedModel MarlObservation where
  before := (Fields.one "decision_index" Codec.nat
    |>.field "environment_version" (Text.codec isIdentifier)
    |>.field "episode_id" uuidCodec
    |>.field "features" Hashed.codec.list
    |>.field "features_hash" (Text.codec isHash)
    |>.field "ledger_event_id" (uuidCodec.option nofun)
    |>.field "ledger_hash" (Text.codec isHash)
    |>.field "ledger_seq" Codec.nat)
  after := (Fields.schemaVersion (Fields.one "observation_id" uuidCodec
      |>.field "observation_implementation" ImplementationRefV1.codec)
    |>.field "session_id" uuidCodec
    |>.field "sources" Hashed.codec.list
    |>.field "sources_hash" (Text.codec isHash)
    |>.field "terminal" Codec.bool
    |>.field "terminal_reason" ((Text.codec isReasonCode).option nofun)
    |>.field "workspace_id" uuidCodec)
  hashField := "observation_hash"
  Valid := fun ((((((((_, _), _), (features : List ObservationFeatureV1)), _), _), _), _),
      (((((((_, _), _), (sources : List ObservationSourceV1)), _), terminal), reason), _)) =>
    terminal = Option.isSome reason
      ∧ sources.map (·.content.ordinal) = List.range sources.length
      ∧ (features.map (·.content.key)).Pairwise KeyLe
      ∧ (features.map (·.content.key)).Nodup
  decValid := fun _ => inferInstance
  build := fun ((((((((index, environment), episode), features), featuresHash), eventId),
        ledgerHash), seq),
      (((((((id, implementation), session), sources), sourcesHash), terminal), reason),
        workspace)) h =>
    { observationId := id, episodeId := episode, workspaceId := workspace, sessionId := session
      decisionIndex := index, environmentVersion := environment
      observationImplementation := implementation, ledgerSeq := seq, ledgerEventId := eventId
      ledgerHash, terminal, terminalReason := reason, sources, features, sourcesHash, featuresHash
      terminal_shape := h.1, ordinals_gapless := h.2.1, features_ordered := h.2.2.1
      features_unique := h.2.2.2 }
  repr := fun o => ((((((((o.decisionIndex, o.environmentVersion), o.episodeId), o.features),
        o.featuresHash), o.ledgerEventId), o.ledgerHash), o.ledgerSeq),
      (((((((o.observationId, o.observationImplementation), o.sessionId), o.sources),
        o.sourcesHash), o.terminal), o.terminalReason), o.workspaceId))
  holds := fun o => ⟨o.terminal_shape, o.ordinals_gapless, o.features_ordered, o.features_unique⟩
  build_repr := fun _ => rfl
  repr_build := fun _ _ => rfl
  ordered := by decide +kernel

abbrev MarlObservationV1 := Hashed MarlObservation

/-- The constructor, which computes the hashes of the two lists as well; those of `o` are not
    looked at. -/
def MarlObservationV1.create (o : MarlObservation) : Py MarlObservationV1 := do
  let sourcesHash ← canonicalHash (Hashed.codec.list.dump o.sources)
  let featuresHash ← canonicalHash (Hashed.codec.list.dump o.features)
  Hashed.create { o with sourcesHash, featuresHash }

end Agora.Marl
