import Agora.Marl.Transition

namespace Agora.Marl

/-!
# Episodes and their canonical export

An episode is a plain record here, because the store updates it without running its validators;
`MarlEpisodeV1.Valid` states them.  `exportEpisode` writes the two files of a bundle.
-/

variable [Runtime]

/-! ### Episodes -/

structure MarlEpisodeV1 where
  episodeId : UUID
  workspaceId : UUID
  sessionId : UUID
  environmentVersion : Identifier
  codeIdentity : Hash
  status : EpisodeStatus
  transitions : List TransitionV1 := []
  pendingBoundary : Option DecisionBoundaryV1 := none
  incompleteMarker : Option IncompleteMarkerV1 := none

namespace MarlEpisodeV1

/-- The observation belongs to the episode's workspace and session. -/
def InScope (e : MarlEpisodeV1) (o : MarlObservationV1) : Prop :=
  o.content.workspaceId = e.workspaceId ∧ o.content.sessionId = e.sessionId

instance (e : MarlEpisodeV1) (o : MarlObservationV1) : Decidable (e.InScope o) :=
  inferInstanceAs (Decidable (_ ∧ _))

/-- What the lifecycle validator asks of an episode by its status. -/
def StatusShape (e : MarlEpisodeV1) : Prop :=
  match e.status with
  | .open => e.incompleteMarker.isNone
      ∧ ∀ b ∈ e.pendingBoundary, b.content.decisionIndex = e.transitions.length
  | .complete => (∃ t ∈ e.transitions.getLast?, t.content.terminal = true)
      ∧ e.pendingBoundary.isNone ∧ e.incompleteMarker.isNone
  | .incomplete => ∃ m ∈ e.incompleteMarker, m.content.openDecisionIndex = e.transitions.length
      ∧ m.content.boundaryHash = e.pendingBoundary.map (·.hash)

instance (e : MarlEpisodeV1) : Decidable e.StatusShape := by
  unfold StatusShape
  split <;> infer_instance

/-- The validators of the model: distinct transition hashes, gapless indices, matching episode
    and scope, and the shape that belongs to the status. -/
structure Valid (e : MarlEpisodeV1) : Prop where
  unique : (e.transitions.map (·.hash)).Nodup
  gapless : e.transitions.map (·.content.decisionIndex) = List.range e.transitions.length
  episode : ∀ t ∈ e.transitions, t.content.episodeId = e.episodeId
  scope : ∀ t ∈ e.transitions,
    e.InScope t.content.boundary.content.observation ∧ e.InScope t.content.postObservation
  pending_scope : ∀ b ∈ e.pendingBoundary, e.InScope b.content.observation
  shape : e.StatusShape

instance (e : MarlEpisodeV1) : Decidable e.Valid :=
  decidable_of_iff ((e.transitions.map (·.hash)).Nodup
      ∧ e.transitions.map (·.content.decisionIndex) = List.range e.transitions.length
      ∧ (∀ t ∈ e.transitions, t.content.episodeId = e.episodeId)
      ∧ (∀ t ∈ e.transitions,
        e.InScope t.content.boundary.content.observation ∧ e.InScope t.content.postObservation)
      ∧ (∀ b ∈ e.pendingBoundary, e.InScope b.content.observation) ∧ e.StatusShape)
    ⟨fun ⟨h1, h2, h3, h4, h5, h6⟩ => ⟨h1, h2, h3, h4, h5, h6⟩,
      fun h => ⟨h.unique, h.gapless, h.episode, h.scope, h.pending_scope, h.shape⟩⟩

/-- Build an episode with its validators run: a `ValidationError` is a `ValueError`. -/
def validate (e : MarlEpisodeV1) : Py MarlEpisodeV1 :=
  if e.Valid then .ok e else .error (.valueError "validation error for MarlEpisodeV1")

/-- `model_dump(mode="json")`. -/
def dump (e : MarlEpisodeV1) : Json :=
  .obj [(.ofString "code_identity", (Text.codec isHash).dump e.codeIdentity),
    (.ofString "environment_version", (Text.codec isIdentifier).dump e.environmentVersion),
    (.ofString "episode_id", uuidCodec.dump e.episodeId),
    (.ofString "incomplete_marker", Hashed.optionCodec.dump e.incompleteMarker),
    (.ofString "pending_boundary", Hashed.optionCodec.dump e.pendingBoundary),
    (.ofString "schema_version", .int 1),
    (.ofString "session_id", uuidCodec.dump e.sessionId),
    (.ofString "status", EpisodeStatus.codec.dump e.status),
    (.ofString "transitions", Hashed.codec.list.dump e.transitions),
    (.ofString "workspace_id", uuidCodec.dump e.workspaceId)]

end MarlEpisodeV1

/-- A hash, or `null` for none. -/
def hashOrNull (h : Option Hash) : Json := ((Text.codec isHash).option Text.codec_dump_ne).dump h

/-- Hash the closed episode identity preimage. -/
def episodeHash (e : MarlEpisodeV1) : Py Hash :=
  canonicalHash (.obj
    [(.ofString "code_identity", (Text.codec isHash).dump e.codeIdentity),
      (.ofString "environment_version", (Text.codec isIdentifier).dump e.environmentVersion),
      (.ofString "episode_id", uuidCodec.dump e.episodeId),
      (.ofString "incomplete_hash", hashOrNull (e.incompleteMarker.map (·.hash))),
      (.ofString "pending_boundary_hash", hashOrNull (e.pendingBoundary.map (·.hash))),
      (.ofString "schema_version", .int 1),
      (.ofString "session_id", uuidCodec.dump e.sessionId),
      (.ofString "status", EpisodeStatus.codec.dump e.status),
      (.ofString "transition_hashes",
        (Text.codec isHash).list.dump (e.transitions.map (·.hash))),
      (.ofString "workspace_id", uuidCodec.dump e.workspaceId)])

/-! ### Manifests -/

structure TrajectoryManifestV1 where
  episodeId : UUID
  episodeStatus : EpisodeStatus
  environmentVersion : Identifier
  codeIdentity : Hash
  observationImplementations : List ImplementationRefV1
  rewardImplementations : List ImplementationRefV1
  creditImplementations : List ImplementationRefV1
  coordinatorImplementations : List ImplementationRefV1
  trajectorySha256 : Hash
  trajectoryByteLength : ℕ
  recordCount : ℕ
  episodeHash : Hash

def TrajectoryManifestV1.codec : Codec TrajectoryManifestV1 :=
  (Codec.record (Fields.schemaVersion (Fields.one "code_identity" (Text.codec isHash)
        |>.field "coordinator_implementations" ImplementationRefV1.codec.list
        |>.field "credit_implementations" ImplementationRefV1.codec.list
        |>.field "environment_version" (Text.codec isIdentifier)
        |>.field "episode_hash" (Text.codec isHash)
        |>.field "episode_id" uuidCodec
        |>.field "episode_status" EpisodeStatus.codec
        |>.field "observation_implementations" ImplementationRefV1.codec.list
        |>.field "record_count" Codec.nat
        |>.field "reward_implementations" ImplementationRefV1.codec.list)
      |>.field "trajectory_byte_length" Codec.nat
      |>.field "trajectory_sha256" (Text.codec isHash)) (by decide +kernel)).validated
    (fun _ => True)
    (fun (((((((((((code, coordinator), credit), environment), hash), id), status), observation),
        count), reward), length), sha) _ =>
      { episodeId := id, episodeStatus := status, environmentVersion := environment
        codeIdentity := code, observationImplementations := observation
        rewardImplementations := reward, creditImplementations := credit
        coordinatorImplementations := coordinator, trajectorySha256 := sha
        trajectoryByteLength := length, recordCount := count, episodeHash := hash })
    (fun m => (((((((((((m.codeIdentity, m.coordinatorImplementations), m.creditImplementations),
      m.environmentVersion), m.episodeHash), m.episodeId), m.episodeStatus),
      m.observationImplementations), m.recordCount), m.rewardImplementations),
      m.trajectoryByteLength), m.trajectorySha256))
    (fun _ => trivial) (fun _ => rfl) (fun _ _ => rfl)

/-! ### Export -/

/-- The attribute whose implementations are collected. -/
inductive RefAttribute where
  | observation
  | reward
  | credit
  | coordinator

/-- The implementations a transition uses. -/
def Transition.refs (t : Transition) : RefAttribute → List ImplementationRefV1
  | .observation => [t.boundary.content.observation.content.observationImplementation,
      t.postObservation.content.observationImplementation]
  | .reward => t.rewards.map (·.content.rewardImplementation)
  | .credit => t.credits.map (·.content.creditImplementation)
  | .coordinator => [t.boundary.content.coordinatorDecision.content.coordinatorImplementation]

/-- The order of implementations by id and version. -/
def RefLe (a b : ImplementationRefV1) : Prop :=
  a.implementationId.text < b.implementationId.text
    ∨ a.implementationId.text = b.implementationId.text
      ∧ a.implementationVersion.text ≤ b.implementationVersion.text

instance (a b : ImplementationRefV1) : Decidable (RefLe a b) :=
  inferInstanceAs (Decidable (_ ∨ _))

/-- `_unique_refs`: a reference is its own key, so the dictionary is the list without
    duplicates. -/
def uniqueRefs (e : MarlEpisodeV1) (of : RefAttribute) : List ImplementationRefV1 :=
  ((e.transitions.flatMap fun t => t.content.refs of).dedup).insertionSort RefLe

/-- A line of the trajectory. -/
inductive TrajectoryRecord where
  | transition (t : TransitionV1)
  | boundary (b : DecisionBoundaryV1)
  | incomplete (m : IncompleteMarkerV1)

def TrajectoryRecord.dump : TrajectoryRecord → Json
  | .transition t => Hashed.codec.dump t
  | .boundary b => Hashed.codec.dump b
  | .incomplete m => Hashed.codec.dump m

/-- The records of an episode in file order. -/
def MarlEpisodeV1.records (e : MarlEpisodeV1) : List TrajectoryRecord :=
  e.transitions.map .transition ++ e.pendingBoundary.toList.map .boundary
    ++ e.incompleteMarker.toList.map .incomplete

/-- `b"".join(canonical_json(value) + b"\n" for value in values)`. -/
def jsonLines (values : List Json) : Py Bytes := do
  let lines ← values.mapM Json.canonicalJson
  pure (lines.flatMap (· ++ [10]))

structure CanonicalTrajectoryBundle where
  manifest : Bytes
  trajectory : Bytes

/-- The manifest that goes with a trajectory file and an episode hash. -/
def exportManifest (e : MarlEpisodeV1) (trajectory : Bytes) (hash : Hash) :
    TrajectoryManifestV1 where
  episodeId := e.episodeId
  episodeStatus := e.status
  environmentVersion := e.environmentVersion
  codeIdentity := e.codeIdentity
  observationImplementations := uniqueRefs e .observation
  rewardImplementations := uniqueRefs e .reward
  creditImplementations := uniqueRefs e .credit
  coordinatorImplementations := uniqueRefs e .coordinator
  trajectorySha256 := sha256Hash trajectory
  trajectoryByteLength := trajectory.length
  recordCount := e.records.length
  episodeHash := hash

/-- Export exactly the two canonical files. -/
def exportEpisode (e : MarlEpisodeV1) : Py CanonicalTrajectoryBundle := do
  if e.status = .open then .error (.valueError "OPEN episode cannot be exported")
  else do
    let trajectory ← jsonLines (e.records.map (·.dump))
    let hash ← episodeHash e
    let manifest ← (TrajectoryManifestV1.codec.dump (exportManifest e trajectory hash)).canonicalJson
    pure { manifest := manifest ++ [10], trajectory }

end Agora.Marl
