import Agora.Ledger.Chain
import Agora.Impact.Tables

namespace Agora

/-- The value of the enumeration member. -/
def Impact.ArtifactKind.value : Impact.ArtifactKind → String
  | .claim => "CLAIM"
  | .fact => "FACT"
  | .assumption => "ASSUMPTION"
  | .inference => "INFERENCE"
  | .proposition => "PROPOSITION"
  | .evidence => "EVIDENCE"
  | .uncertainty => "UNCERTAINTY"
  | .risk => "RISK"
  | .impact => "IMPACT"
  | .objective => "OBJECTIVE"
  | .constraint => "CONSTRAINT"
  | .alternative => "ALTERNATIVE"
  | .position => "POSITION"
  | .critique => "CRITIQUE"

namespace Artifacts

open Marl (Hash canonicalHash)
open Ledger (ActorClass NonBlank Payload uuidOrNull)
open Impact (ArtifactKind)

/-!
# Reasoning artifacts

An artifact has a typed payload and an envelope around it.  All of it but its status and the time of
its last update is immutable and covered by its content hash: an `ArtifactBody` carries the proofs
that it meets the invariants of the envelope and that its hash is right.
-/

/-! ### Enumerations -/

inductive LifecycleStatus where
  | active
  | superseded
  | withdrawn
deriving DecidableEq, Repr

inductive ProvenanceOrigin where
  | human
  | llm
  | retrieval
  | tool
  | simulation
  | symbolic
  | import_
  | historicalSession
deriving DecidableEq, Repr

def ProvenanceOrigin.value : ProvenanceOrigin → String
  | .human => "HUMAN"
  | .llm => "LLM"
  | .retrieval => "RETRIEVAL"
  | .tool => "TOOL"
  | .simulation => "SIMULATION"
  | .symbolic => "SYMBOLIC"
  | .import_ => "IMPORT"
  | .historicalSession => "HISTORICAL_SESSION"

inductive Verification where
  | unverified
  | sourceVerified
  | crossChecked
  | disputed
  | rejected
deriving DecidableEq, Repr

def Verification.value : Verification → String
  | .unverified => "UNVERIFIED"
  | .sourceVerified => "SOURCE_VERIFIED"
  | .crossChecked => "CROSS_CHECKED"
  | .disputed => "DISPUTED"
  | .rejected => "REJECTED"

inductive GraphEdgeType where
  | supports
  | opposes
  | contradicts
  | derivedFrom
  | basedOnAssumption
  | formalizes
  | quantifies
  | impacts
  | constrains
  | violates
  | satisfies
  | infeasibleUnknown
  | attacks
  | respondsTo
  | supersedes
  | advocates
deriving DecidableEq, Repr

def GraphEdgeType.value : GraphEdgeType → String
  | .supports => "SUPPORTS"
  | .opposes => "OPPOSES"
  | .contradicts => "CONTRADICTS"
  | .derivedFrom => "DERIVED_FROM"
  | .basedOnAssumption => "BASED_ON_ASSUMPTION"
  | .formalizes => "FORMALIZES"
  | .quantifies => "QUANTIFIES"
  | .impacts => "IMPACTS"
  | .constrains => "CONSTRAINS"
  | .violates => "VIOLATES"
  | .satisfies => "SATISFIES"
  | .infeasibleUnknown => "INFEASIBLE_UNKNOWN"
  | .attacks => "ATTACKS"
  | .respondsTo => "RESPONDS_TO"
  | .supersedes => "SUPERSEDES"
  | .advocates => "ADVOCATES"

inductive CritiqueType where
  | evidenceGap
  | logicalFallacy
  | hallucinatedSource
  | measurementError
  | modelMisuse
  | constraintIgnored
  | conflictOfInterest
  | alternativeOmitted
  | uncertaintyUnderstated
  | causalOverclaim
deriving DecidableEq, Repr

def CritiqueType.value : CritiqueType → String
  | .evidenceGap => "EVIDENCE_GAP"
  | .logicalFallacy => "LOGICAL_FALLACY"
  | .hallucinatedSource => "HALLUCINATED_SOURCE"
  | .measurementError => "MEASUREMENT_ERROR"
  | .modelMisuse => "MODEL_MISUSE"
  | .constraintIgnored => "CONSTRAINT_IGNORED"
  | .conflictOfInterest => "CONFLICT_OF_INTEREST"
  | .alternativeOmitted => "ALTERNATIVE_OMITTED"
  | .uncertaintyUnderstated => "UNCERTAINTY_UNDERSTATED"
  | .causalOverclaim => "CAUSAL_OVERCLAIM"

inductive Severity where
  | low
  | medium
  | high
  | blocking
deriving DecidableEq, Repr

def Severity.value : Severity → String
  | .low => "LOW"
  | .medium => "MEDIUM"
  | .high => "HIGH"
  | .blocking => "BLOCKING"

inductive Resolution where
  | open_
  | resolved
  | unresolved
  | disputed
deriving DecidableEq, Repr

def Resolution.value : Resolution → String
  | .open_ => "OPEN"
  | .resolved => "RESOLVED"
  | .unresolved => "UNRESOLVED"
  | .disputed => "DISPUTED"

/-! ### Payloads -/

/-- The payloads by kind, with the fields that the code reads. -/
inductive Content where
  | claim (supportingEvidenceIds opposingEvidenceIds : List UUID)
  | fact
  | assumption
  | inference (premiseIds : List UUID) (conclusionId : UUID)
  | proposition
  | evidence (claimId : UUID) (verification : Verification)
  | uncertainty (targetId : UUID)
  | risk (uncertaintyId : UUID) (affectedObjectiveIds : List UUID)
  | impact (alternativeId objectiveId sourceArtifactId : UUID)
  | objective (conflictsWithIds : List UUID)
  | constraint
  | alternative
  | position (targetId : UUID) (evidenceIds : List UUID)
  | critique (targetId : UUID) (critiqueType : CritiqueType) (severity : Severity)
      (resolution : Resolution)
deriving DecidableEq

def Content.kind : Content → ArtifactKind
  | .claim .. => .claim
  | .fact => .fact
  | .assumption => .assumption
  | .inference .. => .inference
  | .proposition => .proposition
  | .evidence .. => .evidence
  | .uncertainty .. => .uncertainty
  | .risk .. => .risk
  | .impact .. => .impact
  | .objective .. => .objective
  | .constraint => .constraint
  | .alternative => .alternative
  | .position .. => .position
  | .critique .. => .critique

/-- Evidence that is not marked UNVERIFIED. -/
def Content.verified : Content → Bool
  | .evidence _ verification => verification ≠ .unverified
  | _ => false

def uuids (ids : List UUID) : Json := .arr (ids.map fun id => .text id.text)

/-- These fields in the dump of the payload. -/
def Content.entries : Content → List (PyStr × Json)
  | .claim supportingIds opposingIds =>
    [(.ofString "supporting_evidence_ids", uuids supportingIds),
      (.ofString "opposing_evidence_ids", uuids opposingIds)]
  | .inference premiseIds conclusionId =>
    [(.ofString "premise_ids", uuids premiseIds), (.ofString "conclusion_id", .text conclusionId.text)]
  | .evidence claimId verification =>
    [(.ofString "claim_id", .text claimId.text), (.ofString "verification", .text verification.value)]
  | .uncertainty targetId => [(.ofString "target_id", .text targetId.text)]
  | .risk uncertaintyId objectiveIds =>
    [(.ofString "uncertainty_id", .text uncertaintyId.text),
      (.ofString "affected_objective_ids", uuids objectiveIds)]
  | .impact alternativeId objectiveId sourceId =>
    [(.ofString "alternative_id", .text alternativeId.text),
      (.ofString "objective_id", .text objectiveId.text),
      (.ofString "source_artifact_id", .text sourceId.text)]
  | .objective conflictIds => [(.ofString "conflicts_with_ids", uuids conflictIds)]
  | .position targetId evidenceIds =>
    [(.ofString "target_id", .text targetId.text), (.ofString "evidence_ids", uuids evidenceIds)]
  | .critique targetId critiqueType severity resolution =>
    [(.ofString "target_id", .text targetId.text),
      (.ofString "critique_type", .text critiqueType.value),
      (.ofString "severity", .text severity.value),
      (.ofString "resolution", .text resolution.value)]
  | .fact | .assumption | .proposition | .constraint | .alternative => []

/-- A payload: what the code reads of it, and the other fields as they are dumped. -/
structure ArtifactPayload where
  content : Content
  others : List (PyStr × Json)

/-- `payload.model_dump(mode="json")`. -/
def ArtifactPayload.modelDump (p : ArtifactPayload) : Json :=
  .obj (sortByKey (p.content.entries ++ p.others))

/-! ### Envelopes -/

structure Provenance where
  origin : ProvenanceOrigin
  reference : NonBlank
  modelCallId : Option UUID
  activityId : Option UUID

def Provenance.modelDump (p : Provenance) : Json :=
  .obj [(.ofString "activity_id", uuidOrNull p.activityId),
    (.ofString "model_call_id", uuidOrNull p.modelCallId),
    (.ofString "origin", .text p.origin.value),
    (.ofString "reference", .text p.reference.text)]

structure ParentRelationship where
  edgeType : GraphEdgeType
  targetArtifactId : UUID
deriving DecidableEq

def ParentRelationship.modelDump (r : ParentRelationship) : Json :=
  .obj [(.ofString "edge_type", .text r.edgeType.value),
    (.ofString "target_artifact_id", .text r.targetArtifactId.text)]

/-- The value is a normalized decimal string. -/
structure Confidence where
  kind : NonBlank
  value : String
  meaning : NonBlank
  basisArtifactIds : List UUID

def Confidence.modelDump (c : Confidence) : Json :=
  .obj [(.ofString "basis_artifact_ids", uuids c.basisArtifactIds),
    (.ofString "kind", .text c.kind.text),
    (.ofString "meaning", .text c.meaning.text),
    (.ofString "value", .text c.value)]

/-- `d.get(key)`, where `None` is nothing. -/
def get? (entries : List (PyStr × Json)) (key : String) : Option Json :=
  match entries.lookup (.ofString key) with
  | some .null => none
  | value => value

/-- The values of the immutable part of an artifact.  The sources are as they are dumped. -/
structure ArtifactFields where
  id : UUID
  workspaceId : UUID
  sessionId : UUID
  logicalId : UUID
  schemaVersion : ℕ := 1
  version : ℕ := 1
  supersedesId : Option UUID := none
  ownerActorClass : ActorClass
  ownerActorId : UUID
  round : ℕ := 0
  payload : ArtifactPayload
  provenance : Provenance
  sourceReferences : List Json := []
  parentRelationships : List ParentRelationship := []
  confidence : Option Confidence := none
  metadata : List (PyStr × Json) := []
  createdAt : Datetime

namespace ArtifactFields

/-- The payload is of this kind. -/
def kind (a : ArtifactFields) : ArtifactKind := a.payload.content.kind

/-- `_valid_revision`. -/
def validRevision (version : ℕ) (supersedesId : Option UUID) : Bool :=
  version = 1 && supersedesId.isNone || 1 < version && supersedesId.isSome

/-- What the validators of the envelope find first. -/
def violation (a : ArtifactFields) : Option String :=
  if a.schemaVersion = 0 ∨ a.version = 0 then some "Input should be greater than 0"
  else if ¬ validRevision a.version a.supersedesId then
    some "version 1 must not supersede; later versions must supersede"
  else if a.ownerActorClass = .policy then some "POLICY may not own content artifacts"
  else if a.kind = .fact ∧ a.ownerActorClass = .agent then some "AGENT may not own FACT"
  else if a.kind = .fact ∧ a.provenance.origin = .llm then
    some "LLM output may not be classified directly as FACT"
  else if (a.kind = .fact ∨ a.kind = .evidence) ∧ a.sourceReferences = [] then
    some (a.kind.value ++ " requires source references")
  else if a.kind = .evidence ∧ a.provenance.origin = .historicalSession then
    some "historical sessions may not produce EVIDENCE"
  else if a.version = 1 ∧ a.payload.content.verified then
    some "new EVIDENCE must start UNVERIFIED"
  else if a.kind = .position ∧ a.confidence.isNone then some "POSITION requires confidence"
  else if a.kind = .fact ∧ a.confidence.isSome then some "FACT may not carry model confidence"
  else none

/-- `hash_preimage`. -/
def hashPreimage (a : ArtifactFields) : Json :=
  .obj [(.ofString "confidence", (a.confidence.map Confidence.modelDump).getD .null),
    (.ofString "kind", .text a.kind.value),
    (.ofString "logical_id", .text a.logicalId.text),
    (.ofString "metadata", .obj a.metadata),
    (.ofString "owner_actor_class", .text a.ownerActorClass.value),
    (.ofString "owner_actor_id", .text a.ownerActorId.text),
    (.ofString "parent_relationships", .arr (a.parentRelationships.map ParentRelationship.modelDump)),
    (.ofString "payload", a.payload.modelDump),
    (.ofString "provenance", a.provenance.modelDump),
    (.ofString "round", .int a.round),
    (.ofString "schema_version", .int a.schemaVersion),
    (.ofString "session_id", .text a.sessionId.text),
    (.ofString "source_references", .arr a.sourceReferences),
    (.ofString "supersedes_id", uuidOrNull a.supersedesId),
    (.ofString "version", .int a.version),
    (.ofString "workspace_id", .text a.workspaceId.text)]

end ArtifactFields

/-- The immutable part of an artifact. -/
structure ArtifactBody extends ArtifactFields where
  contentHash : Hash
  valid : toArtifactFields.violation = none
  hashed : canonicalHash toArtifactFields.hashPreimage = .ok contentHash

structure ReasoningArtifact extends ArtifactBody where
  status : LifecycleStatus
  updatedAt : Datetime

/-- `artifact_content_hash` and `validate_artifact`: the checks, then the hash. -/
def validateArtifact (fields : ArtifactFields) (status : LifecycleStatus) (updatedAt : Datetime) :
    Py ReasoningArtifact :=
  match hvalid : fields.violation with
  | some message => .error (.valueError message)
  | none =>
    match hhash : canonicalHash fields.hashPreimage with
    | .error e => .error e
    | .ok contentHash => .ok
        { toArtifactFields := fields
          contentHash
          valid := hvalid
          hashed := hhash
          status
          updatedAt }

/-- The artifact has the given values. -/
theorem validateArtifact_ok {fields : ArtifactFields} {status : LifecycleStatus} {updatedAt : Datetime}
    {a : ReasoningArtifact} (h : validateArtifact fields status updatedAt = .ok a) :
    a.toArtifactFields = fields ∧ a.status = status ∧ a.updatedAt = updatedAt := by
  unfold validateArtifact at h
  split at h
  · cases h
  · split at h
    · cases h
    · obtain rfl := Except.ok.inj h
      exact ⟨rfl, rfl, rfl⟩

/-! ### Graph projections -/

/-- A node of the graph, with its label and its attributes. -/
structure GraphNode extends Impact.GraphNode where
  label : NonBlank
  attrs : Json

/-- An edge of the graph, with its type and who has drawn it. -/
structure GraphEdge extends Impact.GraphEdge where
  edgeType : GraphEdgeType
  qualifier : Json
  actorClass : ActorClass
  actorId : UUID

end Artifacts

end Agora
