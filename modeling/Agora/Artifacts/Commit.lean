import Agora.Artifacts.Store
import Agora.Lib.Except

namespace Agora.Artifacts

open Ledger (ActorClass LedgerAppend LedgerEvent NonBlank jsonPayload)
open Stateful

/-!
# Committing, revising and withdrawing artifacts

`ArtifactCommitService` writes an artifact, its node and edges and an event of the ledger, one
statement after the other, in a transaction of the caller.
-/

/-! ### Requests and results -/

structure ArtifactEventContext where
  eventId : UUID
  correlationId : UUID
  causationId : Option UUID
  actorClass : ActorClass
  actorId : UUID
  recordedAt : Datetime

structure ArtifactWriteResult where
  artifact : ReasoningArtifact
  event : LedgerEvent

/-- `ArtifactCommitError`. -/
def artifactCommitError (message : String) : PyException := ⟨.other, message⟩

def committedType : NonBlank := ⟨"ARTIFACT_COMMITTED", by decide⟩
def revisedType : NonBlank := ⟨"ARTIFACT_REVISED", by decide⟩
def withdrawnType : NonBlank := ⟨"ARTIFACT_WITHDRAWN", by decide⟩

/-! ### Values -/

/-- The entry of a metadata value, if it is there. -/
def ArtifactFields.metadataEntry (a : ArtifactFields) (key : String) : List (PyStr × Json) :=
  ((get? a.metadata key).map fun value => (.ofString key, value)).toList

/-- `_event`. -/
def artifactEvent (artifact : ReasoningArtifact) (context : ArtifactEventContext) (eventType : NonBlank)
    (payload : List (PyStr × Json)) : Py LedgerAppend := do
  let payload ← jsonPayload (sortByKey (payload ++ artifact.metadataEntry "attribution"
    ++ artifact.metadataEntry "evidence_disposition"))
  pure
    { id := context.eventId
      workspaceId := artifact.workspaceId
      sessionId := artifact.sessionId
      eventType
      payloadSchemaVersion := 1
      causationId := context.causationId
      correlationId := context.correlationId
      actorClass := context.actorClass
      actorId := context.actorId
      round := artifact.round
      payload
      recordedAt := context.recordedAt
      positive_version := Nat.one_pos }

/-- The payload entries that all three events have. -/
def ReasoningArtifact.eventEntries (a : ReasoningArtifact) : List (PyStr × Json) :=
  [(.ofString "artifact_id", .text a.id.text),
    (.ofString "kind", .text a.kind.value),
    (.ofString "logical_id", .text a.logicalId.text),
    (.ofString "version", .int a.version)]

/-- `_node`. -/
def graphNode (artifact : ReasoningArtifact) (nodeId : UUID) (label : String) : Py GraphNode := do
  let attrs : Json := .obj [(.ofString "logical_id", .text artifact.logicalId.text),
    (.ofString "version", .int artifact.version)]
  let _ ← attrs.canonicalJson
  if h : (!isBlank label) = true then
    .ok
      { id := nodeId
        workspaceId := artifact.workspaceId
        sessionId := artifact.sessionId
        kind := artifact.kind
        refId := artifact.id
        label := ⟨label, h⟩
        attrs }
  else .error (.valueError "label must not be blank")

/-- An edge between nodes of the session of an artifact. -/
def graphEdge (artifact : ReasoningArtifact) (edgeId fromNode toNode : UUID) (edgeType : GraphEdgeType)
    (qualifier : Json) (context : ArtifactEventContext) : Py GraphEdge := do
  let _ ← qualifier.canonicalJson
  if h : fromNode ≠ toNode then
    .ok
      { id := edgeId
        workspaceId := artifact.workspaceId
        sessionId := artifact.sessionId
        fromNode
        toNode
        no_self_loop := h
        edgeType
        qualifier
        actorClass := context.actorClass
        actorId := context.actorId }
  else .error (.valueError "graph edges cannot be self-loops")

/-- The qualifier of an edge to a parent. -/
def relationshipQualifier (artifact : ReasoningArtifact) (relationship : ParentRelationship) : Json :=
  match relationship.edgeType, artifact.payload.content with
  | .attacks, .critique _ critiqueType severity _ =>
    .obj [(.ofString "severity", .text severity.value), (.ofString "type", .text critiqueType.value)]
  | _, _ => .obj []

/-- The edge to a parent. -/
def relationshipEdge (artifact : ReasoningArtifact) (node : GraphNode) (context : ArtifactEventContext)
    (parent : ParentRelationship × UUID × GraphNode) : Py GraphEdge :=
  graphEdge artifact parent.2.1 node.id parent.2.2.id parent.1.edgeType
    (relationshipQualifier artifact parent.1) context

/-- `_relationship_targets`, in the tables. -/
def ReasoningState.relationshipTargets (s : ReasoningState) (artifact : ReasoningArtifact)
    (edgeIds : List UUID) : Py (List (UUID × GraphNode)) :=
  if edgeIds.length ≠ artifact.parentRelationships.length then
    .error (artifactCommitError "each parent relationship requires one edge id")
  else (edgeIds.zip artifact.parentRelationships).mapM fun (edgeId, relationship) =>
    if relationship.edgeType = .supersedes then
      .error (artifactCommitError "SUPERSEDES is derived from the revision predecessor")
    else
      match s.node? artifact.workspaceId artifact.sessionId relationship.targetArtifactId with
      | none => .error (artifactCommitError ("parent artifact " ++ relationship.targetArtifactId.text
          ++ " has no graph projection"))
      | some target => .ok (edgeId, target)

/-! ### The service -/

section Service

variable (db : ReasoningDatabase)

/-- `_add_relationships`. -/
def addRelationships (artifact : ReasoningArtifact) (node : GraphNode) (context : ArtifactEventContext) :
    List (ParentRelationship × UUID × GraphNode) → Stateful ReasoningState PyException Unit
  | [] => pure ()
  | parent :: rest => do
    let edge ← lift (relationshipEdge artifact node context parent)
    addEdge db edge
    addRelationships artifact node context rest

/-- `ArtifactCommitService.commit`. -/
def commit (artifact : ReasoningArtifact) (nodeId : UUID) (relationshipEdgeIds : List UUID)
    (label : String) (context : ArtifactEventContext) :
    Stateful ReasoningState PyException ArtifactWriteResult := do
  if artifact.version ≠ 1 ∨ artifact.supersedesId.isSome then
    raise (artifactCommitError "initial artifact commit requires version 1")
  else if artifact.status ≠ .active then
    raise (artifactCommitError "initial artifact commit requires ACTIVE status")
  else do
    let targets ← query (·.relationshipTargets artifact relationshipEdgeIds)
    addArtifact db artifact
    let node ← lift (graphNode artifact nodeId label)
    addNode db node
    addRelationships db artifact node context (artifact.parentRelationships.zip targets)
    let event ← lift (artifactEvent artifact context committedType artifact.eventEntries)
    let event ← appendEvent db event
    pure ⟨artifact, event⟩

/-- The predecessor of a revision, with its node. -/
def ReasoningState.predecessor (s : ReasoningState) (artifact : ReasoningArtifact)
    (supersedesId : UUID) : Py (ReasoningArtifact × GraphNode) :=
  match s.artifact? artifact.workspaceId artifact.sessionId supersedesId with
  | none => .error (artifactCommitError ("predecessor artifact " ++ supersedesId.text
      ++ " does not exist"))
  | some previous =>
    if previous.status ≠ .active then
      .error (artifactCommitError "only an ACTIVE artifact may be revised")
    else if previous.logicalId ≠ artifact.logicalId ∨ previous.kind ≠ artifact.kind
        ∨ previous.version + 1 ≠ artifact.version then
      .error (artifactCommitError "revision must follow the same logical artifact and kind")
    else
      match s.node? previous.workspaceId previous.sessionId previous.id with
      | none => .error (artifactCommitError ("predecessor artifact " ++ previous.id.text
          ++ " has no graph projection"))
      | some node => .ok (previous, node)

/-- `ArtifactCommitService.revise`. -/
def revise (artifact : ReasoningArtifact) (nodeId edgeId : UUID) (relationshipEdgeIds : List UUID)
    (label reason : String) (context : ArtifactEventContext) :
    Stateful ReasoningState PyException ArtifactWriteResult := do
  match artifact.supersedesId with
  | none => raise (artifactCommitError "revision requires a predecessor and version greater than 1")
  | some supersedesId =>
    if artifact.version ≤ 1 then
      raise (artifactCommitError "revision requires a predecessor and version greater than 1")
    else if artifact.status ≠ .active then
      raise (artifactCommitError "revision requires ACTIVE status")
    else if isBlank reason then raise (artifactCommitError "revision reason must not be blank")
    else do
      let (previous, previousNode) ← query (·.predecessor artifact supersedesId)
      let targets ← query (·.relationshipTargets artifact relationshipEdgeIds)
      addArtifact db artifact
      setLifecycle previous.workspaceId previous.sessionId previous.id .superseded context.recordedAt
      let node ← lift (graphNode artifact nodeId label)
      addNode db node
      addRelationships db artifact node context (artifact.parentRelationships.zip targets)
      let edge ← lift (graphEdge artifact edgeId node.id previousNode.id .supersedes
        (.obj [(.ofString "reason", .text reason)]) context)
      addEdge db edge
      let event ← lift (artifactEvent artifact context revisedType (artifact.eventEntries
        ++ [(.ofString "supersedes_id", .text previous.id.text), (.ofString "reason", .text reason)]))
      let event ← appendEvent db event
      pure ⟨artifact, event⟩

/-- The artifact that is withdrawn. -/
def ReasoningState.withdrawable (s : ReasoningState) (workspaceId sessionId artifactId : UUID)
    (warrantArtifactIds : List UUID) : Py ReasoningArtifact := do
  warrantArtifactIds.forM fun warrantId =>
    if (s.node? workspaceId sessionId warrantId).isNone then
      .error (artifactCommitError ("withdrawal warrant artifact " ++ warrantId.text
        ++ " has no graph projection"))
    else .ok ()
  match s.artifact? workspaceId sessionId artifactId with
  | none => .error (artifactCommitError ("artifact " ++ artifactId.text ++ " does not exist"))
  | some artifact =>
    if artifact.status ≠ .active then
      .error (artifactCommitError "only an ACTIVE artifact may be withdrawn")
    else .ok artifact

/-- `ArtifactCommitService.withdraw`. -/
def withdraw (workspaceId sessionId artifactId : UUID) (reason : String)
    (warrantArtifactIds : List UUID) (context : ArtifactEventContext) :
    Stateful ReasoningState PyException ArtifactWriteResult := do
  if isBlank reason then raise (artifactCommitError "withdrawal reason must not be blank")
  else if warrantArtifactIds = [] then
    raise (artifactCommitError "withdrawal requires at least one warrant artifact id")
  else if ¬ warrantArtifactIds.Nodup then
    raise (artifactCommitError "withdrawal warrant artifact ids must be unique")
  else do
    let artifact ← query (·.withdrawable workspaceId sessionId artifactId warrantArtifactIds)
    setLifecycle artifact.workspaceId artifact.sessionId artifact.id .withdrawn context.recordedAt
    let withdrawn := artifact.withStatus .withdrawn context.recordedAt
    let event ← lift (artifactEvent withdrawn context withdrawnType (artifact.eventEntries
      ++ [(.ofString "reason", .text reason),
        (.ofString "warrant_artifact_ids", uuids warrantArtifactIds)]))
    let event ← appendEvent db event
    pure ⟨withdrawn, event⟩

end Service

/-- A call of the service, in a transaction of its own. -/
inductive ArtifactCall where
  | commit (artifact : ReasoningArtifact) (nodeId : UUID) (relationshipEdgeIds : List UUID)
      (label : String) (context : ArtifactEventContext)
  | revise (artifact : ReasoningArtifact) (nodeId edgeId : UUID) (relationshipEdgeIds : List UUID)
      (label reason : String) (context : ArtifactEventContext)
  | withdraw (workspaceId sessionId artifactId : UUID) (reason : String)
      (warrantArtifactIds : List UUID) (context : ArtifactEventContext)

def ArtifactCall.statements (db : ReasoningDatabase) :
    ArtifactCall → Stateful ReasoningState PyException ArtifactWriteResult
  | .commit artifact nodeId edgeIds label context =>
    Artifacts.commit db artifact nodeId edgeIds label context
  | .revise artifact nodeId edgeId edgeIds label reason context =>
    Artifacts.revise db artifact nodeId edgeId edgeIds label reason context
  | .withdraw workspaceId sessionId artifactId reason warrants context =>
    Artifacts.withdraw db workspaceId sessionId artifactId reason warrants context

def ArtifactCall.run (db : ReasoningDatabase) (call : ArtifactCall) :
    Stateful ReasoningState PyException ArtifactWriteResult :=
  transaction db (call.statements db)

end Agora.Artifacts
