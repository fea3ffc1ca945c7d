import Agora.Api.Requests
import Agora.Artifacts.Effects
import Mathlib.Logic.Function.Basic

namespace Agora.Api

open Artifacts Stateful
open Impact (ArtifactKind)
open Ledger (ActorClass)
open Marl (Hash)

/-!
# Transactions of the API

A write request is one transaction.  It takes the lock of its workspace, operation and key, looks
for the record of an earlier request, and otherwise acts and saves a record of its own.  A revision
or a withdrawal also reads the artifact, locks its row and compares the version.  Transactions that
hold different locks interleave freely, and each may be rolled back at any time.
-/

/-! ### Requests and answers -/

structure Request where
  workspaceId : UUID
  userId : UUID
  requestId : String
  key : String
  command : Command

/-- Workspace, operation and key. -/
abbrev Scope := UUID × String × String

def Request.scope (r : Request) : Scope := (r.workspaceId, r.command.operation, r.key)

structure IdempotencyRecord where
  requestHash : Hash
  statusCode : ℕ
  responseBody : Json

structure Response where
  status : ℕ
  body : Json
  etag : Option String

/-- What is raised.  The routes turn an error of the service into a failed validation or a version
    conflict with its message. -/
inductive ApiError where
  | notFound (resource : String)
  | validationFailed (message : String)
  | versionConflict (message : String) (currentVersion : ℕ)
  | raised (e : PyException)

inductive Outcome where
  | performed (response : Response)
  | replayed (response : Response)
  | failed (e : ApiError)
  | aborted

/-- `str(version)`, if `meta.version` is an integer. -/
def etagOf (body : Json) : Option String :=
  match body with
  | .obj entries =>
    match get? entries "meta" with
    | some (.obj fields) =>
      match get? fields "version" with
      | some (.int n) => some (toString n)
      | some (.bool b) => some (if b then "True" else "False")
      | _ => none
    | _ => none
  | _ => none

/-- The response with a status and a body. -/
def respond (status : ℕ) (body : Json) : Response := ⟨status, body, etagOf body⟩

/-! ### The artifact of a request -/

/-- What the routes rest on: the database, the sessions, the decoder of payloads and their
    projection to public fields. -/
structure Container where
  db : ReasoningDatabase
  acceptsRecord : Scope → IdempotencyRecord → Bool
  sessionExists : UUID → UUID → Bool
  decodePayload : (kind : ArtifactKind) → JsonObject →
    Py {p : ArtifactPayload // p.content.kind = kind}
  attributes : ArtifactPayload → List (PyStr × Json)

/-- What a transaction draws: its new ids and the clock. -/
structure Choices where
  artifactId : UUID
  nodeId : UUID
  edgeId : UUID
  relationshipEdgeId : ℕ → UUID
  eventId : UUID
  correlationId : UUID
  now : Datetime
  recordedAt : Datetime

/-- `_context`. -/
def Choices.context (ch : Choices) (userId : UUID) : ArtifactEventContext where
  eventId := ch.eventId
  correlationId := ch.correlationId
  causationId := none
  actorClass := .human
  actorId := userId
  recordedAt := ch.recordedAt

def Choices.edgeIds (ch : Choices) (artifact : ReasoningArtifact) : List UUID :=
  (List.range artifact.parentRelationships.length).map ch.relationshipEdgeId

/-- `_decimal`: a plain decimal text without trailing zeros. -/
def plainDecimal (value : String) : String :=
  let digits := value.toList
  let result := if '.' ∈ digits then (digits.rdropWhile (· = '0')).rdropWhile (· = '.') else digits
  if result = ['-', '0'] ∨ result = [] then "0" else String.ofList result

def ConfidenceInput.decode (c : ConfidenceInput) : Confidence where
  kind := c.kind
  value := plainDecimal c.value
  meaning := c.meaning
  basisArtifactIds := c.basisArtifactIds.map ArtifactId.value

def ParentRelationshipInput.decode (r : ParentRelationshipInput) : ParentRelationship :=
  ⟨r.edgeType, r.targetArtifactId.value⟩

/-- `kind.value.title()`. -/
def title (s : String) : String :=
  match s.toList with
  | [] => ""
  | c :: cs => String.ofList (c.toUpper :: cs.map Char.toLower)

/-- Where an artifact belongs: its session, its chain and its place in it. -/
structure Place where
  sessionId : UUID
  logicalId : UUID
  kind : ArtifactKind
  version : ℕ := 1
  supersedesId : Option UUID := none

section Actions

variable (container : Container) (ch : Choices) (r : Request)

/-- `_artifact`. -/
def artifactOf (input : ArtifactInput) (place : Place) : Py ReasoningArtifact := do
  let payload ← container.decodePayload place.kind input.payload
  validateArtifact
    { id := ch.artifactId
      workspaceId := r.workspaceId
      sessionId := place.sessionId
      logicalId := place.logicalId
      version := place.version
      supersedesId := place.supersedesId
      ownerActorClass := .human
      ownerActorId := r.userId
      payload := payload.val
      provenance := ⟨input.provenance.origin, input.provenance.reference, none, none⟩
      sourceReferences := input.sourceReferences
      parentRelationships := input.parentRelationships.map ParentRelationshipInput.decode
      confidence := input.confidence.map ConfidenceInput.decode
      metadata := input.metadata.entries
      createdAt := ch.now } .active ch.now

/-- `_artifact_id` of a confidence. -/
def publicConfidence (c : Confidence) : Py Json := do
  let basis ← c.basisArtifactIds.mapM (Ids.publicId "artifact")
  pure (.obj [(.ofString "basis_artifact_ids", .arr (basis.map Json.text)),
    (.ofString "kind", .text c.kind.text),
    (.ofString "meaning", .text c.meaning.text),
    (.ofString "value", .text c.value)])

/-- `_artifact_id` of an edge to a parent. -/
def publicRelationship (r : ParentRelationship) : Py Json := do
  let target ← Ids.publicId "artifact" r.targetArtifactId
  pure (.obj [(.ofString "edge_type", .text r.edgeType.value),
    (.ofString "target_artifact_id", .text target)])

/-- What is shown of a value that may be absent. -/
def orNull {α : Type} (f : α → Py Json) : Option α → Py Json
  | none => .ok .null
  | some a => f a

/-- The value of a status. -/
def statusValue : LifecycleStatus → String
  | .active => "ACTIVE"
  | .superseded => "SUPERSEDED"
  | .withdrawn => "WITHDRAWN"

/-- The resource of an owner. -/
def ownerResource : ActorClass → String
  | .human => "user"
  | .agent => "agent"
  | .service => "service"
  | .policy => "policy"

/-- A claim is marked when nothing supports it. -/
def unsupportedMark : Content → List (PyStr × Json)
  | .claim supportingEvidenceIds _ =>
    [(.ofString "unsupported", .bool supportingEvidenceIds.isEmpty)]
  | _ => []

/-- Which fields of the provenance are missing. -/
def missingFields (artifact : ReasoningArtifact) : List String :=
  if (artifact.kind = .fact ∨ artifact.kind = .evidence) ∧ artifact.sourceReferences = [] then
    ["source_references"]
  else []

/-- The `meta` object of `artifact_response`, for a principal that may write. -/
def responseMeta (artifact : ReasoningArtifact) : Py Json := do
  let workspace ← Ids.publicId "workspace" artifact.workspaceId
  let session ← Ids.publicId "session" artifact.sessionId
  let logical ← Ids.publicId "artifact" artifact.logicalId
  let owner ← Ids.publicId (ownerResource artifact.ownerActorClass) artifact.ownerActorId
  let supersedes ← orNull (fun id => Json.text <$> Ids.publicId "artifact" id) artifact.supersedesId
  pure (.obj [(.ofString "created_at", .text (String.ofList artifact.createdAt.zulu)),
    (.ofString "lifecycle_status", .text (statusValue artifact.status)),
    (.ofString "logical_id", .text logical),
    (.ofString "owner", .obj [(.ofString "class", .text artifact.ownerActorClass.value),
      (.ofString "id", .text owner)]),
    (.ofString "permissions", .arr (["artifacts:read", "artifacts:write",
      "artifacts:validate"].map Json.text)),
    (.ofString "provenance", .obj [
      (.ofString "complete", .bool (missingFields artifact).isEmpty),
      (.ofString "missing", .arr ((missingFields artifact).map Json.text)),
      (.ofString "origin", .text artifact.provenance.origin.value),
      (.ofString "reference", .text artifact.provenance.reference.text)]),
    (.ofString "request_id", .text r.requestId),
    (.ofString "schema_version", .int artifact.schemaVersion),
    (.ofString "session_id", .text session),
    (.ofString "supersedes_id", supersedes),
    (.ofString "trace", .null),
    (.ofString "updated_at", .text (String.ofList artifact.updatedAt.zulu)),
    (.ofString "version", .int artifact.version),
    (.ofString "workspace_id", .text workspace)])

/-- `artifact_response`. -/
def artifactResponse (artifact : ReasoningArtifact) : Py Json := do
  let id ← Ids.publicId "artifact" artifact.id
  let parents ← artifact.parentRelationships.mapM publicRelationship
  let confidence ← orNull publicConfidence artifact.confidence
  let info ← responseMeta r artifact
  pure (.obj [(.ofString "data", .obj [
      (.ofString "attributes", .obj (container.attributes artifact.payload
        ++ unsupportedMark artifact.payload.content)),
      (.ofString "confidence", confidence),
      (.ofString "content_hash", .text artifact.contentHash.text),
      (.ofString "id", .text id),
      (.ofString "kind", .text artifact.kind.value),
      (.ofString "metadata", .obj artifact.metadata),
      (.ofString "parent_relationships", .arr parents),
      (.ofString "source_references", .arr artifact.sourceReferences)]),
    (.ofString "meta", info)])

/-! ### Actions -/

/-- The action of `create_artifact`. -/
def createArtifact (sessionId : UUID) (body : ArtifactCreate) :
    Stateful ReasoningState PyException (ℕ × Json) := do
  let artifact ← lift (artifactOf container ch r body.toArtifactInput
    { sessionId, logicalId := ch.artifactId, kind := body.kind })
  let result ← commit container.db artifact ch.nodeId (ch.edgeIds artifact) (title body.kind.value)
    (ch.context r.userId)
  let response ← lift (artifactResponse container r result.artifact)
  pure (201, response)

/-- The rest of the action of `revise_artifact`, once the row is locked. -/
def reviseArtifact (previous : ReasoningArtifact) (body : ArtifactRevisionCreate) :
    Stateful ReasoningState PyException (ℕ × Json) := do
  let revision ← lift (artifactOf container ch r body.toArtifactInput
    { sessionId := previous.sessionId, logicalId := previous.logicalId, kind := previous.kind
      version := previous.version + 1, supersedesId := some previous.id })
  let result ← revise container.db revision ch.nodeId ch.edgeId (ch.edgeIds revision)
    (title previous.kind.value) body.reason.text (ch.context r.userId)
  let response ← lift (artifactResponse container r result.artifact)
  pure (201, response)

/-- The rest of the action of `withdraw_artifact`, once the row is locked. -/
def withdrawArtifact (locked : ReasoningArtifact) (artifactId : UUID)
    (body : ArtifactWithdrawalCreate) : Stateful ReasoningState PyException (ℕ × Json) := do
  let result ← withdraw container.db r.workspaceId locked.sessionId artifactId body.reason.text
    (body.warrantArtifactIds.map ArtifactId.value) (ch.context r.userId)
  let response ← lift (artifactResponse container r result.artifact)
  pure (200, response)

end Actions

/-! ### Transactions -/

/-- How far a transaction has come. -/
inductive Phase where
  | begun
  | locked
  | found (sessionId : UUID)
  | held (previous : ReasoningArtifact)

structure Txn where
  request : Request
  requestHash : Hash
  phase : Phase

/-- A request that has ended. -/
structure Finished where
  request : Request
  outcome : Outcome

/-- The committed tables, the open transactions with their locks, and the requests that have ended,
    in the order of their ends. -/
structure System where
  reasoning : ReasoningState
  records : List (Scope × IdempotencyRecord)
  running : ℕ → Option Txn
  locks : Scope → Option ℕ
  rowLocks : UUID → Option ℕ
  log : List Finished

/-- A new artifact needs its session. -/
def Container.checkSession (container : Container) (r : Request) : Except ApiError Unit :=
  match r.command with
  | .create sessionId _ =>
    if container.sessionExists r.workspaceId sessionId then .ok ()
    else .error (.notFound "session")
  | _ => .ok ()

/-- What a request passes before it asks for its lock: the session, the hash, the key. -/
def Container.prepare (container : Container) (r : Request) : Except ApiError Hash := do
  container.checkSession r
  let requestHash ← r.command.requestHash.mapError .raised
  if isBlank r.key ∨ 255 < r.key.length then
    .error (.validationFailed "Idempotency-Key must contain 1 to 255 characters")
  else .ok requestHash

/-- The answer to a request whose key is in use. -/
def IdempotencyRecord.answer (record : IdempotencyRecord) (requestHash : Hash) : Outcome :=
  if record.requestHash ≠ requestHash then
    .failed (.versionConflict "Idempotency-Key was already used for a different request" 1)
  else .replayed (respond record.statusCode record.responseBody)

namespace System

/-- The transaction ends, and its locks are free. -/
def finish (s : System) (i : ℕ) (t : Txn) (outcome : Outcome) : System :=
  { s with
    running := Function.update s.running i none
    locks := fun scope => if s.locks scope = some i then none else s.locks scope
    rowLocks := fun id => if s.rowLocks id = some i then none else s.rowLocks id
    log := s.log ++ [⟨t.request, outcome⟩] }

/-- The transaction goes on. -/
def advance (s : System) (i : ℕ) (t : Txn) (phase : Phase) : System :=
  { s with running := Function.update s.running i (some { t with phase }) }

/-- `artifacts.get`. -/
def getArtifact (s : System) (workspaceId artifactId : UUID) : Option ReasoningArtifact :=
  s.reasoning.artifacts.find? fun a => a.workspaceId = workspaceId ∧ a.id = artifactId

end System

/-- What the transaction does once it has its locks. -/
def Txn.action? (t : Txn) (container : Container) (ch : Choices) :
    Option (Stateful ReasoningState PyException (ℕ × Json)) :=
  match t.phase, t.request.command with
  | .locked, .create sessionId body => some (createArtifact container ch t.request sessionId body)
  | .held previous, .revise _ _ body => some (reviseArtifact container ch t.request previous body)
  | .held previous, .withdraw artifactId _ body =>
    some (withdrawArtifact container ch t.request previous artifactId body)
  | _, _ => none

/-! ### Steps -/

namespace System

variable (container : Container) (s : System)

/-- A request comes in. -/
def begin (i : ℕ) (r : Request) : System :=
  match container.prepare r with
  | .error e => { s with log := s.log ++ [⟨r, .failed e⟩] }
  | .ok requestHash =>
    { s with running := Function.update s.running i (some ⟨r, requestHash, .begun⟩) }

/-- `load_after_lock`, once the lock is free. -/
def acquire (i : ℕ) (t : Txn) : System :=
  match s.locks t.request.scope with
  | some _ => s
  | none =>
    match s.records.lookup t.request.scope with
    | some record => s.finish i t (record.answer t.requestHash)
    | none =>
      { s.advance i t .locked with
        locks := Function.update s.locks t.request.scope (some i) }

/-- The artifact is read, for its session. -/
def readArtifact (i : ℕ) (t : Txn) (artifactId : UUID) : System :=
  match s.getArtifact t.request.workspaceId artifactId with
  | none => s.finish i t (.failed (.notFound "artifact"))
  | some current => s.advance i t (.found current.sessionId)

/-- `get_for_update`, once the row is free, and the check of `If-Match`. -/
def lockRow (i : ℕ) (t : Txn) (sessionId artifactId : UUID) (ifMatch : ℕ) : System :=
  match s.rowLocks artifactId with
  | some _ => s
  | none =>
    match s.reasoning.artifact? t.request.workspaceId sessionId artifactId with
    | none => s.finish i t (.failed (.notFound "artifact"))
    | some previous =>
      if previous.version ≠ ifMatch then
        s.finish i t (.failed (.versionConflict "artifact version does not match If-Match"
          previous.version))
      else
        { s.advance i t (.held previous) with
          rowLocks := Function.update s.rowLocks artifactId (some i) }

/-- The statements of the action, the record, and the commit: all of it, or nothing. -/
def act (i : ℕ) (t : Txn) (action : Stateful ReasoningState PyException (ℕ × Json)) : System :=
  match transaction container.db action s.reasoning with
  | (.error e, _) => s.finish i t (.failed (.raised e))
  | (.ok (status, body), reasoning) =>
    let record : IdempotencyRecord := ⟨t.requestHash, status, body⟩
    if (s.records.lookup t.request.scope).isNone
        ∧ container.acceptsRecord t.request.scope record then
      { s.finish i t (.performed (respond status body)) with
        reasoning
        records := s.records ++ [(t.request.scope, record)] }
    else s.finish i t (.failed (.raised databaseError))

end System

/-- A step of one transaction.  One that is not possible in the state changes nothing. -/
inductive Move where
  | begin (i : ℕ) (request : Request)
  | acquire (i : ℕ)
  | read (i : ℕ)
  | lockRow (i : ℕ)
  | act (i : ℕ) (ch : Choices)
  | abort (i : ℕ)

/-- Which transaction makes the step. -/
def Move.index : Move → ℕ
  | begin i _ | acquire i | read i | lockRow i | act i _ | abort i => i

/-- The step of an open transaction. -/
def System.stepTxn (container : Container) (s : System) (t : Txn) : Move → System
  | .begin _ _ => s
  | .acquire i =>
    match t.phase with
    | .begun => s.acquire i t
    | _ => s
  | .read i =>
    match t.phase, t.request.command.expected? with
    | .locked, some (artifactId, _) => s.readArtifact i t artifactId
    | _, _ => s
  | .lockRow i =>
    match t.phase, t.request.command.expected? with
    | .found sessionId, some (artifactId, ifMatch) => s.lockRow i t sessionId artifactId ifMatch
    | _, _ => s
  | .act i ch =>
    match t.action? container ch with
    | some action => s.act container i t action
    | none => s
  | .abort i => s.finish i t .aborted

def Move.exec (container : Container) (m : Move) (s : System) : System :=
  match s.running m.index, m with
  | none, .begin i request => s.begin container i request
  | none, _ => s
  | some t, m => s.stepTxn container t m

end Agora.Api
