import Agora.Artifacts.Records
import Agora.Formalization.Validation
import Agora.Lib.Runs
import Mathlib.Data.List.MinMax

namespace Agora.Formalization

open Artifacts (ReasoningArtifact)
open Ledger (ActorClass)
open Stateful

/-!
# The lifecycle of a formalization

Revisions, validations and decisions are rows of three tables, and every change of them is an event in
the outbox.  The keys of the tables are part of the model; whatever else the schema refuses, at once or
when a transaction commits, is a parameter.
-/

/-! ### Rows -/

inductive FormalizationStatus where
  | candidate
  | validated
  | rejected
deriving DecidableEq, Repr

inductive FormalizationDecisionKind where
  | confirmed
  | rejected
deriving DecidableEq, Repr

/-- `FormalizationRow`: a revision with its place in the history of a formalization. -/
structure FormalizationRow extends FormalizationRevision where
  logicalId : UUID
  revision : ℕ
  supersedesId : Option UUID
  workspaceId : UUID
  sessionId : UUID
  sourceArtifactId : UUID
  sourceArtifactLogicalId : UUID
  sourceArtifactVersion : ℕ
  premiseArtifactIds : List UUID
  createdAt : Datetime
  actorClass : ActorClass
  actorId : UUID
  correlationId : UUID
  revision_shape : revision = 1 ↔ supersedesId = none
  unique_premises : premiseArtifactIds.Nodup

/-- `FormalizationValidationRow`. -/
structure FormalizationValidationRow extends FormalizationValidation where
  id : UUID
  workspaceId : UUID
  validatedAt : Datetime
  actorId : UUID
  correlationId : UUID

structure FormalizationDecision where
  id : UUID
  workspaceId : UUID
  formalizationRevisionId : UUID
  hash : Marl.Hash
  kind : FormalizationDecisionKind
  reason : String
  decidedAt : Datetime
  actorId : UUID
  correlationId : UUID

inductive FormalizationEventType where
  | created
  | revised
  | validationRecorded
  | confirmed
  | rejected
deriving DecidableEq, Repr

def FormalizationEventType.value : FormalizationEventType → String
  | .created => "FORMALIZATION_CREATED"
  | .revised => "FORMALIZATION_REVISED"
  | .validationRecorded => "FORMALIZATION_VALIDATION_RECORDED"
  | .confirmed => "FORMALIZATION_CONFIRMED"
  | .rejected => "FORMALIZATION_REJECTED"

/-- `WorkspaceEventOutboxRow`, with the payload that `add_event` gives it. -/
structure FormalizationEvent where
  id : UUID
  workspaceId : UUID
  eventType : FormalizationEventType
  formalizationId : UUID
  formalizationRevisionId : UUID
  formalizationRevision : ℕ
  sourceArtifactId : UUID
  sourceArtifactVersion : ℕ
  hash : Marl.Hash
  validationStatus : FormalizationStatus
  actorClass : ActorClass
  actorId : UUID
  correlationId : UUID
  recordedAt : Datetime

structure FormalizationState where
  revisions : List FormalizationRow
  validations : List FormalizationValidationRow
  decisions : List FormalizationDecision
  events : List FormalizationEvent

/-- Which rows the schema takes beside its keys, and which states a transaction may end in. -/
structure FormalizationDatabase where
  acceptsRevision : FormalizationRow → Bool
  acceptsValidation : FormalizationValidationRow → Bool
  acceptsDecision : FormalizationDecision → Bool
  acceptsEvent : FormalizationEvent → Bool
  acceptsCommit : FormalizationState → Bool

/-! ### The repository -/

namespace FormalizationState

variable (s : FormalizationState)

/-- The revisions of a formalization. -/
def history (workspaceId logicalId : UUID) : List FormalizationRow :=
  s.revisions.filter fun row => row.workspaceId = workspaceId ∧ row.logicalId = logicalId

/-- `head`. -/
def head? (workspaceId logicalId : UUID) : Option FormalizationRow :=
  (s.history workspaceId logicalId).argmax (·.revision)

/-- `revision`: the one with this number, or the last one. -/
def revision? (workspaceId logicalId : UUID) : Option ℕ → Option FormalizationRow
  | some revision => (s.history workspaceId logicalId).find? (·.revision = revision)
  | none => s.head? workspaceId logicalId

def validation? (workspaceId revisionId : UUID) : Option FormalizationValidationRow :=
  s.validations.find? fun row =>
    row.workspaceId = workspaceId ∧ row.formalizationRevisionId = revisionId

def decision? (workspaceId revisionId : UUID) : Option FormalizationDecision :=
  s.decisions.find? fun row =>
    row.workspaceId = workspaceId ∧ row.formalizationRevisionId = revisionId

/-- `uq_formalizations_logical_revision` and `uq_formalizations_successor`, and the primary key. -/
def freshRevision (row : FormalizationRow) : Bool :=
  s.revisions.all fun other => other.id ≠ row.id
    && (other.workspaceId, other.logicalId, other.revision)
      ≠ (row.workspaceId, row.logicalId, row.revision)
    && ((other.workspaceId, other.supersedesId) ≠ (row.workspaceId, row.supersedesId)
      || row.supersedesId = none)

/-- `uq_formalization_validations_revision`, and the primary key. -/
def freshValidation (row : FormalizationValidationRow) : Bool :=
  s.validations.all fun other => other.id ≠ row.id
    && (other.workspaceId, other.formalizationRevisionId)
      ≠ (row.workspaceId, row.formalizationRevisionId)

def freshDecision (row : FormalizationDecision) : Bool :=
  s.decisions.all fun other => other.id ≠ row.id
    && (other.workspaceId, other.formalizationRevisionId)
      ≠ (row.workspaceId, row.formalizationRevisionId)

def freshEvent (event : FormalizationEvent) : Bool := s.events.all (·.id ≠ event.id)

end FormalizationState

def databaseError : PyException := ⟨.other, "database error"⟩

/-- `FormalizationError` is a `ValueError`. -/
def formalizationError (message : String) : PyException := .valueError message

/-- `verify_artifacts`, over the artifacts that there are. -/
def verifyArtifacts (artifacts : List ReasoningArtifact) (row : FormalizationRow) : Py Unit :=
  let ids := row.sourceArtifactId :: row.premiseArtifactIds
  let rows := artifacts.filter fun a =>
    a.workspaceId = row.workspaceId ∧ a.sessionId = row.sessionId ∧ a.id ∈ ids
  match dictGet (·.id) rows row.sourceArtifactId with
  | none => .error (formalizationError
      "source must be an existing CLAIM, CONSTRAINT, or PROPOSITION revision")
  | some source =>
    if source.kind ∉ [.claim, .constraint, .proposition] then
      .error (formalizationError
        "source must be an existing CLAIM, CONSTRAINT, or PROPOSITION revision")
    else if source.logicalId ≠ row.sourceArtifactLogicalId
        ∨ source.version ≠ row.sourceArtifactVersion then
      .error (formalizationError "source artifact lineage/version does not match the pinned revision")
    else if ¬ ids.all fun id => rows.any (·.id = id) then
      .error (formalizationError
        "every premise must pin an existing artifact revision in the same session")
    else .ok ()

section Statements

variable (db : FormalizationDatabase)

def addRevision (row : FormalizationRow) : Stateful FormalizationState PyException Unit :=
  writeIf (fun s => s.freshRevision row && db.acceptsRevision row) databaseError
    fun s => { s with revisions := s.revisions ++ [row] }

def addValidation (row : FormalizationValidationRow) :
    Stateful FormalizationState PyException Unit :=
  writeIf (fun s => s.freshValidation row && db.acceptsValidation row) databaseError
    fun s => { s with validations := s.validations ++ [row] }

def addDecision (row : FormalizationDecision) : Stateful FormalizationState PyException Unit :=
  writeIf (fun s => s.freshDecision row && db.acceptsDecision row) databaseError
    fun s => { s with decisions := s.decisions ++ [row] }

def addEvent (event : FormalizationEvent) : Stateful FormalizationState PyException Unit :=
  writeIf (fun s => s.freshEvent event && db.acceptsEvent event) databaseError
    fun s => { s with events := s.events ++ [event] }

end Statements

/-! ### The service -/

structure FormalizationContext where
  actorId : UUID
  correlationId : UUID
  occurredAt : Datetime
  eventId : UUID

structure FormalizationResult where
  revision : FormalizationRow
  validation : Option FormalizationValidationRow
  decision : Option FormalizationDecision
  status : FormalizationStatus

/-- `derive_status`. -/
def deriveStatus (validation : Option FormalizationValidationRow)
    (decision : Option FormalizationDecision) : FormalizationStatus :=
  if validation.any (!·.success) then .rejected
  else if decision.any (·.kind = .rejected) then .rejected
  else if validation.any (·.success) && decision.any (·.kind = .confirmed) then .validated
  else .candidate

/-- `_result`. -/
def FormalizationState.result (s : FormalizationState) (row : FormalizationRow) :
    FormalizationResult where
  revision := row
  validation := s.validation? row.workspaceId row.id
  decision := s.decision? row.workspaceId row.id
  status := deriveStatus (s.validation? row.workspaceId row.id) (s.decision? row.workspaceId row.id)

/-- `get`. -/
def FormalizationState.get (s : FormalizationState) (workspaceId logicalId : UUID)
    (revision : Option ℕ) : Option FormalizationResult :=
  (s.revision? workspaceId logicalId revision).map s.result

/-- The event of a change. -/
def FormalizationContext.event (context : FormalizationContext) (eventType : FormalizationEventType)
    (row : FormalizationRow) (status : FormalizationStatus) : FormalizationEvent where
  id := context.eventId
  workspaceId := row.workspaceId
  eventType
  formalizationId := row.logicalId
  formalizationRevisionId := row.id
  formalizationRevision := row.revision
  sourceArtifactId := row.sourceArtifactId
  sourceArtifactVersion := row.sourceArtifactVersion
  hash := row.hash
  validationStatus := status
  actorClass := row.actorClass
  actorId := context.actorId
  correlationId := context.correlationId
  recordedAt := context.occurredAt

/-- The validation of a revision, as it is stored. -/
def FormalizationContext.validation (context : FormalizationContext) (validationId : UUID)
    (row : FormalizationRow) : FormalizationValidationRow where
  toFormalizationValidation := validateRevision row.toFormalizationRevision
  id := validationId
  workspaceId := row.workspaceId
  validatedAt := context.occurredAt
  actorId := context.actorId
  correlationId := context.correlationId

def FormalizationContext.decision (context : FormalizationContext) (decisionId workspaceId : UUID)
    (row : FormalizationRow) (kind : FormalizationDecisionKind) (reason : String) :
    FormalizationDecision where
  id := decisionId
  workspaceId
  formalizationRevisionId := row.id
  hash := row.hash
  kind
  reason
  decidedAt := context.occurredAt
  actorId := context.actorId
  correlationId := context.correlationId

/-- The event that a decision is announced by. -/
def FormalizationDecisionKind.eventType : FormalizationDecisionKind → FormalizationEventType
  | .confirmed => .confirmed
  | .rejected => .rejected

/-- The calls of the service. -/
inductive FormalizationCall where
  | create (row : FormalizationRow)
  | revise (row : FormalizationRow) (expectedRevision : ℕ)
  | validate (workspaceId logicalId : UUID) (expectedRevision : ℕ) (validationId : UUID)
  | decide (workspaceId logicalId : UUID) (expectedRevision : ℕ) (decisionId : UUID)
      (kind : FormalizationDecisionKind) (reason : String)

/-- A call, its context, and the artifacts that there are when it is made. -/
structure FormalizationRequest where
  call : FormalizationCall
  context : FormalizationContext
  artifacts : List ReasoningArtifact

def staleRevision (current : ℕ) : PyException :=
  formalizationError ("stale formalization revision; current revision is " ++ toString current)

/-- `_current`. -/
def FormalizationState.current (s : FormalizationState) (workspaceId logicalId : UUID)
    (expected : ℕ) : Py FormalizationRow :=
  match s.head? workspaceId logicalId with
  | none => .error (formalizationError "formalization does not exist")
  | some head => if head.revision ≠ expected then .error (staleRevision head.revision) else .ok head

/-- What `revise` requires of the new revision. -/
def checkSuccessor (head row : FormalizationRow) : Py Unit :=
  if row.revision ≠ head.revision + 1 ∨ row.supersedesId ≠ some head.id then
    .error (formalizationError "revision must directly supersede the current head")
  else if row.sourceArtifactLogicalId ≠ head.sourceArtifactLogicalId then
    .error (formalizationError "source artifact lineage cannot change")
  else .ok ()

section Service

variable (db : FormalizationDatabase)

/-- What `create` and `revise` end with. -/
def record (eventType : FormalizationEventType) (row : FormalizationRow)
    (context : FormalizationContext) (artifacts : List ReasoningArtifact) :
    Stateful FormalizationState PyException FormalizationResult := do
  lift (verifyArtifacts artifacts row)
  addRevision db row
  addEvent db (context.event eventType row .candidate)
  pure ⟨row, none, none, .candidate⟩

def statements (request : FormalizationRequest) :
    Stateful FormalizationState PyException FormalizationResult :=
  let context := request.context
  match request.call with
  | .create row =>
    if row.revision ≠ 1 ∨ row.logicalId ≠ row.id then
      raise (formalizationError
        "a new formalization must begin at revision 1 with logical id equal to id")
    else record db .created row context request.artifacts
  | .revise row expectedRevision => do
    let head ← query (·.current row.workspaceId row.logicalId expectedRevision)
    lift (checkSuccessor head row)
    record db .revised row context request.artifacts
  | .validate workspaceId logicalId expectedRevision validationId => do
    let row ← query (·.current workspaceId logicalId expectedRevision)
    match ← read (·.validation? workspaceId row.id) with
    | some _ => read (·.result row)
    | none => do
      let validation := context.validation validationId row
      addValidation db validation
      -- The decision is not looked up here.
      let status := deriveStatus (some validation) none
      addEvent db (context.event .validationRecorded row status)
      pure ⟨row, some validation, none, status⟩
  | .decide workspaceId logicalId expectedRevision decisionId kind reason => do
    let row ← query (·.current workspaceId logicalId expectedRevision)
    let validation ← read (·.validation? workspaceId row.id)
    match ← read (·.decision? workspaceId row.id) with
    | some _ => raise (formalizationError "a human decision already exists for this revision")
    | none =>
      if kind = .confirmed ∧ ¬ validation.any (·.success) then
        raise (formalizationError "confirmation requires successful deterministic validation")
      else if isBlank reason then raise (.valueError "must not be blank")
      else do
        let decision := context.decision decisionId workspaceId row kind reason
        addDecision db decision
        let status := deriveStatus validation (some decision)
        addEvent db (context.event kind.eventType row status)
        pure ⟨row, validation, some decision, status⟩

/-- A call in a transaction of its own. -/
def perform (request : FormalizationRequest) (s : FormalizationState) :
    Except PyException FormalizationResult × FormalizationState :=
  rollback (do
    let result ← statements db request
    writeIf db.acceptsCommit databaseError id
    pure result) s

end Service

/-- No formalizations yet. -/
def FormalizationState.empty : FormalizationState := ⟨[], [], [], []⟩

end Agora.Formalization
