import Agora.Artifacts.Records
import Agora.Lib.Runs
import Agora.Lib.Timeline

namespace Agora.Memory

open Artifacts (ReasoningArtifact)
open Impact (ArtifactKind)
open Ledger (NonBlank)
open Marl (Hash)
open Stateful

/-!
# Semantic memory

Entries are promoted from artifacts and never change; their lifecycle is a table of events.  The keys of
the tables and the triggers on entries and events are part of the model; whatever else the schema refuses
is a parameter.
-/

/-! ### Values -/

inductive MemoryTier where
  | working
  | episodic
  | semantic
  | procedural
deriving DecidableEq, Repr

inductive MemoryState where
  | active
  | stale
  | archived
deriving DecidableEq, Repr

def MemoryState.value : MemoryState → String
  | .active => "ACTIVE"
  | .stale => "STALE"
  | .archived => "ARCHIVED"

def MemoryState.rank : MemoryState → ℕ
  | .active => 0
  | .stale => 1
  | .archived => 2

theorem MemoryState.rank_injective : Function.Injective MemoryState.rank := by
  intro a b h
  cases a <;> cases b <;> first | rfl | cases h

/-- From ACTIVE over STALE to ARCHIVED. -/
instance : LinearOrder MemoryState := LinearOrder.lift' MemoryState.rank MemoryState.rank_injective

theorem MemoryState.le_archived (a : MemoryState) : a ≤ .archived := by cases a <;> decide

theorem MemoryState.active_le (a : MemoryState) : .active ≤ a := by cases a <;> decide

inductive NamespaceTier where
  | global
  | workspace
  | domain
  | agent
  | session
  | historical
deriving DecidableEq, Repr

structure MemoryScope where
  workspaceId : UUID
  tier : MemoryTier
  namespaceId : Option UUID

structure ArtifactRef where
  entryId : UUID
  promotionId : UUID
  workspaceId : UUID
  sessionId : UUID
  artifactId : UUID
  supersedesEntryId : Option UUID

/-- What a human has validated. -/
structure ValidationRecord where
  validatorId : UUID
  secondValidatorId : Option UUID
  evidenceArtifactIds : List UUID
  justification : NonBlank
  caveats : List NonBlank
  validatedAt : Datetime
  reviewBy : Option Datetime
  some_evidence : evidenceArtifactIds ≠ []
  unique_evidence : evidenceArtifactIds.Nodup
  some_caveats : caveats ≠ []
  independent : secondValidatorId ≠ some validatorId
  review_after : ∀ t, reviewBy = some t → validatedAt < t

/-- An event that is asked for: nothing becomes ACTIVE again. -/
structure RetentionPolicy where
  eventId : UUID
  entryId : UUID
  state : MemoryState
  actorId : UUID
  reason : NonBlank
  recordedAt : Datetime
  transition_shape : state ≠ .active

/-! ### Tables -/

structure SemanticMemoryEntry where
  id : UUID
  workspaceId : UUID
  namespaceId : UUID
  sourceSessionId : UUID
  sourceArtifactId : UUID
  sourceArtifactKind : ArtifactKind
  sourceContentHash : Hash
  version : ℕ
  supersedesEntryId : Option UUID
  promotedAt : Datetime

structure MemoryPromotion where
  id : UUID
  workspaceId : UUID
  entryId : UUID
  validatorId : UUID
  secondValidatorId : Option UUID
  justification : NonBlank
  caveats : List NonBlank
  promotedAt : Datetime
  reviewBy : Option Datetime

structure MemoryPromotionEvidence where
  workspaceId : UUID
  promotionId : UUID
  sessionId : UUID
  evidenceArtifactId : UUID
deriving DecidableEq

structure MemoryLifecycleEvent where
  id : UUID
  workspaceId : UUID
  entryId : UUID
  state : MemoryState
  actorId : UUID
  reason : NonBlank
  recordedAt : Datetime

structure MemoryTables where
  entries : List SemanticMemoryEntry
  promotions : List MemoryPromotion
  evidence : List MemoryPromotionEvidence
  events : List MemoryLifecycleEvent

structure KnowledgeNamespace where
  workspaceId : UUID
  id : UUID
  tier : NamespaceTier

/-- The tables of others, as they are when a call is made. -/
structure MemoryWorld where
  artifacts : List ReasoningArtifact
  namespaces : List KnowledgeNamespace
  /-- Whether a user is an active member of a workspace. -/
  isActive : UUID → UUID → Bool

/-- Which rows the schema takes beside its keys and the triggers below. -/
structure MemoryDatabase where
  acceptsEntry : SemanticMemoryEntry → Bool
  acceptsPromotion : MemoryPromotion → Bool
  acceptsEvidence : MemoryPromotionEvidence → Bool
  acceptsEvent : MemoryLifecycleEvent → Bool
  acceptsCommit : MemoryTables → Bool

def memoryError (message : String) : PyException := ⟨.other, message⟩

def databaseError : PyException := ⟨.other, "database error"⟩

namespace MemoryWorld

variable (world : MemoryWorld)

def artifact? (workspaceId sessionId artifactId : UUID) : Option ReasoningArtifact :=
  world.artifacts.find? fun a =>
    a.workspaceId = workspaceId ∧ a.sessionId = sessionId ∧ a.id = artifactId

def namespace? (workspaceId namespaceId : UUID) : Option KnowledgeNamespace :=
  world.namespaces.find? fun n => n.workspaceId = workspaceId ∧ n.id = namespaceId

end MemoryWorld

namespace MemoryTables

variable (s : MemoryTables)

def entry? (workspaceId entryId : UUID) : Option SemanticMemoryEntry :=
  s.entries.find? fun e => e.workspaceId = workspaceId ∧ e.id = entryId

/-- The events of an entry, in the order they were stored in. -/
def eventsOf (workspaceId entryId : UUID) : List MemoryLifecycleEvent :=
  s.events.filter fun e => e.workspaceId = workspaceId ∧ e.entryId = entryId

/-! ### Triggers -/

/-- `ORDER BY recorded_at DESC, id DESC LIMIT 1`. -/
def latest (events : List MemoryLifecycleEvent) : Option MemoryLifecycleEvent :=
  events.argmax fun e => toLex (e.recordedAt, e.id.text)

/-- `validate_semantic_memory_entry`. -/
def validEntry (world : MemoryWorld) (row : SemanticMemoryEntry) : Bool :=
  (world.namespace? row.workspaceId row.namespaceId).any
      (fun n => n.tier = .historical ∨ n.tier = .global)
    && (world.artifact? row.workspaceId row.sourceSessionId row.sourceArtifactId).any
      (fun a => a.status = .active ∧ a.kind = row.sourceArtifactKind
        ∧ a.contentHash = row.sourceContentHash)
    && row.supersedesEntryId.all fun id => (s.entry? row.workspaceId id).any
      fun prior => row.version = prior.version + 1 ∧ row.namespaceId = prior.namespaceId

/-- `validate_memory_lifecycle_event`.  The entry is there: the key to it says so. -/
def validEvent (world : MemoryWorld) (row : MemoryLifecycleEvent) : Bool :=
  world.isActive row.workspaceId row.actorId
    && (s.entry? row.workspaceId row.entryId).any (·.promotedAt ≤ row.recordedAt)
    && (latest (s.eventsOf row.workspaceId row.entryId)).all fun prior =>
      prior.recordedAt < row.recordedAt ∧ prior.state ≠ .archived
        ∧ (prior.state = .stale → row.state = .archived)

/-! ### Keys -/

/-- The keys and `version_shape`. -/
def freshEntry (row : SemanticMemoryEntry) : Bool :=
  (row.version = 1 ↔ row.supersedesEntryId = none) && 0 < row.version
    && s.entries.all fun e => e.id ≠ row.id
      && (e.workspaceId, e.sourceArtifactId, e.version)
        ≠ (row.workspaceId, row.sourceArtifactId, row.version)
      && ((e.workspaceId, e.supersedesEntryId) ≠ (row.workspaceId, row.supersedesEntryId)
        || row.supersedesEntryId = none)

def freshPromotion (row : MemoryPromotion) : Bool :=
  s.promotions.all fun p => p.id ≠ row.id
    && (p.workspaceId, p.entryId) ≠ (row.workspaceId, row.entryId)

def freshEvidence (row : MemoryPromotionEvidence) : Bool :=
  s.evidence.all fun e => (e.workspaceId, e.promotionId, e.evidenceArtifactId)
    ≠ (row.workspaceId, row.promotionId, row.evidenceArtifactId)

/-- The keys: one event of each state for an entry. -/
def freshEvent (row : MemoryLifecycleEvent) : Bool :=
  s.events.all fun e => e.id ≠ row.id
    && (e.workspaceId, e.entryId, e.state) ≠ (row.workspaceId, row.entryId, row.state)

end MemoryTables

/-! ### Reading -/

/-- `MemoryEntry`: an entry with its promotion and its state. -/
structure MemoryEntry where
  entry : SemanticMemoryEntry
  promotion : MemoryPromotion
  evidenceArtifactIds : List UUID
  state : MemoryState

/-- The state of an entry without events: ACTIVE until its review is due. -/
def impliedState (reviewBy : Option Datetime) (t : Datetime) : MemoryState :=
  if reviewBy.any (· ≤ t) then .stale else .active

namespace MemoryTables

variable (s : MemoryTables)

/-- The state of the last event, if there is any. -/
def stateAsOf (workspaceId entryId : UUID) (reviewBy : Option Datetime) (t : Datetime) : MemoryState :=
  ((latest ((s.eventsOf workspaceId entryId).filter (·.recordedAt ≤ t))).map (·.state)).getD
    (impliedState reviewBy t)

/-- The evidence of a promotion, `ORDER BY evidence_artifact_id`. -/
def evidenceOf (workspaceId promotionId : UUID) : List UUID :=
  ((s.evidence.filter fun e => e.workspaceId = workspaceId ∧ e.promotionId = promotionId).map
    (·.evidenceArtifactId)).insertionSort fun a b => a.text ≤ b.text

/-- `_read`.  An entry has one promotion. -/
def readAsOf (workspaceId entryId : UUID) (t : Datetime) : Option MemoryEntry := do
  let entry ← (s.entry? workspaceId entryId).filter (·.promotedAt ≤ t)
  let promotion ← s.promotions.find? fun p => p.workspaceId = workspaceId ∧ p.entryId = entryId
  pure {
    entry
    promotion
    evidenceArtifactIds := s.evidenceOf workspaceId promotion.id
    state := s.stateAsOf workspaceId entryId promotion.reviewBy t }

/-- `read`. -/
def read (scope : MemoryScope) (entryId : UUID) (t : Datetime) : Py (List MemoryEntry) :=
  if scope.tier ≠ .semantic then
    .error (memoryError "provider reads require explicit SEMANTIC memory")
  else match scope.namespaceId with
    | none => .error (memoryError "provider reads require explicit SEMANTIC memory")
    | some namespaceId =>
      .ok ((s.readAsOf scope.workspaceId entryId t).filter (·.entry.namespaceId = namespaceId)).toList

end MemoryTables

/-! ### Promotion -/

/-- The two rows of a promotion, as they are written. -/
def promotedEntry (source : ArtifactRef) (namespaceId : UUID) (validation : ValidationRecord)
    (artifact : ReasoningArtifact) (version : ℕ) : SemanticMemoryEntry where
  id := source.entryId
  workspaceId := source.workspaceId
  namespaceId
  sourceSessionId := source.sessionId
  sourceArtifactId := source.artifactId
  sourceArtifactKind := artifact.kind
  sourceContentHash := artifact.contentHash
  version
  supersedesEntryId := source.supersedesEntryId
  promotedAt := validation.validatedAt

def promotionRow (source : ArtifactRef) (validation : ValidationRecord) : MemoryPromotion where
  id := source.promotionId
  workspaceId := source.workspaceId
  entryId := source.entryId
  validatorId := validation.validatorId
  secondValidatorId := validation.secondValidatorId
  justification := validation.justification
  caveats := validation.caveats
  promotedAt := validation.validatedAt
  reviewBy := validation.reviewBy

def evidenceRows (source : ArtifactRef) (validation : ValidationRecord) : List MemoryPromotionEvidence :=
  validation.evidenceArtifactIds.map fun evidenceArtifactId =>
    { workspaceId := source.workspaceId
      promotionId := source.promotionId
      sessionId := source.sessionId
      evidenceArtifactId }

/-- The source of a promotion, checked with its namespace and its validators. -/
def checkSource (world : MemoryWorld) (source : ArtifactRef) (namespaceId : UUID)
    (validation : ValidationRecord) : Py ReasoningArtifact :=
  match world.artifact? source.workspaceId source.sessionId source.artifactId,
    world.namespace? source.workspaceId namespaceId with
  | some artifact, some target =>
    if target.tier ∉ [.historical, .global] then
      .error (memoryError "semantic promotions require a HISTORICAL or GLOBAL namespace")
    else if artifact.status ≠ .active then .error (memoryError "source artifact must be ACTIVE")
    else if ¬ world.isActive source.workspaceId validation.validatorId then
      .error (memoryError "validator must be an active workspace member")
    else if target.tier = .global ∧ validation.secondValidatorId = none then
      .error (memoryError "GLOBAL promotion requires an independent second validator")
    else if validation.secondValidatorId.any fun id => ¬ world.isActive source.workspaceId id then
      .error (memoryError "second validator must be an active workspace member")
    else .ok artifact
  | _, _ => .error (memoryError "source artifact or target namespace does not exist in workspace")

def checkEvidence (world : MemoryWorld) (source : ArtifactRef) (validation : ValidationRecord) :
    Py Unit :=
  let rows := validation.evidenceArtifactIds.filterMap
    (world.artifact? source.workspaceId source.sessionId)
  if rows.length ≠ validation.evidenceArtifactIds.length then
    .error (memoryError "every promotion evidence artifact must exist in the source session")
  else if rows.any fun a => a.kind ≠ .evidence ∨ a.status ≠ .active then
    .error (memoryError "promotion evidence must contain only ACTIVE EVIDENCE artifacts")
  else .ok ()

/-- One more than the version of the predecessor. -/
def nextVersion (s : MemoryTables) (source : ArtifactRef) (namespaceId : UUID) : Py ℕ :=
  match source.supersedesEntryId with
  | none => .ok 1
  | some id =>
    match (s.entry? source.workspaceId id).filter (·.namespaceId = namespaceId) with
    | none => .error (memoryError "superseded entry must exist in target namespace")
    | some predecessor => .ok (predecessor.version + 1)

section Statements

variable (db : MemoryDatabase)

def conflict : PyException := memoryError "promotion conflicts with durable memory history"

def insertEntry (world : MemoryWorld) (row : SemanticMemoryEntry) :
    Stateful MemoryTables PyException Unit := do
  writeIf (·.validEntry world row) databaseError id
  writeIf (fun s => s.freshEntry row && db.acceptsEntry row) conflict
    fun s => { s with entries := s.entries ++ [row] }

def insertPromotion (row : MemoryPromotion) : Stateful MemoryTables PyException Unit :=
  writeIf (fun s => s.freshPromotion row && db.acceptsPromotion row) conflict
    fun s => { s with promotions := s.promotions ++ [row] }

def insertEvidence : List MemoryPromotionEvidence → Stateful MemoryTables PyException Unit
  | [] => pure ()
  | row :: rows => do
    writeIf (fun s => s.freshEvidence row && db.acceptsEvidence row) conflict
      fun s => { s with evidence := s.evidence ++ [row] }
    insertEvidence rows

/-- `promote`, up to the rows that it answers with. -/
def promote (world : MemoryWorld) (source : ArtifactRef) (target : MemoryScope)
    (validation : ValidationRecord) : Stateful MemoryTables PyException Unit :=
  match target.namespaceId with
  | none => raise (memoryError "promotion target must be explicit SEMANTIC memory")
  | some namespaceId =>
    if target.tier ≠ .semantic then
      raise (memoryError "promotion target must be explicit SEMANTIC memory")
    else if source.workspaceId ≠ target.workspaceId then
      raise (memoryError "promotion source and target workspace must match")
    else do
      let artifact ← lift (checkSource world source namespaceId validation)
      lift (checkEvidence world source validation)
      let version ← query fun s => nextVersion s source namespaceId
      insertEntry db world (promotedEntry source namespaceId validation artifact version)
      insertPromotion db (promotionRow source validation)
      insertEvidence db (evidenceRows source validation)

/-! ### Retention -/

/-- `memory_lifecycle_events`, as `expire` fills it. -/
def RetentionPolicy.event (policy : RetentionPolicy) (workspaceId : UUID) : MemoryLifecycleEvent where
  id := policy.eventId
  workspaceId
  entryId := policy.entryId
  state := policy.state
  actorId := policy.actorId
  reason := policy.reason
  recordedAt := policy.recordedAt

/-- What `expire` checks before it writes. -/
def checkRetention (s : MemoryTables) (workspaceId namespaceId : UUID) (policy : RetentionPolicy) :
    Py Unit :=
  match s.readAsOf workspaceId policy.entryId policy.recordedAt with
  | none => .error (memoryError "memory entry does not exist at lifecycle event time")
  | some current =>
    if current.state = .archived then .error (memoryError "archived memory cannot transition")
    else if current.state = policy.state then
      .error (memoryError ("memory already " ++ policy.state.value))
    else if current.entry.namespaceId ≠ namespaceId then
      .error (memoryError "memory entry does not belong to retention scope")
    else .ok ()

def expire (world : MemoryWorld) (scope : MemoryScope) (policy : RetentionPolicy) :
    Stateful MemoryTables PyException Unit :=
  match scope.namespaceId with
  | none => raise (memoryError "retention requires explicit SEMANTIC memory")
  | some namespaceId =>
    if scope.tier ≠ .semantic then
      raise (memoryError "retention requires explicit SEMANTIC memory")
    else do
      query fun s => checkRetention s scope.workspaceId namespaceId policy
      let event := policy.event scope.workspaceId
      writeIf (·.validEvent world event) databaseError id
      writeIf (fun s => s.freshEvent event && db.acceptsEvent event)
        (memoryError "lifecycle event conflicts with durable memory history")
        fun s => { s with events := s.events ++ [event] }

/-! ### Calls -/

inductive MemoryCall where
  | promote (source : ArtifactRef) (target : MemoryScope) (validation : ValidationRecord)
  | expire (scope : MemoryScope) (policy : RetentionPolicy)

def statements (world : MemoryWorld) : MemoryCall → Stateful MemoryTables PyException Unit
  | .promote source target validation => promote db world source target validation
  | .expire scope policy => expire db world scope policy

/-- A call in a transaction of its own. -/
def perform (request : MemoryWorld × MemoryCall) (s : MemoryTables) :
    Except PyException Unit × MemoryTables :=
  rollback (do
    statements db request.1 request.2
    writeIf db.acceptsCommit databaseError id) s

end Statements

def MemoryTables.empty : MemoryTables := ⟨[], [], [], []⟩

end Agora.Memory
