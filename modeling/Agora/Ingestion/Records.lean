import Agora.Common.Allocation
import Agora.Lib.Calendar
import Agora.Lib.Stateful
import Agora.Marl.Values

namespace Agora.Ingestion

open Marl (Hash isHash)
open Stateful

/-!
# Ingestion records

The operation that brings a source into the knowledge base has four stages, and one failure at most.
The validator of a checkpoint and the check constraints of its row say the same
(`accepted_iff_complete`).
-/

/-! ### Enumerations -/

inductive IngestionStageState where
  | pending
  | running
  | succeeded
  | failed
deriving DecidableEq, Repr

inductive IngestionStage where
  | acquire
  | parse
  | embed
  | index
deriving DecidableEq, Repr

inductive IngestionFailureCode where
  | digestMismatch
  | embeddingFailed
  | indexFailed
  | objectStoreFailure
  | parseFailed
  | unsupportedMediaType
  | unexpectedFailure
deriving DecidableEq, Repr

inductive IngestionFailureKind where
  | permanent
  | transient
deriving DecidableEq, Repr

inductive SourceStatus where
  | processing
  | ready
  | failed
  | retracted
deriving DecidableEq, Repr

inductive DocumentStatus where
  | pending
  | parsing
  | chunked
  | embedded
  | ready
  | failed
deriving DecidableEq, Repr

/-! ### Exceptions -/

/-- What a call may raise: a port error, which is permanent or transient; what a driver raises;
    `CitationError`; and `ValueError`. -/
inductive Raised where
  | permanentPortError (message port : String)
  | transientPortError (message port : String)
  | driverError (message : String)
  | citationError (message : String)
  | valueError (message : String)
deriving DecidableEq, Repr

/-- The exception class says whether the same call may succeed later. -/
def Raised.isPortError : Raised → Bool
  | permanentPortError _ _ | transientPortError _ _ => true
  | driverError _ | citationError _ | valueError _ => false

def Raised.isPermanent : Raised → Bool
  | permanentPortError _ _ => true
  | _ => false

def checkpointError (message : String) : Raised := .permanentPortError message "ingestion_checkpoint"

/-! ### Input -/

/-- What is told about a source. -/
structure SourceFacts where
  title : String
  citation : String
  publisher : Option String := none
  url : Option String := none
  mediaType : String
  sizeBytes : ℕ
  publishedAt : Option Datetime := none
  trustLevel : String := "UNKNOWN"
  license : Option String := none
  uploadedBy : Option UUID := none
deriving DecidableEq

structure IngestSourceInput extends SourceFacts where
  operationId : UUID
  workspaceId : UUID
  namespaceId : UUID
  sourceId : UUID
  documentId : UUID
  declaredContentHash : Hash
  objectBucket : String
  objectKey : String
  notBlank : isBlank title = false ∧ isBlank citation = false ∧ isBlank mediaType = false
    ∧ isBlank objectBucket = false
  contentAddressed : objectKey.toList = "sources/".toList ++ declaredContentHash.text.toList.drop 7

/-- A character of `json.dumps`, which writes ASCII. -/
def escapeAscii (c : Char) : List Char :=
  let unit (n : ℕ) : List Char :=
    ['\\', 'u', Json.hexDigit (n / 4096), Json.hexDigit (n / 256), Json.hexDigit (n / 16), Json.hexDigit n]
  if c.toNat < 0x7F then Json.escapeChar c
  else (CodePoint.scalar c).utf16.flatMap unit

def dumpText (s : String) : List Char := '"' :: (s.toList.flatMap escapeAscii ++ ['"'])

def dumpOption {α : Type} (dump : α → List Char) : Option α → List Char
  | none => "null".toList
  | some a => dump a

/-- `json.dumps(payload, sort_keys=True, separators=(",", ":"))`. -/
def requestText (c : IngestSourceInput) : List Char :=
  let uuid (v : UUID) : List Char := dumpText v.text
  let members : List (String × List Char) :=
    [("citation", dumpText c.citation), ("declared_content_hash", dumpText c.declaredContentHash.text),
     ("document_id", uuid c.documentId), ("kind", dumpText "source_ingestion"),
     ("license", dumpOption dumpText c.license), ("media_type", dumpText c.mediaType),
     ("namespace_id", uuid c.namespaceId), ("object_bucket", dumpText c.objectBucket),
     ("object_key", dumpText c.objectKey), ("operation_id", uuid c.operationId),
     ("protocol_version", dumpText "1.0"),
     ("published_at", dumpOption (fun t => dumpText (String.ofList t.zulu)) c.publishedAt),
     ("publisher", dumpOption dumpText c.publisher), ("schema_version", Json.intText 1),
     ("size_bytes", Json.intText c.sizeBytes), ("source_id", uuid c.sourceId),
     ("title", dumpText c.title), ("trust_level", dumpText c.trustLevel),
     ("uploaded_by", dumpOption uuid c.uploadedBy), ("url", dumpOption dumpText c.url),
     ("workspace_id", uuid c.workspaceId)]
  '{' :: (Json.joinComma (members.map fun m => dumpText m.1 ++ ':' :: m.2) ++ ['}'])

def ingestionRequestHash (c : IngestSourceInput) : Hash := Marl.sha256Hash (utf8 (requestText c))

/-! ### Rows -/

structure IngestionOperationRow where
  id : UUID
  workspaceId : UUID
  namespaceId : UUID
  sourceId : UUID
  documentId : UUID
  requestHash : Hash
  acquireState : IngestionStageState := .pending
  parseState : IngestionStageState := .pending
  embedState : IngestionStageState := .pending
  indexState : IngestionStageState := .pending
  attemptCount : ℕ := 0
  objectRef : Option String := none
  parseWarnings : List String := []
  failureStage : Option IngestionStage := none
  failureCode : Option IngestionFailureCode := none
  failureKind : Option IngestionFailureKind := none
  failureDetail : Option String := none
  createdAt : Datetime
  updatedAt : Datetime
deriving DecidableEq

structure SourceRow extends SourceFacts where
  id : UUID
  workspaceId : UUID
  namespaceId : UUID
  objectRef : String
  contentHash : Hash
  status : SourceStatus
  retractedAt : Option Datetime := none
  retractionReason : Option String := none
deriving DecidableEq

/-- The row of a `DocumentRecord`, whose structure is kept as text. -/
structure DocumentRow where
  id : UUID
  workspaceId : UUID
  sourceId : UUID
  title : Option String
  structureText : String
  pageCount : Option ℕ
  charCount : Option ℕ
  parser : String
  parserVersion : String
  status : DocumentStatus
deriving DecidableEq

structure KnowledgeChunkRow where
  id : UUID
  workspaceId : UUID
  documentId : UUID
  ordinal : ℕ
  text : String
  tokenCount : ℕ
  locatorText : String
  contentHash : Hash
  chunkerVersion : String
deriving DecidableEq

structure SourceRetractionRow where
  id : UUID
  workspaceId : UUID
  sourceId : UUID
  actorId : UUID
  reason : String
  retractedAt : Datetime
deriving DecidableEq

namespace IngestionOperationRow

variable (row : IngestionOperationRow)

/-- The state of a stage. -/
def stateOf : IngestionStage → IngestionStageState
  | .acquire => row.acquireState
  | .parse => row.parseState
  | .embed => row.embedState
  | .index => row.indexState

/-- The stages that have failed, in their order. -/
def failedStages : List IngestionStage :=
  [IngestionStage.acquire, .parse, .embed, .index].filter fun stage => row.stateOf stage = .failed

/-- `_failure_is_complete`. -/
def failureIsComplete : Except Raised Unit :=
  if (row.failedStages ≠ []) ≠ (row.failureCode ≠ none) then
    .error (.valueError "failed checkpoint requires failure_code")
  else if ¬(row.failureStage.isSome = row.failureCode.isSome
      ∧ row.failureStage.isSome = row.failureKind.isSome
      ∧ row.failureStage.isSome = row.failureDetail.isSome) then
    .error (.valueError "failure stage, code, kind, and detail must be recorded together")
  else match row.failureStage with
    | none => .ok ()
    | some stage =>
      if row.failedStages = [stage] then .ok ()
      else .error (.valueError "failure_stage must identify the only failed stage")

/-- `failure_complete`, `failure_matches_state` and `failed_has_failure`. -/
def accepted : Bool :=
  row.failureCode.isNone = row.failureStage.isNone && row.failureCode.isNone = row.failureKind.isNone
    && row.failureCode.isNone = row.failureDetail.isNone
    && (match row.failureStage with
      | none => true
      | some .acquire => row.acquireState = .failed && row.parseState ≠ .failed
        && row.embedState ≠ .failed && row.indexState ≠ .failed
      | some .parse => row.acquireState ≠ .failed && row.parseState = .failed
        && row.embedState ≠ .failed && row.indexState ≠ .failed
      | some .embed => row.acquireState ≠ .failed && row.parseState ≠ .failed
        && row.embedState = .failed && row.indexState ≠ .failed
      | some .index => row.acquireState ≠ .failed && row.parseState ≠ .failed
        && row.embedState ≠ .failed && row.indexState = .failed)
    && row.failureStage.isNone = (row.acquireState ≠ .failed && row.parseState ≠ .failed
      && row.embedState ≠ .failed && row.indexState ≠ .failed)

/-- `terminal`. -/
def terminal : Bool := row.parseState = .succeeded || row.failureKind = some .permanent

/-- One failure, of the only stage that has failed, or none. -/
structure Consistent : Prop where
  code : row.failureCode.isSome = row.failureStage.isSome
  kind : row.failureKind.isSome = row.failureStage.isSome
  detail : row.failureDetail.isSome = row.failureStage.isSome
  stages : row.failedStages = row.failureStage.toList

/-- Which of the four have failed. -/
theorem failedStages_eq : row.failedStages
    = [IngestionStage.acquire, .parse, .embed, .index].filter fun stage => match stage with
      | .acquire => row.acquireState = .failed
      | .parse => row.parseState = .failed
      | .embed => row.embedState = .failed
      | .index => row.indexState = .failed :=
  List.filter_congr fun stage _ => by cases stage <;> rfl

theorem isNone_eq_iff {α β : Type} {x : Option α} {y : Option β} :
    x.isNone = y.isNone ↔ x.isSome = y.isSome := by
  cases x <;> cases y <;> simp

/-- The constraints say so. -/
theorem accepted_iff : row.accepted = true ↔ row.Consistent := by
  have hstages : ∀ (stage : Option IngestionStage) (a p e i : Bool),
      (((match stage with
          | none => true
          | some .acquire => a && !p && !e && !i
          | some .parse => !a && p && !e && !i
          | some .embed => !a && !p && e && !i
          | some .index => !a && !p && !e && i) : Bool) = true
        ∧ stage.isNone = (!a && !p && !e && !i))
      ↔ [IngestionStage.acquire, .parse, .embed, .index].filter (fun s => match s with
          | .acquire => a
          | .parse => p
          | .embed => e
          | .index => i) = stage.toList := by
    rintro (_ | _ | _ | _ | _) <;> decide
  have h := hstages row.failureStage (row.acquireState = .failed) (row.parseState = .failed)
    (row.embedState = .failed) (row.indexState = .failed)
  rw [← failedStages_eq] at h
  simp only [accepted, ne_eq, decide_not, Bool.and_eq_true, decide_eq_true_eq, isNone_eq_iff] at h ⊢
  constructor
  · rintro ⟨⟨⟨⟨hcode, hkind⟩, hdetail⟩, hmatch⟩, hnone⟩
    exact ⟨hcode, hkind.symm.trans hcode, hdetail.symm.trans hcode, h.mp ⟨hmatch, hnone⟩⟩
  · rintro ⟨hcode, hkind, hdetail, hfailed⟩
    obtain ⟨hmatch, hnone⟩ := h.mpr hfailed
    exact ⟨⟨⟨⟨hcode, hcode.trans hkind.symm⟩, hcode.trans hdetail.symm⟩, hmatch⟩, hnone⟩

/-- And so does the validator. -/
theorem failureIsComplete_eq_ok : row.failureIsComplete = .ok () ↔ row.Consistent := by
  unfold failureIsComplete
  constructor
  · intro h
    split_ifs at h with hfirst htogether
    obtain ⟨hcode, hkind, hdetail⟩ := htogether
    refine ⟨hcode.symm, hkind.symm, hdetail.symm, ?_⟩
    rw [ne_eq, not_not] at hfirst
    cases hstage : row.failureStage with
    | none =>
      rw [hstage] at hcode
      have hnone : row.failureCode = none := by simpa using hcode.symm
      by_contra hne
      exact (hfirst ▸ hne : row.failureCode ≠ none) hnone
    | some stage =>
      rw [hstage] at h
      simp only at h
      split_ifs at h with honly
      exact honly
  · rintro ⟨hcode, hkind, hdetail, hfailed⟩
    rw [if_neg, if_neg (not_not_intro ⟨hcode.symm, hkind.symm, hdetail.symm⟩), hfailed]
    · cases hstage : row.failureStage with
      | none => rfl
      | some stage => simp
    · rw [hfailed, ne_eq, not_not, eq_iff_iff]
      rw [← Option.isSome_iff_ne_none, hcode]
      cases row.failureStage <;> simp

/-- **Constraints and validators.**  The database takes the rows that are checkpoints. -/
theorem accepted_iff_complete : row.accepted = true ↔ row.failureIsComplete = .ok () :=
  row.accepted_iff.trans row.failureIsComplete_eq_ok.symm

/-! ### What the calls write -/

/-- No failure is recorded any more. -/
def withoutFailure : IngestionOperationRow :=
  { row with failureStage := none, failureCode := none, failureKind := none, failureDetail := none }

/-- Another attempt: acquiring again, or parsing what was acquired. -/
def restarted (now : Datetime) : IngestionOperationRow :=
  let next := { row.withoutFailure with attemptCount := row.attemptCount + 1, updatedAt := now }
  if row.acquireState ≠ .succeeded then { next with acquireState := .running, parseState := .pending }
  else { next with parseState := .running }

def acquired (objectRef : String) (now : Datetime) : IngestionOperationRow :=
  { row.withoutFailure with
    acquireState := .succeeded, parseState := .running, objectRef := some objectRef, updatedAt := now }

def completed (warnings : List String) (now : Datetime) : IngestionOperationRow :=
  { row.withoutFailure with
    acquireState := .succeeded, parseState := .succeeded, parseWarnings := warnings, updatedAt := now }

end IngestionOperationRow

/-- A failure of a stage. -/
structure Failure where
  code : IngestionFailureCode
  kind : IngestionFailureKind
  detail : String
deriving DecidableEq

/-- The stages that an attempt may fail in. -/
inductive AttemptStage where
  | acquire
  | parse
deriving DecidableEq, Repr

def AttemptStage.stage : AttemptStage → IngestionStage
  | acquire => .acquire
  | parse => .parse

/-- The stages after an attempt. -/
inductive DownstreamStage where
  | embed
  | index
deriving DecidableEq, Repr

def DownstreamStage.stage : DownstreamStage → IngestionStage
  | embed => .embed
  | index => .index

namespace IngestionOperationRow

variable (row : IngestionOperationRow)

/-- A failure is recorded, in place of whatever was. -/
def withFailure (stage : IngestionStage) (failure : Failure) : IngestionOperationRow :=
  { row with
    failureStage := some stage, failureCode := some failure.code, failureKind := some failure.kind
    failureDetail := some (String.ofList (failure.detail.toList.take 500)) }

def failedIn (stage : AttemptStage) (failure : Failure) (objectRef : Option String) (now : Datetime) :
    IngestionOperationRow :=
  let next := { row.withFailure stage.stage failure with
    objectRef := objectRef.or row.objectRef, updatedAt := now }
  match stage with
  | .acquire => { next with acquireState := .failed, parseState := .pending }
  | .parse => { next with parseState := .failed }

def withDownstream (stage : DownstreamStage) (state : IngestionStageState) : IngestionOperationRow :=
  match stage with
  | .embed => { row with embedState := state }
  | .index => { row with indexState := state }

/-- A stage after parsing is in another state, and the failure is that of this stage or none. -/
def advanced (stage : DownstreamStage) (state : IngestionStageState)
    (code : Option IngestionFailureCode) (kind : Option IngestionFailureKind) (detail : Option String)
    (now : Datetime) : IngestionOperationRow :=
  { row.withDownstream stage state with
    failureStage := if state = .failed then some stage.stage else none
    failureCode := code
    failureKind := kind
    failureDetail := detail.map fun d => String.ofList (d.toList.take 500)
    updatedAt := now }

/-- The facts that a retry must repeat. -/
def identity : UUID × UUID × UUID × UUID × Hash :=
  (row.workspaceId, row.namespaceId, row.sourceId, row.documentId, row.requestHash)

end IngestionOperationRow

/-- The row of an operation that starts. -/
def IngestSourceInput.newOperation (c : IngestSourceInput) (now : Datetime) : IngestionOperationRow where
  id := c.operationId
  workspaceId := c.workspaceId
  namespaceId := c.namespaceId
  sourceId := c.sourceId
  documentId := c.documentId
  requestHash := ingestionRequestHash c
  acquireState := .running
  attemptCount := 1
  createdAt := now
  updatedAt := now

def IngestSourceInput.identity (c : IngestSourceInput) : UUID × UUID × UUID × UUID × Hash :=
  (c.workspaceId, c.namespaceId, c.sourceId, c.documentId, ingestionRequestHash c)

/-- The row of a source that is being processed. -/
def IngestSourceInput.newSource (c : IngestSourceInput) (objectRef : String) : SourceRow :=
  { c.toSourceFacts with
    id := c.sourceId, workspaceId := c.workspaceId, namespaceId := c.namespaceId, objectRef
    contentHash := c.declaredContentHash, status := .processing }

/-- A row that has passed the validator. -/
structure IngestionCheckpoint where
  row : IngestionOperationRow
  consistent : row.Consistent

/-- `_checkpoint`. -/
def checkpoint (row : IngestionOperationRow) : Except Raised IngestionCheckpoint :=
  match h : row.failureIsComplete with
  | .error e => .error e
  | .ok () => .ok ⟨row, row.failureIsComplete_eq_ok.mp h⟩

theorem checkpoint_eq_ok {row : IngestionOperationRow} {k : IngestionCheckpoint} :
    checkpoint row = .ok k ↔ k.row = row := by
  constructor
  · intro h
    unfold checkpoint at h
    split at h
    · cases h
    · obtain rfl := Except.ok.inj h
      rfl
  · rintro rfl
    have hcomplete := k.row.failureIsComplete_eq_ok.mpr k.consistent
    unfold checkpoint
    split
    · rename_i e he
      rw [hcomplete] at he
      cases he
    · rfl

/-- `_assert_identity`. -/
def assertIdentity (row : IngestionOperationRow) (c : IngestSourceInput) : Except Raised Unit :=
  if row.identity ≠ c.identity then
    .error (checkpointError "ingestion operation replay conflicts with original input")
  else .ok ()

/-- The outcome that is handed to the callers. -/
structure IngestSourceResult where
  operationId : UUID
  sourceId : UUID
  documentId : UUID
  chunkIds : List UUID
  acquireState : IngestionStageState
  parseState : IngestionStageState
  embedState : IngestionStageState
  indexState : IngestionStageState
  parseWarnings : List String
deriving DecidableEq

end Agora.Ingestion
