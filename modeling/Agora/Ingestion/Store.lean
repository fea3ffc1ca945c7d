import Agora.Ingestion.Records
import Mathlib.Data.List.Sort

namespace Agora.Ingestion

open Marl (Hash)
open Stateful

/-!
# The checkpoint store

The tables of the knowledge base, the statements of one transaction on them, and the six calls of the
checkpoint store.  A call reads the row of its operation again, checks a part of it, and writes; what
raises leaves the tables as they were (`perform_error`).  The lemmas that end in `_ok` say for each call
what it needs and what it writes.
-/

/-! ### Tables -/

structure KnowledgeTables where
  operations : List IngestionOperationRow := []
  sources : List SourceRow := []
  documents : List DocumentRow := []
  chunks : List KnowledgeChunkRow := []
  retractions : List SourceRetractionRow := []

namespace KnowledgeTables

variable (s : KnowledgeTables)

def operation? (id : UUID) : Option IngestionOperationRow := s.operations.find? (·.id = id)

def source? (id : UUID) : Option SourceRow := s.sources.find? (·.id = id)

def document? (id : UUID) : Option DocumentRow := s.documents.find? (·.id = id)

/-- The chunks of a document, by their ordinals. -/
def chunksOf (workspaceId documentId : UUID) : List KnowledgeChunkRow :=
  (s.chunks.filter fun c => c.workspaceId = workspaceId ∧ c.documentId = documentId).mergeSort
    fun a b => a.ordinal ≤ b.ordinal

def withOperation (row : IngestionOperationRow) : KnowledgeTables :=
  { s with operations := keyedSet (·.id) s.operations row }

def withSource (row : SourceRow) : KnowledgeTables :=
  { s with sources := keyedSet (·.id) s.sources row }

def withDocument (row : DocumentRow) : KnowledgeTables :=
  { s with documents := keyedSet (·.id) s.documents row }

def withChunks (rows : List KnowledgeChunkRow) : KnowledgeTables := { s with chunks := s.chunks ++ rows }

/-- The keys of an operation are new: no other one has its id, its source or its document. -/
def freshOperation (row : IngestionOperationRow) : Bool :=
  s.operations.all fun other => other.id ≠ row.id
    && !(other.workspaceId = row.workspaceId && other.sourceId = row.sourceId)
    && !(other.workspaceId = row.workspaceId && other.documentId = row.documentId)

def freshDocument (row : DocumentRow) : Bool := s.documents.all fun other => other.id ≠ row.id

/-- `fk_documents_source_workspace`. -/
def hasSource (row : DocumentRow) : Bool :=
  s.sources.any fun source => source.workspaceId = row.workspaceId && source.id = row.sourceId

/-- The keys of chunks: id, ordinal and content identity, in the table and among themselves. -/
def freshChunks (rows : List KnowledgeChunkRow) : Bool :=
  let keys (f : KnowledgeChunkRow → UUID × UUID × ℕ × String × String) : Bool :=
    decide ((s.chunks ++ rows).map f).Nodup
  decide ((s.chunks ++ rows).map (·.id)).Nodup
    && keys (fun c => (c.workspaceId, c.documentId, c.ordinal, "", ""))
    && keys (fun c => (c.workspaceId, c.documentId, 0, c.contentHash.text, c.chunkerVersion))

/-- `fk_chunks_document_workspace` and the checks of a chunk. -/
def hasDocument (row : KnowledgeChunkRow) : Bool :=
  0 < row.tokenCount
    && s.documents.any fun d => d.workspaceId = row.workspaceId && d.id = row.documentId

end KnowledgeTables

namespace SourceRow

/-- `retraction`, `retraction_reason` and `retraction_reason_required`. -/
def accepted (row : SourceRow) : Bool :=
  decide (row.status = .retracted) = row.retractedAt.isSome
    && (row.retractionReason.isNone || row.status = .retracted)
    && (row.status ≠ .retracted || row.retractionReason.any fun r => !(r.toList.all (· = ' ')))

/-- `enforce_source_retraction_once`. -/
def mayBecome (old new : SourceRow) : Bool :=
  old.status ≠ .retracted || (new.status = .retracted && new.retractedAt = old.retractedAt
    && new.retractionReason = old.retractionReason)

def withStatus (row : SourceRow) (status : SourceStatus) : SourceRow := { row with status }

@[simp] theorem withStatus_id (row : SourceRow) (status : SourceStatus) :
    (row.withStatus status).id = row.id := rfl

@[simp] theorem withStatus_status (row : SourceRow) (status : SourceStatus) :
    (row.withStatus status).status = status := rfl

@[simp] theorem withStatus_retractedAt (row : SourceRow) (status : SourceStatus) :
    (row.withStatus status).retractedAt = row.retractedAt := rfl

@[simp] theorem withStatus_retractionReason (row : SourceRow) (status : SourceStatus) :
    (row.withStatus status).retractionReason = row.retractionReason := rfl

end SourceRow

/-! ### Statements -/

/-- A statement of a transaction. -/
abbrev Statement := Stateful KnowledgeTables Raised

/-- A write that the database may refuse. -/
def flush (accepts : KnowledgeTables → Bool) (f : KnowledgeTables → KnowledgeTables) : Statement Unit := do
  if ← read accepts then write f else raise (.driverError "constraint violated")

theorem flush_eq_ok {accepts : KnowledgeTables → Bool} {f : KnowledgeTables → KnowledgeTables}
    {s s' : KnowledgeTables} :
    flush accepts f s = (.ok (), s') ↔ accepts s = true ∧ s' = f s := by
  unfold flush
  rw [read_bind]
  split_ifs with h
  · simp [h, eq_comm]
  · simp [h]

def insertOperation (row : IngestionOperationRow) : Statement Unit :=
  flush (fun s => s.freshOperation row && row.accepted) (·.withOperation row)

def updateOperation (row : IngestionOperationRow) : Statement Unit :=
  flush (fun _ => row.accepted) (·.withOperation row)

def insertSource (row : SourceRow) : Statement Unit :=
  flush (fun s => s.sources.all (·.id ≠ row.id) && row.accepted) (·.withSource row)

def updateSource (old new : SourceRow) : Statement Unit :=
  flush (fun _ => old.mayBecome new && new.accepted) (·.withSource new)

def insertDocument (row : DocumentRow) : Statement Unit :=
  flush (fun s => s.freshDocument row && s.hasSource row) (·.withDocument row)

def insertChunks (rows : List KnowledgeChunkRow) : Statement Unit :=
  flush (fun s => s.freshChunks rows && rows.all s.hasDocument) (·.withChunks rows)

/-- A document and its chunks, which the keys and the foreign keys allow. -/
def KnowledgeTables.takesDocument (s : KnowledgeTables) (row : DocumentRow)
    (rows : List KnowledgeChunkRow) : Bool :=
  (s.freshDocument row && s.hasSource row)
    && ((s.withDocument row).freshChunks rows && rows.all (s.withDocument row).hasDocument)

def updateDocument (row : DocumentRow) : Statement Unit := flush (fun _ => true) (·.withDocument row)

/-! ### Calls -/

/-- `_operation`. -/
def lockedOperation (c : IngestSourceInput) : Statement IngestionOperationRow := do
  let row ← required (← read (·.operation? c.operationId))
    (checkpointError "ingestion operation does not exist")
  lift (assertIdentity row c)
  pure row

/-- `_result`. -/
def resultOf (row : IngestionOperationRow) : Statement IngestSourceResult :=
  read fun s =>
    { operationId := row.id
      sourceId := row.sourceId
      documentId := row.documentId
      chunkIds := (s.chunksOf row.workspaceId row.documentId).map (·.id)
      acquireState := row.acquireState
      parseState := row.parseState
      embedState := row.embedState
      indexState := row.indexState
      parseWarnings := row.parseWarnings }

def start (c : IngestSourceInput) (now : Datetime) : Statement IngestionCheckpoint := rollback do
  match ← read (·.operation? c.operationId) with
  | none =>
    insertOperation (c.newOperation now)
    lift (checkpoint (c.newOperation now))
  | some row =>
    lift (assertIdentity row c)
    let before ← lift (checkpoint row)
    if before.row.terminal then pure before
    else
      updateOperation (row.restarted now)
      lift (checkpoint (row.restarted now))

/-- The source of an operation that has acquired it: a new one, or the same as before. -/
def acquiredSource (c : IngestSourceInput) (objectRef : String) : Statement Unit := do
  match ← read (·.source? c.sourceId) with
  | none => insertSource (c.newSource objectRef)
  | some existing =>
    ensure (existing.objectRef = objectRef ∧ existing.contentHash = c.declaredContentHash)
      (checkpointError "source identity conflicts with ingestion operation")

def acquired (c : IngestSourceInput) (objectRef : String) (now : Datetime) : Statement Unit := rollback do
  let row ← lockedOperation c
  let before ← lift (checkpoint row)
  if before.row.parseState = .succeeded then pure ()
  else
    ensure (before.row.failureKind ≠ some .permanent)
      (checkpointError "source ingestion previously failed")
    acquiredSource c objectRef
    updateOperation (row.acquired objectRef now)

def complete (c : IngestSourceInput) (objectRef : String) (document : DocumentRow)
    (chunks : List KnowledgeChunkRow) (warnings : List String) (now : Datetime) :
    Statement IngestSourceResult := rollback do
  let row ← lockedOperation c
  if row.parseState = .succeeded then resultOf row
  else
    ensure (row.objectRef = some objectRef)
      (checkpointError "verified object does not match ingestion checkpoint")
    ensure ((← read (·.document? c.documentId)) = none)
      (checkpointError "document identity already exists without a completed checkpoint")
    let source ← required (← read (·.source? c.sourceId))
      (checkpointError "verified source is missing from ingestion checkpoint")
    insertDocument document
    insertChunks chunks
    updateSource source (source.withStatus .ready)
    updateOperation (row.completed warnings now)
    resultOf (row.completed warnings now)

/-- The source of an operation that fails: only the parse stage looks for it. -/
def failedSource (c : IngestSourceInput) (stage : AttemptStage) (kind : IngestionFailureKind) :
    Statement Unit := do
  match stage, kind, ← read (·.source? c.sourceId) with
  | .parse, .permanent, some source => updateSource source (source.withStatus .failed)
  | _, _, _ => pure ()

def fail (c : IngestSourceInput) (stage : AttemptStage) (failure : Failure) (objectRef : Option String)
    (now : Datetime) : Statement Unit := rollback do
  let row ← lockedOperation c
  if row.parseState = .succeeded then pure ()
  else
    failedSource c stage failure.kind
    updateOperation (row.failedIn stage failure objectRef now)

def result (workspaceId operationId : UUID) : Statement IngestSourceResult := do
  let row ← required (← read (·.operation? operationId))
    (checkpointError "ingestion operation does not exist")
  ensure (row.workspaceId = workspaceId) (checkpointError "ingestion operation does not exist")
  ensure (row.parseState = .succeeded) (checkpointError "ingestion operation is not complete")
  resultOf row

/-- A failed stage needs its details, and another one has none. -/
def validDetails (state : IngestionStageState) (code : Option IngestionFailureCode)
    (kind : Option IngestionFailureKind) (detail : Option String) : Except Raised Unit :=
  if state = .failed then
    if code = none ∨ kind = none ∨ detail = none then
      .error (.valueError "failed downstream stage requires safe failure details")
    else .ok ()
  else if code ≠ none ∨ kind ≠ none ∨ detail ≠ none then
    .error (.valueError "non-failed downstream stage cannot carry failure details")
  else .ok ()

/-- What the row must say before a stage after parsing may be in another state. -/
def mayAdvance (row : IngestionOperationRow) (stage : DownstreamStage) (state : IngestionStageState) :
    Except Raised Unit :=
  if row.parseState ≠ .succeeded then
    .error (checkpointError "downstream ingestion requires completed parsing")
  else if stage = .index ∧ row.embedState ≠ .succeeded then
    .error (checkpointError "indexing requires completed embedding")
  else if row.stateOf stage.stage = .succeeded ∧ state ≠ .succeeded then
    .error (checkpointError "completed ingestion stage cannot move backward")
  else if row.stateOf stage.stage = .failed ∧ row.failureKind = some .permanent then
    .error (checkpointError "permanently failed ingestion stage cannot retry")
  else if row.stateOf stage.stage = .failed ∧ state ≠ .running then
    .error (checkpointError "transiently failed ingestion stage must resume through RUNNING")
  else if row.failureStage ≠ none ∧ row.failureStage ≠ some stage.stage then
    .error (checkpointError "another ingestion stage has an unresolved failure")
  else .ok ()

/-- The document of an operation has another status, if it is there. -/
def advancedDocument (row : IngestionOperationRow) (status : DocumentStatus) : Statement Unit := do
  match ← read (·.document? row.documentId) with
  | some document => updateDocument { document with status }
  | none => pure ()

/-- The source of an operation is ready, if it is there. -/
def readySource (row : IngestionOperationRow) : Statement Unit := do
  match ← read (·.source? row.sourceId) with
  | some source => updateSource source (source.withStatus .ready)
  | none => pure ()

/-- The document and the source of an operation, when a stage after parsing has succeeded. -/
def downstreamRows (row : IngestionOperationRow) (stage : DownstreamStage)
    (state : IngestionStageState) : Statement Unit :=
  match stage, state with
  | .embed, .succeeded => advancedDocument row .embedded
  | .index, .succeeded => do
    advancedDocument row .ready
    readySource row
  | _, _ => pure ()

def recordDownstreamStage (workspaceId operationId : UUID) (stage : DownstreamStage)
    (state : IngestionStageState) (code : Option IngestionFailureCode)
    (kind : Option IngestionFailureKind) (detail : Option String) (now : Datetime) :
    Statement IngestionCheckpoint := rollback do
  lift (validDetails state code kind detail)
  let row ← required (← read (·.operation? operationId))
    (checkpointError "ingestion operation does not exist")
  ensure (row.workspaceId = workspaceId) (checkpointError "ingestion operation does not exist")
  lift (mayAdvance row stage state)
  downstreamRows row stage state
  updateOperation (row.advanced stage state code kind detail now)
  lift (checkpoint (row.advanced stage state code kind detail now))

/-! ### What the calls need and write -/

theorem flush_bind_eq_ok {α : Type} {accepts : KnowledgeTables → Bool}
    {f : KnowledgeTables → KnowledgeTables} {x : Statement α} {s s' : KnowledgeTables} {a : α} :
    ((flush accepts f >>= fun _ => x) s = (.ok a, s')) ↔ accepts s = true ∧ x (f s) = (.ok a, s') := by
  rw [bind_eq_ok]
  constructor
  · rintro ⟨⟨⟩, t, hflush, hx⟩
    obtain ⟨haccepts, rfl⟩ := flush_eq_ok.mp hflush
    exact ⟨haccepts, hx⟩
  · rintro ⟨haccepts, hx⟩
    exact ⟨(), f s, flush_eq_ok.mpr ⟨haccepts, rfl⟩, hx⟩

theorem pure_eq_ok {s s' : KnowledgeTables} : (pure () : Statement Unit) s = (.ok (), s') ↔ s' = s := by
  rw [pure_apply, Prod.mk.injEq, eq_comm (a := s)]
  exact and_iff_right rfl

theorem assertIdentity_eq_ok {row : IngestionOperationRow} {c : IngestSourceInput} {u : PUnit} :
    assertIdentity row c = .ok u ↔ row.identity = c.identity := by
  unfold assertIdentity
  split_ifs with h <;> simp_all

section Calls

variable {c : IngestSourceInput} {s s' : KnowledgeTables} {now : Datetime}

theorem lockedOperation_bind_eq_ok {α : Type} {f : IngestionOperationRow → Statement α} {a : α} :
    (lockedOperation c >>= f) s = (.ok a, s')
      ↔ ∃ row, s.operation? c.operationId = some row ∧ row.identity = c.identity
        ∧ f row s = (.ok a, s') := by
  unfold lockedOperation
  rw [bind_eq_ok]
  simp only [read_bind, required_bind_eq_ok, lift_bind_eq_ok, assertIdentity_eq_ok, pure_apply,
    Prod.mk.injEq, Except.ok.injEq]
  constructor
  · rintro ⟨row, t, ⟨stored, hread, ⟨⟩, hidentity, rfl, rfl⟩, hf⟩
    exact ⟨stored, hread, hidentity, hf⟩
  · rintro ⟨row, hread, hidentity, hf⟩
    exact ⟨row, s, ⟨row, hread, ⟨⟩, hidentity, rfl, rfl⟩, hf⟩

/-- What a start needs, and the row it answers with. -/
theorem start_eq_ok {k : IngestionCheckpoint} : start c now s = (.ok k, s')
    ↔ (s.operation? c.operationId = none ∧ (s.freshOperation (c.newOperation now)
          && (c.newOperation now).accepted) = true
        ∧ s' = s.withOperation (c.newOperation now) ∧ k.row = c.newOperation now)
      ∨ ∃ row, s.operation? c.operationId = some row ∧ row.identity = c.identity ∧ row.Consistent
        ∧ (row.terminal = true ∧ k.row = row ∧ s' = s
          ∨ row.terminal = false ∧ (row.restarted now).accepted = true
            ∧ s' = s.withOperation (row.restarted now) ∧ k.row = row.restarted now) := by
  unfold start
  rw [rollback_eq_ok, read_bind]
  cases hread : s.operation? c.operationId with
  | none =>
    simp only [insertOperation, flush_bind_eq_ok, lift_apply, Prod.mk.injEq, checkpoint_eq_ok]
    constructor
    · rintro ⟨haccepts, hk, rfl⟩
      exact .inl ⟨trivial, haccepts, rfl, hk⟩
    · rintro (⟨-, haccepts, rfl, hk⟩ | ⟨row, hrow, -⟩)
      · exact ⟨haccepts, hk, rfl⟩
      · cases hrow
  | some row =>
    simp only [lift_bind_eq_ok, assertIdentity_eq_ok, checkpoint_eq_ok]
    constructor
    · rintro ⟨⟨⟩, hidentity, before, rfl, h⟩
      refine .inr ⟨before.row, rfl, hidentity, before.consistent, ?_⟩
      split_ifs at h with hterminal
      · obtain ⟨hk, rfl⟩ := Prod.mk.inj h
        obtain rfl := Except.ok.inj hk
        exact .inl ⟨hterminal, rfl, rfl⟩
      · simp only [updateOperation, flush_bind_eq_ok, lift_apply, Prod.mk.injEq, checkpoint_eq_ok] at h
        obtain ⟨haccepts, hk, rfl⟩ := h
        exact .inr ⟨Bool.eq_false_iff.mpr hterminal, haccepts, rfl, hk⟩
    · rintro (⟨hnone, -⟩ | ⟨stored, hstored, hidentity, hconsistent, h⟩)
      · cases hnone
      · obtain rfl := Option.some.inj hstored
        refine ⟨⟨⟩, hidentity, ⟨row, hconsistent⟩, rfl, ?_⟩
        rcases h with ⟨hterminal, hk, rfl⟩ | ⟨hterminal, haccepts, rfl, hk⟩
        · rw [if_pos hterminal]
          obtain ⟨krow, kconsistent⟩ := k
          obtain rfl : krow = row := hk
          rfl
        · rw [if_neg (by simp [hterminal])]
          simp only [updateOperation, flush_bind_eq_ok, lift_apply, Prod.mk.injEq, checkpoint_eq_ok]
          exact ⟨haccepts, hk, trivial⟩

theorem acquiredSource_eq_ok {objectRef : String} : acquiredSource c objectRef s = (.ok (), s')
    ↔ (s.source? c.sourceId = none
        ∧ (s.sources.all (·.id ≠ c.sourceId) && (c.newSource objectRef).accepted) = true
        ∧ s' = s.withSource (c.newSource objectRef))
      ∨ ∃ source, s.source? c.sourceId = some source ∧ source.objectRef = objectRef
        ∧ source.contentHash = c.declaredContentHash ∧ s' = s := by
  unfold acquiredSource
  rw [read_bind]
  cases hsource : s.source? c.sourceId with
  | none =>
    simp only [insertSource, flush_eq_ok, reduceCtorEq, false_and, exists_false, or_false, true_and]
    rfl
  | some source =>
    simp only [ensure, reduceCtorEq, false_and, false_or, Option.some.injEq]
    split_ifs with h
    · simp only [pure_apply, Prod.mk.injEq, true_and]
      constructor
      · rintro rfl
        exact ⟨source, rfl, h.1, h.2, rfl⟩
      · rintro ⟨_, -, -, -, rfl⟩
        rfl
    · simp only [raise_apply, Prod.mk.injEq, reduceCtorEq, false_and, false_iff]
      rintro ⟨_, rfl, hobject, hhash, -⟩
      exact h ⟨hobject, hhash⟩

/-- What acquiring needs: no permanent failure, and no other source with the id. -/
theorem acquired_eq_ok {objectRef : String} : acquired c objectRef now s = (.ok (), s')
    ↔ ∃ row, s.operation? c.operationId = some row ∧ row.identity = c.identity ∧ row.Consistent
        ∧ (row.parseState = .succeeded ∧ s' = s
          ∨ row.parseState ≠ .succeeded ∧ row.failureKind ≠ some .permanent
            ∧ (row.acquired objectRef now).accepted = true
            ∧ ∃ t, acquiredSource c objectRef s = (.ok (), t)
              ∧ s' = t.withOperation (row.acquired objectRef now)) := by
  unfold acquired
  rw [rollback_eq_ok, lockedOperation_bind_eq_ok]
  refine exists_congr fun row => and_congr_right fun hrow => and_congr_right fun hidentity => ?_
  rw [lift_bind_eq_ok]
  simp only [checkpoint_eq_ok]
  constructor
  · rintro ⟨before, rfl, h⟩
    refine ⟨before.consistent, ?_⟩
    split_ifs at h with hparse
    · obtain ⟨-, rfl⟩ := Prod.mk.inj h
      exact .inl ⟨hparse, rfl⟩
    · obtain ⟨hkind, h⟩ := ensure_bind_eq_ok.mp h
      obtain ⟨⟨⟩, t, hsource, h⟩ := bind_eq_ok.mp h
      obtain ⟨haccepts, rfl⟩ := flush_eq_ok.mp h
      exact .inr ⟨hparse, hkind, haccepts, t, hsource, rfl⟩
  · rintro ⟨hconsistent, h⟩
    refine ⟨⟨row, hconsistent⟩, rfl, ?_⟩
    rcases h with ⟨hparse, rfl⟩ | ⟨hparse, hkind, haccepts, t, hsource, rfl⟩
    · rw [if_pos hparse]
      rfl
    · rw [if_neg hparse]
      refine ensure_bind_eq_ok.mpr ⟨hkind, bind_eq_ok.mpr ⟨(), t, hsource, ?_⟩⟩
      exact flush_eq_ok.mpr ⟨haccepts, rfl⟩

/-- What completing needs: the object that was acquired, its source, and no document yet. -/
theorem complete_eq_ok {objectRef : String} {document : DocumentRow} {chunks : List KnowledgeChunkRow}
    {warnings : List String} {r : IngestSourceResult} :
    complete c objectRef document chunks warnings now s = (.ok r, s')
    ↔ ∃ row, s.operation? c.operationId = some row ∧ row.identity = c.identity
        ∧ (row.parseState = .succeeded ∧ resultOf row s = (.ok r, s')
          ∨ row.parseState ≠ .succeeded ∧ row.objectRef = some objectRef
            ∧ s.document? c.documentId = none ∧ ∃ source, s.source? c.sourceId = some source
              ∧ s.takesDocument document chunks = true
              ∧ (source.mayBecome (source.withStatus .ready) && (source.withStatus .ready).accepted) = true
              ∧ (row.completed warnings now).accepted = true
              ∧ resultOf (row.completed warnings now) ((((s.withDocument document).withChunks chunks).withSource
                  (source.withStatus .ready)).withOperation (row.completed warnings now)) = (.ok r, s')) := by
  unfold complete
  rw [rollback_eq_ok, lockedOperation_bind_eq_ok]
  refine exists_congr fun row => and_congr_right fun hrow => and_congr_right fun hidentity => ?_
  split_ifs with hparse
  · simp [hparse]
  · simp only [hparse, false_and, false_or, not_false_eq_true, true_and, ne_eq, ensure_bind_eq_ok,
      read_bind, required_bind_eq_ok, insertDocument, insertChunks, updateSource, updateOperation,
      flush_bind_eq_ok, KnowledgeTables.takesDocument, Bool.and_eq_true, and_assoc]

theorem failedSource_eq_ok {stage : AttemptStage} {kind : IngestionFailureKind} :
    failedSource c stage kind s = (.ok (), s')
    ↔ (stage = .parse ∧ kind = .permanent ∧ ∃ source, s.source? c.sourceId = some source
        ∧ (source.mayBecome (source.withStatus .failed) && (source.withStatus .failed).accepted) = true
        ∧ s' = s.withSource (source.withStatus .failed))
      ∨ ¬(stage = .parse ∧ kind = .permanent ∧ s.source? c.sourceId ≠ none) ∧ s' = s := by
  unfold failedSource
  rw [read_bind]
  cases hsource : s.source? c.sourceId with
  | none => cases stage <;> cases kind <;> simp [eq_comm (a := s)]
  | some source =>
    cases stage with
    | acquire => simp [eq_comm (a := s)]
    | parse =>
      cases kind with
      | transient => simp [eq_comm (a := s)]
      | permanent =>
        show updateSource source _ s = _ ↔ _
        rw [updateSource, flush_eq_ok]
        simp

/-- What failing needs: that parsing has not succeeded. -/
theorem fail_eq_ok {stage : AttemptStage} {failure : Failure} {objectRef : Option String} :
    fail c stage failure objectRef now s = (.ok (), s')
    ↔ ∃ row, s.operation? c.operationId = some row ∧ row.identity = c.identity
        ∧ (row.parseState = .succeeded ∧ s' = s
          ∨ row.parseState ≠ .succeeded ∧ (row.failedIn stage failure objectRef now).accepted = true
            ∧ ∃ t, failedSource c stage failure.kind s = (.ok (), t)
              ∧ s' = t.withOperation (row.failedIn stage failure objectRef now)) := by
  unfold fail
  rw [rollback_eq_ok, lockedOperation_bind_eq_ok]
  refine exists_congr fun row => and_congr_right fun hrow => and_congr_right fun hidentity => ?_
  constructor
  · intro h
    split_ifs at h with hparse
    · exact .inl ⟨hparse, pure_eq_ok.mp h⟩
    · obtain ⟨⟨⟩, t, hsource, h⟩ := bind_eq_ok.mp h
      obtain ⟨haccepts, rfl⟩ := flush_eq_ok.mp h
      exact .inr ⟨hparse, haccepts, t, hsource, rfl⟩
  · rintro (⟨hparse, rfl⟩ | ⟨hparse, haccepts, t, hsource, rfl⟩)
    · rw [if_pos hparse]
      rfl
    · rw [if_neg hparse]
      exact bind_eq_ok.mpr ⟨(), t, hsource, flush_eq_ok.mpr ⟨haccepts, rfl⟩⟩

/-- What a stage after parsing needs. -/
theorem recordDownstreamStage_eq_ok {workspaceId operationId : UUID} {stage : DownstreamStage}
    {state : IngestionStageState} {code : Option IngestionFailureCode} {kind : Option IngestionFailureKind}
    {detail : Option String} {k : IngestionCheckpoint} :
    recordDownstreamStage workspaceId operationId stage state code kind detail now s = (.ok k, s')
    ↔ validDetails state code kind detail = .ok () ∧ ∃ row, s.operation? operationId = some row
        ∧ row.workspaceId = workspaceId ∧ mayAdvance row stage state = .ok ()
        ∧ (row.advanced stage state code kind detail now).accepted = true
        ∧ k.row = row.advanced stage state code kind detail now
        ∧ ∃ t, downstreamRows row stage state s = (.ok (), t)
          ∧ s' = t.withOperation (row.advanced stage state code kind detail now) := by
  unfold recordDownstreamStage
  rw [rollback_eq_ok, lift_bind_eq_ok]
  simp only [read_bind, required_bind_eq_ok, ensure_bind_eq_ok, lift_bind_eq_ok]
  constructor
  · rintro ⟨⟨⟩, hdetails, row, hrow, hworkspace, ⟨⟩, hmay, h⟩
    obtain ⟨⟨⟩, t, hrows, h⟩ := bind_eq_ok.mp h
    obtain ⟨haccepts, h⟩ := flush_bind_eq_ok.mp h
    obtain ⟨hk, rfl⟩ := Prod.mk.inj h
    exact ⟨hdetails, row, hrow, hworkspace, hmay, haccepts, checkpoint_eq_ok.mp hk, t, hrows, rfl⟩
  · rintro ⟨hdetails, row, hrow, hworkspace, hmay, haccepts, hk, t, hrows, rfl⟩
    refine ⟨(), hdetails, row, hrow, hworkspace, (), hmay, bind_eq_ok.mpr ⟨(), t, hrows, ?_⟩⟩
    exact flush_bind_eq_ok.mpr ⟨haccepts, Prod.ext (checkpoint_eq_ok.mpr hk) rfl⟩

end Calls

/-! ### Calls as one -/

inductive StoreCall where
  | start (c : IngestSourceInput)
  | acquired (c : IngestSourceInput) (objectRef : String)
  | complete (c : IngestSourceInput) (objectRef : String) (document : DocumentRow)
      (chunks : List KnowledgeChunkRow) (warnings : List String)
  | fail (c : IngestSourceInput) (stage : AttemptStage) (failure : Failure) (objectRef : Option String)
  | result (workspaceId operationId : UUID)
  | recordDownstreamStage (workspaceId operationId : UUID) (stage : DownstreamStage)
      (state : IngestionStageState) (code : Option IngestionFailureCode)
      (kind : Option IngestionFailureKind) (detail : Option String)

inductive Answer where
  | done
  | checkpoint (k : IngestionCheckpoint)
  | result (r : IngestSourceResult)

/-- A call at a time of the clock. -/
def perform (call : StoreCall) (now : Datetime) : Statement Answer :=
  match call with
  | .start c => do pure (.checkpoint (← start c now))
  | .acquired c objectRef => do
    acquired c objectRef now
    pure .done
  | .complete c objectRef document chunks warnings => do
    pure (.result (← complete c objectRef document chunks warnings now))
  | .fail c stage failure objectRef => do
    fail c stage failure objectRef now
    pure .done
  | .result workspaceId operationId => do pure (.result (← result workspaceId operationId))
  | .recordDownstreamStage workspaceId operationId stage state code kind detail => do
    pure (.checkpoint (← recordDownstreamStage workspaceId operationId stage state code kind detail now))

/-- A last step that only wraps the value. -/
theorem bind_pure_apply {α β : Type} (x : Statement α) (f : α → β) (s : KnowledgeTables) :
    (x >>= fun a => pure (f a)) s = ((x s).1.map f, (x s).2) := by
  rw [bind_apply]
  obtain ⟨r, t⟩ := x s
  cases r <;> rfl

theorem readOnly_result (workspaceId operationId : UUID) :
    ReadOnly (result workspaceId operationId) := by
  have hensure (p : Prop) [Decidable p] (e : Raised) :
      ReadOnly (ensure p e : Statement Unit) := (readOnly_pure ()).ite (readOnly_raise e)
  have hrequired (x : Option IngestionOperationRow) (e : Raised) :
      ReadOnly (required x e : Statement IngestionOperationRow) := by
    cases x with
    | none => exact readOnly_raise e
    | some row => exact readOnly_pure row
  refine (readOnly_read _).bind fun row? => (hrequired row? _).bind fun row => ?_
  exact (hensure _ _).bind fun _ => (hensure _ _).bind fun _ => readOnly_read _

/-- A call that raises has changed nothing. -/
theorem perform_error {call : StoreCall} {now : Datetime} {s : KnowledgeTables} {e : Raised}
    (h : (perform call now s).1 = .error e) : (perform call now s).2 = s := by
  have hwrapped {α : Type} {x : Statement α} {f : α → Answer}
      (hx : ∀ e, (x s).1 = .error e → (x s).2 = s)
      (h : ((x >>= fun a => pure (f a)) s).1 = .error e) :
      ((x >>= fun a => pure (f a)) s).2 = s := by
    rw [bind_pure_apply] at h ⊢
    cases hvalue : (x s).1 with
    | ok a =>
      rw [hvalue] at h
      cases h
    | error e' => exact hx e' hvalue
  cases call with
  | result workspaceId operationId => exact hwrapped (fun _ _ => readOnly_result _ _ s) h
  | start c => exact hwrapped (fun _ => rollback_snd_of_error) h
  | acquired c objectRef => exact hwrapped (fun _ => rollback_snd_of_error) h
  | complete c objectRef document chunks warnings => exact hwrapped (fun _ => rollback_snd_of_error) h
  | fail c stage failure objectRef => exact hwrapped (fun _ => rollback_snd_of_error) h
  | recordDownstreamStage => exact hwrapped (fun _ => rollback_snd_of_error) h

end Agora.Ingestion
