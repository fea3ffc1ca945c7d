import Agora.Ingestion.Operation

namespace Agora.Ingestion

open Marl (Hash)
open Stateful

/-!
# Runners

A runner brings one source in: it starts the operation, reads the object, records it, parses it and
completes.  Between two calls of the store it is in a `Phase`, and what it finds outside the store is
any object and any parse.  In the `System` any number of runners work on one operation, retried or at
the same time, and each call of the store is one transaction.
-/

/-! ### Outside the store -/

inductive DocumentFormat where
  | pdf
  | docx
  | txt
  | markdown
  | csv
  | xlsx
  | json
  | html
deriving DecidableEq, Repr

def DocumentFormat.value : DocumentFormat → String
  | pdf => "PDF"
  | docx => "DOCX"
  | txt => "TXT"
  | markdown => "MARKDOWN"
  | csv => "CSV"
  | xlsx => "XLSX"
  | json => "JSON"
  | html => "HTML"

/-- `_MEDIA_FORMATS`. -/
def mediaFormats : List (String × DocumentFormat) :=
  [("application/pdf", .pdf),
   ("application/vnd.openxmlformats-officedocument.wordprocessingml.document", .docx),
   ("text/plain", .txt), ("text/markdown", .markdown), ("text/csv", .csv),
   ("application/vnd.openxmlformats-officedocument.spreadsheetml.sheet", .xlsx),
   ("application/json", .json), ("text/html", .html)]

/-- `str.lower`, as far as it gives characters of a media type: the Kelvin sign is a `k` too. -/
def lowerChar (c : Char) : Char :=
  if 'A' ≤ c ∧ c ≤ 'Z' then Char.ofNat (c.toNat + 32) else if c = '\u212A' then 'k' else c

/-- The format of a media type, whose parameters do not count. -/
def mediaFormat (mediaType : String) : Option DocumentFormat :=
  let base := (mediaType.toList.map lowerChar).takeWhile (· ≠ ';')
  let stripped := ((base.dropWhile isSpace).reverse.dropWhile isSpace).reverse
  mediaFormats.lookup (String.ofList stripped)

/-- What reading and verifying an object gives. -/
inductive ObjectOutcome where
  | body (bytes : Bytes)
  | integrityError
  | transientPortError (message port : String)
  | portError
  | otherError

/-- A block of a parsed document, with its dump. -/
structure DocumentBlock where
  text : String
  page : Option ℕ
  dump : String

structure ParsedDocument where
  format : DocumentFormat
  parser : String
  parserVersion : String
  blocks : List DocumentBlock
  warnings : List String := []

structure DocumentChunk where
  ordinal : ℕ
  text : String
  tokenCount : ℕ
  locatorText : String
  contentHash : Hash
  chunkerVersion : String

/-- What parsing and chunking give. -/
inductive ParseOutcome where
  | parsed (document : ParsedDocument) (chunks : List DocumentChunk)
  | permanentPortError
  | otherError

/-- What a runner finds outside the store. -/
structure Outside where
  object : ObjectOutcome
  parse : DocumentFormat → Bytes → ParseOutcome

/-! ### What is stored -/

/-- `object_ref`. -/
def IngestSourceInput.objectReference (c : IngestSourceInput) : String :=
  "minio://" ++ c.objectBucket ++ "/" ++ c.objectKey

def ParsedDocument.structureText (p : ParsedDocument) : String :=
  String.ofList ('\x7b' :: "\"blocks\":[".toList ++ Json.joinComma (p.blocks.map (·.dump.toList))
    ++ "],\"format\":".toList ++ dumpText p.format.value ++ ['\x7d'])

/-- `max(pages) if pages else None`. -/
def ParsedDocument.pageCount (p : ParsedDocument) : Option ℕ := (p.blocks.filterMap (·.page)).max?

def documentOf (c : IngestSourceInput) (p : ParsedDocument) : DocumentRow where
  id := c.documentId
  workspaceId := c.workspaceId
  sourceId := c.sourceId
  title := some c.title
  structureText := p.structureText
  pageCount := p.pageCount
  charCount := some (p.blocks.map (·.text.length)).sum
  parser := p.parser
  parserVersion := p.parserVersion
  status := .chunked

def chunkOf (c : IngestSourceInput) (chunk : DocumentChunk) : KnowledgeChunkRow where
  id := Ids.chunkId c.documentId chunk.ordinal chunk.contentHash.text
  workspaceId := c.workspaceId
  documentId := c.documentId
  ordinal := chunk.ordinal
  text := chunk.text
  tokenCount := chunk.tokenCount
  locatorText := chunk.locatorText
  contentHash := chunk.contentHash
  chunkerVersion := chunk.chunkerVersion

/-! ### Phases -/

/-- Where a runner is, between two calls of the store. -/
inductive Phase where
  | starting
  | reading
  | acquiring (body : Bytes)
  | failing (stage : AttemptStage) (failure : Failure) (objectRef : Option String) (raised : Raised)
  | completing (document : DocumentRow) (chunks : List KnowledgeChunkRow) (warnings : List String)
  | ended (outcome : Except Raised IngestSourceResult)

namespace Phase

/-- A failure for good. -/
def permanent (stage : AttemptStage) (code : IngestionFailureCode) (detail : String)
    (objectRef : Option String) (message : String) : Phase :=
  failing stage ⟨code, .permanent, detail⟩ objectRef (.permanentPortError message "source_ingestion")

/-- A failure of this attempt. -/
def transient (stage : AttemptStage) (detail : String) (objectRef : Option String) : Phase :=
  failing stage ⟨.unexpectedFailure, .transient, detail⟩ objectRef
    (.transientPortError detail "source_ingestion")

/-- The object has been read, and its size is checked. -/
def afterObject (c : IngestSourceInput) (object : ObjectOutcome) : Phase :=
  let mismatch := permanent .acquire .digestMismatch "stored source bytes do not match declared identity"
    none "source digest mismatch"
  match object with
  | .body bytes => if bytes.length ≠ c.sizeBytes then mismatch else acquiring bytes
  | .integrityError => mismatch
  | .transientPortError message port =>
    failing .acquire ⟨.objectStoreFailure, .transient, "source object could not be stored and verified"⟩
      none (.transientPortError message port)
  | .portError =>
    permanent .acquire .objectStoreFailure "source object could not be stored and verified" none
      "source object verification failed"
  | .otherError => transient .acquire "source object dependency failed unexpectedly" none

def afterStart (c : IngestSourceInput) (bucket : String) (outside : Outside) (k : IngestionCheckpoint) :
    Phase :=
  if k.row.parseState = .succeeded then reading
  else if k.row.terminal then
    ended (.error (.permanentPortError "source ingestion previously failed" "source_ingestion"))
  else if c.objectBucket ≠ bucket then
    permanent .acquire .objectStoreFailure "source object is outside the configured artifact bucket" none
      "source object bucket is not allowed"
  else afterObject c outside.object

/-- The object has been recorded, and is parsed. -/
def afterAcquired (c : IngestSourceInput) (outside : Outside) (body : Bytes) : Phase :=
  match mediaFormat c.mediaType with
  | none =>
    permanent .parse .unsupportedMediaType "declared media type is not supported"
      (some c.objectReference) "unsupported source media type"
  | some format =>
    match outside.parse format body with
    | .parsed document chunks =>
      completing (documentOf c document) (chunks.map (chunkOf c)) document.warnings
    | .permanentPortError =>
      permanent .parse .parseFailed "source document could not be parsed" (some c.objectReference)
        "source document parsing failed"
    | .otherError =>
      transient .parse "source document parser failed unexpectedly" (some c.objectReference)

/-- A call of the store, and the next phase by its answer: what the store raises ends the runner. -/
def attempt {α : Type} (call : Statement α) (next : α → Phase) (s : KnowledgeTables) :
    Phase × KnowledgeTables :=
  match call s with
  | (.ok a, s') => (next a, s')
  | (.error e, s') => (ended (.error e), s')

/-- The next step of a run. -/
def next (c : IngestSourceInput) (bucket : String) (outside : Outside) (now : Datetime) :
    Phase → KnowledgeTables → Phase × KnowledgeTables
  | starting => attempt (start c now) (afterStart c bucket outside)
  | reading => attempt (result c.workspaceId c.operationId) fun r => ended (.ok r)
  | acquiring body =>
    attempt (acquired c c.objectReference now) fun _ => afterAcquired c outside body
  | failing stage failure objectRef raised =>
    attempt (fail c stage failure objectRef now) fun _ => ended (.error raised)
  | completing document chunks warnings =>
    attempt (complete c c.objectReference document chunks warnings now) fun r => ended (.ok r)
  | ended outcome => fun s => (ended outcome, s)

/-- The call that the next step makes. -/
def call (c : IngestSourceInput) : Phase → Option StoreCall
  | starting => some (.start c)
  | reading => some (.result c.workspaceId c.operationId)
  | acquiring _ => some (.acquired c c.objectReference)
  | failing stage failure objectRef _ => some (.fail c stage failure objectRef)
  | completing document chunks warnings => some (.complete c c.objectReference document chunks warnings)
  | ended _ => none

end Phase

/-! ### The system -/

structure Runner where
  bucket : String
  phase : Phase := .starting

/-- The tables, and every run of the operation that there has been. -/
structure System where
  tables : KnowledgeTables
  runners : List Runner := []

inductive Step where
  /-- A worker with a bucket runs the operation, for the first time or again. -/
  | spawn (bucket : String)
  | advance (i : ℕ) (outside : Outside) (now : Datetime)
  | downstream (stage : DownstreamStage) (state : IngestionStageState)
      (code : Option IngestionFailureCode) (kind : Option IngestionFailureKind) (detail : Option String)
      (now : Datetime)

namespace System

variable {c : IngestSourceInput} {σ : System}

/-- A runner has gone on. -/
def moved (σ : System) (i : ℕ) (bucket : String) (next : Phase × KnowledgeTables) : System where
  tables := next.2
  runners := σ.runners.set i { bucket, phase := next.1 }

def exec (c : IngestSourceInput) : Step → System → Unit × System
  | .spawn bucket, σ => ((), if isBlank bucket then σ else { σ with runners := σ.runners ++ [{ bucket }] })
  | .advance i outside now, σ =>
    ((), match σ.runners[i]? with
      | none => σ
      | some r => σ.moved i r.bucket (r.phase.next c r.bucket outside now σ.tables))
  | .downstream stage state code kind detail now, σ =>
    let call := recordDownstreamStage c.workspaceId c.operationId stage state code kind detail now
    ((), { σ with tables := (call σ.tables).2 })

/-- The phase of the runner that a step advances. -/
def phaseOf (σ : System) : Step → Option Phase
  | .advance i _ _ => σ.runners[i]?.map (·.phase)
  | _ => none

/-- The call of the store that a step makes. -/
def callOf (c : IngestSourceInput) (σ : System) : Step → Option StoreCall
  | .downstream stage state code kind detail _ =>
    some (.recordDownstreamStage c.workspaceId c.operationId stage state code kind detail)
  | step => (σ.phaseOf step).bind (·.call c)

/-- What the callers have been told. -/
def Reported (σ : System) (outcome : Except Raised IngestSourceResult) : Prop :=
  ∃ r ∈ σ.runners, r.phase = .ended outcome

end System

theorem Phase.attempt_of {α : Type} {call : Statement α} {next : α → Phase} {s t : KnowledgeTables} {a : α}
    (h : call s = (.ok a, t)) : attempt call next s = (next a, t) := by
  rw [attempt, h]

theorem Phase.attempt_snd {α : Type} (call : Statement α) (next : α → Phase) (s : KnowledgeTables) :
    (attempt call next s).2 = (call s).2 := by
  unfold attempt
  obtain ⟨answer, t⟩ := call s
  cases answer <;> rfl

theorem Phase.call_isFor {c : IngestSourceInput} {phase : Phase} {call : StoreCall}
    (h : phase.call c = some call) : call.IsFor c := by
  cases phase with
  | ended outcome => cases h
  | reading =>
    obtain rfl := Option.some.inj h
    exact ⟨rfl, rfl⟩
  | starting | acquiring | failing | completing =>
    obtain rfl := Option.some.inj h
    rfl

theorem System.exec_advance {c : IngestSourceInput} {σ : System} {i : ℕ} {r : Runner}
    (hr : σ.runners[i]? = some r) (outside : Outside) (now : Datetime) :
    (exec c (.advance i outside now) σ).2 = σ.moved i r.bucket (r.phase.next c r.bucket outside now σ.tables) := by
  rw [exec, hr]

theorem System.exec_advance_none {c : IngestSourceInput} {σ : System} {i : ℕ}
    (hr : σ.runners[i]? = none) (outside : Outside) (now : Datetime) :
    (exec c (.advance i outside now) σ).2 = σ := by
  rw [exec, hr]

theorem Phase.afterObject_ne_ended {c : IngestSourceInput} {object : ObjectOutcome}
    {outcome : Except Raised IngestSourceResult} : afterObject c object ≠ ended outcome := by
  intro h
  unfold afterObject at h
  cases object with
  | body bytes =>
    dsimp only at h
    split_ifs at h
    · cases h
  | integrityError | transientPortError | portError | otherError => cases h

/-- A runner ends with its start when the ingestion has failed before. -/
theorem Phase.of_afterStart_eq_ended {c : IngestSourceInput} {bucket : String} {outside : Outside}
    {k : IngestionCheckpoint} {outcome : Except Raised IngestSourceResult}
    (h : afterStart c bucket outside k = ended outcome) : k.row.parseState ≠ .succeeded
      ∧ k.row.terminal = true
      ∧ outcome = .error (.permanentPortError "source ingestion previously failed" "source_ingestion") := by
  unfold afterStart at h
  split_ifs at h with hparse hterminal
  · exact ⟨hparse, hterminal, (Phase.ended.inj h).symm⟩
  · cases h
  · exact absurd h afterObject_ne_ended

theorem Phase.afterAcquired_ne_ended {c : IngestSourceInput} {outside : Outside} {body : Bytes}
    {outcome : Except Raised IngestSourceResult} : afterAcquired c outside body ≠ ended outcome := by
  intro h
  unfold afterAcquired at h
  split at h
  · cases h
  · split at h <;> cases h

/-- A phase makes its call, if it has one. -/
theorem Phase.next_snd {c : IngestSourceInput} (bucket : String) (outside : Outside) (now : Datetime)
    (phase : Phase) (s : KnowledgeTables) : (phase.next c bucket outside now s).2
      = (phase.call c).elim s fun call => (perform call now s).2 := by
  cases phase with
  | ended outcome => rfl
  | starting | reading | acquiring | failing | completing =>
    rw [Phase.next, Phase.attempt_snd, Phase.call, Option.elim_some, perform, bind_pure_apply]

/-- A step makes its call, or leaves the tables as they are. -/
theorem System.effect_exec {c : IngestSourceInput} {σ : System} (h : Sound c σ.tables) (step : Step) :
    (exec c step σ).2.tables = σ.tables
      ∨ ∃ call, σ.callOf c step = some call ∧ Effect c σ.tables call (exec c step σ).2.tables := by
  cases step with
  | spawn bucket =>
    refine .inl ?_
    show (if isBlank bucket then σ else _ : System).tables = _
    split_ifs <;> rfl
  | downstream stage state code kind detail now =>
    have hcall : (StoreCall.recordDownstreamStage c.workspaceId c.operationId stage state code kind
      detail).IsFor c := ⟨rfl, rfl⟩
    have heffect := perform_effect h hcall now
    rw [perform, bind_pure_apply] at heffect
    exact .inr ⟨_, rfl, heffect⟩
  | advance i outside now =>
    cases hr : σ.runners[i]? with
    | none => exact .inl (by rw [exec_advance_none hr])
    | some r =>
      have hphase : σ.callOf c (.advance i outside now) = r.phase.call c := by
        simp [callOf, phaseOf, hr]
      rw [exec_advance hr, hphase]
      show (r.phase.next c r.bucket outside now σ.tables).2 = _
        ∨ ∃ call, _ ∧ Effect c _ call (r.phase.next c r.bucket outside now σ.tables).2
      rw [Phase.next_snd]
      cases hcall : r.phase.call c with
      | none => exact .inl rfl
      | some call => exact .inr ⟨call, rfl, perform_effect h (Phase.call_isFor hcall) now⟩

end Agora.Ingestion
