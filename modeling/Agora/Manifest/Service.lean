import Agora.Lib.PythonEq
import Agora.Manifest.Document
import Agora.Replay.Service

namespace Agora.Manifest

open Ledger (LedgerEvent LedgerState NonBlank)
open Marl (Hash)
open Replay (HistoricalReplay MarlReplayBundle ReplayManifestRef ReplayStep readLedger)
open Stateful

/-!
# Finalizing and loading run manifests

A run manifest is a row that is created with its session and finalized once: finalizing writes the
canonical bytes of a document into the object store and points the row at them.  Loading follows the
row back to the bytes, reads the document from them and joins it with the ledger of the session.
-/

/-! ### Objects -/

structure ObjectRef where
  bucket : String
  key : String
  digest : String := ""
  contentType : String := "application/octet-stream"
  size : Option ℕ := none
deriving DecidableEq

/-- An object store that returns the stored bytes. -/
structure ObjectStore (σ : Type) where
  put (bucket key : String) (body : Bytes) (contentType : String)
    (metadata : List (String × String)) : Stateful σ PyException ObjectRef
  get (s : σ) (reference : ObjectRef) : Py Bytes
  get_put : ∀ {bucket key body contentType metadata s s' stored},
    put bucket key body contentType metadata s = (.ok stored, s') → ∀ reference : ObjectRef,
      reference.bucket = stored.bucket → reference.key = stored.key → reference.digest = stored.digest →
        get s' reference = .ok body

/-! ### Manifests -/

inductive RunManifestStatus where
  | created
  | finalized
deriving DecidableEq, Repr

/-- `RunManifestConflict`, a `ValueError`. -/
def runManifestConflict (message : String) : PyException := .valueError message

structure RunManifest where
  id : UUID
  workspaceId : UUID
  sessionId : UUID
  sourceSessionId : Option UUID := none
  manifestVersion : ℕ
  status : RunManifestStatus
  manifestRef : Option ObjectRef := none
  manifestHash : Option Hash := none
  gitSha : NonBlank
  imageDigests : Mapping String
  modelPins : FreeForm
  promptHashes : Mapping String
  seed : Option ℤ := none
  createdAt : Datetime
  finalizedAt : Option Datetime := none
  positive_version : 0 < manifestVersion
  other_source : sourceSessionId ≠ some sessionId
  created_shape : status = .created → manifestRef = none ∧ manifestHash = none ∧ finalizedAt = none
  finalized_shape : status = .finalized → manifestRef.isSome ∧ manifestHash.isSome ∧ finalizedAt.isSome

namespace RunManifest

/-- `==`: the model pins are compared as Python compares dictionaries. -/
def same (a b : RunManifest) : Bool :=
  a.id = b.id && a.workspaceId = b.workspaceId && a.sessionId = b.sessionId
    && a.sourceSessionId = b.sourceSessionId && a.manifestVersion = b.manifestVersion
    && a.status = b.status && a.manifestRef = b.manifestRef && a.manifestHash = b.manifestHash
    && a.gitSha = b.gitSha && a.imageDigests = b.imageDigests
    && Json.pyEq (.obj a.modelPins.entries) (.obj b.modelPins.entries)
    && a.promptHashes = b.promptHashes && a.seed = b.seed && a.createdAt = b.createdAt
    && a.finalizedAt = b.finalizedAt

def ref (m : RunManifest) : Py ReplayManifestRef :=
  match m.status, m.manifestHash with
  | .finalized, some hash => .ok
    { manifestId := m.id
      manifestVersion := m.manifestVersion
      manifestHash := hash
      positive_version := m.positive_version }
  | _, _ => .error (.valueError "only a finalized manifest is replayable")

end RunManifest

/-! ### Rows -/

/-- `RunManifestRow`, with the checks of its table. -/
structure RunManifestRow where
  id : UUID
  workspaceId : UUID
  sessionId : UUID
  sourceSessionId : Option UUID
  manifestVersion : ℕ
  status : RunManifestStatus
  manifestBucket : Option String
  manifestRef : Option String
  manifestHash : Option Hash
  manifestSize : Option ℕ
  gitSha : NonBlank
  imageDigests : Mapping String
  modelPins : FreeForm
  promptHashes : Mapping String
  seed : Option ℤ
  createdAt : Datetime
  finalizedAt : Option Datetime
  positive_version : 0 < manifestVersion
  source_differs : sourceSessionId ≠ some sessionId
  created_shape : status = .created → manifestRef = none ∧ manifestHash = none ∧ manifestBucket = none
    ∧ manifestSize = none ∧ finalizedAt = none
  finalized_shape : status = .finalized → manifestRef.isSome ∧ manifestHash.isSome
    ∧ manifestBucket.isSome ∧ manifestSize.isSome ∧ finalizedAt.isSome

namespace RunManifestRow

/-- The reference that the columns of a row make up. -/
def reference (row : RunManifestRow) : Option ObjectRef := do
  let key ← row.manifestRef
  let bucket ← row.manifestBucket
  let hash ← row.manifestHash
  some ⟨bucket, key, hash.text, "application/json", row.manifestSize⟩

/-- `_manifest`. -/
def manifest (row : RunManifestRow) : RunManifest where
  id := row.id
  workspaceId := row.workspaceId
  sessionId := row.sessionId
  sourceSessionId := row.sourceSessionId
  manifestVersion := row.manifestVersion
  status := row.status
  manifestRef := row.reference
  manifestHash := row.manifestHash
  gitSha := row.gitSha
  imageDigests := row.imageDigests
  modelPins := row.modelPins
  promptHashes := row.promptHashes
  seed := row.seed
  createdAt := row.createdAt
  finalizedAt := row.finalizedAt
  positive_version := row.positive_version
  other_source := row.source_differs
  created_shape h := by
    obtain ⟨href, hhash, -, -, hat⟩ := row.created_shape h
    exact ⟨by simp [reference, href], hhash, hat⟩
  finalized_shape h := by
    obtain ⟨href, hhash, hbucket, -, hat⟩ := row.finalized_shape h
    rw [Option.isSome_iff_exists] at href hhash hbucket
    obtain ⟨⟨key, hkey⟩, ⟨hash, hhash'⟩, bucket, hbucket⟩ := href, hhash, hbucket
    exact ⟨by simp [reference, hkey, hhash', hbucket], by simp [hhash'], hat⟩

/-- The row of a manifest that is being finalized, when it passes the check of its shape. -/
def finalize (row : RunManifestRow) (stored : ObjectRef) (hash : Option Hash)
    (finalizedAt : Option Datetime) : Option RunManifestRow :=
  match hash, stored.size, finalizedAt with
  | some hash, some size, some finalizedAt => some
    { row with
      status := .finalized
      manifestBucket := some stored.bucket
      manifestRef := some stored.key
      manifestHash := some hash
      manifestSize := some size
      finalizedAt := some finalizedAt
      created_shape := nofun
      finalized_shape := fun _ => ⟨rfl, rfl, rfl, rfl, rfl⟩ }
  | _, _, _ => none

end RunManifestRow

/-- The table of manifests and the object store. -/
structure ManifestState (σ : Type) where
  rows : List RunManifestRow
  objects : σ
  unique_ids : (rows.map (·.id)).Nodup

namespace ManifestState

variable {σ : Type}

def setObjects (objects : σ) (s : ManifestState σ) : ManifestState σ := { s with objects }

/-- The row with this id replaced. -/
def setRow (row : RunManifestRow) (s : ManifestState σ) : ManifestState σ where
  rows := s.rows.map fun r => if r.id = row.id then row else r
  objects := s.objects
  unique_ids := by
    have hsame : (s.rows.map fun r => if r.id = row.id then row else r).map (·.id) = s.rows.map (·.id) := by
      rw [List.map_map]
      apply List.map_congr_left
      intro r _
      by_cases hr : r.id = row.id <;> simp [hr]
    rw [hsame]
    exact s.unique_ids

/-- `get_for_session`. -/
def getForSession (s : ManifestState σ) (workspaceId sessionId : UUID) : Option RunManifest :=
  (s.rows.find? fun row => row.workspaceId = workspaceId ∧ row.sessionId = sessionId).map (·.manifest)

/-- `get_finalized`. -/
def getFinalized (s : ManifestState σ) (workspaceId sessionId : UUID) (reference : ReplayManifestRef) :
    Option RunManifest :=
  (s.rows.find? fun row => row.workspaceId = workspaceId ∧ row.sessionId = sessionId
    ∧ row.id = reference.manifestId ∧ row.manifestVersion = reference.manifestVersion
    ∧ row.manifestHash = some reference.manifestHash ∧ row.status = .finalized).map (·.manifest)

end ManifestState

/-- What the database itself refuses. -/
structure Database where
  accepts : RunManifestRow → Bool

/-- What a refused row raises. -/
def databaseError : PyException := ⟨.other, "database error"⟩

variable {σ : Type}

/-- `SqlAlchemyRunManifestRepository.finalize`. -/
def repositoryFinalize (db : Database) (manifest : RunManifest) :
    Stateful (ManifestState σ) PyException RunManifest := do
  ensure (manifest.status = .finalized) (.valueError "finalize requires a finalized manifest")
  let stored ← required manifest.manifestRef (.valueError "finalize requires a finalized manifest")
  let current? ← read (·.getForSession manifest.workspaceId manifest.sessionId)
  let current ← required current? (runManifestConflict "run manifest does not exist")
  if current.status = .finalized then do
    ensure (current.same manifest) (runManifestConflict "finalized run manifest is immutable")
    pure current
  else do
    let row? ← read fun s => s.rows.find? fun row => row.id = manifest.id
    let row ← required row? (runManifestConflict "run manifest does not exist")
    let updated ← required (row.finalize stored manifest.manifestHash manifest.finalizedAt) databaseError
    -- A trigger refuses to change a finalized row.
    ensure (row.status = .created ∧ db.accepts updated) databaseError
    write (·.setRow updated)
    pure manifest

/-! ### The service -/

/-- `digest.removeprefix("sha256:")`. -/
def removePrefix (hash : Hash) : String := String.ofList (hash.text.toList.drop 7)

/-- `{str(a.definition_id): value(a) for a in agents}`. -/
def byDefinition {α : Type} (agents : List AgentPin) (value : AgentPin → Option α) : Mapping α :=
  Mapping.ofPairs (agents.filterMap fun a =>
    (value a).map fun v => (PyStr.ofString a.definitionId.text, v))

/-- `dict(mapping)`, with its values as JSON. -/
def jsonMapping (m : Mapping String) : Json := .obj (Codec.string.dumpEntries m.entries)

/-- `_validate_document`. -/
def validateDocument (current : RunManifest) (document : RunManifestDocument) : Py Unit := do
  Marl.raiseIf (document.workspaceId ≠ current.workspaceId || document.sessionId ≠ current.sessionId
      || document.sourceSessionId ≠ current.sourceSessionId || 1 ≠ current.manifestVersion
      || document.code.gitSha ≠ current.gitSha
      || document.code.imageDigests.entries.map (fun e => (e.1, e.2.text)) ≠ current.imageDigests.entries)
    (runManifestConflict "final manifest differs from immutable creation pins")
  let expectedModels := byDefinition document.agents fun a => a.inference.map (·.model.text)
  let expectedPrompts := byDefinition document.agents fun a => some a.promptHash.text
  Marl.raiseIf (!Json.pyEq (jsonMapping expectedModels) (.obj current.modelPins.entries)
      || expectedPrompts ≠ current.promptHashes)
    (runManifestConflict "final manifest agent pins differ from creation pins")

structure RunManifestService (σ : Type) where
  db : Database
  objects : ObjectStore σ
  bucket : String

section Finalize

variable [Runtime]

/-- `RunManifestService.finalize`. -/
def RunManifestService.finalize (service : RunManifestService σ) (workspaceId sessionId : UUID)
    (document : RunManifestDocument) (finalizedAt : Datetime) :
    Stateful (ManifestState σ) PyException RunManifest := do
  let current? ← read (·.getForSession workspaceId sessionId)
  let current ← required current?
    (runManifestConflict "run manifest was not created with the session")
  lift (validateDocument current document)
  let digest ← lift document.runManifestHash
  let body ← lift document.runManifestBytes
  let reference ← zoom ManifestState.objects ManifestState.setObjects
    (service.objects.put service.bucket
      ("workspaces/" ++ workspaceId.text ++ "/manifests/" ++ removePrefix digest ++ ".json") body
      "application/json"
      [("workspace_id", workspaceId.text), ("session_id", sessionId.text),
        ("manifest_id", current.id.text), ("manifest_version", toString current.manifestVersion)])
  ensure (reference.digest = digest.text)
    (runManifestConflict "object store returned a different manifest digest")
  repositoryFinalize service.db
    { current with
      status := .finalized
      manifestRef := some reference
      manifestHash := some digest
      finalizedAt := some finalizedAt
      created_shape := nofun
      finalized_shape := fun _ => ⟨rfl, rfl, rfl⟩ }

/-! ### Loading -/

omit [Runtime] in
/-- `HistoricalReplay(...)`. -/
def historicalReplay (workspaceId sourceSessionId : UUID) (manifest : ReplayManifestRef)
    (ledgerEvents : List LedgerEvent) (steps : List ReplayStep) (marlBundles : List MarlReplayBundle) :
    Py HistoricalReplay :=
  if hsame : ∀ e ∈ ledgerEvents, e.workspaceId = workspaceId ∧ e.sessionId = sourceSessionId then
    if hgapless : ledgerEvents.map (·.ledgerSeq) = List.range' 1 ledgerEvents.length then
      if hordered : (steps.map (·.order)).Pairwise (· < ·) then
        if hunique : (steps.map (·.stepId)).Nodup then
          .ok
            { workspaceId, sourceSessionId, manifest, ledgerEvents, steps, marlBundles
              same_session := hsame
              gapless := hgapless
              ordered := hordered
              unique_ids := hunique }
        else .error (.valueError "replay step ids must be unique")
      else .error (.valueError "replay steps must have unique deterministic order")
    else .error (.valueError "historical ledger events must be gapless and ordered")
  else .error (.valueError "ledger events must belong to the replay source session")

/-- `PersistedReplaySource.load`. -/
def load (objects : ObjectStore σ) (ledger : LedgerState) (s : ManifestState σ)
    (workspaceId sourceSessionId : UUID) (manifest : ReplayManifestRef) : Py (Option HistoricalReplay) :=
  match s.getFinalized workspaceId sourceSessionId manifest with
  | none => .ok none
  | some record =>
    match record.manifestRef, record.manifestHash with
    | some reference, some hash => do
      let body ← objects.get s.objects reference
      let document ← RunManifestDocument.validateJson body
      let bytes ← document.runManifestBytes
      Marl.raiseIf (bytes ≠ body)
        (runManifestConflict "stored manifest bytes are not canonical or hash-valid")
      let digest ← document.runManifestHash
      Marl.raiseIf (digest ≠ hash)
        (runManifestConflict "stored manifest bytes are not canonical or hash-valid")
      let events ← readLedger ledger workspaceId sourceSessionId 1
      let pinned ← record.ref
      let replay ← historicalReplay workspaceId sourceSessionId pinned events document.replaySteps
        document.marlBundles
      pure (some replay)
    | _, _ => .ok none

end Finalize

end Agora.Manifest
