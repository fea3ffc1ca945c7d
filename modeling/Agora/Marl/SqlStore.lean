import Agora.Lib.PythonEq
import Agora.Marl.Store

namespace Agora.Marl

/-!
# The SQL trajectory store

An episode is a row and its records are rows, under the unique constraints of the two tables and
the trigger on updates of an episode row.  Every call reads the episode back from its rows, through
the validators, and runs in a transaction that is rolled back when the call raises.
-/

section SqlStore

variable [Runtime]

/-! ### Rows -/

structure MarlEpisodeRow where
  id : UUID
  workspaceId : UUID
  sessionId : UUID
  environmentVersion : Identifier
  codeIdentity : Hash
  status : EpisodeStatus
  incompleteMarker : Option Json
  incompleteHash : Option Hash

inductive RecordKind where
  | decisionBoundary
  | transition
deriving DecidableEq, Repr

structure MarlRecordRow where
  id : UUID
  workspaceId : UUID
  sessionId : UUID
  episodeId : UUID
  decisionIndex : ℕ
  recordKind : RecordKind
  recordHash : Hash
  payload : Json

structure SqlStore where
  episodes : List MarlEpisodeRow
  records : List MarlRecordRow

/-- `ORDER BY decision_index, record_kind`. -/
def RowLe (a b : MarlRecordRow) : Prop :=
  a.decisionIndex < b.decisionIndex ∨ a.decisionIndex = b.decisionIndex
    ∧ (a.recordKind = .decisionBoundary ∨ b.recordKind = .transition)

instance (a b : MarlRecordRow) : Decidable (RowLe a b) := inferInstanceAs (Decidable (_ ∨ _))

def MarlEpisodeRow.at (w id : UUID) (row : MarlEpisodeRow) : Bool :=
  row.workspaceId = w && row.id = id

def MarlRecordRow.at (w id : UUID) (row : MarlRecordRow) : Bool :=
  row.workspaceId = w && row.episodeId = id

/-! ### Reading -/

/-- The boundaries among the rows that no transition has closed. -/
def openBoundaries (rows : List MarlRecordRow) (closed : List ℕ) : List MarlRecordRow :=
  rows.filter fun row => row.recordKind = .decisionBoundary && row.decisionIndex ∉ closed

def readMarker : Option Json → Py (Option IncompleteMarkerV1)
  | some payload => some <$> validateRaw Hashed.codec payload
  | none => .ok none

/-- The episode of a row and its records. -/
def readEpisode (row : MarlEpisodeRow) (records : List MarlRecordRow) : Py MarlEpisodeV1 := do
  let transitions : List TransitionV1 ← (records.filter (·.recordKind = .transition)).mapM
    fun item => validateRaw Hashed.codec item.payload
  let boundaries : List DecisionBoundaryV1 ←
    (openBoundaries records (transitions.map (·.content.decisionIndex))).mapM
      fun item => validateRaw Hashed.codec item.payload
  let marker ← readMarker row.incompleteMarker
  MarlEpisodeV1.validate
    { episodeId := row.id
      workspaceId := row.workspaceId
      sessionId := row.sessionId
      environmentVersion := row.environmentVersion
      codeIdentity := row.codeIdentity
      status := row.status
      transitions
      pendingBoundary := boundaries.getLast?
      incompleteMarker := marker }

namespace SqlAlchemyMarlTrajectoryStore

abbrev Op := Stateful SqlStore StoreError

def get (w id : UUID) : Op (Option MarlEpisodeV1) := do
  match ← Stateful.read fun s => s.episodes.find? (·.at w id) with
  | none => pure none
  | some row =>
    let records ← Stateful.read fun s => (s.records.filter (·.at w id)).insertionSort RowLe
    some <$> liftPy (readEpisode row records)

/-- `_required`, which is `_locked` once the lock is taken. -/
def required (w id : UUID) : Op MarlEpisodeV1 := do
  match ← get w id with
  | some episode => pure episode
  | none => .raise (.domain "episode not found")

/-- `_record`. -/
def record (w id : UUID) (index : ℕ) (kind : RecordKind) : Op (Option MarlRecordRow) :=
  .read fun s => s.records.find? fun row =>
    row.at w id && row.decisionIndex = index && row.recordKind = kind

/-! ### Writing -/

/-- Add an episode row: the id is the primary key. -/
def insertEpisode (row : MarlEpisodeRow) : Op Unit := do
  if ← Stateful.read fun s => s.episodes.any (·.id = row.id) then
    .raise (.conflict "episode persistence conflict")
  else .write fun s => { s with episodes := s.episodes ++ [row] }

/-- Add a record row: the id is the primary key, and an episode has one record of a kind at an
    index. -/
def insertRecord (row : MarlRecordRow) (detail : String) : Op Unit := do
  if ← Stateful.read fun s => s.records.any fun other => other.id = row.id
      || (other.at row.workspaceId row.episodeId && other.decisionIndex = row.decisionIndex
        && other.recordKind = row.recordKind) then
    .raise (.conflict detail)
  else .write fun s => { s with records := s.records ++ [row] }

/-- The trigger `enforce_marl_episode_transition`: only an open episode may be updated. -/
def updateEpisode (w id : UUID) (update : MarlEpisodeRow → MarlEpisodeRow) : Op Unit := do
  if ← Stateful.read fun s => s.episodes.any fun row => row.at w id && row.status ≠ .open then
    .raise (.raised ⟨.other, "MARL episode identity is immutable and status transition is invalid"⟩)
  else
    .write fun s =>
      { s with episodes := s.episodes.map fun row => if row.at w id then update row else row }

def episodeRow (e : MarlEpisodeV1) : MarlEpisodeRow where
  id := e.episodeId
  workspaceId := e.workspaceId
  sessionId := e.sessionId
  environmentVersion := e.environmentVersion
  codeIdentity := e.codeIdentity
  status := e.status
  incompleteMarker := e.incompleteMarker.map Hashed.codec.dump
  incompleteHash := e.incompleteMarker.map (·.hash)

def boundaryRow (w : UUID) (e : MarlEpisodeV1) (b : DecisionBoundaryV1) : MarlRecordRow where
  id := b.content.coordinatorDecision.content.decisionId
  workspaceId := w
  sessionId := e.sessionId
  episodeId := e.episodeId
  decisionIndex := b.content.decisionIndex
  recordKind := .decisionBoundary
  recordHash := b.hash
  payload := Hashed.codec.dump b

def transitionRow (w : UUID) (e : MarlEpisodeV1) (t : TransitionV1) : MarlRecordRow where
  id := t.content.postObservation.content.observationId
  workspaceId := w
  sessionId := e.sessionId
  episodeId := e.episodeId
  decisionIndex := t.content.decisionIndex
  recordKind := .transition
  recordHash := t.hash
  payload := Hashed.codec.dump t

/-! ### Equality of models -/

def boundaryEq (a b : DecisionBoundaryV1) : Bool :=
  (Hashed.codec.dump a).pyEq (Hashed.codec.dump b)

def transitionsEq : List TransitionV1 → List TransitionV1 → Bool
  | [], [] => true
  | t :: ts, u :: us => (Hashed.codec.dump t).pyEq (Hashed.codec.dump u) && transitionsEq ts us
  | _, _ => false

def pendingEq : Option DecisionBoundaryV1 → Option DecisionBoundaryV1 → Bool
  | none, none => true
  | some a, some b => boundaryEq a b
  | _, _ => false

def episodeEq (a b : MarlEpisodeV1) : Bool :=
  a.episodeId = b.episodeId && a.workspaceId = b.workspaceId && a.sessionId = b.sessionId
    && a.environmentVersion = b.environmentVersion && a.codeIdentity = b.codeIdentity
    && a.status = b.status && transitionsEq a.transitions b.transitions
    && pendingEq a.pendingBoundary b.pendingBoundary && a.incompleteMarker = b.incompleteMarker

/-! ### Calls -/

def create (episode : MarlEpisodeV1) : Op MarlEpisodeV1 :=
  if episode.status ≠ .open ∨ episode.transitions ≠ [] ∨ episode.pendingBoundary.isSome then
    .raise (.domain "new episode must be empty and OPEN")
  else do
    match ← get episode.workspaceId episode.episodeId with
    | some current =>
      if episodeEq current episode then pure current
      else .raise (.conflict "episode identity conflicts with existing content")
    | none =>
      insertEpisode
        { episodeRow episode with incompleteMarker := none, incompleteHash := none }
      pure episode

def capture (w : UUID) (boundary : DecisionBoundaryV1) : Op MarlEpisodeV1 := do
  let episode ← required w boundary.content.episodeId
  if episode.status ≠ .open then
    .raise (.conflict "finalized episode cannot accept a boundary")
  else
    match ← record w boundary.content.episodeId boundary.content.decisionIndex .decisionBoundary with
    | some existing =>
      if existing.recordHash = boundary.hash then required w boundary.content.episodeId
      else .raise (.conflict "boundary identity conflicts with existing content")
    | none =>
      if episode.pendingBoundary.isSome
          ∨ boundary.content.decisionIndex ≠ episode.transitions.length then
        .raise (.conflict "boundary index is not the next gapless index")
      else do
        insertRecord (boundaryRow w episode boundary) "boundary persistence conflict"
        required w boundary.content.episodeId

def close (w : UUID) (transition : TransitionV1) : Op MarlEpisodeV1 := do
  let episode ← required w transition.content.episodeId
  match ← record w transition.content.episodeId transition.content.decisionIndex .transition with
  | some existing =>
    if existing.recordHash = transition.hash then required w transition.content.episodeId
    else .raise (.conflict "transition identity conflicts with existing content")
  | none =>
    if episode.status ≠ .open
        ∨ !pendingEq episode.pendingBoundary (some transition.content.boundary) then
      .raise (.conflict "transition does not close the pending boundary")
    else if transition.content.decisionIndex ≠ episode.transitions.length then
      .raise (.conflict "transition index is not gapless")
    else do
      insertRecord (transitionRow w episode transition) "transition persistence conflict"
      required w transition.content.episodeId

def finalizeComplete (w id : UUID) : Op MarlEpisodeV1 := do
  let episode ← required w id
  if episode.status = .complete then pure episode
  else do
    let _ ← liftPy { episode with status := .complete }.validate
    updateEpisode w id fun row => { row with status := .complete }
    required w id

def finalizeIncomplete (w : UUID) (marker : IncompleteMarkerV1) : Op MarlEpisodeV1 := do
  let episode ← required w marker.content.episodeId
  if episode.status = .incomplete then
    if episode.incompleteMarker = some marker then pure episode
    else .raise (.conflict "incomplete marker conflicts with existing marker")
  else do
    let _ ← liftPy { episode with status := .incomplete, incompleteMarker := some marker }.validate
    updateEpisode w marker.content.episodeId fun row =>
      { row with
        status := .incomplete
        incompleteMarker := some (Hashed.codec.dump marker)
        incompleteHash := some marker.hash }
    required w marker.content.episodeId

/-- A call in its transaction. -/
def exec (call : MarlCall) : Op MarlEpisodeV1 :=
  .rollback <|
    match call with
    | .create episode _ => create episode
    | .capture workspaceId boundary => capture workspaceId boundary
    | .close workspaceId transition => close workspaceId transition
    | .finalizeComplete workspaceId episodeId => finalizeComplete workspaceId episodeId
    | .finalizeIncomplete workspaceId marker => finalizeIncomplete workspaceId marker

end SqlAlchemyMarlTrajectoryStore

end SqlStore

end Agora.Marl
