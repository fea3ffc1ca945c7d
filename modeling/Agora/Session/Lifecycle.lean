import Agora.Ledger.Event
import Agora.Lib.Runs
import Agora.Lib.Stateful

namespace Agora.Session

open Ledger (LedgerAppend)
open Stateful

/-!
# Session lifecycles

The states of a session, the transitions between them, and the two stores that keep one projection
for each session: a dictionary in memory, which is not validated again when it changes, and a table
whose rows are validated whenever they are read.  The ledger is a parameter of both.
-/

/-! ### States -/

inductive SessionLifecycleState where
  | draft
  | initializing
  | running
  | waitingForAgent
  | waitingForEvidence
  | waitingForCritique
  | waitingForSimulation
  | waitingForHuman
  | evaluatingConsensus
  | paused
  | failedRetryable
  | completed
  | partialConsensusState
  | noConsensus
  | deadlock
  | failed
  | cancelled
deriving DecidableEq, Repr

namespace SessionLifecycleState

def value : SessionLifecycleState → String
  | draft => "DRAFT"
  | initializing => "INITIALIZING"
  | running => "RUNNING"
  | waitingForAgent => "WAITING_FOR_AGENT"
  | waitingForEvidence => "WAITING_FOR_EVIDENCE"
  | waitingForCritique => "WAITING_FOR_CRITIQUE"
  | waitingForSimulation => "WAITING_FOR_SIMULATION"
  | waitingForHuman => "WAITING_FOR_HUMAN"
  | evaluatingConsensus => "EVALUATING_CONSENSUS"
  | paused => "PAUSED"
  | failedRetryable => "FAILED_RETRYABLE"
  | completed => "COMPLETED"
  | partialConsensusState => "PARTIAL_CONSENSUS_STATE"
  | noConsensus => "NO_CONSENSUS"
  | deadlock => "DEADLOCK"
  | failed => "FAILED"
  | cancelled => "CANCELLED"

/-- `_TRANSITIONS`. -/
def transitions : SessionLifecycleState → List SessionLifecycleState
  | draft => [initializing, failed]
  | initializing => [running, failedRetryable, failed, cancelled]
  | running => [waitingForAgent, waitingForEvidence, waitingForCritique, waitingForSimulation,
      waitingForHuman, evaluatingConsensus, paused, failedRetryable, failed, cancelled]
  | waitingForAgent | waitingForEvidence | waitingForCritique | waitingForSimulation =>
    [running, failedRetryable, failed, cancelled]
  | waitingForHuman => [running, paused, failed, cancelled]
  | evaluatingConsensus =>
    [running, completed, partialConsensusState, noConsensus, deadlock, failed, cancelled]
  | paused | failedRetryable => [running, failed, cancelled]
  | completed | partialConsensusState | noConsensus | deadlock | failed | cancelled => []

/-- `TERMINAL_SESSION_STATES`. -/
def terminal : SessionLifecycleState → Bool
  | completed | partialConsensusState | noConsensus | deadlock | failed | cancelled => true
  | _ => false

/-- Nothing leads out of a terminal state. -/
theorem transitions_of_terminal {s : SessionLifecycleState} (h : s.terminal = true) :
    s.transitions = [] := by
  cases s <;> first | rfl | cases h

/-- Nothing leads back to a draft. -/
theorem draft_not_mem_transitions (s : SessionLifecycleState) : draft ∉ s.transitions := by
  cases s <;> decide

end SessionLifecycleState

open SessionLifecycleState

/-! ### Projections -/

structure SessionLifecycle where
  workspaceId : UUID
  sessionId : UUID
  state : SessionLifecycleState := .draft
  round : ℕ := 0
  workflowId : Option String := none
  runId : Option String := none
  lastEventId : Option UUID := none
  initializedAt : Option Datetime := none
  startedAt : Option Datetime := none
  endedAt : Option Datetime := none
  createdAt : Datetime
  updatedAt : Datetime
deriving DecidableEq

/-- `consistent_projection`. -/
def SessionLifecycle.consistentProjection (s : SessionLifecycle) : Py Unit :=
  if s.workflowId.isNone ≠ s.runId.isNone then
    .error (.valueError "workflow_id and run_id must be set together")
  else if s.updatedAt < s.createdAt then
    .error (.valueError "updated_at must not precede created_at")
  else if s.state = .draft ∧ s.lastEventId ≠ none then
    .error (.valueError "a draft lifecycle cannot have a transition event")
  else if s.state ≠ .draft ∧ s.initializedAt = none then
    .error (.valueError "a non-draft lifecycle requires initialized_at")
  else if s.state ∉ [.draft, .initializing] ∧ s.startedAt = none then
    .error (.valueError "a started lifecycle requires started_at")
  else if s.state.terminal ≠ s.endedAt.isSome then
    .error (.valueError "ended_at must be set exactly for terminal lifecycle states")
  else .ok ()

/-- What a consistent projection says. -/
structure SessionLifecycle.Consistent (s : SessionLifecycle) : Prop where
  workflow : s.workflowId.isNone = s.runId.isNone
  updated : s.createdAt ≤ s.updatedAt
  draft : s.state = .draft → s.lastEventId = none
  initialized : s.state ≠ .draft → s.initializedAt ≠ none
  started : s.state ∉ [.draft, .initializing] → s.startedAt ≠ none
  ended : s.state.terminal = s.endedAt.isSome

theorem SessionLifecycle.consistentProjection_eq_ok {s : SessionLifecycle} :
    s.consistentProjection = .ok () ↔ s.Consistent := by
  unfold consistentProjection
  constructor
  · intro h
    split_ifs at h with hworkflow hupdated hdraft hinitialized hstarted hended
    exact ⟨not_not.mp hworkflow, not_lt.mp hupdated, fun hs => not_not.mp (not_and.mp hdraft hs),
      not_and.mp hinitialized, not_and.mp hstarted, not_not.mp hended⟩
  · rintro ⟨hworkflow, hupdated, hdraft, hinitialized, hstarted, hended⟩
    rw [if_neg (not_not.mpr hworkflow), if_neg (not_lt.mpr hupdated),
      if_neg fun h => h.2 (hdraft h.1), if_neg fun h => hinitialized h.1 h.2,
      if_neg fun h => hstarted h.1 h.2, if_neg (not_not.mpr hended)]

/-! ### Transitions -/

structure SessionTransition where
  source : SessionLifecycleState
  target : SessionLifecycleState
  round : ℕ
  event : LedgerAppend
  allowSameState : Bool := false
  event_round : event.round = round
  same_state : source = target → allowSameState = true

/-- `InvalidSessionTransition` is a `ValueError`. -/
def invalidSessionTransition (message : String) : PyException := .valueError message

def validateSessionTransition (source target : SessionLifecycleState) (currentRound nextRound : ℕ)
    (allowSameState : Bool) : Py Unit :=
  if source = target then
    if ¬ allowSameState then
      .error (invalidSessionTransition "session transition must change state")
    else if nextRound ≠ currentRound then
      .error (invalidSessionTransition "same-state event cannot change session round")
    else .ok ()
  else if target ∉ source.transitions then
    .error (invalidSessionTransition
      ("session cannot transition from " ++ source.value ++ " to " ++ target.value))
  else if nextRound < currentRound then
    .error (invalidSessionTransition "session round cannot decrease")
  else if currentRound + 1 < nextRound then
    .error (invalidSessionTransition "session round can advance by at most one")
  else if nextRound ≠ currentRound ∧ target ≠ .running then
    .error (invalidSessionTransition "session round may advance only when entering RUNNING")
  else .ok ()

/-- What a valid transition is: an event in the same state, or a step of the graph. -/
theorem validateSessionTransition_ok {source target : SessionLifecycleState}
    {currentRound nextRound : ℕ} {allowSameState : Bool}
    (h : validateSessionTransition source target currentRound nextRound allowSameState = .ok ()) :
    (source = target ∧ nextRound = currentRound)
      ∨ (source ≠ target ∧ target ∈ source.transitions ∧ currentRound ≤ nextRound
        ∧ nextRound ≤ currentRound + 1 ∧ (nextRound ≠ currentRound → target = .running)) := by
  unfold validateSessionTransition at h
  split_ifs at h with hsame hallow hround hedge hless hmore hrunning
  · exact .inl ⟨hsame, not_not.mp hround⟩
  · refine .inr ⟨hsame, hedge, not_lt.mp hless, not_lt.mp hmore, fun hne => ?_⟩
    by_contra htarget
    exact hrunning ⟨hne, htarget⟩

/-- The projection after a transition. -/
def SessionLifecycle.moved (current : SessionLifecycle) (command : SessionTransition) :
    SessionLifecycle :=
  let fresh := current.state = .draft
  { current with
    state := command.target
    round := command.round
    lastEventId := some command.event.id
    updatedAt := command.event.recordedAt
    initializedAt := if fresh then some command.event.recordedAt else current.initializedAt
    startedAt :=
      if fresh ∨ command.target = .running ∧ current.startedAt = none then
        some command.event.recordedAt
      else current.startedAt
    endedAt := if command.target.terminal then some command.event.recordedAt else current.endedAt }

/-! ### Stores -/

/-- The projections by workspace and session, beside a ledger. -/
structure LifecycleState (L : Type) where
  ledger : L
  values : UUID × UUID → Option SessionLifecycle

def setValue (key : UUID × UUID) (value : SessionLifecycle)
    (values : UUID × UUID → Option SessionLifecycle) : UUID × UUID → Option SessionLifecycle :=
  fun k => if k = key then some value else values k

def LifecycleState.set {L : Type} (key : UUID × UUID) (value : SessionLifecycle)
    (s : LifecycleState L) : LifecycleState L :=
  { s with values := setValue key value s.values }

/-- The commands of a store. -/
inductive LifecycleCommand where
  | addDraft (workspaceId sessionId : UUID) (createdAt : Datetime)
  | attachWorkflow (workspaceId sessionId : UUID) (workflowId runId : String)
  | transition (command : SessionTransition)

/-- The session of a command. -/
def SessionTransition.key (command : SessionTransition) : UUID × UUID :=
  (command.event.workspaceId, command.event.sessionId)

/-- A repeated event, in the state that it has led to. -/
def SessionTransition.isRepeated (command : SessionTransition) (current : SessionLifecycle) : Prop :=
  current.state = command.target ∧ current.lastEventId = some command.event.id

instance (command : SessionTransition) (current : SessionLifecycle) :
    Decidable (command.isRepeated current) := by
  unfold SessionTransition.isRepeated
  infer_instance

section Stores

variable {L : Type} (append : LedgerAppend → L → Py Unit × L)

def appendEvent (event : LedgerAppend) : Stateful (LifecycleState L) PyException Unit := fun s =>
  ((append event s.ledger).1, { s with ledger := (append event s.ledger).2 })

/-- The checks of a transition that is not a repetition. -/
def checkTransition (command : SessionTransition) (current : SessionLifecycle) : Py Unit :=
  if current.state ≠ command.source then
    .error (invalidSessionTransition
      ("expected session state " ++ command.source.value ++ ", found " ++ current.state.value))
  else
    validateSessionTransition current.state command.target current.round command.round
      command.allowSameState

/-- `InMemorySessionLifecycleStore`. -/
def inMemory : LifecycleCommand → Stateful (LifecycleState L) PyException SessionLifecycle
  | .addDraft workspaceId sessionId createdAt => do
    let value : SessionLifecycle := { workspaceId, sessionId, createdAt, updatedAt := createdAt }
    match ← read (·.values (workspaceId, sessionId)) with
    | some _ => raise (invalidSessionTransition "session lifecycle already exists")
    | none =>
      write (LifecycleState.set (workspaceId, sessionId) value)
      pure value
  | .attachWorkflow workspaceId sessionId workflowId runId =>
    if isBlank workflowId ∨ isBlank runId then
      raise (.valueError "workflow_id and run_id must not be blank")
    else do
      match ← read (·.values (workspaceId, sessionId)) with
      | none => raise (invalidSessionTransition "session lifecycle does not exist")
      | some value =>
        if value.workflowId ≠ none ∧ (value.workflowId, value.runId) ≠ (some workflowId, some runId) then
          raise (invalidSessionTransition "session is attached to a different workflow execution")
        else do
          let value := { value with workflowId := some workflowId, runId := some runId }
          write (LifecycleState.set (workspaceId, sessionId) value)
          pure value
  | .transition command => do
    match ← read (·.values command.key) with
    | none => raise (invalidSessionTransition "session lifecycle does not exist")
    | some current =>
      if command.isRepeated current then do
        appendEvent append command.event
        pure current
      else do
        lift (checkTransition command current)
        appendEvent append command.event
        write (LifecycleState.set command.key (current.moved command))
        pure (current.moved command)

/-- `_projection`. -/
def projection (row : SessionLifecycle) : Py SessionLifecycle := do
  row.consistentProjection
  pure row

/-- `SqlAlchemySessionLifecycleStore`. -/
def sqlStatements : LifecycleCommand → Stateful (LifecycleState L) PyException SessionLifecycle
  | .addDraft workspaceId sessionId createdAt => do
    let row : SessionLifecycle := { workspaceId, sessionId, createdAt, updatedAt := createdAt }
    match ← read (·.values (workspaceId, sessionId)) with
    | some _ => raise (.runtimeError "duplicate key value violates unique constraint")
    | none =>
      write (LifecycleState.set (workspaceId, sessionId) row)
      lift (projection row)
  | .attachWorkflow workspaceId sessionId workflowId runId =>
    if isBlank workflowId ∨ isBlank runId then
      raise (.valueError "workflow_id and run_id must not be blank")
    else do
      match ← read (·.values (workspaceId, sessionId)) with
      | none => raise (invalidSessionTransition ("session " ++ sessionId.text
          ++ " has no lifecycle in workspace " ++ workspaceId.text))
      | some row =>
        if row.workflowId ≠ none then
          if (row.workflowId, row.runId) ≠ (some workflowId, some runId) then
            raise (invalidSessionTransition "session is attached to a different workflow execution")
          else lift (projection row)
        else do
          let row := { row with workflowId := some workflowId, runId := some runId }
          write (LifecycleState.set (workspaceId, sessionId) row)
          lift (projection row)
  | .transition command => do
    match ← read (·.values command.key) with
    | none => raise (invalidSessionTransition ("session " ++ command.event.sessionId.text
        ++ " has no lifecycle in workspace " ++ command.event.workspaceId.text))
    | some current =>
      if command.isRepeated current then do
        appendEvent append command.event
        lift (projection current)
      else do
        lift (checkTransition command current)
        appendEvent append command.event
        write (LifecycleState.set command.key (current.moved command))
        lift (projection (current.moved command))

/-- Each command in a transaction of its own. -/
def sql (command : LifecycleCommand) : Stateful (LifecycleState L) PyException SessionLifecycle :=
  rollback (sqlStatements append command)

end Stores

end Agora.Session
