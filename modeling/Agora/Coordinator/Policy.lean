import Agora.Session.Effects
import Agora.Ledger.Chain
import Mathlib.Data.Prod.Lex

namespace Agora.Coordinator

open Ledger (LedgerAppend LedgerEvent LedgerState LedgerError Database NonBlank Payload jsonPayload
  ledgerIntegrityError raisedByLedger)
open Session (SessionLifecycle LifecycleState LifecycleCommand invalidSessionTransition)
open Stateful

/-!
# Session membership

A session is bound to agent definitions.  A human may replace one before the first round and inject
others later; every intervention is a row of its own beside an event of the ledger.  `membership`
replays the rows that are effective in a round, `apply` admits a new one.
-/

/-! ### Data -/

inductive AgentStatus where
  | draft
  | active
  | deprecated
  | withdrawn
deriving DecidableEq, Repr

/-- One version of one agent: the fields that membership depends on. -/
structure AgentDefinition where
  id : UUID
  workspaceId : UUID
  logicalId : UUID
  version : ℕ
  status : AgentStatus
  referencedAt : Option Datetime
deriving DecidableEq

inductive MembershipInterventionKind where
  | replace
  | inject
deriving DecidableEq, Repr

def MembershipInterventionKind.value : MembershipInterventionKind → String
  | .replace => "REPLACE"
  | .inject => "INJECT"

/-- An intervention, and a request for one. -/
structure MembershipIntervention where
  eventId : UUID
  workspaceId : UUID
  sessionId : UUID
  kind : MembershipInterventionKind
  replacedAgentDefinitionId : Option UUID
  agentDefinitionId : UUID
  effectiveRound : ℕ
  actorId : UUID
  correlationId : UUID
  reason : NonBlank
  recordedAt : Datetime
  positive_round : 1 ≤ effectiveRound
  replacement_shape : kind = .replace ↔ replacedAgentDefinitionId ≠ none
  replacement_differs : replacedAgentDefinitionId ≠ some agentDefinitionId
deriving DecidableEq

structure MembershipSnapshot where
  workspaceId : UUID
  sessionId : UUID
  round : ℕ
  definitions : List AgentDefinition
  positive_round : 1 ≤ round
  nonempty : definitions ≠ []
  same_workspace : ∀ d ∈ definitions, d.workspaceId = workspaceId
  one_version : (definitions.map (·.logicalId)).Nodup

/-- `MembershipSnapshot(...)`. -/
def membershipSnapshot (workspaceId sessionId : UUID) (round : ℕ) (definitions : List AgentDefinition) :
    Py MembershipSnapshot :=
  if hround : 1 ≤ round then
    if hempty : definitions ≠ [] then
      if hworkspace : ∀ d ∈ definitions, d.workspaceId = workspaceId then
        if hversion : (definitions.map (·.logicalId)).Nodup then
          .ok ⟨workspaceId, sessionId, round, definitions, hround, hempty, hworkspace, hversion⟩
        else
          .error (.valueError "session membership contains multiple versions of one logical agent")
      else .error (.valueError "session membership contains another workspace")
    else .error (.valueError "session membership must not be empty")
  else .error (.valueError "Input should be greater than or equal to 1")

/-! ### Tables -/

/-- `SessionAgentRow`. -/
structure SessionAgent where
  workspaceId : UUID
  sessionId : UUID
  agentDefId : UUID
  boundAt : Datetime

def SessionAgent.sortKey (b : SessionAgent) : Datetime ×ₗ UUID := toLex (b.boundAt, b.agentDefId)

/-- The definitions by id and the agents that sessions are bound to.  A binding is of a definition in
    its workspace, and a trigger marks the definition as referenced. -/
structure Registry where
  agents : UUID → Option AgentDefinition
  bindings : List SessionAgent
  agent_id : ∀ id d, agents id = some d → d.id = id
  bound : ∀ b ∈ bindings, ∃ d, agents b.agentDefId = some d ∧ d.workspaceId = b.workspaceId
    ∧ d.referencedAt ≠ none

namespace Registry

variable (r : Registry)

/-- `get_definition`. -/
def definition? (workspaceId id : UUID) : Option AgentDefinition :=
  (r.agents id).filter (·.workspaceId = workspaceId)

/-- The definitions that a session is bound to, `order_by(bound_at, agent_def_id)`. -/
def initial (workspaceId sessionId : UUID) : List AgentDefinition :=
  let bound := r.bindings.filter fun b => b.workspaceId = workspaceId ∧ b.sessionId = sessionId
  (bound.insertionSort fun a b => a.sortKey ≤ b.sortKey).filterMap fun b =>
    r.definition? b.workspaceId b.agentDefId

end Registry

/-- `UPDATE agent_definitions SET referenced_at = COALESCE(referenced_at, :at)`, in one row. -/
def AgentDefinition.reference (workspaceId agentId : UUID) (recordedAt : Datetime) (d : AgentDefinition) :
    AgentDefinition :=
  if d.workspaceId = workspaceId ∧ d.id = agentId then
    { d with referencedAt := d.referencedAt <|> some recordedAt }
  else d

section Reference

variable (workspaceId agentId : UUID) (recordedAt : Datetime) (d : AgentDefinition)

@[simp] theorem AgentDefinition.reference_id : (d.reference workspaceId agentId recordedAt).id = d.id := by
  unfold reference
  split <;> rfl

@[simp] theorem AgentDefinition.reference_workspaceId :
    (d.reference workspaceId agentId recordedAt).workspaceId = d.workspaceId := by
  unfold reference
  split <;> rfl

variable {d}

/-- What is referenced stays as it is. -/
theorem AgentDefinition.reference_eq_self (h : d.referencedAt ≠ none) :
    d.reference workspaceId agentId recordedAt = d := by
  obtain ⟨t, ht⟩ := Option.ne_none_iff_exists'.mp h
  unfold reference
  split
  · rw [ht]
    cases d
    simp_all
  · rfl

end Reference

def Registry.reference (workspaceId agentId : UUID) (recordedAt : Datetime) (r : Registry) : Registry where
  agents id := (r.agents id).map (·.reference workspaceId agentId recordedAt)
  bindings := r.bindings
  agent_id id d h := by
    obtain ⟨e, he, rfl⟩ := Option.map_eq_some_iff.mp h
    rw [AgentDefinition.reference_id]
    exact r.agent_id id e he
  bound b hb := by
    obtain ⟨d, hd, hworkspace, hreferenced⟩ := r.bound b hb
    refine ⟨d, ?_, hworkspace, hreferenced⟩
    rw [hd, Option.map_some, AgentDefinition.reference_eq_self _ _ _ hreferenced]

structure PolicyState where
  sessions : LifecycleState LedgerState
  registry : Registry
  interventions : List MembershipIntervention

namespace PolicyState

variable (s : PolicyState)

/-- The ledger beside the lifecycles. -/
abbrev ledger : LedgerState := s.sessions.ledger

/-- `get_intervention`. -/
def intervention? (eventId : UUID) : Option MembershipIntervention :=
  s.interventions.find? (·.eventId = eventId)

/-- The event of an intervention. -/
def event? (i : MembershipIntervention) : Option LedgerEvent :=
  s.ledger.events.find? fun e =>
    e.id = i.eventId ∧ e.workspaceId = i.workspaceId ∧ e.sessionId = i.sessionId

/-- The interventions in a session that are effective in a round. -/
def rows (workspaceId sessionId : UUID) (round : ℕ) : List MembershipIntervention :=
  s.interventions.filter fun i =>
    i.workspaceId = workspaceId ∧ i.sessionId = sessionId ∧ i.effectiveRound ≤ round

def sortKey (row : MembershipIntervention × ℕ) : ℕ ×ₗ ℕ := toLex (row.1.effectiveRound, row.2)

/-- The interventions that are effective in a round, with the numbers of their events,
    `order_by(effective_round, ledger_seq)`. -/
def effective (workspaceId sessionId : UUID) (round : ℕ) : List (MembershipIntervention × ℕ) :=
  let joined := (s.rows workspaceId sessionId round).filterMap fun i =>
    (s.event? i).map fun e => (i, e.ledgerSeq)
  joined.insertionSort fun a b => sortKey a ≤ sortKey b

end PolicyState

/-! ### Membership -/

/-- The body of the loop over the interventions. -/
def intervene (r : Registry) (workspaceId : UUID) (ordered : List AgentDefinition)
    (i : MembershipIntervention) : Py (List AgentDefinition) :=
  match r.definition? workspaceId i.agentDefinitionId with
  | none => .error (.lookupError i.agentDefinitionId.text)
  | some definition =>
    match i.kind with
    | .replace =>
      match ordered.findIdx? fun item => some item.id = i.replacedAgentDefinitionId with
      | some index => .ok (ordered.set index definition)
      | none => .error (ledgerIntegrityError
          "membership history replaces a definition that is not effective")
    | .inject => .ok (ordered ++ [definition])

/-- The loop over the interventions. -/
def PolicyState.members (s : PolicyState) (workspaceId sessionId : UUID) (round : ℕ) :
    Py (List AgentDefinition) :=
  ((s.effective workspaceId sessionId round).map Prod.fst).foldlM (intervene s.registry workspaceId)
    (s.registry.initial workspaceId sessionId)

/-- `membership`. -/
def PolicyState.membership (s : PolicyState) (workspaceId sessionId : UUID) (round : ℕ) :
    Py MembershipSnapshot :=
  if round < 1 then .error (.valueError "membership round must be at least 1")
  else do
    let ordered ← s.members workspaceId sessionId round
    membershipSnapshot workspaceId sessionId round ordered

/-! ### Applying a request -/

/-- The round that a request has to be for. -/
def targetRound (lifecycle : SessionLifecycle) : ℕ :=
  if lifecycle.round = 0 then 1 else lifecycle.round + 1

/-- The checks of the round and the kind. -/
def checkRound (lifecycle : Option SessionLifecycle) (request : MembershipIntervention) :
    Py SessionLifecycle :=
  match lifecycle with
  | none => .error (invalidSessionTransition "session is missing or terminal")
  | some lifecycle =>
    if lifecycle.state.terminal then
      .error (invalidSessionTransition "session is missing or terminal")
    else if request.effectiveRound ≠ targetRound lifecycle then
      .error (invalidSessionTransition ("membership intervention must become effective in round "
        ++ toString (targetRound lifecycle)))
    else if request.kind = .replace ∧ lifecycle.round ≠ 0 then
      .error (invalidSessionTransition "agent replacement is allowed only before round 1")
    else if request.kind = .inject ∧ lifecycle.round = 0 then
      .error (invalidSessionTransition "agent injection requires a started session")
    else .ok lifecycle

def checkDefinition (definition : Option AgentDefinition) (request : MembershipIntervention) :
    Py AgentDefinition :=
  match definition with
  | none => .error (.valueError "new agent definition must be active in the session workspace")
  | some definition =>
    if definition.workspaceId ≠ request.workspaceId ∨ definition.status ≠ .active then
      .error (.valueError "new agent definition must be active in the session workspace")
    else .ok definition

/-- The checks against the current members. -/
def checkMembers (current : List AgentDefinition) (definition : AgentDefinition)
    (request : MembershipIntervention) : Py Unit :=
  match request.kind with
  | .replace =>
    match current.find? fun item => some item.id = request.replacedAgentDefinitionId with
    | none => .error (.valueError "replaced agent definition is not effective for the target round")
    | some replaced =>
      if definition.logicalId ∈ (current.filter (·.id ≠ replaced.id)).map (·.logicalId) then
        .error (.valueError "replacement would add multiple versions of one logical agent")
      else .ok ()
  | .inject =>
    if definition.logicalId ∈ current.map (·.logicalId) then
      .error (.valueError "injection would add multiple versions of one logical agent")
    else .ok ()

def eventType : MembershipInterventionKind → NonBlank
  | .replace => ⟨"SESSION_AGENT_REPLACED", by decide⟩
  | .inject => ⟨"SESSION_AGENT_INJECTED", by decide⟩

/-- The event of a request. -/
def interventionEvent (request : MembershipIntervention) (lifecycle : SessionLifecycle)
    (definition : AgentDefinition) : Py LedgerAppend := do
  let payload ← jsonPayload
    [(.ofString "agent_definition_id", .text request.agentDefinitionId.text),
      (.ofString "agent_definition_version", .int definition.version),
      (.ofString "effective_round", .int request.effectiveRound),
      (.ofString "kind", .text request.kind.value),
      (.ofString "logical_agent_id", .text definition.logicalId.text),
      (.ofString "reason", .text request.reason.text),
      (.ofString "replaced_agent_definition_id", Ledger.uuidOrNull request.replacedAgentDefinitionId)]
  pure
    { id := request.eventId
      workspaceId := request.workspaceId
      sessionId := request.sessionId
      eventType := eventType request.kind
      payloadSchemaVersion := 1
      causationId := none
      correlationId := request.correlationId
      actorClass := .human
      actorId := request.actorId
      round := lifecycle.round
      payload
      recordedAt := request.recordedAt
      positive_version := Nat.one_pos }

section Commands

variable (db : Database)

/-- The ledger behind both stores. -/
def appendTo (event : LedgerAppend) (ledger : LedgerState) : Py Unit × LedgerState :=
  (((Ledger.append db event ledger).1.mapError raisedByLedger).map fun _ => (),
    (Ledger.append db event ledger).2)

def appendEvent (event : LedgerAppend) : Stateful PolicyState PyException Unit :=
  zoom (·.sessions) (fun sessions s => { s with sessions }) (Session.appendEvent (appendTo db) event)

/-- `add_intervention`. -/
def addIntervention (i : MembershipIntervention) : Stateful PolicyState PyException Unit := do
  match ← read (·.intervention? i.eventId) with
  | some existing =>
    if existing ≠ i then
      raise (ledgerIntegrityError "membership intervention event id was reused with different content")
    else pure ()
  | none =>
    write fun s =>
      { s with
        registry := s.registry.reference i.workspaceId i.agentDefinitionId i.recordedAt
        interventions := s.interventions ++ [i] }

/-- The lifecycle of a session, validated when it is read. -/
def PolicyState.lifecycle (s : PolicyState) (workspaceId sessionId : UUID) :
    Py (Option SessionLifecycle) :=
  match s.sessions.values (workspaceId, sessionId) with
  | none => .ok none
  | some row => some <$> Session.projection row

/-- All that `apply` checks before it writes. -/
def PolicyState.checked (s : PolicyState) (request : MembershipIntervention) :
    Py (SessionLifecycle × AgentDefinition) := do
  let lifecycle ← s.lifecycle request.workspaceId request.sessionId
  let lifecycle ← checkRound lifecycle request
  let definition ← checkDefinition
    (s.registry.definition? request.workspaceId request.agentDefinitionId) request
  let current ← s.membership request.workspaceId request.sessionId request.effectiveRound
  checkMembers current.definitions definition request
  pure (lifecycle, definition)

/-- `SessionMembershipCoordinator.apply`. -/
def applyStatements (request : MembershipIntervention) :
    Stateful PolicyState PyException MembershipSnapshot := do
  match ← read (·.intervention? request.eventId) with
  | some prior =>
    if prior ≠ request then
      raise (.valueError "membership intervention event id was reused with different content")
    else
      query (·.membership request.workspaceId request.sessionId request.effectiveRound)
  | none => do
    let (lifecycle, definition) ← query (·.checked request)
    let event ← lift (interventionEvent request lifecycle definition)
    appendEvent db event
    addIntervention request
    query (·.membership request.workspaceId request.sessionId request.effectiveRound)

/-- Each request in a transaction of its own. -/
def apply (request : MembershipIntervention) : Stateful PolicyState PyException MembershipSnapshot :=
  rollback (applyStatements db request)

/-- What happens to a session: interventions and lifecycle commands. -/
inductive PolicyCommand where
  | apply (request : MembershipIntervention)
  | lifecycle (command : LifecycleCommand)

def exec : PolicyCommand → Stateful PolicyState PyException Unit
  | .apply request => do
    let _ ← apply db request
    pure ()
  | .lifecycle command => do
    let _ ← zoom (·.sessions) (fun sessions s => { s with sessions })
      (Session.sql (appendTo db) command)
    pure ()

end Commands

end Agora.Coordinator
