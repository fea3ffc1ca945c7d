import Agora.Coordinator.Ceilings
import Agora.Coordinator.Policy
import Agora.Session.Consistency

namespace Agora.Coordinator

open Ledger (LedgerAppend LedgerEvent LedgerState Database Payload jsonPayload uuidOrNull)
open Session (SessionLifecycle SessionTransition LifecycleState setValue)
open Stateful

/-!
# Budget enforcement

The budget is enforced before and after a batch of turns is dispatched.  A ceiling that has been
reached moves the session to `FAILED` with an event; from then on nothing is dispatched
(`budgets_stop_dispatch`).  The move is a transition of the lifecycle store, which may refuse it, and a
budget that is no ceiling stops the batch without ending the session.
-/

/-! ### The lifecycle store -/

/-- Where the lifecycles are. -/
inductive LifecycleStore where
  | inMemory
  | sqlAlchemy
deriving DecidableEq, Repr

namespace LifecycleStore

variable (db : Database)

/-- A row of the database is validated when it is read. -/
def get (store : LifecycleStore) (key : UUID × UUID) :
    Stateful (LifecycleState LedgerState) PyException (Option SessionLifecycle) := do
  match ← read (·.values key) with
  | none => pure none
  | some value =>
    match store with
    | inMemory => pure (some value)
    | sqlAlchemy => do
      let value ← lift (Session.projection value)
      pure (some value)

def transition (store : LifecycleStore) (command : SessionTransition) :
    Stateful (LifecycleState LedgerState) PyException SessionLifecycle :=
  match store with
  | inMemory => Session.inMemory (appendTo db) (.transition command)
  | sqlAlchemy => Session.sql (appendTo db) (.transition command)

end LifecycleStore

/-! ### Enforcement -/

structure BudgetState where
  sessions : LifecycleState LedgerState
  calls : List LLMCallRecord

inductive BudgetError where
  | exhausted (lifecycle : SessionLifecycle)
  | invalidSessionTransition (message : String)
  | raised (e : PyException)

/-- The arguments of `enforce`. -/
structure BudgetCheck where
  workspaceId : UUID
  sessionId : UUID
  agentDefinitionIds : List UUID
  eventId : UUID
  correlationId : UUID
  actorId : UUID
  checkedAt : Datetime

def BudgetCheck.key (check : BudgetCheck) : UUID × UUID := (check.workspaceId, check.sessionId)

/-- The payload of the event, by key. -/
def budgetPayload (lifecycle : SessionLifecycle) (b : Breach) : List (PyStr × Json) :=
  [(.ofString "agent_definition_id", uuidOrNull b.agentDefinitionId),
    (.ofString "from", .text lifecycle.state.value),
    (.ofString "max_tokens", .int b.ceiling.maxTokens),
    (.ofString "max_usd", .text b.ceiling.maxUsd.text),
    (.ofString "scope", .text b.scope),
    (.ofString "termination_reason", .text "BUDGET_EXHAUSTED"),
    (.ofString "to", .text Session.SessionLifecycleState.failed.value),
    (.ofString "usage_tokens", .int b.usage.tokens),
    (.ofString "usage_usd", .text b.usage.costUsd.text)]

def budgetEvent (check : BudgetCheck) (lifecycle : SessionLifecycle) (payload : Payload) :
    LedgerAppend where
  id := check.eventId
  workspaceId := check.workspaceId
  sessionId := check.sessionId
  eventType := ⟨"BUDGET_EXHAUSTED", by decide⟩
  payloadSchemaVersion := 1
  causationId := none
  correlationId := check.correlationId
  actorClass := .service
  actorId := check.actorId
  round := lifecycle.round
  payload
  recordedAt := check.checkedAt
  positive_version := Nat.one_pos

/-- A live session fails. -/
def budgetTransition (check : BudgetCheck) (lifecycle : SessionLifecycle)
    (hlive : lifecycle.state.terminal = false) (payload : Payload) : SessionTransition where
  source := lifecycle.state
  target := .failed
  round := lifecycle.round
  event := budgetEvent check lifecycle payload
  event_round := rfl
  same_state h := by
    rw [h] at hlive
    cases hlive

section Coordinator

variable (store : LifecycleStore) (db : Database) (tables : BudgetTables)

def onSessions {α : Type} (x : Stateful (LifecycleState LedgerState) PyException α) :
    Stateful BudgetState BudgetError α :=
  zoom (·.sessions) (fun sessions s => { s with sessions }) (x.mapError .raised)

theorem onSessions_apply {α : Type} (x : Stateful (LifecycleState LedgerState) PyException α)
    (s : BudgetState) :
    onSessions x s = ((x s.sessions).1.mapError .raised, { s with sessions := (x s.sessions).2 }) := rfl

/-- `BudgetCoordinator.enforce`. -/
def enforce (check : BudgetCheck) : Stateful BudgetState BudgetError Unit := do
  match ← onSessions (store.get check.key) with
  | none => raise (.invalidSessionTransition "session lifecycle does not exist")
  | some lifecycle =>
    if hlive : lifecycle.state.terminal = false then do
      let calls ← read (·.calls)
      match ← lift ((breachOf tables calls check.workspaceId check.sessionId
          check.agentDefinitionIds).mapError .raised) with
      | none => pure ()
      | some b => do
        let payload ← lift ((jsonPayload (budgetPayload lifecycle b)).mapError .raised)
        let terminated ← onSessions (store.transition db (budgetTransition check lifecycle hlive payload))
        raise (.exhausted terminated)
    else if lifecycle.lastEventId = some check.eventId ∧ lifecycle.state = .failed then
      raise (.exhausted lifecycle)
    else raise (.invalidSessionTransition "session is already terminal")

/-! ### Dispatch -/

/-- What `dispatch` reads of a `ReasoningContext`. -/
structure TurnIdentity where
  workspaceId : UUID
  sessionId : UUID
  agentDefinitionId : UUID
  correlationId : UUID

structure DispatchRequest where
  contexts : List TurnIdentity
  budgetEventId : UUID
  actorId : UUID
  checkedAt : Datetime

/-- What the inner dispatcher does when it is called: the calls of models that are recorded meanwhile, and
    its outcomes. -/
structure InnerRun (Ω : Type) where
  recorded : List LLMCallRecord
  answer : Py Ω

def DispatchRequest.check (request : DispatchRequest) (first : TurnIdentity) : BudgetCheck where
  workspaceId := first.workspaceId
  sessionId := first.sessionId
  agentDefinitionIds := request.contexts.map (·.agentDefinitionId)
  eventId := request.budgetEventId
  correlationId := first.correlationId
  actorId := request.actorId
  checkedAt := request.checkedAt

/-- The state, and the batches that the inner dispatcher was called with. -/
structure DispatchState where
  budget : BudgetState
  dispatched : List (List TurnIdentity)

def DispatchState.record (calls : List LLMCallRecord) (s : DispatchState) : DispatchState :=
  { s with budget := { s.budget with calls := s.budget.calls ++ calls } }

def DispatchState.innerCalled (contexts : List TurnIdentity) (s : DispatchState) : DispatchState :=
  { s with dispatched := s.dispatched ++ [contexts] }

def enforced (check : BudgetCheck) : Stateful DispatchState BudgetError Unit :=
  zoom (·.budget) (fun budget s => { s with budget }) (enforce store db tables check)

/-- `BudgetedAgentTurnDispatcher.dispatch`. -/
def dispatch {Ω : Type} (request : DispatchRequest) (inner : InnerRun Ω) :
    Stateful DispatchState BudgetError Ω :=
  match request.contexts with
  | [] => raise (.raised (.valueError "dispatch requires at least one logical turn"))
  | first :: _ => do
    enforced store db tables (request.check first)
    write (DispatchState.innerCalled request.contexts)
    write (DispatchState.record inner.recorded)
    let outcomes ← lift (inner.answer.mapError .raised)
    enforced store db tables (request.check first)
    pure outcomes

/-- A call, and the usage that was recorded since the last one. -/
structure DispatchCall (Ω : Type) where
  recorded : List LLMCallRecord
  request : DispatchRequest
  inner : InnerRun Ω

def perform {Ω : Type} (call : DispatchCall Ω) (s : DispatchState) :
    Except BudgetError Ω × DispatchState :=
  dispatch store db tables call.request call.inner (s.record call.recorded)

end Coordinator

/-! ### What the store does with the transition -/

section Transition

variable {store : LifecycleStore} {db : Database} {check : BudgetCheck} {lifecycle : SessionLifecycle}
  {payload : Payload} {s : LifecycleState LedgerState}

/-- Every live session can fail. -/
theorem failed_mem_transitions {state : Session.SessionLifecycleState} (h : state.terminal = false) :
    .failed ∈ state.transitions := by
  cases state <;> first | decide | cases h

theorem checkTransition_budget (hlive : lifecycle.state.terminal = false) :
    Session.checkTransition (budgetTransition check lifecycle hlive payload) lifecycle = .ok () := by
  have hne : lifecycle.state ≠ .failed := by
    intro h
    rw [h] at hlive
    cases hlive
  unfold Session.checkTransition Session.validateSessionTransition
  simp [budgetTransition, hne, failed_mem_transitions hlive]

theorem not_isRepeated_budget (hlive : lifecycle.state.terminal = false) :
    ¬ (budgetTransition check lifecycle hlive payload).isRepeated lifecycle := by
  rintro ⟨h, -⟩
  rw [h] at hlive
  cases hlive

/-- The lifecycle of a session that a check has ended. -/
def failedBy (check : BudgetCheck) (lifecycle : SessionLifecycle) : SessionLifecycle :=
  { lifecycle with
    state := .failed
    lastEventId := some check.eventId
    initializedAt := if lifecycle.state = .draft then some check.checkedAt else lifecycle.initializedAt
    startedAt := if lifecycle.state = .draft then some check.checkedAt else lifecycle.startedAt
    endedAt := some check.checkedAt
    updatedAt := check.checkedAt }

theorem moved_budget (hlive : lifecycle.state.terminal = false) :
    lifecycle.moved (budgetTransition check lifecycle hlive payload) = failedBy check lifecycle := by
  unfold SessionLifecycle.moved failedBy
  simp [budgetTransition, budgetEvent, Session.SessionLifecycleState.terminal]

/-- The check is not earlier than the session, and the session has started.  It has when it left the draft
    through the store. -/
def InTime (check : BudgetCheck) (lifecycle : SessionLifecycle) : Prop :=
  lifecycle.createdAt ≤ check.checkedAt ∧ (lifecycle.state = .initializing → lifecycle.startedAt ≠ none)

/-- The failed session is consistent when the check is in time. -/
theorem consistent_failedBy (hconsistent : lifecycle.Consistent) :
    (failedBy check lifecycle).Consistent ↔ InTime check lifecycle := by
  constructor
  · intro h
    refine ⟨h.updated, fun hstate => ?_⟩
    have hstarted : (if lifecycle.state = .draft then some check.checkedAt else lifecycle.startedAt) ≠ none :=
      h.started (by show Session.SessionLifecycleState.failed ∉ _; decide)
    have hdraft : lifecycle.state ≠ .draft := by
      rw [hstate]
      decide
    rwa [if_neg hdraft] at hstarted
  · rintro ⟨hcreated, hinitializing⟩
    have hstarted : lifecycle.state ≠ .draft → lifecycle.startedAt ≠ none := by
      intro hdraft
      by_cases hstate : lifecycle.state = .initializing
      · exact hinitializing hstate
      · exact hconsistent.started (by simp [hdraft, hstate])
    refine ⟨hconsistent.workflow, hcreated, nofun, fun _ => ?_, fun _ => ?_, rfl⟩
    · show (if lifecycle.state = .draft then some check.checkedAt else lifecycle.initializedAt) ≠ none
      split_ifs with hdraft
      · exact Option.some_ne_none _
      · exact hconsistent.initialized hdraft
    · show (if lifecycle.state = .draft then some check.checkedAt else lifecycle.startedAt) ≠ none
      split_ifs with hdraft
      · exact Option.some_ne_none _
      · exact hstarted hdraft

/-- An append that raises has kept the ledger. -/
theorem appendTo_error {event : LedgerAppend} {ledger : LedgerState} {e : PyException}
    (h : (appendTo db event ledger).1 = .error e) : (appendTo db event ledger).2 = ledger := by
  rcases Ledger.append_cases db event ledger with ⟨hsame, -⟩ | ⟨p, head, -, -, happend, -⟩
  · exact hsame
  · unfold appendTo at h
    rw [happend] at h
    cases h

/-- The ledger takes the event, and the database takes the row. -/
def Takes (store : LifecycleStore) (db : Database) (ledger : LedgerState) (check : BudgetCheck)
    (lifecycle : SessionLifecycle) (payload : Payload) : Prop :=
  (appendTo db (budgetEvent check lifecycle payload) ledger).1 = .ok ()
    ∧ (store = .sqlAlchemy → (failedBy check lifecycle).Consistent)

theorem transition_cases (hvalue : s.values check.key = some lifecycle)
    (hlive : lifecycle.state.terminal = false) :
    (Takes store db s.ledger check lifecycle payload
        ∧ store.transition db (budgetTransition check lifecycle hlive payload) s
          = (.ok (failedBy check lifecycle),
            ⟨(appendTo db (budgetEvent check lifecycle payload) s.ledger).2,
              setValue check.key (failedBy check lifecycle) s.values⟩))
      ∨ (¬ Takes store db s.ledger check lifecycle payload
        ∧ ∃ e, store.transition db (budgetTransition check lifecycle hlive payload) s = (.error e, s)) := by
  have hkey : (budgetTransition check lifecycle hlive payload).key = check.key := rfl
  have hevent : (budgetTransition check lifecycle hlive payload).event
    = budgetEvent check lifecycle payload := rfl
  cases happend : (appendTo db (budgetEvent check lifecycle payload) s.ledger).1 with
  | error e =>
    have hkept : (appendTo db (budgetEvent check lifecycle payload) s.ledger).2 = s.ledger :=
      appendTo_error happend
    refine .inr ⟨fun h => ?_, e, ?_⟩
    · have htaken := h.1
      rw [happend] at htaken
      cases htaken
    · cases store with
      | inMemory =>
        simp only [LifecycleStore.transition, Session.inMemory, bind_apply, read_apply, andThen_ok, hkey,
          hvalue, if_neg (not_isRepeated_budget hlive), lift_apply, checkTransition_budget hlive,
          Session.appendEvent, hevent, happend, hkept, andThen_error]
      | sqlAlchemy =>
        simp only [LifecycleStore.transition, Session.sql, rollback, Session.sqlStatements, bind_apply,
          read_apply, andThen_ok, hkey, hvalue, if_neg (not_isRepeated_budget hlive), lift_apply,
          checkTransition_budget hlive, Session.appendEvent, hevent, happend, andThen_error]
  | ok u =>
    cases store with
    | inMemory =>
      refine .inl ⟨⟨happend, fun h => by cases h⟩, ?_⟩
      simp only [LifecycleStore.transition, Session.inMemory, bind_apply, read_apply, andThen_ok, hkey,
        hvalue, if_neg (not_isRepeated_budget hlive), lift_apply, checkTransition_budget hlive,
        Session.appendEvent, hevent, happend, write_apply, pure_apply, moved_budget]
      rfl
    | sqlAlchemy =>
      have hrun : Session.sqlStatements (appendTo db)
          (.transition (budgetTransition check lifecycle hlive payload)) s
            = ((Session.projection (failedBy check lifecycle)),
              ⟨(appendTo db (budgetEvent check lifecycle payload) s.ledger).2,
                setValue check.key (failedBy check lifecycle) s.values⟩) := by
        simp only [Session.sqlStatements, bind_apply, read_apply, andThen_ok, hkey, hvalue,
          if_neg (not_isRepeated_budget hlive), lift_apply, checkTransition_budget hlive,
          Session.appendEvent, hevent, happend, write_apply, moved_budget]
        rfl
      cases hrow : (failedBy check lifecycle).consistentProjection with
      | ok u =>
        have hconsistent := SessionLifecycle.consistentProjection_eq_ok.mp hrow
        refine .inl ⟨⟨happend, fun _ => hconsistent⟩, rollback_ok ?_⟩
        rw [hrun, Session.projection, hrow]
        rfl
      | error e =>
        refine .inr ⟨fun h => ?_, e, ?_⟩
        · rw [SessionLifecycle.consistentProjection_eq_ok.mpr (h.2 rfl)] at hrow
          cases hrow
        · apply rollback_error
          rw [hrun, Session.projection, hrow]
          rfl

end Transition

/-! ### What a check does -/

section Checks

variable (store : LifecycleStore) (db : Database) (tables : BudgetTables)

/-- A session that goes on.  In the database its row is well formed. -/
structure Live (lifecycle : SessionLifecycle) : Prop where
  live : lifecycle.state.terminal = false
  consistent : store = .sqlAlchemy → lifecycle.Consistent

/-- The event of the breach can be written, the ledger takes it, and in the database the check is in
    time. -/
def Fits (ledger : LedgerState) (check : BudgetCheck) (lifecycle : SessionLifecycle) (b : Breach) : Prop :=
  ∃ payload, jsonPayload (budgetPayload lifecycle b) = .ok payload
    ∧ (appendTo db (budgetEvent check lifecycle payload) ledger).1 = .ok ()
    ∧ (store = .sqlAlchemy → InTime check lifecycle)

/-- The session has failed, and the ledger has the event of the breach: a new one, unless there was an
    equal one before. -/
structure Ended (check : BudgetCheck) (lifecycle : SessionLifecycle) (b : Breach)
    (s s' : LifecycleState LedgerState) : Prop where
  values : s'.values = setValue check.key (failedBy check lifecycle) s.values
  event : ∃ payload, jsonPayload (budgetPayload lifecycle b) = .ok payload
    ∧ ((s.ledger.eventById check.eventId = none
        ∧ ∃ p, p.toLedgerAppend = budgetEvent check lifecycle payload ∧ s'.ledger = s.ledger.insert p)
      ∨ ∃ p, s.ledger.eventById check.eventId = some p
        ∧ Ledger.samePreimage (budgetEvent check lifecycle payload) p.toLedgerAppend = true
        ∧ s'.ledger = s.ledger)

/-- A check of a live session. -/
structure Enforced (check : BudgetCheck) (lifecycle : SessionLifecycle) (s : BudgetState) : Prop where
  /-- It returns exactly when nothing is reached, and then it has changed nothing. -/
  returns : NothingReached tables s.calls check.workspaceId check.sessionId check.agentDefinitionIds
    ↔ (enforce store db tables check s).1 = .ok ()
  quiet : (enforce store db tables check s).1 = .ok () → (enforce store db tables check s).2 = s
  unreadable : ∀ e,
    FirstUnreadable tables s.calls check.workspaceId check.sessionId check.agentDefinitionIds e →
      enforce store db tables check s = (.error (.raised e), s)
  stops : ∀ b, FirstReached tables s.calls check.workspaceId check.sessionId check.agentDefinitionIds b →
    Fits store db s.sessions.ledger check lifecycle b →
      ∃ sessions, Ended check lifecycle b s.sessions sessions
        ∧ enforce store db tables check s
          = (.error (.exhausted (failedBy check lifecycle)), { s with sessions })
  refuses : ∀ b, FirstReached tables s.calls check.workspaceId check.sessionId check.agentDefinitionIds b →
    ¬ Fits store db s.sessions.ledger check lifecycle b →
      ∃ e, enforce store db tables check s = (.error (.raised e), s)

variable {store db tables} {check : BudgetCheck} {lifecycle : SessionLifecycle} {s : BudgetState}

/-- The ledger after an accepted append. -/
theorem appendTo_cases {event : LedgerAppend} {ledger : LedgerState}
    (h : (appendTo db event ledger).1 = .ok ()) :
    (ledger.eventById event.id = none
        ∧ ∃ p, p.toLedgerAppend = event ∧ (appendTo db event ledger).2 = ledger.insert p)
      ∨ ∃ p, ledger.eventById event.id = some p ∧ Ledger.samePreimage event p.toLedgerAppend = true
        ∧ (appendTo db event ledger).2 = ledger := by
  rcases Ledger.append_cases db event ledger with ⟨hsame, hstored⟩ | ⟨p, head, hnew, -, happend, hevent, -⟩
  · right
    unfold appendTo at h
    cases hx : ledger.eventById event.id with
    | none =>
      cases hanswer : (Ledger.append db event ledger).1 with
      | error e =>
        rw [hanswer] at h
        cases h
      | ok x =>
        have hfound := hstored x hanswer
        rw [hx] at hfound
        cases hfound
    | some p =>
      refine ⟨p, rfl, ?_, hsame⟩
      rw [Ledger.append_stored hx] at h
      unfold Ledger.idempotentResult at h
      by_contra hdifferent
      rw [if_pos hdifferent] at h
      cases h
  · refine .inl ⟨hnew, p, hevent, ?_⟩
    show (Ledger.append db event ledger).2 = _
    rw [happend]

theorem get_of_consistent (hvalue : s.sessions.values check.key = some lifecycle)
    (hconsistent : store = .sqlAlchemy → lifecycle.Consistent) :
    onSessions (store.get check.key) s = (.ok (some lifecycle), s) := by
  have hget : store.get check.key s.sessions = (.ok (some lifecycle), s.sessions) := by
    unfold LifecycleStore.get
    simp only [bind_apply, read_apply, andThen_ok, hvalue]
    cases store with
    | inMemory => rfl
    | sqlAlchemy =>
      have hrow := SessionLifecycle.consistentProjection_eq_ok.mpr (hconsistent rfl)
      simp only [bind_apply, lift_apply, Session.projection, hrow]
      rfl
  rw [onSessions_apply, hget]
  rfl

/-- A check of a live session scans, and then asks the store. -/
theorem enforce_live (hvalue : s.sessions.values check.key = some lifecycle) (hlive : Live store lifecycle) :
    enforce store db tables check s
      = match breachOf tables s.calls check.workspaceId check.sessionId check.agentDefinitionIds with
        | .error e => (.error (.raised e), s)
        | .ok none => (.ok (), s)
        | .ok (some b) =>
          match jsonPayload (budgetPayload lifecycle b) with
          | .error e => (.error (.raised e), s)
          | .ok payload => andThen (fun terminated => raise (.exhausted terminated))
            (onSessions (store.transition db (budgetTransition check lifecycle hlive.live payload)) s) := by
  unfold enforce
  rw [bind_apply, get_of_consistent hvalue hlive.consistent]
  simp only [andThen_ok, dif_pos hlive.live, bind_apply, read_apply, lift_apply]
  cases breachOf tables s.calls check.workspaceId check.sessionId check.agentDefinitionIds with
  | error e => rfl
  | ok found =>
    cases found with
    | none => rfl
    | some b =>
      simp only [Except.mapError, andThen_ok, bind_apply, lift_apply]
      cases jsonPayload (budgetPayload lifecycle b) <;> rfl

/-- **Check.**  A check of a live session does what it should. -/
theorem enforced_of_live (hvalue : s.sessions.values check.key = some lifecycle) (hlive : Live store lifecycle) :
    Enforced store db tables check lifecycle s := by
  have hrun := @enforce_live store db tables check lifecycle s hvalue hlive
  have hbreach {b : Breach}
      (hfirst : FirstReached tables s.calls check.workspaceId check.sessionId check.agentDefinitionIds b) :
      (Fits store db s.sessions.ledger check lifecycle b ∧ ∃ sessions,
          Ended check lifecycle b s.sessions sessions ∧ enforce store db tables check s
            = (.error (.exhausted (failedBy check lifecycle)), { s with sessions }))
        ∨ (¬ Fits store db s.sessions.ledger check lifecycle b
          ∧ ∃ e, enforce store db tables check s = (.error (.raised e), s)) := by
    rw [breachOf_eq_some.mpr hfirst] at hrun
    simp only at hrun
    cases hpayload : jsonPayload (budgetPayload lifecycle b) with
    | error e =>
      rw [hpayload] at hrun
      refine .inr ⟨?_, e, hrun⟩
      rintro ⟨payload, hok, -⟩
      rw [hpayload] at hok
      cases hok
    | ok payload =>
      rw [hpayload] at hrun
      simp only [onSessions_apply] at hrun
      have hrow (h : store = .sqlAlchemy) :=
        @consistent_failedBy check lifecycle (hlive.consistent h)
      rcases @transition_cases store db check lifecycle payload s.sessions hvalue hlive.live with
        ⟨htakes, hmoved⟩ | ⟨hrefuses, e, hkept⟩
      · have hended : Ended check lifecycle b s.sessions
            ⟨(appendTo db (budgetEvent check lifecycle payload) s.sessions.ledger).2,
              setValue check.key (failedBy check lifecycle) s.sessions.values⟩ :=
          ⟨rfl, payload, hpayload, appendTo_cases htakes.1⟩
        refine .inl ⟨⟨payload, hpayload, htakes.1, fun h => (hrow h).mp (htakes.2 h)⟩, _, hended, ?_⟩
        rw [hrun, hmoved]
        rfl
      · refine .inr ⟨?_, e, ?_⟩
        · rintro ⟨payload', hok, happend, hintime⟩
          rw [hpayload] at hok
          obtain rfl := Except.ok.inj hok
          exact hrefuses ⟨happend, fun h => (hrow h).mpr (hintime h)⟩
        · rw [hrun, hkept]
          rfl
  refine ⟨⟨fun h => ?_, fun h => ?_⟩, fun h => ?_, fun e h => ?_, fun b h hfits => ?_, fun b h hfits => ?_⟩
  · rw [hrun, breachOf_eq_none.mpr h]
  · rcases @breachOf_cases tables s.calls check.workspaceId check.sessionId check.agentDefinitionIds with
      ⟨-, hclear⟩ | ⟨b, -, hfirst⟩ | ⟨e, hfound, -⟩
    · exact hclear
    · rcases hbreach hfirst with ⟨-, sessions, -, hstop⟩ | ⟨-, e, hstop⟩
      · rw [hstop] at h
        cases h
      · rw [hstop] at h
        cases h
    · rw [hrun, hfound] at h
      cases h
  · rcases @breachOf_cases tables s.calls check.workspaceId check.sessionId check.agentDefinitionIds with
      ⟨hfound, -⟩ | ⟨b, -, hfirst⟩ | ⟨e, hfound, -⟩
    · rw [hrun, hfound]
    · rcases hbreach hfirst with ⟨-, sessions, -, hstop⟩ | ⟨-, e, hstop⟩
      · rw [hstop] at h
        cases h
      · rw [hstop]
    · rw [hrun, hfound]
  · rw [hrun, breachOf_eq_error.mpr h]
  · rcases hbreach h with ⟨-, hstops⟩ | ⟨hunfit, -⟩
    · exact hstops
    · exact absurd hfits hunfit
  · rcases hbreach h with ⟨hfit, -⟩ | ⟨-, hrefuses⟩
    · exact absurd hfit hfits
    · exact hrefuses

/-- A check of a session that a check has ended: it raises, and changes nothing. -/
theorem enforce_ended {ended : SessionLifecycle} (hvalue : s.sessions.values check.key = some ended)
    (hfailed : ended.state = .failed) (hconsistent : store = .sqlAlchemy → ended.Consistent) :
    enforce store db tables check s
      = (.error (if ended.lastEventId = some check.eventId then .exhausted ended
          else .invalidSessionTransition "session is already terminal"), s) := by
  have hterminal : ¬ ended.state.terminal = false := by
    rw [hfailed]
    decide
  unfold enforce
  rw [bind_apply, get_of_consistent hvalue hconsistent, andThen_ok]
  simp only [dif_neg hterminal]
  simp only [hfailed, and_true]
  by_cases hid : ended.lastEventId = some check.eventId
  · rw [if_pos hid, if_pos hid, raise_apply]
  · rw [if_neg hid, if_neg hid, raise_apply]

end Checks

end Agora.Coordinator
