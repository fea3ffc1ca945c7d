import Agora.Ledger.Event
import Agora.Lib.Stateful
import Mathlib.Data.List.Sort

namespace Agora.Ledger

open Marl (Hash)
open Stateful

/-!
# The ledger over two tables

Events are rows with an id of their own, and every session has a row with its next sequence number
and the hash of its last event.  `append` reads and writes both; `verify` recomputes the chain of a
session.  What the database itself refuses (a number that is too long for its column, say) is a
parameter.
-/

/-! ### Tables -/

/-- `SessionLedgerHeadRow`, by session. -/
structure SessionLedgerHead where
  workspaceId : UUID
  nextSeq : ℕ
  headHash : Hash
  positive_next : 0 < nextSeq

structure LedgerState where
  events : List LedgerEvent
  heads : UUID → Option SessionLedgerHead

/-- Which rows the database takes. -/
structure Database where
  accepts : LedgerEvent → Bool

inductive LedgerError where
  | integrity (message : String)
  | value (e : PyException)
  | database

/-- `LedgerIntegrityError`. -/
def ledgerIntegrityError (message : String) : PyException := ⟨.other, message⟩

/-- What the ledger raises. -/
def raisedByLedger : LedgerError → PyException
  | .integrity message => ledgerIntegrityError message
  | .value e => e
  | .database => ⟨.other, "database error"⟩

/-- Heads for the sessions of some workspaces, and no events. -/
def genesis (workspace : UUID → Option UUID) : LedgerState where
  events := []
  heads session := (workspace session).map fun w => ⟨w, 1, genesisHash, Nat.one_pos⟩

namespace LedgerState

/-- `_event_by_id`. -/
def eventById (s : LedgerState) (id : UUID) : Option LedgerEvent := s.events.find? (·.id = id)

/-- The head of a session in a workspace. -/
def head? (s : LedgerState) (workspaceId sessionId : UUID) : Option SessionLedgerHead :=
  (s.heads sessionId).filter (·.workspaceId = workspaceId)

/-- The events of a session, in the order they were stored in. -/
def ofSession (s : LedgerState) (workspaceId sessionId : UUID) : List LedgerEvent :=
  s.events.filter fun e => e.workspaceId = workspaceId ∧ e.sessionId = sessionId

/-- The events of a session, `order_by(ledger_seq)`. -/
def rows (s : LedgerState) (workspaceId sessionId : UUID) : List LedgerEvent :=
  (s.ofSession workspaceId sessionId).insertionSort fun a b => a.ledgerSeq ≤ b.ledgerSeq

/-- A new row, and the head of its session moved to it. -/
def insert (event : LedgerEvent) (s : LedgerState) : LedgerState where
  events := s.events ++ [event]
  heads session :=
    if session = event.sessionId then
      some ⟨event.workspaceId, event.ledgerSeq + 1, event.eventHash, Nat.succ_pos _⟩
    else s.heads session

end LedgerState

/-! ### Appending -/

/-- `_append_preimage(a) == _append_preimage(b)`: the payloads are compared as Python compares
    dictionaries. -/
def samePreimage (a b : LedgerAppend) : Bool :=
  a.id = b.id && a.workspaceId = b.workspaceId && a.sessionId = b.sessionId
    && a.eventType = b.eventType && a.payloadSchemaVersion = b.payloadSchemaVersion
    && a.causationId = b.causationId && a.correlationId = b.correlationId
    && a.actorClass = b.actorClass && a.actorId = b.actorId && a.round = b.round
    && Json.pyEq a.payload.json b.payload.json

/-- `_idempotent_result`. -/
def idempotentResult (requested : LedgerAppend) (existing : LedgerEvent) :
    Except LedgerError LedgerEvent :=
  if ¬ samePreimage requested existing.toLedgerAppend then
    .error (.integrity ("reasoning event id " ++ requested.id.text
      ++ " already exists with different caller values"))
  else .ok existing

/-- What a failing hash raises. -/
def raised {α : Type} : Py α → Except LedgerError α
  | .ok a => .ok a
  | .error e => .error (.value e)

/-- The event at the head of its session. -/
def persist (event : LedgerAppend) (head : SessionLedgerHead) : Except LedgerError LedgerEvent := do
  let payloadHash ← raised (ledgerPayloadHash event.payload)
  let persisted : LedgerEvent :=
    { event with
      ledgerSeq := head.nextSeq
      payloadHash
      prevHash := head.headHash
      eventHash := genesisHash
      positive_seq := head.positive_next }
  let eventHash ← raised (ledgerEventHash persisted)
  pure { persisted with eventHash }

def append (db : Database) (event : LedgerAppend) : Stateful LedgerState LedgerError LedgerEvent := do
  match ← read (·.eventById event.id) with
  | some existing => lift (idempotentResult event existing)
  | none =>
    match ← read (·.head? event.workspaceId event.sessionId) with
    | none => raise (.integrity ("session " ++ event.sessionId.text
        ++ " has no ledger head in workspace " ++ event.workspaceId.text))
    | some head =>
      -- Looked up again, now that the head is locked.
      match ← read (·.eventById event.id) with
      | some existing => lift (idempotentResult event existing)
      | none => do
        let persisted ← lift (persist event head)
        if db.accepts persisted then do
          write (LedgerState.insert persisted)
          pure persisted
        else raise .database

/-! ### Reading and verifying -/

/-- `read`, from a sequence number on. -/
def LedgerState.readFrom (s : LedgerState) (workspaceId sessionId : UUID) (fromSeq limit : ℕ) :
    Py (List LedgerEvent) :=
  if fromSeq = 0 then .error (.valueError "from_seq must be positive")
  else if limit = 0 then .error (.valueError "limit must be positive")
  else .ok (((s.rows workspaceId sessionId).filter (fromSeq ≤ ·.ledgerSeq)).take limit)

structure LedgerVerification where
  valid : Bool
  eventCount : ℕ
  headHash : Hash
  firstInvalidSeq : Option ℕ := none
  reason : Option String := none

/-- Where and why verification fails. -/
abbrev Failure := Option ℕ × String

/-- The loop of `_verify_events`: a failure, or the hash of the last event. -/
def verifyLoop : List LedgerEvent → ℕ → Hash → Py (Failure ⊕ Hash)
  | [], _, previousHash => .ok (.inr previousHash)
  | event :: events, expectedSeq, previousHash =>
    if event.ledgerSeq ≠ expectedSeq then
      .ok (.inl (some event.ledgerSeq, "expected ledger sequence " ++ toString expectedSeq))
    else do
      let payloadHash ← ledgerPayloadHash event.payload
      if event.payloadHash ≠ payloadHash then
        pure (.inl (some event.ledgerSeq, "payload hash mismatch"))
      else if event.prevHash ≠ previousHash then
        pure (.inl (some event.ledgerSeq, "previous hash mismatch"))
      else do
        let eventHash ← ledgerEventHash event
        if event.eventHash ≠ eventHash then
          pure (.inl (some event.ledgerSeq, "event hash mismatch"))
        else verifyLoop events (expectedSeq + 1) event.eventHash

/-- `_verify_events`. -/
def verifyEvents (events : List LedgerEvent) (nextSeq : ℕ) (headHash : Hash) :
    Py (Option Failure) := do
  match ← verifyLoop events 1 genesisHash with
  | .inl failure => pure (some failure)
  | .inr previousHash =>
    if nextSeq ≠ events.length + 1 then
      pure (some (none, "ledger head next sequence mismatch"))
    else if headHash ≠ previousHash then pure (some (none, "ledger head hash mismatch"))
    else pure none

def LedgerState.verify (s : LedgerState) (workspaceId sessionId : UUID) : Py LedgerVerification :=
  match s.head? workspaceId sessionId with
  | none => .ok
      { valid := false
        eventCount := 0
        headHash := genesisHash
        reason := some "session ledger head is missing" }
  | some head => do
    let events := s.rows workspaceId sessionId
    match ← verifyEvents events head.nextSeq head.headHash with
    | some (failedSeq, reason) =>
      pure {
        valid := false
        eventCount := events.length
        headHash := head.headHash
        firstInvalidSeq := failedSeq
        reason := some reason }
    | none => pure { valid := true, eventCount := events.length, headHash := head.headHash }

end Agora.Ledger
