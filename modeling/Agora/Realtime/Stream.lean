import Agora.Coordinator.Policy
import Agora.Session.Consistency

namespace Agora.Realtime

open Ledger (Database LedgerAppend LedgerEvent LedgerState genesis)
open Session (LifecycleCommand LifecycleState SessionLifecycle)
open Coordinator (appendTo)

/-!
# The realtime stream of a session

`RealtimeGateway.stream` reads a session's ledger page by page and waits when it has read all of it.
Committed rows are what it yields; a notification of the event bus only wakes it.

A stream is a machine of its own whose steps are the statements between two `await`s or `yield`s:
it clears its wake-up, reads the lifecycle, reads a page, yields it event by event, and waits.  In
`perform` these steps interleave with commits, notifications, timeouts, failing reads and
reconnections of the client.
-/

/-! ### Envelopes -/

/-- What is sent of a ledger event. -/
structure EventEnvelope where
  eventId : String
  ledgerSeq : ℕ
  type : String
  ts : Datetime
  sessionId : String
  actorId : String
  actorClass : String
  round : Option ℕ
  payload : List (PyStr × Json)
  schemaVersion : ℕ
  codeVersion : String

/-- `key.endswith("_id") or key.endswith("_ids")`. -/
def namesIds (key : PyStr) : Bool :=
  (PyStr.ofString "_id").isSuffixOf key || (PyStr.ofString "_ids").isSuffixOf key

/-- `event_envelope`: the payload is reduced to ids. -/
def eventEnvelope (codeVersion : String) (event : LedgerEvent) : EventEnvelope where
  eventId := event.id.text
  ledgerSeq := event.ledgerSeq
  type := event.eventType.text
  ts := event.recordedAt
  sessionId := event.sessionId.text
  actorId := event.actorId.text
  actorClass := event.actorClass.value
  round := some event.round
  payload := event.payload.entries.filter fun entry => namesIds entry.1
  schemaVersion := event.payloadSchemaVersion
  codeVersion := codeVersion

/-- What a client receives. -/
inductive Frame where
  | event (envelope : EventEnvelope)
  | keepAlive

def Frame.event? : Frame → Option EventEnvelope
  | .event envelope => some envelope
  | .keepAlive => none

/-- The events among the frames. -/
def events (frames : List Frame) : List EventEnvelope := frames.filterMap Frame.event?

/-! ### Commits -/

/-- The lifecycles and the ledger. -/
abbrev Store := LifecycleState LedgerState

/-- A store without sessions, with ledger heads for the sessions of some workspaces. -/
def emptyStore (workspace : UUID → Option UUID) : Store := ⟨genesis workspace, fun _ => none⟩

/-- What changes the store. -/
inductive Commit where
  | lifecycle (command : LifecycleCommand)
  | append (event : LedgerAppend)

def commit (db : Database) : Commit → Store → Py Unit × Store
  | .lifecycle command, s =>
    ((Session.sql (appendTo db) command s).1.map fun _ => (),
      (Session.sql (appendTo db) command s).2)
  | .append event, s => Session.appendEvent (appendTo db) event s

/-- `SqlAlchemySessionLifecycleStore.get`. -/
def getLifecycle (s : Store) (workspaceId sessionId : UUID) : Py (Option SessionLifecycle) :=
  match s.values (workspaceId, sessionId) with
  | none => .ok none
  | some row => some <$> Session.projection row

/-! ### The stream -/

/-- What a stream does next. -/
inductive Phase where
  | clear
  | readLifecycle
  | readEvents (terminal : Bool)
  | yieldEvents (page : List LedgerEvent)
  | wait
  | returned
  | raised (e : PyException)

structure Stream where
  workspaceId : UUID
  sessionId : UUID
  nextSeq : ℕ
  wakeup : Bool
  phase : Phase

/-- A stream at its first statement in the loop. -/
def opened (workspaceId sessionId : UUID) (after : ℕ) : Stream where
  workspaceId := workspaceId
  sessionId := sessionId
  nextSeq := after + 1
  wakeup := false
  phase := .clear

/-- The beginning of `stream`. -/
def connect (workspaceId sessionId : UUID) (after : ℤ) : Py Stream :=
  if after < 0 then .error (.valueError "after must not be negative")
  else .ok (opened workspaceId sessionId after.toNat)

/-- The events of a page. -/
def pageLimit : ℕ := 250

/-- A stream is registered for notifications until it returns or raises. -/
def Stream.isLive (s : Stream) : Bool :=
  match s.phase with
  | .returned | .raised _ => false
  | _ => true

/-- One step of a stream, and what it yields. -/
def Stream.advance (codeVersion : String) (store : Store) (s : Stream) : List Frame × Stream :=
  match s.phase with
  | .clear => ([], { s with wakeup := false, phase := .readLifecycle })
  | .readLifecycle =>
    match getLifecycle store s.workspaceId s.sessionId with
    | .error e => ([], { s with phase := .raised e })
    | .ok lifecycle =>
      ([], { s with phase := .readEvents (lifecycle.any fun row => row.state.terminal) })
  | .readEvents terminal =>
    match store.ledger.readFrom s.workspaceId s.sessionId s.nextSeq pageLimit with
    | .error e => ([], { s with phase := .raised e })
    | .ok [] => ([], { s with phase := if terminal then .returned else .wait })
    | .ok (event :: page) => ([], { s with phase := .yieldEvents (event :: page) })
  | .yieldEvents [] => ([], { s with phase := .clear })
  | .yieldEvents (event :: page) =>
    ([.event (eventEnvelope codeVersion event)],
      { s with nextSeq := event.ledgerSeq + 1, phase := .yieldEvents page })
  | .wait => ([], if s.wakeup then { s with phase := .clear } else s)
  | .returned | .raised _ => ([], s)

/-- `wait_for` times out. -/
def Stream.heartbeat (s : Stream) : List Frame × Stream :=
  match s.phase with
  | .wait => ([.keepAlive], { s with phase := .clear })
  | _ => ([], s)

/-- `_wake`, by a notification of a session. -/
def Stream.notify (session : Option UUID) (s : Stream) : Stream :=
  if session = some s.sessionId ∧ s.isLive then { s with wakeup := true } else s

/-- A read of the database fails. -/
def Stream.fail (e : PyException) (s : Stream) : Stream :=
  match s.phase with
  | .readLifecycle | .readEvents _ => { s with phase := .raised e }
  | _ => s

/-! ### The interleaving -/

/-- A client that first asked for the events after `origin`, and what it has received over all
    its connections. -/
structure World where
  store : Store
  stream : Stream
  origin : ℕ
  received : List Frame

/-- The id of the last event received: what a client sends when it reconnects. -/
def World.lastSeq (s : World) : ℕ :=
  ((events s.received).getLast?.map (·.ledgerSeq)).getD s.origin

inductive Step where
  | commit (c : Commit)
  /-- A notification arrives: of a commit, again, late, or of no commit at all. -/
  | notify (envelope : EventEnvelope)
  | advance
  | heartbeat
  | fail (e : PyException)
  /-- The client connects again, and the last `lost` frames have never arrived. -/
  | reconnect (lost : ℕ)

section Perform

variable (db : Database) (parseUuid : String → Option UUID) (codeVersion : String)

/-- A step, and the frames it sends. -/
def perform : Step → World → List Frame × World
  | .commit c, s => ([], { s with store := (commit db c s.store).2 })
  | .notify envelope, s => ([], { s with stream := s.stream.notify (parseUuid envelope.sessionId) })
  | .advance, s =>
    let (sent, stream) := s.stream.advance codeVersion s.store
    (sent, { s with stream, received := s.received ++ sent })
  | .heartbeat, s =>
    let (sent, stream) := s.stream.heartbeat
    (sent, { s with stream, received := s.received ++ sent })
  | .fail e, s => ([], { s with stream := s.stream.fail e })
  | .reconnect lost, s =>
    let s := { s with received := s.received.take (s.received.length - lost) }
    ([], { s with stream := opened s.stream.workspaceId s.stream.sessionId s.lastSeq })

end Perform

/-- A first connection, at any time after some commits. -/
def connected (db : Database) (workspace : UUID → Option UUID) (commits : List Commit)
    (workspaceId sessionId : UUID) (origin : ℕ) : World where
  store := after (commit db) (emptyStore workspace) commits
  stream := opened workspaceId sessionId origin
  origin := origin
  received := []

end Agora.Realtime
