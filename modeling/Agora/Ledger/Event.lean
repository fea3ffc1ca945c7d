import Agora.Lib.Calendar
import Agora.Lib.PythonEq
import Agora.Lib.HashChain
import Agora.Lib.JsonLeaves
import Agora.Marl.Values

namespace Agora.Ledger

open Marl (Text Hash canonicalHash canonicalHash_eq_ok sha256Hash)

/-!
# Events of the reasoning ledger

A caller appends a `LedgerAppend`; the ledger adds a sequence number and three hashes.  The hash of an
event covers all of it: the payload through its own hash, the time through its text
(`eventFacts_injective`).
-/

/-! ### Data -/

inductive ActorClass where
  | human
  | agent
  | service
  | policy
deriving DecidableEq, Repr

/-- The value of the enumeration member. -/
def ActorClass.value : ActorClass → String
  | .human => "HUMAN"
  | .agent => "AGENT"
  | .service => "SERVICE"
  | .policy => "POLICY"

theorem ActorClass.value_injective : Function.Injective ActorClass.value := by
  intro a b h
  cases a <;> cases b <;> first | rfl | exact absurd h (by decide)

/-- A JSON object that `content_hash` accepts.  The order of its keys means nothing, so they are
    kept sorted. -/
structure Payload where
  entries : List (PyStr × Json)
  encodable : (Json.obj entries).encodable = true
  normal : (Json.obj entries).Normal = true

def Payload.json (p : Payload) : Json := .obj p.entries

theorem Payload.json_injective : Function.Injective Payload.json := by
  intro p q h
  cases p
  cases q
  simpa [Payload.json] using h

/-- A payload is validated when the event is built. -/
def jsonPayload (entries : List (PyStr × Json)) : Py Payload :=
  if h : (Json.obj entries).encodable = true ∧ (Json.obj entries).Normal = true then
    .ok ⟨entries, h.1, h.2⟩
  else .error (.valueError "payload must be canonical JSON")

abbrev NonBlank := Text fun s => !isBlank s

/-- The values of a caller. -/
structure LedgerAppend where
  id : UUID
  workspaceId : UUID
  sessionId : UUID
  eventType : NonBlank
  payloadSchemaVersion : ℕ
  causationId : Option UUID
  correlationId : UUID
  actorClass : ActorClass
  actorId : UUID
  round : ℕ
  payload : Payload
  recordedAt : Datetime
  positive_version : 0 < payloadSchemaVersion

/-- A stored event. -/
structure LedgerEvent extends LedgerAppend where
  ledgerSeq : ℕ
  payloadHash : Hash
  prevHash : Hash
  eventHash : Hash
  positive_seq : 0 < ledgerSeq

/-- `GENESIS_HASH`. -/
def genesisHash : Hash :=
  ⟨"sha256:0000000000000000000000000000000000000000000000000000000000000000", by decide⟩

/-! ### Hashes -/

def ledgerPayloadHash (payload : Payload) : Py Hash := canonicalHash payload.json

/-- `str(u)`, or nothing. -/
def uuidOrNull : Option UUID → Json
  | none => .null
  | some u => .text u.text

/-- What the hash of an event is of. -/
def eventFacts (event : LedgerEvent) : Json :=
  .obj [(.ofString "actor_class", .text event.actorClass.value),
    (.ofString "actor_id", .text event.actorId.text),
    (.ofString "causation_id", uuidOrNull event.causationId),
    (.ofString "correlation_id", .text event.correlationId.text),
    (.ofString "event_type", .text event.eventType.text),
    (.ofString "id", .text event.id.text),
    (.ofString "ledger_seq", .int event.ledgerSeq),
    (.ofString "payload_hash", .text event.payloadHash.text),
    (.ofString "payload_schema_version", .int event.payloadSchemaVersion),
    (.ofString "prev_hash", .text event.prevHash.text),
    (.ofString "recorded_at", .text (String.ofList event.recordedAt.timestamp)),
    (.ofString "round", .int event.round),
    (.ofString "session_id", .text event.sessionId.text),
    (.ofString "workspace_id", .text event.workspaceId.text)]

def ledgerEventHash (event : LedgerEvent) : Py Hash := canonicalHash (eventFacts event)

/-- Every payload has a hash. -/
theorem ledgerPayloadHash_eq (payload : Payload) :
    ledgerPayloadHash payload = .ok (sha256Hash (utf8 payload.json.canonical)) :=
  canonicalHash_eq_ok.mpr ⟨payload.encodable, rfl⟩

theorem text_injective {s t : String} (h : Json.text s = Json.text t) : s = t :=
  PyStr.ofString_injective (Json.str.inj h)

theorem uuidOrNull_injective : Function.Injective uuidOrNull := by
  intro u v h
  cases u <;> cases v
  · rfl
  · cases h
  · cases h
  · exact congrArg some (UUID.ext (text_injective h))

/-- The keys of the facts, sorted. -/
def factKeys : List PyStr :=
  ["actor_class", "actor_id", "causation_id", "correlation_id", "event_type", "id", "ledger_seq",
    "payload_hash", "payload_schema_version", "prev_hash", "recorded_at", "round", "session_id",
    "workspace_id"].map PyStr.ofString

theorem normal_eventFacts (event : LedgerEvent) : (eventFacts event).Normal = true := by
  have hkeys : (decide factKeys.Nodup
      && decide (factKeys.Pairwise fun a b => keyLe a b = true)) = true := by decide
  have hcausation (p : List PyStr → Bool) :
      Json.allObjects p (uuidOrNull event.causationId) = true := by
    cases event.causationId <;> rfl
  unfold Json.Normal eventFacts
  rw [Json.allObjects, Bool.and_eq_true]
  refine ⟨hkeys, ?_⟩
  simp only [Json.allEntries, Json.allObjects, Json.text, hcausation, Bool.and_self]

/-- Facts with printable numbers can be written. -/
theorem encodable_eventFacts {event : LedgerEvent}
    (hseq : Json.isPrintable event.ledgerSeq = true)
    (hversion : Json.isPrintable event.payloadSchemaVersion = true)
    (hround : Json.isPrintable event.round = true) : (eventFacts event).encodable = true := by
  have hcausation : (uuidOrNull event.causationId).encodable = true := by
    cases event.causationId with
    | none => rfl
    | some u => exact Json.isScalar_ofString _
  simp only [eventFacts, Json.encodable, Json.encodableEntries, Json.text, Json.isScalar_ofString,
    hcausation, hseq, hversion, hround, Bool.and_self]

/-- **Facts.**  The facts determine the event, but for its payload and its own hash. -/
theorem eventFacts_injective {a b : LedgerEvent} (h : eventFacts a = eventFacts b)
    (hpayload : a.payload = b.payload) (hhash : a.eventHash = b.eventHash) : a = b := by
  simp only [eventFacts, Json.obj.injEq, List.cons.injEq, Prod.mk.injEq, true_and, and_true,
    Json.int.injEq, Nat.cast_inj] at h
  obtain ⟨hclass, hactor, hcausation, hcorrelation, htype, hid, hseq, hpayloadHash, hversion, hprev,
    hrecorded, hround, hsession, hworkspace⟩ := h
  have hclass := ActorClass.value_injective (text_injective hclass)
  have hactor := UUID.ext (text_injective hactor)
  have hcausation := uuidOrNull_injective hcausation
  have hcorrelation := UUID.ext (text_injective hcorrelation)
  have hid := UUID.ext (text_injective hid)
  have hsession := UUID.ext (text_injective hsession)
  have hworkspace := UUID.ext (text_injective hworkspace)
  have htype := Text.eq_of_text_eq (text_injective htype)
  have hpayloadHash := Text.eq_of_text_eq (text_injective hpayloadHash)
  have hprev := Text.eq_of_text_eq (text_injective hprev)
  have hrecorded := Datetime.timestamp_injective (String.ofList_injective (text_injective hrecorded))
  cases a with | mk a =>
  cases b with | mk b =>
  cases a
  cases b
  simp only [LedgerEvent.mk.injEq, LedgerAppend.mk.injEq]
  exact ⟨⟨hid, hworkspace, hsession, htype, hversion, hcausation, hcorrelation, hclass, hactor, hround,
    hpayload, hrecorded⟩, hseq, hpayloadHash, hprev, hhash⟩

end Agora.Ledger
