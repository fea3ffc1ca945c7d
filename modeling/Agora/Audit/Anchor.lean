import Agora.Ledger.Idempotence

namespace Agora.Audit

open Ledger (LedgerEvent LedgerState LedgerVerification genesisHash)
open Marl (Hash canonicalHash)
open Stateful

/-!
# Daily anchors

An anchor names the last event of a session on or before a day, and the head that the anchor before
it named.  `publishDailyAnchor` stores one, `chainIntegrity` checks the ledger and every anchor
against it.
-/

/-! ### Anchors -/

/-- What the hash of an anchor is of. -/
structure AnchorFacts where
  workspaceId : UUID
  sessionId : UUID
  anchorDay : Date
  headSeq : ℕ
  headHash : Hash
  prevHeadHash : Hash
  anchoredAt : Datetime

/-- `_anchor_facts`. -/
def anchorFacts (a : AnchorFacts) : Json :=
  .obj [(.ofString "anchor_day", .text (String.ofList a.anchorDay.isoformat)),
    (.ofString "anchored_at", .text (String.ofList a.anchoredAt.zulu)),
    (.ofString "head_hash", .text a.headHash.text),
    (.ofString "head_seq", .int a.headSeq),
    (.ofString "prev_head_hash", .text a.prevHeadHash.text),
    (.ofString "session_id", .text a.sessionId.text),
    (.ofString "workspace_id", .text a.workspaceId.text)]

def auditAnchorHash (a : AnchorFacts) : Py Hash := canonicalHash (anchorFacts a)

/-- A stored anchor carries the hash of its facts. -/
structure AuditAnchor extends AnchorFacts where
  id : UUID
  anchorHash : Hash
  positive_seq : 0 < headSeq
  authentic : auditAnchorHash toAnchorFacts = .ok anchorHash

def AuditAnchor.publish (facts : AnchorFacts) (positive : 0 < facts.headSeq) (id : UUID) :
    Py AuditAnchor :=
  match h : auditAnchorHash facts with
  | .ok anchorHash => .ok
      { facts with
        id
        anchorHash
        positive_seq := positive
        authentic := h }
  | .error e => .error e

theorem AuditAnchor.publish_ok {facts : AnchorFacts} {positive : 0 < facts.headSeq} {id : UUID}
    {a : AuditAnchor} (h : AuditAnchor.publish facts positive id = .ok a) :
    a.toAnchorFacts = facts ∧ a.id = id := by
  unfold AuditAnchor.publish at h
  split at h
  · cases h
    exact ⟨rfl, rfl⟩
  · cases h

/-- Facts with a printable number have a hash. -/
theorem AuditAnchor.exists_publish {facts : AnchorFacts} (positive : 0 < facts.headSeq) (id : UUID)
    (h : Json.isPrintable facts.headSeq = true) :
    ∃ a, AuditAnchor.publish facts positive id = .ok a := by
  have hencodable : (anchorFacts facts).encodable = true := by
    simp only [anchorFacts, Json.encodable, Json.encodableEntries, Json.text,
      Json.isScalar_ofString, h, Bool.and_self]
  have hhash := Marl.canonicalHash_eq_ok.mpr ⟨hencodable, rfl⟩
  unfold AuditAnchor.publish
  split
  case h_1 => exact ⟨_, rfl⟩
  case h_2 e heq => cases heq.symm.trans hhash

/-! ### The table -/

structure AuditState where
  ledger : LedgerState
  anchors : List AuditAnchor

inductive AuditError where
  | verification (message : String)
  | conflict (message : String)
  | value (e : PyException)
  | database

namespace AuditState

/-- The anchors of a session, in the order they were stored in. -/
def ofSession (s : AuditState) (workspaceId sessionId : UUID) : List AuditAnchor :=
  s.anchors.filter fun a => a.workspaceId = workspaceId ∧ a.sessionId = sessionId

/-- `all`, `order_by(anchor_day, id)`: no two anchors of a session have a day in common, so the ids
    never decide. -/
def all (s : AuditState) (workspaceId sessionId : UUID) : List AuditAnchor :=
  (s.ofSession workspaceId sessionId).insertionSort fun a b => a.anchorDay ≤ b.anchorDay

/-- `latest`, the first in descending order. -/
def latest (s : AuditState) (workspaceId sessionId : UUID) : Option AuditAnchor :=
  (s.all workspaceId sessionId).getLast?

def insert (a : AuditAnchor) (s : AuditState) : AuditState :=
  { s with anchors := s.anchors ++ [a] }

end AuditState

/-- `publish`, of the repository. -/
def publish (a : AuditAnchor) : Stateful AuditState AuditError AuditAnchor := do
  if ← read (·.anchors.any (·.id = a.id)) then raise .database
  else if ← read (·.ofSession a.workspaceId a.sessionId |>.any (·.anchorDay = a.anchorDay)) then
    raise (.conflict ("anchor for session " ++ a.sessionId.text ++ " on "
      ++ String.ofList a.anchorDay.isoformat ++ " already exists"))
  else do
    write (AuditState.insert a)
    pure a

/-! ### Publishing -/

/-- `_MAX_EVENT_SCAN`. -/
def maxEventScan : ℕ := 100000

def lastEventAtOrBefore (events : List LedgerEvent) (day : Date) : Option LedgerEvent :=
  (events.filter (·.recordedAt.date ≤ day)).getLast?

/-- The hash at the head of the last anchor. -/
def prevHeadHash : Option AuditAnchor → Hash
  | none => genesisHash
  | some previous => previous.headHash

def publishDailyAnchor (workspaceId sessionId : UUID) (day : Date) (anchoredAt : Datetime)
    (id : UUID) : Stateful AuditState AuditError AuditAnchor := do
  let events ← read (·.ledger.readFrom workspaceId sessionId 1 maxEventScan)
  let events ← lift (events.mapError .value)
  match lastEventAtOrBefore events day with
  | none => raise (.verification ("session " ++ sessionId.text
      ++ " has no ledger events on or before " ++ String.ofList day.isoformat))
  | some dayHead => do
    let previous ← read (·.latest workspaceId sessionId)
    let facts : AnchorFacts :=
      { workspaceId
        sessionId
        anchorDay := day
        headSeq := dayHead.ledgerSeq
        headHash := dayHead.eventHash
        prevHeadHash := prevHeadHash previous
        anchoredAt }
    let anchor ← lift ((AuditAnchor.publish facts dayHead.positive_seq id).mapError .value)
    publish anchor

/-! ### Verifying -/

structure AnchorVerification where
  anchor : AuditAnchor
  valid : Bool
  reason : Option String

/-- `_verify_anchor`, after the anchor before it: nothing, or what is wrong. -/
def verifyAnchor (anchor : AuditAnchor) (events : List LedgerEvent) (expectedPrev : Hash)
    (previousDay : Option Date) (previousSeq : ℕ) : Option String :=
  if auditAnchorHash anchor.toAnchorFacts ≠ .ok anchor.anchorHash then
    some "anchor_hash does not match the anchor facts"
  else if anchor.prevHeadHash ≠ expectedPrev then
    some "prev_head_hash does not continue the anchor chain"
  else if previousDay.any (anchor.anchorDay ≤ ·) then
    some "anchor_day is not strictly increasing"
  else if previousSeq ≠ 0 ∧ anchor.headSeq ≤ previousSeq then
    some "anchor head_seq is not strictly increasing"
  else match lastEventAtOrBefore events anchor.anchorDay with
    | none => some "no ledger events on or before the anchor day"
    | some dayHead =>
      if dayHead.ledgerSeq ≠ anchor.headSeq ∨ dayHead.eventHash ≠ anchor.headHash then
        some "anchor head does not match the stored day-head"
      else none

/-- What the loop of `chain_integrity` carries along. -/
structure IntegrityScan where
  expectedPrev : Hash
  previousDay : Option Date
  previousSeq : ℕ
  firstInvalidDay : Option Date
  chainValid : Bool
  verified : List AnchorVerification

def IntegrityScan.start (valid : Bool) : IntegrityScan where
  expectedPrev := genesisHash
  previousDay := none
  previousSeq := 0
  firstInvalidDay := none
  chainValid := valid
  verified := []

/-- One anchor.  A later invalid day takes the place of an earlier one. -/
def IntegrityScan.step (events : List LedgerEvent) (scan : IntegrityScan) (anchor : AuditAnchor) :
    IntegrityScan :=
  let reason := verifyAnchor anchor events scan.expectedPrev scan.previousDay scan.previousSeq
  { expectedPrev := anchor.headHash
    previousDay := some anchor.anchorDay
    previousSeq := anchor.headSeq
    firstInvalidDay := if reason.isNone then scan.firstInvalidDay else some anchor.anchorDay
    chainValid := scan.chainValid && reason.isNone
    verified := scan.verified ++ [⟨anchor, reason.isNone, reason⟩] }

structure ChainVerificationReport where
  workspaceId : UUID
  sessionId : UUID
  eventCount : ℕ
  ledgerVerification : LedgerVerification
  anchors : List AnchorVerification
  firstInvalidDay : Option Date
  chainValid : Bool

def AuditState.chainIntegrity (s : AuditState) (workspaceId sessionId : UUID) :
    Py ChainVerificationReport := do
  let events ← s.ledger.readFrom workspaceId sessionId 1 maxEventScan
  let ledgerVerification ← s.ledger.verify workspaceId sessionId
  let scan := (s.all workspaceId sessionId).foldl (IntegrityScan.step events)
    (IntegrityScan.start ledgerVerification.valid)
  pure {
    workspaceId
    sessionId
    eventCount := events.length
    ledgerVerification
    anchors := scan.verified
    firstInvalidDay := scan.firstInvalidDay
    chainValid := scan.chainValid }

/-! ### What is scanned -/

/-- Reading the first elements finds everything when nothing is left. -/
theorem filter_take_eq_iff {α : Type} {l : List α} {p : α → Bool} {k : ℕ} :
    (l.take k).filter p = l.filter p ↔ ∀ a ∈ l.drop k, p a = false := by
  have hsplit : l.filter p = (l.take k).filter p ++ (l.drop k).filter p := by
    rw [← List.filter_append, List.take_append_drop]
  constructor
  · intro h a ha
    rw [hsplit] at h
    have hnil : (l.drop k).filter p = [] := List.self_eq_append_right.mp h
    simpa using List.filter_eq_nil_iff.mp hnil a ha
  · intro h
    have hnil : (l.drop k).filter p = [] := List.filter_eq_nil_iff.mpr (by simpa using h)
    rw [hsplit, hnil, List.append_nil]

theorem lt_ledgerSeq_iff {events : List LedgerEvent} (h : events.map (·.ledgerSeq) = List.range' 1 events.length)
    {k : ℕ} {p : LedgerEvent → Prop} :
    (∀ e ∈ events.drop k, ¬ p e) ↔ ∀ e ∈ events, p e → e.ledgerSeq ≤ k := by
  have hseq (i : ℕ) (hi : i < events.length) : events[i].ledgerSeq = i + 1 := by
    have hget : (events.map (·.ledgerSeq))[i]? = some (i + 1) := by
      rw [h, List.getElem?_range' hi]
      simp [add_comm]
    simpa [hi] using hget
  constructor
  · intro hnone e he hp
    obtain ⟨i, hi, rfl⟩ := List.getElem_of_mem he
    by_contra hlt
    rw [hseq i hi] at hlt
    refine hnone _ ?_ hp
    rw [List.mem_iff_getElem]
    refine ⟨i - k, by rw [List.length_drop]; omega, ?_⟩
    rw [List.getElem_drop]
    congr 1
    omega
  · intro hall e he hp
    obtain ⟨i, hi, rfl⟩ := List.getElem_of_mem he
    rw [List.length_drop] at hi
    rw [List.getElem_drop] at hp
    have hle := hall _ (List.getElem_mem (by omega)) hp
    rw [hseq (k + i) (by omega)] at hle
    omega

end Agora.Audit
