import Agora.Ledger.Chain

namespace Agora.Ledger

open Marl (Hash Text)
open Stateful

/-!
# Repeated and conflicting appends

A run of appends keeps every session verifiable and counts each accepted event once
(`ledgerCorrect_after`).  An append of a stored id is answered with the stored event when Python
finds the callers' values equal.  Python takes `1` and `true` for the same value, so the calls do
what they should exactly where no payload differs in that only (`append_correct`).
-/

/-! ### Accepted events -/

/-- One more answer: an event counts when its id has not been accepted before. -/
def accept (events : List LedgerEvent) : Except LedgerError LedgerEvent → List LedgerEvent
  | .ok e => if e.id ∈ events.map (·.id) then events else events ++ [e]
  | .error _ => events

/-- The distinct events that a run has accepted, in order. -/
def accepted (answers : List (Except LedgerError LedgerEvent)) : List LedgerEvent :=
  answers.foldl accept []

theorem accept_append (db : Database) (e : LedgerAppend) (s : LedgerState) :
    accept s.events (append db e s).1 = (append db e s).2.events := by
  rcases append_cases db e s with ⟨hsame, hstored⟩ | ⟨p, head, hnew, -, happend, rfl, -⟩
  · rw [hsame]
    cases hanswer : (append db e s).1 with
    | error err => rfl
    | ok x =>
      have hmem : x ∈ s.events := List.mem_of_find?_eq_some (hstored x hanswer)
      exact if_pos (List.mem_map_of_mem hmem)
  · rw [happend]
    exact if_neg (eventById_eq_none.mp hnew)

/-- The accepted events are the stored ones. -/
theorem accepted_answers (db : Database) (s : LedgerState) (calls : List LedgerAppend) :
    (answers (append db) s calls).foldl accept s.events = (after (append db) s calls).events := by
  induction calls generalizing s with
  | nil => rfl
  | cons e calls ih =>
    show (answers (append db) (append db e s).2 calls).foldl accept
      (accept s.events (append db e s).1) = _
    rw [accept_append]
    exact ih _

/-! ### What is required -/

/-- The accepted events of a session. -/
def acceptedOf (answers : List (Except LedgerError LedgerEvent)) (workspaceId sessionId : UUID) :
    List LedgerEvent :=
  (accepted answers).filter fun e => e.workspaceId = workspaceId ∧ e.sessionId = sessionId

/-- Every session with a head is valid and has the accepted events, numbered from 1. -/
structure LedgerCorrect (s : LedgerState) (answers : List (Except LedgerError LedgerEvent)) :
    Prop where
  verified : ∀ w n head, s.head? w n = some head → s.verify w n = .ok
    { valid := true, eventCount := (acceptedOf answers w n).length, headHash := head.headHash }
  stored : ∀ w n, s.rows w n = acceptedOf answers w n
  numbered : ∀ w n, (acceptedOf answers w n).map (·.ledgerSeq)
    = List.range' 1 (acceptedOf answers w n).length

/-- The same values, up to `recorded_at`. -/
def SameCallerValues (requested : LedgerAppend) (existing : LedgerEvent) : Prop :=
  { requested with recordedAt := existing.recordedAt } = existing.toLedgerAppend

/-- An append repeats a stored one, or raises where it contradicts one or has no head. -/
structure CallCorrect (db : Database) (s : LedgerState) (e : LedgerAppend) : Prop where
  repeated : ∀ x, s.eventById e.id = some x → SameCallerValues e x → append db e s = (.ok x, s)
  conflicting : ∀ x, s.eventById e.id = some x → ¬ SameCallerValues e x →
    ∃ message, append db e s = (.error (.integrity message), s)
  headless : s.eventById e.id = none → s.head? e.workspaceId e.sessionId = none →
    ∃ message, append db e s = (.error (.integrity message), s)

/-- Where Python finds the requested values equal to the stored ones, the payloads are equal. -/
def Distinguished (s : LedgerState) (e : LedgerAppend) : Prop :=
  ∀ x, s.eventById e.id = some x → samePreimage e x.toLedgerAppend = true →
    e.payload.json = x.payload.json

/-! ### Runs -/

/-- In a state with chains the rows are in order as they are stored. -/
theorem rows_eq_ofSession {s : LedgerState} (h : Chained s) (w n : UUID) :
    s.rows w n = s.ofSession w n := by
  have hnumbers := (h.chain w n).map_number
  have hsorted : ((s.ofSession w n).map (·.ledgerSeq)).Pairwise (· ≤ ·) := by
    rw [hnumbers]
    exact List.pairwise_le_range'
  exact (List.pairwise_map.mp hsorted).insertionSort_eq

/-- What is read from the start on. -/
theorem readFrom_eq_take {s : LedgerState} (h : Chained s) (w n : UUID) {limit : ℕ} (hlimit : limit ≠ 0) :
    s.readFrom w n 1 limit = .ok ((s.ofSession w n).take limit) := by
  have hpositive : (s.ofSession w n).filter (1 ≤ ·.ledgerSeq) = s.ofSession w n :=
    List.filter_eq_self.mpr fun e _ => decide_eq_true e.positive_seq
  rw [LedgerState.readFrom, if_neg one_ne_zero, if_neg hlimit, rows_eq_ofSession h, hpositive]

theorem verify_of_chained {s : LedgerState} (h : Chained s) {w n : UUID} {head : SessionLedgerHead}
    (hhead : s.head? w n = some head) : s.verify w n = .ok
      { valid := true, eventCount := (s.ofSession w n).length, headHash := head.headHash } := by
  obtain ⟨hnext, hlast⟩ := h.head w n head hhead
  have hsealed : ∀ e ∈ s.ofSession w n, Sealed e := fun e he => h.sealed e (List.mem_of_mem_filter he)
  have hverified := verifyEvents_iff.mpr ⟨⟨h.chain w n, hsealed⟩, hnext, hlast⟩
  simp only [LedgerState.verify, hhead, rows_eq_ofSession h, hverified, Except.ok_bind]
  rfl

/-- **Sessions.**  After every run from genesis the sessions are correct. -/
theorem ledgerCorrect_after (db : Database) (workspace : UUID → Option UUID)
    (calls : List LedgerAppend) :
    LedgerCorrect (after (append db) (genesis workspace) calls)
      (answers (append db) (genesis workspace) calls) := by
  have h := chained_after db workspace calls
  have hevents := accepted_answers db (genesis workspace) calls
  have hsession (w n : UUID) : acceptedOf (answers (append db) (genesis workspace) calls) w n
      = (after (append db) (genesis workspace) calls).ofSession w n := by
    unfold acceptedOf accepted LedgerState.ofSession
    rw [← hevents]
    rfl
  refine ⟨fun w n head hhead => ?_, fun w n => ?_, fun w n => ?_⟩
  · rw [hsession]
    exact verify_of_chained h hhead
  · rw [hsession, rows_eq_ofSession h]
  · rw [hsession]
    exact (h.chain w n).map_number

/-! ### Calls -/

theorem samePreimage_of_sameCallerValues {e : LedgerAppend} {x : LedgerEvent}
    (h : SameCallerValues e x) : samePreimage e x.toLedgerAppend = true := by
  unfold SameCallerValues at h
  rw [← h]
  simp [samePreimage, Json.pyEq_self]

theorem sameCallerValues_of_samePreimage {e : LedgerAppend} {x : LedgerEvent}
    (h : samePreimage e x.toLedgerAppend = true) (hpayload : e.payload.json = x.payload.json) :
    SameCallerValues e x := by
  have hpayload := Payload.json_injective hpayload
  simp only [samePreimage, Bool.and_eq_true, decide_eq_true_eq] at h
  unfold SameCallerValues
  cases x with | mk x =>
  cases e
  cases x
  simp_all

/-- A call is correct exactly when its payload is distinguished from the stored one. -/
theorem callCorrect_iff (db : Database) (s : LedgerState) (e : LedgerAppend) :
    CallCorrect db s e ↔ Distinguished s e := by
  constructor
  · intro h x hx hsame
    -- Otherwise the call would have to raise, but it returns the stored event.
    by_contra hpayload
    have hother : ¬ SameCallerValues e x := fun hvalues => by
      unfold SameCallerValues at hvalues
      exact hpayload (congrArg (·.payload.json) hvalues)
    obtain ⟨message, hraised⟩ := h.conflicting x hx hother
    rw [append_stored hx, idempotentResult, if_neg (not_not.mpr hsame)] at hraised
    cases hraised
  · intro h
    refine ⟨fun x hx hvalues => ?_, fun x hx hvalues => ?_, append_headless⟩
    · have hsame := samePreimage_of_sameCallerValues hvalues
      rw [append_stored hx, idempotentResult, if_neg (not_not.mpr hsame)]
    · have hsame : ¬ samePreimage e x.toLedgerAppend = true := fun hsame =>
        hvalues (sameCallerValues_of_samePreimage hsame (h x hx hsame))
      rw [append_stored hx, idempotentResult, if_pos hsame]
      exact ⟨_, rfl⟩

/-- **Appends.**  Every run from genesis keeps the sessions correct, and its calls are correct
    exactly when their payloads are distinguished from the stored ones. -/
theorem append_correct (db : Database) (workspace : UUID → Option UUID)
    (calls : List LedgerAppend) :
    LedgerCorrect (after (append db) (genesis workspace) calls)
        (answers (append db) (genesis workspace) calls)
      ∧ (Along (append db) (CallCorrect db) (genesis workspace) calls
        ↔ Along (append db) Distinguished (genesis workspace) calls) :=
  ⟨ledgerCorrect_after db workspace calls, along_congr (callCorrect_iff db) _ _⟩

/-! ### One and true -/

def one : Payload := ⟨[(.ofString "n", .int 1)], by decide, by decide⟩

def truth : Payload := ⟨[(.ofString "n", .bool true)], by decide, by decide⟩

/-- A first event with some payload. -/
def sample (payload : Payload) : LedgerAppend where
  id := ⟨"00000000-0000-4000-8000-000000000001", .refl true⟩
  workspaceId := ⟨"00000000-0000-4000-8000-000000000002", .refl true⟩
  sessionId := ⟨"00000000-0000-4000-8000-000000000003", .refl true⟩
  eventType := ⟨"SESSION_CREATED", by decide⟩
  payloadSchemaVersion := 1
  causationId := none
  correlationId := ⟨"00000000-0000-4000-8000-000000000004", .refl true⟩
  actorClass := .service
  actorId := ⟨"00000000-0000-4000-8000-000000000005", .refl true⟩
  round := 0
  payload := payload
  recordedAt := ⟨⟨2026, 9, 5, valid2026, validSeptember, validFifth⟩, 12, 0, 0, 0, validNoon⟩
  positive_version := Nat.one_pos

/-- A database without limits. -/
def unlimited : Database := ⟨fun _ => true⟩

/-- Every session belongs to the workspace of the sample. -/
def sampleWorkspace : UUID → Option UUID := fun _ => some (sample one).workspaceId

theorem append_sample : ∃ p, append unlimited (sample one) (genesis sampleWorkspace)
    = (.ok p, (genesis sampleWorkspace).insert p) ∧ p.toLedgerAppend = sample one := by
  let head : SessionLedgerHead := ⟨(sample one).workspaceId, 1, genesisHash, Nat.one_pos⟩
  have hnew : (genesis sampleWorkspace).eventById (sample one).id = none := rfl
  have hhead : (genesis sampleWorkspace).head? (sample one).workspaceId (sample one).sessionId
      = some head := by
    simp [genesis, sampleWorkspace, LedgerState.head?, head]
  have hprint : Json.isPrintable 1 = true ∧ Json.isPrintable 0 = true := by decide
  obtain ⟨p, hp⟩ : ∃ p, persist (sample one) head = .ok p :=
    exists_persist hprint.1 hprint.1 hprint.2
  refine ⟨p, ?_, (persist_ok hp).1⟩
  rw [append_head hnew hhead, hp]
  rfl

/-- A reuse of the id with `true` for `1` is answered with the stored event. -/
theorem append_not_correct :
    ¬ ∀ (db : Database) (workspace : UUID → Option UUID) (calls : List LedgerAppend),
      LedgerCorrect (after (append db) (genesis workspace) calls)
          (answers (append db) (genesis workspace) calls)
        ∧ Along (append db) (CallCorrect db) (genesis workspace) calls := by
  intro h
  obtain ⟨p, hfirst, hp⟩ := append_sample
  obtain ⟨-, -, hsecond, -⟩ := h unlimited sampleWorkspace [sample one, sample truth]
  rw [hfirst] at hsecond
  have hstored : ((genesis sampleWorkspace).insert p).eventById (sample truth).id = some p := by
    have hid : p.id = (sample one).id := congrArg LedgerAppend.id hp
    have hsame : p.id = (sample truth).id := hid
    simp [LedgerState.eventById, LedgerState.insert, genesis, hsame]
  have hpayload := (callCorrect_iff _ _ _).mp hsecond p hstored (by rw [hp]; decide)
  rw [hp] at hpayload
  revert hpayload
  simp [sample, one, truth, Payload.json]

end Agora.Ledger
