import Agora.Ledger.Store
import Agora.Lib.Runs

namespace Agora.Ledger

open Marl (Hash canonicalHash_eq_ok)
open Stateful

/-!
# The chain of every session

`verify` accepts exactly the chains whose hashes are right (`verifyEvents_iff`).  Every call of
`append` keeps a chain for each session (`Chained.append`): it stores one event at the head of its
session or changes nothing (`append_cases`).
-/

/-! ### Verification -/

/-- The hashes of an event are the hashes of its payload and of its facts. -/
def Sealed (event : LedgerEvent) : Prop :=
  ledgerPayloadHash event.payload = .ok event.payloadHash
    ∧ ledgerEventHash event = .ok event.eventHash

/-- Events numbered from `n` that go on from a hash. -/
abbrev Chain (previous : Hash) (n : ℕ) (events : List LedgerEvent) : Prop :=
  ChainFrom LedgerEvent.ledgerSeq LedgerEvent.prevHash LedgerEvent.eventHash previous n events

/-- The hash of the last event. -/
abbrev lastHash (previous : Hash) (events : List LedgerEvent) : Hash :=
  headHash LedgerEvent.eventHash previous events

theorem verifyLoop_iff {events : List LedgerEvent} {n : ℕ} {previous last : Hash} :
    verifyLoop events n previous = .ok (.inr last)
      ↔ Chain previous n events ∧ (∀ e ∈ events, Sealed e) ∧ lastHash previous events = last := by
  induction events generalizing n previous with
  | nil => simp [verifyLoop, ChainFrom]
  | cons e events ih =>
    unfold verifyLoop
    by_cases hseq : e.ledgerSeq = n
    case neg => simp [hseq, ChainFrom]
    by_cases hpayload : ledgerPayloadHash e.payload = .ok e.payloadHash
    case neg =>
      have hother : ¬ Sealed e := fun h => hpayload h.1
      obtain ⟨h, hh⟩ : ∃ h, ledgerPayloadHash e.payload = .ok h := ⟨_, ledgerPayloadHash_eq _⟩
      have hne : e.payloadHash ≠ h := fun heq => hpayload (heq ▸ hh)
      simp [hseq, hh, hne, hother]
    by_cases hprev : e.prevHash = previous
    case neg => simp [hseq, hpayload, hprev, ChainFrom]
    cases hevent : ledgerEventHash e with
    | error err =>
      have hother : ¬ Sealed e := fun hs => by cases hevent.symm.trans hs.2
      simp [hseq, hpayload, hprev, hother]
    | ok h =>
      by_cases hhash : e.eventHash = h
      case neg =>
        have hother : ¬ Sealed e := fun hs =>
          hhash (Except.ok.inj (hs.2.symm.trans hevent))
        simp [hseq, hpayload, hprev, hhash, hother]
      have hsealed : Sealed e := ⟨hpayload, hhash ▸ hevent⟩
      simp [hseq, hpayload, hprev, hhash, hsealed, ChainFrom, headHash, ih]

/-- **Verification.**  What `_verify_events` accepts. -/
theorem verifyEvents_iff {events : List LedgerEvent} {nextSeq : ℕ} {last : Hash} :
    verifyEvents events nextSeq last = .ok none
      ↔ (Chain genesisHash 1 events ∧ ∀ e ∈ events, Sealed e)
        ∧ nextSeq = events.length + 1 ∧ last = lastHash genesisHash events := by
  unfold verifyEvents
  constructor
  · intro h
    obtain ⟨outcome, hloop, h⟩ := Except.bind_eq_ok.mp h
    cases outcome with
    | inl failure => cases h
    | inr previous =>
      obtain ⟨hchain, hsealed, hlast⟩ := verifyLoop_iff.mp hloop
      by_cases hnext : nextSeq = events.length + 1
      case neg => simp [hnext] at h
      by_cases hhead : last = previous
      case neg => simp [hnext, hhead] at h
      exact ⟨⟨hchain, hsealed⟩, hnext, hhead.trans hlast.symm⟩
  · rintro ⟨⟨hchain, hsealed⟩, hnext, hlast⟩
    rw [verifyLoop_iff.mpr ⟨hchain, hsealed, rfl⟩]
    simp [hnext, hlast]

/-! ### What a call does -/

section Append

variable {db : Database} {e : LedgerAppend} {s : LedgerState}

theorem append_stored {x : LedgerEvent} (hx : s.eventById e.id = some x) :
    append db e s = (idempotentResult e x, s) := by
  simp [append, bind_apply, hx]

theorem append_headless (hx : s.eventById e.id = none)
    (hhead : s.head? e.workspaceId e.sessionId = none) :
    ∃ message, append db e s = (.error (.integrity message), s) := by
  simp [append, bind_apply, hx, hhead]

theorem append_head {head : SessionLedgerHead} (hx : s.eventById e.id = none)
    (hhead : s.head? e.workspaceId e.sessionId = some head) :
    append db e s = match persist e head with
      | .ok p => if db.accepts p then (.ok p, s.insert p) else (.error .database, s)
      | .error err => (.error err, s) := by
  unfold append
  simp only [bind_apply, read_apply, andThen_ok, hx, hhead, lift_apply]
  cases persist e head with
  | error err => rfl
  | ok p => by_cases haccepts : db.accepts p <;> simp [haccepts, bind_apply]

theorem raised_eq_ok {α : Type} {x : Py α} {a : α} : raised x = .ok a ↔ x = .ok a := by
  cases x <;> simp [raised]

theorem persist_ok {head : SessionLedgerHead} {p : LedgerEvent} (h : persist e head = .ok p) :
    p.toLedgerAppend = e ∧ p.ledgerSeq = head.nextSeq ∧ p.prevHash = head.headHash ∧ Sealed p := by
  obtain ⟨payloadHash, hpayload, h⟩ := Except.bind_eq_ok.mp h
  obtain ⟨eventHash, hevent, h⟩ := Except.bind_eq_ok.mp h
  cases h
  -- The facts leave out the hash of the event itself.
  exact ⟨rfl, rfl, rfl, raised_eq_ok.mp hpayload, raised_eq_ok.mp hevent⟩

/-- Events with printable numbers have a hash. -/
theorem exists_persist {head : SessionLedgerHead} (hseq : Json.isPrintable head.nextSeq = true)
    (hversion : Json.isPrintable e.payloadSchemaVersion = true)
    (hround : Json.isPrintable e.round = true) : ∃ p, persist e head = .ok p := by
  unfold persist
  rw [ledgerPayloadHash_eq]
  simp only [raised, Except.ok_bind]
  rw [ledgerEventHash, canonicalHash_eq_ok.mpr ⟨encodable_eventFacts hseq hversion hround, rfl⟩]
  exact ⟨_, rfl⟩

/-- **Calls.**  An append changes nothing, or stores a sealed event at the head of its session. -/
theorem append_cases (db : Database) (e : LedgerAppend) (s : LedgerState) :
    (append db e s).2 = s ∧ (∀ x, (append db e s).1 = .ok x → s.eventById e.id = some x)
      ∨ ∃ p head, s.eventById e.id = none ∧ s.head? e.workspaceId e.sessionId = some head
        ∧ append db e s = (.ok p, s.insert p) ∧ p.toLedgerAppend = e
        ∧ p.ledgerSeq = head.nextSeq ∧ p.prevHash = head.headHash ∧ Sealed p := by
  cases hx : s.eventById e.id with
  | some x =>
    refine .inl ?_
    rw [append_stored hx]
    refine ⟨rfl, fun y hy => ?_⟩
    unfold idempotentResult at hy
    split at hy
    · cases hy
    · exact congrArg some (Except.ok.inj hy)
  | none =>
    cases hhead : s.head? e.workspaceId e.sessionId with
    | none =>
      obtain ⟨message, happend⟩ := append_headless hx hhead
      refine .inl ?_
      rw [happend]
      exact ⟨rfl, fun _ h => by cases h⟩
    | some head =>
      rw [append_head hx hhead]
      cases hp : persist e head with
      | error err => exact .inl ⟨rfl, fun _ h => by cases h⟩
      | ok p =>
        by_cases haccepts : db.accepts p
        · refine .inr ⟨p, head, rfl, rfl, by simp [haccepts], persist_ok hp⟩
        · refine .inl ?_
          simp [haccepts]

/-- What an append returns was stored with the same values, or has just been stored. -/
theorem append_eq_ok {p : LedgerEvent} {s' : LedgerState} (h : append db e s = (.ok p, s')) :
    s' = s ∧ s.eventById e.id = some p ∧ samePreimage e p.toLedgerAppend = true
      ∨ s' = s.insert p ∧ s.eventById e.id = none ∧ p.toLedgerAppend = e := by
  rcases append_cases db e s with ⟨hsame, hstored⟩ | ⟨q, head, hnew, -, happend, hq, -⟩
  · have hp := hstored p (congrArg Prod.fst h)
    rw [append_stored hp] at h
    obtain ⟨hanswer, rfl⟩ := Prod.mk.inj h
    refine .inl ⟨rfl, hp, ?_⟩
    unfold idempotentResult at hanswer
    split at hanswer
    · cases hanswer
    · rename_i hpreimage
      exact not_not.mp hpreimage
  · rw [happend] at h
    obtain ⟨hanswer, rfl⟩ := Prod.mk.inj h
    obtain rfl := Except.ok.inj hanswer
    exact .inr ⟨rfl, hnew, hq⟩

/-- A new event is stored, where its numbers can be printed and the database takes it. -/
theorem exists_append {head : SessionLedgerHead} (hx : s.eventById e.id = none)
    (hhead : s.head? e.workspaceId e.sessionId = some head)
    (hseq : Json.isPrintable head.nextSeq = true)
    (hversion : Json.isPrintable e.payloadSchemaVersion = true)
    (hround : Json.isPrintable e.round = true) (haccepts : ∀ p, db.accepts p = true) :
    ∃ p, append db e s = (.ok p, s.insert p) ∧ p.toLedgerAppend = e := by
  obtain ⟨p, hp⟩ := exists_persist hseq hversion hround
  exact ⟨p, by simp [append_head hx hhead, hp, haccepts], (persist_ok hp).1⟩

end Append

/-! ### The invariant -/

/-- The ids are distinct, the hashes are right, and every session has a chain that ends at its
    head. -/
structure Chained (s : LedgerState) : Prop where
  nodup : (s.events.map (·.id)).Nodup
  sealed : ∀ e ∈ s.events, Sealed e
  chain : ∀ w n, Chain genesisHash 1 (s.ofSession w n)
  head : ∀ w n head, s.head? w n = some head →
    head.nextSeq = (s.ofSession w n).length + 1
      ∧ head.headHash = lastHash genesisHash (s.ofSession w n)

theorem chained_genesis (workspace : UUID → Option UUID) : Chained (genesis workspace) where
  nodup := List.nodup_nil
  sealed := List.forall_mem_nil _
  chain _ _ := trivial
  head w n head h := by
    obtain ⟨hhead, -⟩ := Option.filter_eq_some_iff.mp h
    obtain ⟨_, -, rfl⟩ := Option.map_eq_some_iff.mp hhead
    exact ⟨rfl, rfl⟩

theorem eventById_eq_none {s : LedgerState} {id : UUID} :
    s.eventById id = none ↔ id ∉ s.events.map (·.id) := by
  simp [LedgerState.eventById]

theorem ofSession_insert (s : LedgerState) (p : LedgerEvent) (w n : UUID) :
    (s.insert p).ofSession w n
      = s.ofSession w n ++ if p.workspaceId = w ∧ p.sessionId = n then [p] else [] := by
  unfold LedgerState.ofSession LedgerState.insert
  by_cases hscope : p.workspaceId = w ∧ p.sessionId = n <;> simp [List.filter_append, hscope]

theorem head?_insert (s : LedgerState) (p : LedgerEvent) (w n : UUID) :
    (s.insert p).head? w n
      = if n = p.sessionId then
          if p.workspaceId = w then
            some ⟨p.workspaceId, p.ledgerSeq + 1, p.eventHash, Nat.succ_pos _⟩
          else none
        else s.head? w n := by
  unfold LedgerState.head? LedgerState.insert
  by_cases hsession : n = p.sessionId
  · by_cases hworkspace : p.workspaceId = w <;> simp [hsession, hworkspace]
  · simp [hsession]

/-- A sealed event at the head of its session keeps the invariant. -/
theorem Chained.insert {s : LedgerState} {p : LedgerEvent} {head : SessionLedgerHead}
    (h : Chained s) (hnew : s.eventById p.id = none)
    (hhead : s.head? p.workspaceId p.sessionId = some head) (hseq : p.ledgerSeq = head.nextSeq)
    (hprev : p.prevHash = head.headHash) (hsealed : Sealed p) : Chained (s.insert p) := by
  obtain ⟨hnext, hlast⟩ := h.head _ _ _ hhead
  refine ⟨?_, ?_, fun w n => ?_, fun w n head' hhead' => ?_⟩
  · have hfresh := eventById_eq_none.mp hnew
    rw [LedgerState.insert, List.map_append, List.nodup_append_comm]
    exact List.nodup_cons.mpr ⟨hfresh, h.nodup⟩
  · exact List.forall_mem_append.mpr ⟨h.sealed, List.forall_mem_singleton.mpr hsealed⟩
  · rw [ofSession_insert]
    by_cases hscope : p.workspaceId = w ∧ p.sessionId = n
    · obtain ⟨rfl, rfl⟩ := hscope
      rw [if_pos ⟨rfl, rfl⟩]
      refine chainFrom_concat.mpr ⟨h.chain _ _, ?_, hprev.trans hlast⟩
      omega
    · rw [if_neg hscope, List.append_nil]
      exact h.chain w n
  · rw [head?_insert] at hhead'
    rw [ofSession_insert]
    by_cases hsession : n = p.sessionId
    · rw [if_pos hsession] at hhead'
      by_cases hworkspace : p.workspaceId = w
      · rw [if_pos hworkspace] at hhead'
        cases hhead'
        subst hsession hworkspace
        rw [if_pos ⟨rfl, rfl⟩, List.length_append, List.length_singleton]
        exact ⟨by rw [hseq, hnext], (headHash_concat LedgerEvent.eventHash _ _ p).symm⟩
      · rw [if_neg hworkspace] at hhead'
        cases hhead'
    · rw [if_neg hsession] at hhead'
      rw [if_neg fun hscope => hsession hscope.2.symm, List.append_nil]
      exact h.head w n head' hhead'

/-- **Step.**  Every call keeps the invariant. -/
theorem Chained.append {s : LedgerState} (h : Chained s) (db : Database) (e : LedgerAppend) :
    Chained (append db e s).2 := by
  rcases append_cases db e s with ⟨hsame, -⟩ | ⟨p, head, hnew, hhead, happend, rfl, hseq, hprev, hsealed⟩
  · rw [hsame]
    exact h
  · rw [happend]
    exact h.insert hnew hhead hseq hprev hsealed

/-- **Runs.**  Every run from genesis ends in a state with chains. -/
theorem chained_after (db : Database) (workspace : UUID → Option UUID)
    (calls : List LedgerAppend) : Chained (after (append db) (genesis workspace) calls) :=
  after_invariant (P := fun _ _ => True) (fun _ e h _ => h.append db e) (chained_genesis workspace)
    (along_of_forall (fun _ _ => trivial) _ _)

end Agora.Ledger
