import Agora.Ledger.Idempotence
import Mathlib.Tactic.IntervalCases

namespace Agora.Ledger

open Marl (Hash Text canonicalHash canonicalHash_eq_ok sha256Hash)

/-!
# Tamper evidence

The hash of an event is taken of its facts, which name the hash of the event before it.  Where SHA-256
does not collide on what the events of two histories are hashed from, one common event hash makes the
histories equal up to that event (`history_determined`).
-/

/-- SHA-256 does not collide on the facts and the payloads of two lists of events. -/
structure CollisionFree (as bs : List LedgerEvent) : Prop where
  facts : ∀ a ∈ as, ∀ b ∈ bs,
    sha256Hash (utf8 (eventFacts a).canonical) = sha256Hash (utf8 (eventFacts b).canonical) →
      utf8 (eventFacts a).canonical = utf8 (eventFacts b).canonical
  payloads : ∀ a ∈ as, ∀ b ∈ bs,
    sha256Hash (utf8 a.payload.json.canonical) = sha256Hash (utf8 b.payload.json.canonical) →
      utf8 a.payload.json.canonical = utf8 b.payload.json.canonical

/-- Values that are hashed from the same bytes are equal. -/
theorem eq_of_utf8_eq {i j : Json} (hi : i.encodable = true) (hj : j.encodable = true)
    (hni : i.Normal = true) (hnj : j.Normal = true) (h : utf8 i.canonical = utf8 j.canonical) :
    i = j := by
  have hbytes := Json.canonicalJson_of_encodable hi
  rw [h] at hbytes
  exact Json.canonicalJson_injective hbytes (Json.canonicalJson_of_encodable hj) hni hnj

/-- **One event.**  Sealed events with one hash are equal. -/
theorem eq_of_eventHash_eq {as bs : List LedgerEvent} (hfree : CollisionFree as bs)
    {a b : LedgerEvent} (ha : a ∈ as) (hb : b ∈ bs) (hsa : Sealed a) (hsb : Sealed b)
    (h : a.eventHash = b.eventHash) : a = b := by
  obtain ⟨hencoded, hhash⟩ := canonicalHash_eq_ok.mp hsa.2
  obtain ⟨hencoded', hhash'⟩ := canonicalHash_eq_ok.mp hsb.2
  have hfacts : eventFacts a = eventFacts b := by
    have hbytes := hfree.facts a ha b hb (hhash.symm.trans (h.trans hhash'))
    exact eq_of_utf8_eq hencoded hencoded' (normal_eventFacts a) (normal_eventFacts b) hbytes
  -- The facts name the hash of the payload.
  have hpayloadHash : a.payloadHash = b.payloadHash := by
    simp only [eventFacts, Json.obj.injEq, List.cons.injEq, Prod.mk.injEq, true_and, and_true] at hfacts
    exact Text.eq_of_text_eq (text_injective hfacts.2.2.2.2.2.2.2.1)
  have hpayload : a.payload.json = b.payload.json := by
    have hhashed := (canonicalHash_eq_ok.mp hsa.1).2
    have hhashed' := (canonicalHash_eq_ok.mp hsb.1).2
    have hbytes := hfree.payloads a ha b hb (hhashed.symm.trans (hpayloadHash.trans hhashed'))
    exact eq_of_utf8_eq a.payload.encodable b.payload.encodable a.payload.normal b.payload.normal
      hbytes
  exact eventFacts_injective hfacts (Payload.json_injective hpayload) h

/-- **Histories.**  Two verified histories that agree in the hash of their `k`-th event agree in
    every event up to it, and histories with the same head agree altogether. -/
theorem history_determined {events events' : List LedgerEvent} {nextSeq nextSeq' : ℕ}
    {head head' : Hash} (h : verifyEvents events nextSeq head = .ok none)
    (h' : verifyEvents events' nextSeq' head' = .ok none) :
    (∀ k (hk : k < events.length) (hk' : k < events'.length),
      CollisionFree (events.take (k + 1)) (events'.take (k + 1)) →
        events[k].eventHash = events'[k].eventHash →
          events.take (k + 1) = events'.take (k + 1))
      ∧ (CollisionFree events events' → events ≠ [] → events' ≠ [] → head = head' →
        events = events') := by
  obtain ⟨⟨hchain, hsealed⟩, -, hlast⟩ := verifyEvents_iff.mp h
  obtain ⟨⟨hchain', hsealed'⟩, -, hlast'⟩ := verifyEvents_iff.mp h'
  have hdetermined {i j : ℕ} (hi : i < events.length) (hj : j < events'.length)
      (hfree : CollisionFree (events.take (i + 1)) (events'.take (j + 1)))
      (hhash : events[i].eventHash = events'[j].eventHash) :
      i = j ∧ events.take (i + 1) = events'.take (j + 1) := by
    refine take_eq_of_hash_eq hchain hchain' hi hj (fun a ha b hb => ?_) hhash
    exact eq_of_eventHash_eq hfree ha hb (hsealed a (List.mem_of_mem_take ha))
      (hsealed' b (List.mem_of_mem_take hb))
  refine ⟨fun k hk hk' hfree hhash => (hdetermined hk hk' hfree hhash).2, ?_⟩
  intro hfree hne hne' hhead
  have hi : events.length - 1 < events.length := Nat.sub_one_lt (by simpa using hne)
  have hj : events'.length - 1 < events'.length := Nat.sub_one_lt (by simpa using hne')
  have htake : events.take (events.length - 1 + 1) = events := by
    rw [Nat.sub_add_cancel (Nat.one_le_of_lt hi), List.take_length]
  have htake' : events'.take (events'.length - 1 + 1) = events' := by
    rw [Nat.sub_add_cancel (Nat.one_le_of_lt hj), List.take_length]
  have hend : lastHash genesisHash events = events[events.length - 1].eventHash :=
    headHash_eq_getElem hi
  have hend' : lastHash genesisHash events' = events'[events'.length - 1].eventHash :=
    headHash_eq_getElem hj
  have hhash : events[events.length - 1].eventHash = events'[events'.length - 1].eventHash := by
    rw [← hend, ← hend', ← hlast, ← hlast', hhead]
  have htakes := (hdetermined hi hj (by rwa [htake, htake']) hhash).2
  rwa [htake, htake'] at htakes

/-! ### Two histories -/

/-- A second event with some payload. -/
def second (payload : Payload) : LedgerAppend :=
  { sample payload with id := ⟨"00000000-0000-4000-8000-000000000006", by decide⟩ }

/-- The history of a first event and a second one with some payload. -/
theorem exists_history (payload : Payload) {p : LedgerEvent} {head : SessionLedgerHead}
    (hp : persist (sample one) head = .ok p) (hhead : head.nextSeq = 1)
    (hgenesis : head.headHash = genesisHash) :
    ∃ q, q.payload = payload ∧ verifyEvents [p, q] 3 q.eventHash = .ok none := by
  obtain ⟨-, hseq, hprev, hsealed⟩ := persist_ok hp
  have hprint (n : ℕ) (hn : n < 3) : Json.isPrintable n = true := by
    interval_cases n <;> decide
  let head' : SessionLedgerHead := ⟨(sample one).workspaceId, 2, p.eventHash, by decide⟩
  obtain ⟨q, hq⟩ : ∃ q, persist (second payload) head' = .ok q :=
    exists_persist (hprint 2 (by decide)) (hprint 1 (by decide)) (hprint 0 (by decide))
  obtain ⟨hvalues, hseq', hprev', hsealed'⟩ := persist_ok hq
  refine ⟨q, ?_, verifyEvents_iff.mpr ⟨⟨?_, ?_⟩, rfl, rfl⟩⟩
  · exact congrArg LedgerAppend.payload hvalues
  · exact ⟨hseq.trans hhead, hprev.trans hgenesis, hseq', hprev', trivial⟩
  · simp [hsealed, hsealed']

/-- Histories that differ in their second event agree in the first. -/
theorem history_determined_first : ∃ p q q', q ≠ q'
    ∧ verifyEvents [p, q] 3 q.eventHash = .ok none ∧ verifyEvents [p, q'] 3 q'.eventHash = .ok none
    ∧ [p, q].take 1 = [p, q'].take 1 := by
  have hprint : Json.isPrintable 1 = true ∧ Json.isPrintable 0 = true := by decide
  let head : SessionLedgerHead := ⟨(sample one).workspaceId, 1, genesisHash, Nat.one_pos⟩
  obtain ⟨p, hp⟩ : ∃ p, persist (sample one) head = .ok p :=
    exists_persist hprint.1 hprint.1 hprint.2
  obtain ⟨q, hq, hverified⟩ := exists_history one hp rfl rfl
  obtain ⟨q', hq', hverified'⟩ := exists_history truth hp rfl rfl
  refine ⟨p, q, q', ?_, hverified, hverified', ?_⟩
  · rintro rfl
    have hpayload := congrArg Payload.entries (hq.symm.trans hq')
    simp [one, truth] at hpayload
  · refine (history_determined hverified hverified').1 0 (by simp) (by simp) ⟨?_, ?_⟩ rfl
    all_goals simp

end Agora.Ledger
