import Agora.Audit.Anchor

namespace Agora.Audit

open Ledger (Chained Database LedgerAppend LedgerError LedgerEvent LedgerState append_cases genesis
  genesisHash ofSession_insert head?_insert readFrom_eq_take rows_eq_ofSession verify_of_chained)
open Marl (Hash)
open Stateful

/-!
# Alarms without cause

Nothing is altered in a run of appends and of anchors for later and later days, and still the check
of an anchor can fail: the publisher takes the last event up to the day, and the verifier wants an
event that is newer than the last anchored one and stays the last of its day.  No alarm is raised at
any point of a run exactly when these hold at each of its steps (`noAlarm_iff`).
-/

/-! ### Runs -/

inductive AuditCall where
  | append (e : LedgerAppend)
  | publish (day : Date) (anchoredAt : Datetime) (id : UUID)

inductive AuditAnswer where
  | event (answer : Except LedgerError LedgerEvent)
  | anchor (answer : Except AuditError AuditAnchor)

/-- Heads for the sessions of some workspaces, no events and no anchors. -/
def start (workspace : UUID → Option UUID) : AuditState := ⟨genesis workspace, []⟩

section Session

variable (db : Database) (w n : UUID)

/-- Appends to any session, anchors for the session `n` in the workspace `w`. -/
def exec : AuditCall → AuditState → AuditAnswer × AuditState
  | .append e, s =>
    let (answer, ledger) := Ledger.append db e s.ledger
    (.event answer, { s with ledger })
  | .publish day anchoredAt id, s =>
    let (answer, s') := publishDailyAnchor w n day anchoredAt id s
    (.anchor answer, s')

theorem exec_append (e : LedgerAppend) (s : AuditState) :
    (exec db w n (.append e) s).2 = { s with ledger := (Ledger.append db e s.ledger).2 } := rfl

theorem exec_publish (day : Date) (anchoredAt : Datetime) (id : UUID) (s : AuditState) :
    (exec db w n (.publish day anchoredAt id) s).2
      = (publishDailyAnchor w n day anchoredAt id s).2 := rfl

/-- The chain is valid, and every anchor is. -/
def NoAlarm (s : AuditState) : Prop :=
  ∃ report, s.chainIntegrity w n = .ok report ∧ report.chainValid = true
    ∧ ∀ v ∈ report.anchors, v.valid = true

/-- Every anchor is published, for a later day than the anchors before it. -/
def Daily (s : AuditState) : AuditCall → Prop
  | .append _ => True
  | .publish day anchoredAt id =>
    (∃ a, (publishDailyAnchor w n day anchoredAt id s).1 = .ok a)
      ∧ ∀ a ∈ s.ofSession w n, a.anchorDay < day

/-- The append stores a new event in the session. -/
def Stores (s : AuditState) (e : LedgerAppend) : Prop :=
  (e.workspaceId = w ∧ e.sessionId = n) ∧ s.ledger.eventById e.id = none
    ∧ ∃ p, (Ledger.append db e s.ledger).1 = .ok p

/-- No event that is read is stored on the day of the last anchor or before it, and every further
    anchor finds an event that is newer than the head of the last one. -/
def Quiet (s : AuditState) : AuditCall → Prop
  | .append e => Stores db w n s e → (s.ledger.ofSession w n).length < maxEventScan →
      ∀ previous ∈ s.latest w n, previous.anchorDay < e.recordedAt.date
  | .publish day _ _ => ∀ previous ∈ s.latest w n,
      ∃ e ∈ (s.ledger.ofSession w n).take maxEventScan,
        previous.headSeq < e.ledgerSeq ∧ e.recordedAt.date ≤ day

end Session

/-! ### One anchor after another -/

section Scan

variable {events : List LedgerEvent}

theorem lastEventAtOrBefore_mem {day : Date} {e : LedgerEvent}
    (h : lastEventAtOrBefore events day = some e) : e ∈ events ∧ e.recordedAt.date ≤ day := by
  simpa using List.mem_of_getLast? h

theorem lastEventAtOrBefore_concat (events : List LedgerEvent) (p : LedgerEvent) (day : Date) :
    lastEventAtOrBefore (events ++ [p]) day
      = if p.recordedAt.date ≤ day then some p else lastEventAtOrBefore events day := by
  unfold lastEventAtOrBefore
  by_cases hday : p.recordedAt.date ≤ day <;> simp [List.filter_append, hday]

/-- No event up to the day has a higher number. -/
theorem le_lastEventAtOrBefore (hsorted : events.Pairwise fun x y => x.ledgerSeq < y.ledgerSeq)
    {day : Date} {e dayHead : LedgerEvent} (h : lastEventAtOrBefore events day = some dayHead)
    (he : e ∈ events) (hday : e.recordedAt.date ≤ day) : e.ledgerSeq ≤ dayHead.ledgerSeq := by
  have hmem : e ∈ events.filter (·.recordedAt.date ≤ day) := by simp [he, hday]
  have hfilter := hsorted.filter (·.recordedAt.date ≤ day)
  obtain ⟨before, heq⟩ := List.getLast?_eq_some_iff.mp h
  rw [heq] at hmem hfilter
  rcases List.mem_append.mp hmem with hbefore | hlast
  · have hlt := (List.pairwise_append.mp hfilter).2.2 e hbefore dayHead (List.mem_singleton_self _)
    exact hlt.le
  · rw [List.mem_singleton.mp hlast]

/-- The check of an anchor that comes after some other, or first. -/
def verifyAfter (events : List LedgerEvent) (previous : Option AuditAnchor) (a : AuditAnchor) :
    Option String :=
  verifyAnchor a events (prevHeadHash previous) (previous.map (·.anchorDay))
    ((previous.map (·.headSeq)).getD 0)

theorem verifyAfter_eq_none {previous : Option AuditAnchor} {a : AuditAnchor} :
    verifyAfter events previous a = none ↔ a.prevHeadHash = prevHeadHash previous
      ∧ (∀ p ∈ previous, p.anchorDay < a.anchorDay ∧ p.headSeq < a.headSeq)
      ∧ ∃ dayHead, lastEventAtOrBefore events a.anchorDay = some dayHead
        ∧ dayHead.ledgerSeq = a.headSeq ∧ dayHead.eventHash = a.headHash := by
  have hhash := a.authentic
  unfold verifyAfter verifyAnchor
  by_cases hprev : a.prevHeadHash = prevHeadHash previous
  case neg => simp [hhash, hprev]
  cases previous with
  | none =>
    cases lastEventAtOrBefore events a.anchorDay <;> simp [hhash, hprev]
  | some p =>
    have hseq : p.headSeq ≠ 0 := p.positive_seq.ne'
    by_cases hday : p.anchorDay < a.anchorDay
    case neg => simp [hhash, hprev, hday, not_lt.mp hday]
    by_cases hgrows : p.headSeq < a.headSeq
    case neg => simp [hhash, hprev, hgrows, not_lt.mp hgrows, not_le.mpr hday, hseq]
    cases lastEventAtOrBefore events a.anchorDay <;>
      simp [hhash, hprev, hday, hgrows, not_le.mpr hday, not_le.mpr hgrows]

variable (events) in
/-- The loop over some anchors of a valid ledger. -/
def scanOf (anchors : List AuditAnchor) : IntegrityScan :=
  anchors.foldl (IntegrityScan.step events) (IntegrityScan.start true)

/-- Nothing has been found. -/
def IntegrityScan.Clean (scan : IntegrityScan) : Prop :=
  scan.chainValid = true ∧ ∀ v ∈ scan.verified, v.valid = true

@[simp] theorem scanOf_nil : scanOf events [] = IntegrityScan.start true := rfl

theorem scanOf_concat (anchors : List AuditAnchor) (a : AuditAnchor) :
    scanOf events (anchors ++ [a]) = (scanOf events anchors).step events a := by
  simp [scanOf]

/-- The loop remembers the last anchor. -/
theorem scanOf_previous (anchors : List AuditAnchor) :
    (scanOf events anchors).expectedPrev = prevHeadHash anchors.getLast?
      ∧ (scanOf events anchors).previousDay = anchors.getLast?.map (·.anchorDay)
      ∧ (scanOf events anchors).previousSeq = (anchors.getLast?.map (·.headSeq)).getD 0 := by
  cases anchors using List.reverseRecOn with
  | nil => exact ⟨rfl, rfl, rfl⟩
  | append_singleton anchors a =>
    rw [scanOf_concat, List.getLast?_concat]
    exact ⟨rfl, rfl, rfl⟩

/-- **One more anchor.** -/
theorem clean_concat {anchors : List AuditAnchor} {a : AuditAnchor} :
    (scanOf events (anchors ++ [a])).Clean
      ↔ (scanOf events anchors).Clean ∧ verifyAfter events anchors.getLast? a = none := by
  obtain ⟨hprev, hday, hseq⟩ := @scanOf_previous events anchors
  rw [scanOf_concat]
  unfold IntegrityScan.Clean IntegrityScan.step verifyAfter
  simp only [hprev, hday, hseq, Bool.and_eq_true, Option.isNone_iff_eq_none]
  constructor
  · rintro ⟨⟨hvalid, hnone⟩, hall⟩
    exact ⟨⟨hvalid, fun v hv => hall v (List.mem_append_left _ hv)⟩, hnone⟩
  · rintro ⟨⟨hvalid, hall⟩, hnone⟩
    refine ⟨⟨hvalid, hnone⟩, List.forall_mem_append.mpr ⟨hall, ?_⟩⟩
    exact List.forall_mem_singleton.mpr (by simp [hnone])

/-- **One more event.**  It has to be later than the day of every anchor, that is of the last. -/
theorem clean_event {anchors : List AuditAnchor} {p : LedgerEvent}
    (hdays : anchors.Pairwise fun a b => a.anchorDay < b.anchorDay)
    (hnewer : ∀ x ∈ events, x.ledgerSeq < p.ledgerSeq) (h : (scanOf events anchors).Clean) :
    (scanOf (events ++ [p]) anchors).Clean
      ↔ ∀ previous ∈ anchors.getLast?, previous.anchorDay < p.recordedAt.date := by
  cases anchors using List.reverseRecOn with
  | nil =>
    rw [scanOf_nil] at h ⊢
    simp [h]
  | append_singleton anchors a =>
    simp only [List.getLast?_concat, Option.mem_some_iff, forall_eq']
    constructor
    · intro hclean
      -- Otherwise the event is the head of the day, and its number is not the anchored one.
      by_contra hday
      obtain ⟨-, -, x, hx, hseq, -⟩ := verifyAfter_eq_none.mp (clean_concat.mp h).2
      obtain ⟨-, -, y, hy, hseq', -⟩ := verifyAfter_eq_none.mp (clean_concat.mp hclean).2
      rw [lastEventAtOrBefore_concat, if_pos (not_lt.mp hday)] at hy
      have hlt := hnewer x (lastEventAtOrBefore_mem hx).1
      rw [← Option.some.inj hy, ← hseq] at hseq'
      omega
    · intro hday
      have hearlier : ∀ b ∈ anchors ++ [a], b.anchorDay < p.recordedAt.date := by
        refine List.forall_mem_append.mpr ⟨fun b hb => ?_, List.forall_mem_singleton.mpr hday⟩
        exact ((List.pairwise_append.mp hdays).2.2 b hb a (List.mem_singleton_self _)).trans hday
      have hsame : scanOf (events ++ [p]) (anchors ++ [a]) = scanOf events (anchors ++ [a]) := by
        refine List.foldl_ext _ _ _ fun scan b hb => ?_
        unfold IntegrityScan.step verifyAnchor
        rw [lastEventAtOrBefore_concat, if_neg (not_le.mpr (hearlier b hb))]
      rw [hsame]
      exact h

end Scan

/-! ### Invariant -/

section Session

variable {db : Database} {w n : UUID} {s : AuditState}

/-- The ledger has chains and a head for the session, and the anchors of the session are in order. -/
structure Wellformed (w n : UUID) (s : AuditState) : Prop where
  chained : Chained s.ledger
  headed : ∃ head, s.ledger.head? w n = some head
  days : (s.ofSession w n).Pairwise fun a b => a.anchorDay < b.anchorDay

theorem wellformed_start {workspace : UUID → Option UUID} (h : workspace n = some w) :
    Wellformed w n (start workspace) where
  chained := Ledger.chained_genesis workspace
  headed := ⟨⟨w, 1, genesisHash, Nat.one_pos⟩, by simp [start, genesis, LedgerState.head?, h]⟩
  days := List.Pairwise.nil

theorem Wellformed.all_eq (h : Wellformed w n s) : s.all w n = s.ofSession w n :=
  (h.days.imp fun hlt => hlt.le).insertionSort_eq

theorem Wellformed.latest_eq (h : Wellformed w n s) :
    s.latest w n = (s.ofSession w n).getLast? := by
  rw [AuditState.latest, h.all_eq]

/-- The events that are read. -/
def scanned (w n : UUID) (s : AuditState) : List LedgerEvent :=
  (s.ledger.ofSession w n).take maxEventScan

theorem Wellformed.readFrom_eq (h : Wellformed w n s) :
    s.ledger.readFrom w n 1 maxEventScan = .ok (scanned w n s) :=
  readFrom_eq_take h.chained w n (by decide)

/-- The events of the session are numbered upwards. -/
theorem Wellformed.sorted (h : Wellformed w n s) :
    (s.ledger.ofSession w n).Pairwise fun x y => x.ledgerSeq < y.ledgerSeq := by
  refine List.pairwise_map.mp (?_ : ((s.ledger.ofSession w n).map (·.ledgerSeq)).Pairwise (· < ·))
  rw [(h.chained.chain w n).map_number]
  exact List.pairwise_lt_range'

theorem Wellformed.noAlarm_iff_clean (h : Wellformed w n s) :
    NoAlarm w n s ↔ (scanOf (scanned w n s) (s.ofSession w n)).Clean := by
  obtain ⟨head, hhead⟩ := h.headed
  unfold NoAlarm AuditState.chainIntegrity
  rw [h.readFrom_eq, verify_of_chained h.chained hhead, h.all_eq]
  constructor
  · rintro ⟨report, heq, hclean⟩
    cases heq
    exact hclean
  · exact fun hclean => ⟨_, rfl, hclean⟩

/-! ### Publishing -/

theorem publish_ok {a a' : AuditAnchor} (h : (publish a s).1 = .ok a') :
    publish a s = (.ok a, s.insert a) := by
  unfold publish at h ⊢
  simp only [bind_apply, read_apply, andThen_ok] at h ⊢
  split at h
  · cases h
  · rename_i hid
    rw [if_neg hid]
    simp only [bind_apply, read_apply, andThen_ok] at h ⊢
    split at h
    · cases h
    · rename_i hday
      rw [if_neg hday]
      rfl

/-- What an anchor says when it is published. -/
theorem publishDailyAnchor_ok (h : Wellformed w n s) {day : Date} {anchoredAt : Datetime} {id : UUID}
    {a : AuditAnchor} (ha : (publishDailyAnchor w n day anchoredAt id s).1 = .ok a) :
    ∃ dayHead, lastEventAtOrBefore (scanned w n s) day = some dayHead
      ∧ a.toAnchorFacts =
        { workspaceId := w
          sessionId := n
          anchorDay := day
          headSeq := dayHead.ledgerSeq
          headHash := dayHead.eventHash
          prevHeadHash := prevHeadHash (s.ofSession w n).getLast?
          anchoredAt }
      ∧ a.id = id ∧ publishDailyAnchor w n day anchoredAt id s = (.ok a, s.insert a) := by
  have hread := h.readFrom_eq
  have hlatest := h.latest_eq
  unfold publishDailyAnchor at ha ⊢
  simp only [bind_apply, read_apply, andThen_ok, lift_apply, hread, Except.mapError] at ha ⊢
  cases hlast : lastEventAtOrBefore (scanned w n s) day with
  | none =>
    rw [hlast] at ha
    cases ha
  | some dayHead =>
    rw [hlast] at ha
    simp only [bind_apply, read_apply, andThen_ok, lift_apply, hlatest] at ha ⊢
    refine ⟨dayHead, rfl, ?_⟩
    generalize hpublish : AuditAnchor.publish _ _ _ = published at ha ⊢
    cases published with
    | error e => cases ha
    | ok anchor =>
      have hstored := publish_ok ha
      have hsame : anchor = a := by
        rw [andThen_ok, hstored] at ha
        exact Except.ok.inj ha
      subst hsame
      obtain ⟨hfacts, hid⟩ := AuditAnchor.publish_ok hpublish
      exact ⟨hfacts, hid, hstored⟩

/-- There is an anchor for a day that has none and is not before the first event. -/
theorem exists_publishDailyAnchor (h : Wellformed w n s) {day : Date} {id : UUID}
    (anchoredAt : Datetime) {dayHead : LedgerEvent}
    (hlast : lastEventAtOrBefore (scanned w n s) day = some dayHead)
    (hprint : Json.isPrintable dayHead.ledgerSeq = true) (hid : ∀ a ∈ s.anchors, a.id ≠ id)
    (hday : ∀ a ∈ s.ofSession w n, a.anchorDay ≠ day) :
    ∃ a, (publishDailyAnchor w n day anchoredAt id s).1 = .ok a := by
  have hread := h.readFrom_eq
  unfold publishDailyAnchor
  simp only [bind_apply, read_apply, andThen_ok, lift_apply, hread, Except.mapError]
  rw [hlast]
  simp only [bind_apply, read_apply, andThen_ok, lift_apply]
  obtain ⟨a, ha⟩ : ∃ a, AuditAnchor.publish
      { workspaceId := w
        sessionId := n
        anchorDay := day
        headSeq := dayHead.ledgerSeq
        headHash := dayHead.eventHash
        prevHeadHash := prevHeadHash (s.latest w n)
        anchoredAt } dayHead.positive_seq id = .ok a :=
    AuditAnchor.exists_publish dayHead.positive_seq id hprint
  obtain ⟨hfacts, hsame⟩ := AuditAnchor.publish_ok ha
  have hfresh : s.anchors.any (·.id = a.id) = false := by simpa [hsame] using hid
  have hfree : (s.ofSession a.workspaceId a.sessionId).any (·.anchorDay = a.anchorDay) = false := by
    simpa [hfacts] using hday
  rw [ha]
  refine ⟨a, ?_⟩
  simp [publish, bind_apply, hfresh, hfree]

theorem ofSession_insert_anchor {a : AuditAnchor} (ha : a.workspaceId = w ∧ a.sessionId = n) :
    (s.insert a).ofSession w n = s.ofSession w n ++ [a] := by
  simp [AuditState.ofSession, AuditState.insert, List.filter_append, ha]

/-! ### Steps -/

/-- A session is in one workspace. -/
theorem workspace_unique {ledger : LedgerState} {w w' : UUID} {head head' : Ledger.SessionLedgerHead}
    (h : ledger.head? w n = some head) (h' : ledger.head? w' n = some head') : w = w' := by
  unfold LedgerState.head? at h h'
  obtain ⟨hhead, hw⟩ := Option.filter_eq_some_iff.mp h
  obtain ⟨hhead', hw'⟩ := Option.filter_eq_some_iff.mp h'
  rw [hhead] at hhead'
  cases hhead'
  exact (of_decide_eq_true hw).symm.trans (of_decide_eq_true hw')

/-- **Step.**  Appends and later anchors keep the invariant. -/
theorem Wellformed.exec {call : AuditCall} (h : Wellformed w n s) (hdaily : Daily w n s call) :
    Wellformed w n (exec db w n call s).2 := by
  cases call with
  | append e =>
    refine ⟨h.chained.append db e, ?_, h.days⟩
    obtain ⟨head, hhead⟩ := h.headed
    show ∃ head, (Ledger.append db e s.ledger).2.head? w n = some head
    rcases append_cases db e s.ledger with ⟨hsame, -⟩ | ⟨p, head', -, hhead', happend, rfl, -⟩
    · rw [hsame]
      exact ⟨head, hhead⟩
    · rw [happend, head?_insert]
      by_cases hsession : n = p.sessionId
      · subst hsession
        rw [if_pos rfl, if_pos (workspace_unique hhead' hhead)]
        exact ⟨_, rfl⟩
      · rw [if_neg hsession]
        exact ⟨head, hhead⟩
  | publish day anchoredAt id =>
    obtain ⟨⟨a, ha⟩, hlater⟩ := hdaily
    obtain ⟨dayHead, -, hfacts, -, hpublished⟩ := publishDailyAnchor_ok h ha
    rw [exec_publish, hpublished]
    refine ⟨h.chained, h.headed, ?_⟩
    rw [ofSession_insert_anchor (by rw [hfacts]; exact ⟨rfl, rfl⟩)]
    refine List.pairwise_append.mpr ⟨h.days, List.pairwise_singleton _ _, fun b hb c hc => ?_⟩
    rw [List.mem_singleton.mp hc, hfacts]
    exact hlater b hb

theorem not_stores_of_same {e : LedgerAppend}
    (h : ∀ x, (Ledger.append db e s.ledger).1 = .ok x → s.ledger.eventById e.id = some x) :
    ¬ Stores db w n s e := by
  rintro ⟨-, hnew, p, hp⟩
  cases hnew.symm.trans (h p hp)

/-- An append raises no alarm exactly when it stores no event that belongs to an anchored day. -/
theorem noAlarm_append (h : Wellformed w n s) (hquiet : NoAlarm w n s) (e : LedgerAppend) :
    NoAlarm w n (exec db w n (.append e) s).2 ↔ Quiet db w n s (.append e) := by
  have hnext : Wellformed w n (exec db w n (.append e) s).2 := h.exec trivial
  rw [hnext.noAlarm_iff_clean]
  rw [h.noAlarm_iff_clean] at hquiet
  show (scanOf (((Ledger.append db e s.ledger).2.ofSession w n).take maxEventScan)
    (s.ofSession w n)).Clean ↔ (Stores db w n s e → _)
  rcases append_cases db e s.ledger with ⟨hsame, hstored⟩ | ⟨p, head, hnew, -, happend, rfl, -⟩
  · rw [hsame]
    exact iff_of_true hquiet fun hstores => absurd hstores (not_stores_of_same hstored)
  by_cases hscope : p.workspaceId = w ∧ p.sessionId = n
  case neg =>
    rw [happend, ofSession_insert, if_neg hscope, List.append_nil]
    exact iff_of_true hquiet fun hstores => absurd hstores.1 hscope
  have hstores : Stores db w n s p.toLedgerAppend := ⟨hscope, hnew, p, by rw [happend]⟩
  rw [happend, ofSession_insert, if_pos hscope, h.latest_eq]
  by_cases hroom : (s.ledger.ofSession w n).length < maxEventScan
  · have hall : scanned w n s = s.ledger.ofSession w n := List.take_of_length_le hroom.le
    rw [hall] at hquiet
    have htake : (s.ledger.ofSession w n ++ [p]).take maxEventScan = s.ledger.ofSession w n ++ [p] :=
      List.take_of_length_le (by rw [List.length_append]; exact hroom)
    have hnewer : ∀ x ∈ s.ledger.ofSession w n, x.ledgerSeq < p.ledgerSeq := fun x hx => by
      have hsorted := hnext.sorted
      rw [exec_append, happend, ofSession_insert, if_pos hscope] at hsorted
      exact (List.pairwise_append.mp hsorted).2.2 x hx p (List.mem_singleton_self _)
    rw [htake, clean_event h.days hnewer hquiet]
    exact ⟨fun hday _ _ => hday, fun hday => hday hstores hroom⟩
  · -- The scan is full, and the event is not read.
    have htake : (s.ledger.ofSession w n ++ [p]).take maxEventScan = scanned w n s :=
      List.take_append_of_le_length (not_lt.mp hroom)
    rw [htake]
    exact iff_of_true hquiet fun _ hlt => absurd hlt hroom

/-- An anchor raises no alarm exactly when there is a newer event to anchor. -/
theorem noAlarm_publish {day : Date} {anchoredAt : Datetime} {id : UUID} (h : Wellformed w n s)
    (hdaily : Daily w n s (.publish day anchoredAt id)) (hquiet : NoAlarm w n s) :
    NoAlarm w n (exec db w n (.publish day anchoredAt id) s).2
      ↔ Quiet db w n s (.publish day anchoredAt id) := by
  have hnext : Wellformed w n (exec db w n (.publish day anchoredAt id) s).2 := h.exec hdaily
  obtain ⟨⟨a, ha⟩, hlater⟩ := hdaily
  obtain ⟨dayHead, hlast, hfacts, -, hpublished⟩ := publishDailyAnchor_ok h ha
  rw [hnext.noAlarm_iff_clean, exec_publish, hpublished]
  rw [h.noAlarm_iff_clean] at hquiet
  show (scanOf (scanned w n s) ((s.insert a).ofSession w n)).Clean ↔ ∀ previous ∈ s.latest w n, _
  have hanchor : a.workspaceId = w ∧ a.sessionId = n := by rw [hfacts]; exact ⟨rfl, rfl⟩
  rw [ofSession_insert_anchor hanchor, clean_concat, verifyAfter_eq_none, hfacts, h.latest_eq]
  have hmem := lastEventAtOrBefore_mem hlast
  constructor
  · rintro ⟨-, -, hgrows, -⟩ previous hprevious
    exact ⟨dayHead, hmem.1, (hgrows previous hprevious).2, hmem.2⟩
  · intro hnewer
    refine ⟨hquiet, rfl, fun previous hprevious => ?_, dayHead, hlast, rfl, rfl⟩
    obtain ⟨e, he, hseq, hday⟩ := hnewer previous hprevious
    have hle := le_lastEventAtOrBefore (h.sorted.sublist (List.take_sublist _ _)) hlast he hday
    exact ⟨hlater previous (List.mem_of_getLast? hprevious), hseq.trans_le hle⟩

end Session

theorem noAlarm_start {w n : UUID} {workspace : UUID → Option UUID} (h : workspace n = some w) :
    NoAlarm w n (start workspace) := by
  rw [(wellformed_start h).noAlarm_iff_clean]
  exact ⟨rfl, List.forall_mem_nil _⟩

/-- **Alarms.**  In a run of appends and of anchors for later and later days, the audit of the
    session raises no alarm at any point exactly when every step is quiet. -/
theorem noAlarm_iff (db : Database) (workspace : UUID → Option UUID) {w n : UUID}
    (hsession : workspace n = some w) {calls : List AuditCall}
    (hdaily : Along (exec db w n) (Daily w n) (start workspace) calls) :
    (∀ earlier later, calls = earlier ++ later →
        NoAlarm w n (after (exec db w n) (start workspace) earlier))
      ↔ Along (exec db w n) (Quiet db w n) (start workspace) calls := by
  refine forall_prefix_iff_along (fun s call h hd => h.exec hd) (fun s call h hd hs => ?_)
    (wellformed_start hsession) (noAlarm_start hsession) hdaily
  cases call with
  | append e => exact noAlarm_append h hs e
  | publish day anchoredAt id => exact noAlarm_publish h hd hs

/-! ### A day without events -/

/-- The times of events do not decrease, and every anchor is published for the current day, the
    first for that day. -/
def Regular (w n : UUID) (s : AuditState) : AuditCall → Prop
  | .append e => (∀ x ∈ s.ledger.ofSession w n, x.recordedAt ≤ e.recordedAt)
      ∧ ∀ a ∈ s.ofSession w n, a.anchorDay ≤ e.recordedAt.date
  | .publish day anchoredAt id => Daily w n s (.publish day anchoredAt id)
      ∧ ∀ x ∈ s.ledger.ofSession w n, x.recordedAt.date ≤ day

theorem daily_of_regular {w n : UUID} {s : AuditState} {call : AuditCall}
    (h : Regular w n s call) : Daily w n s call := by
  cases call with
  | append e => trivial
  | publish day anchoredAt id => exact h.1

open Ledger (sample one sampleWorkspace unlimited)

/-- The day of the sample, and the day after it. -/
def dayOne : Date := (sample one).recordedAt.date

def dayTwo : Date := ⟨2026, 9, 6, valid2026, validSeptember, validSixth⟩

/-- An anchor of the sample, and one on the day after. -/
def anchorOne : AuditCall :=
  .publish dayOne (sample one).recordedAt ⟨"00000000-0000-4000-8000-000000000007", by decide⟩

def anchorTwo : AuditCall :=
  .publish dayTwo { (sample one).recordedAt with date := dayTwo }
    ⟨"00000000-0000-4000-8000-000000000008", by decide⟩

section Sample

/-- The workspace and the session of the sample. -/
abbrev w₁ : UUID := (sample one).workspaceId

abbrev n₁ : UUID := (sample one).sessionId

/-- One event has been recorded. -/
structure Recorded (s : AuditState) (p : LedgerEvent) : Prop where
  wellformed : Wellformed w₁ n₁ s
  events : s.ledger.ofSession w₁ n₁ = [p]
  date : p.recordedAt.date = dayOne
  seq : p.ledgerSeq = 1

theorem exists_recorded : ∃ s p, Recorded s p ∧ s.anchors = []
    ∧ (exec unlimited w₁ n₁ (.append (sample one)) (start sampleWorkspace)).2 = s := by
  obtain ⟨p, happend, hp⟩ := Ledger.append_sample
  have hfirst : (exec unlimited w₁ n₁ (.append (sample one)) (start sampleWorkspace)).2
      = ⟨(genesis sampleWorkspace).insert p, []⟩ := by
    rw [exec_append, start, happend]
  have hstart : Wellformed w₁ n₁ (start sampleWorkspace) := wellformed_start rfl
  have hwell : Wellformed w₁ n₁ (exec unlimited w₁ n₁ (.append (sample one)) (start sampleWorkspace)).2 :=
    hstart.exec trivial
  rw [hfirst] at hwell
  have hevents : ((genesis sampleWorkspace).insert p).ofSession w₁ n₁ = [p] := by
    rw [ofSession_insert, if_pos (by rw [hp]; exact ⟨rfl, rfl⟩)]
    rfl
  have hchain := hwell.chained.chain w₁ n₁
  rw [hevents] at hchain
  exact ⟨_, p, ⟨hwell, hevents, by rw [hp]; rfl, hchain.1⟩, rfl, hfirst⟩

/-- An anchor for the one event, on any day from its own on. -/
theorem Recorded.exists_anchor {s : AuditState} {p : LedgerEvent} (h : Recorded s p) {day : Date}
    (anchoredAt : Datetime) {id : UUID} (hday : dayOne ≤ day) (hid : ∀ a ∈ s.anchors, a.id ≠ id)
    (hlater : ∀ a ∈ s.ofSession w₁ n₁, a.anchorDay < day) :
    ∃ a, a.anchorDay = day ∧ a.headSeq = 1 ∧ a.id = id ∧ a.workspaceId = w₁ ∧ a.sessionId = n₁
      ∧ Regular w₁ n₁ s (.publish day anchoredAt id)
      ∧ (exec unlimited w₁ n₁ (.publish day anchoredAt id) s).2 = s.insert a := by
  have hscanned : scanned w₁ n₁ s = [] ++ [p] := by
    rw [scanned, h.events]
    exact List.take_of_length_le (by simp [maxEventScan])
  have hlast : lastEventAtOrBefore (scanned w₁ n₁ s) day = some p := by
    rw [hscanned, lastEventAtOrBefore_concat, if_pos (h.date.trans_le hday)]
  obtain ⟨a, ha⟩ := exists_publishDailyAnchor h.wellformed anchoredAt hlast
    (by rw [h.seq]; decide) hid fun a ha => (hlater a ha).ne
  obtain ⟨dayHead, hhead, hfacts, hsame, hpublished⟩ := publishDailyAnchor_ok h.wellformed ha
  obtain rfl : p = dayHead := Option.some.inj (hlast.symm.trans hhead)
  refine ⟨a, by rw [hfacts], by rw [hfacts]; exact h.seq, hsame, by rw [hfacts], by rw [hfacts],
    ⟨⟨⟨a, ha⟩, hlater⟩, ?_⟩, congrArg Prod.snd hpublished⟩
  rw [h.events]
  exact List.forall_mem_singleton.mpr (h.date.trans_le hday)

theorem regular_sample : Regular w₁ n₁ (start sampleWorkspace) (.append (sample one)) :=
  ⟨List.forall_mem_nil _, List.forall_mem_nil _⟩

/-- An anchor on the day of the event raises no alarm. -/
theorem noAlarm_iff_first : NoAlarm w₁ n₁
    (after (exec unlimited w₁ n₁) (start sampleWorkspace) [.append (sample one), anchorOne]) := by
  obtain ⟨s, p, hs, hnone, hfirst⟩ := exists_recorded
  have hsession : s.ofSession w₁ n₁ = [] := by simp [AuditState.ofSession, hnone]
  obtain ⟨a, -, -, -, -, -, hregular, -⟩ := hs.exists_anchor (sample one).recordedAt le_rfl (by simp [hnone])
    (by simp [hsession])
  have hlatest : s.latest w₁ n₁ = none := by rw [hs.wellformed.latest_eq, hsession]; rfl
  have hquiet : Quiet unlimited w₁ n₁ s anchorOne := by
    unfold Quiet anchorOne
    simp [hlatest]
  refine (noAlarm_iff unlimited sampleWorkspace rfl ?_).mpr ?_ _ [] (List.append_nil _).symm
  · exact along_cons trivial hfirst ⟨daily_of_regular hregular, trivial⟩
  · refine along_cons (fun _ _ previous hprevious => ?_) hfirst ⟨hquiet, trivial⟩
    cases hprevious

/-- Nothing is appended on the day after, and its anchor is invalid. -/
theorem alarm_without_cause :
    ¬ ∀ (db : Database) (workspace : UUID → Option UUID) (w n : UUID) (calls : List AuditCall),
      workspace n = some w → Along (exec db w n) (Regular w n) (start workspace) calls →
        ∀ earlier later, calls = earlier ++ later →
          NoAlarm w n (after (exec db w n) (start workspace) earlier) := by
  intro h
  obtain ⟨s, p, hs, hnone, hfirst⟩ := exists_recorded
  have hsession : s.ofSession w₁ n₁ = [] := by simp [AuditState.ofSession, hnone]
  obtain ⟨a, hday, hseq, hid, hw, hn, hregular, hsecond⟩ :=
    hs.exists_anchor (sample one).recordedAt le_rfl (by simp [hnone])
      (by simp [hsession])
  have hsecond : (exec unlimited w₁ n₁ anchorOne s).2 = s.insert a := hsecond
  have hs' : Recorded (s.insert a) p := by
    have hwell : Wellformed w₁ n₁ (exec unlimited w₁ n₁ anchorOne s).2 :=
      hs.wellformed.exec (daily_of_regular hregular)
    rw [hsecond] at hwell
    exact ⟨hwell, hs.events, hs.date, hs.seq⟩
  have hanchors : (s.insert a).ofSession w₁ n₁ = [a] := by
    rw [ofSession_insert_anchor ⟨hw, hn⟩, hsession]
    rfl
  obtain ⟨b, -, -, -, -, -, hregular', -⟩ := @Recorded.exists_anchor _ _ hs' dayTwo
    { (sample one).recordedAt with date := dayTwo } ⟨"00000000-0000-4000-8000-000000000008", by decide⟩ (by decide)
    (by simp [AuditState.insert, hnone, hid]) (by simp [hanchors, hday]; decide)
  have hall := h unlimited sampleWorkspace w₁ n₁ [.append (sample one), anchorOne, anchorTwo] rfl
    (along_cons regular_sample hfirst (along_cons hregular hsecond ⟨hregular', trivial⟩))
  have hbefore := hall [.append (sample one), anchorOne] [anchorTwo] rfl
  have hafter := hall [.append (sample one), anchorOne, anchorTwo] [] rfl
  rw [after_cons_of hfirst, after_cons_of hsecond] at hbefore hafter
  obtain ⟨e, he, hnewer, -⟩ :=
    (noAlarm_publish hs'.wellformed (daily_of_regular hregular') hbefore).mp hafter a
      (by rw [hs'.wellformed.latest_eq, hanchors]; rfl)
  rw [hs'.events] at he
  obtain rfl : e = p := List.mem_singleton.mp (List.mem_of_mem_take he)
  rw [hseq, hs.seq] at hnewer
  exact absurd hnewer (lt_irrefl 1)

end Sample

end Agora.Audit
