import Agora.Audit.Anchor
import Agora.Coordinator.Retrieval

namespace Agora.Audit

open Coordinator (AgentDefinition MembershipIntervention MembershipSnapshot PolicyCommand PolicyState
  Registry boundIds ids)
open Ledger (Database LedgerEvent NonBlank unlimited)
open Marl (Text)
open Session (SessionLifecycle sampleId)

/-!
# Who took part in a round

The report of a round lists the agents that the session is bound to and the turns that were completed
in the round.  Interventions are rows of another table, which the report does not read, and it reads the
first events of the ledger only; `report_complete_iff` says when it is right all the same.
-/

/-! ### The report -/

inductive AgentRoleKind where
  | domainExpert
  | critic
  | orchestrator
  | retriever
  | evaluator
deriving DecidableEq, Repr

/-- The columns of a definition that a report shows beside its ids. -/
structure AgentProfile where
  name : Text fun s => s ≠ ""
  domain : Text fun s => s ≠ ""
  roleKind : AgentRoleKind

structure SessionParticipant where
  agentDefinitionId : UUID
  logicalId : UUID
  profile : AgentProfile

structure RoundContextReport where
  round : ℕ
  sessionId : UUID
  participants : List SessionParticipant
  turnEvents : List LedgerEvent

def agentTurnCompleted : NonBlank := ⟨"AGENT_TURN_COMPLETED", by decide⟩

section Report

variable (profile : UUID → AgentProfile) (collate : String → List ℕ)

/-- A row of the report. -/
def participant (d : AgentDefinition) : SessionParticipant := ⟨d.id, d.logicalId, profile d.id⟩

/-- `order_by(name, id)`: names in the collation of the database. -/
def nameKey (d : AgentDefinition) : List ℕ ×ₗ UUID := toLex (collate (profile d.id).name.text, d.id)

/-- The definitions joined with the bindings of a session. -/
def boundDefinitions (r : Registry) (workspaceId sessionId : UUID) : List AgentDefinition :=
  (r.bindings.filter (·.sessionId = sessionId)).filterMap fun b =>
    (r.definition? b.workspaceId b.agentDefId).filter (·.workspaceId = workspaceId)

/-- `participants`. -/
def participants (r : Registry) (workspaceId sessionId : UUID) : List SessionParticipant :=
  ((boundDefinitions r workspaceId sessionId).insertionSort fun a b =>
    nameKey profile collate a ≤ nameKey profile collate b).map (participant profile)

/-- `round_participant_context`. -/
def roundParticipantContext (s : PolicyState) (workspaceId sessionId : UUID) (round : ℕ) :
    Py (Option RoundContextReport) := do
  match ← s.lifecycle workspaceId sessionId with
  | none => pure none
  | some _ => do
    let participants := participants profile collate s.registry workspaceId sessionId
    let events ← s.ledger.readFrom workspaceId sessionId 1 maxEventScan
    let turnEvents := events.filter fun e => e.eventType = agentTurnCompleted ∧ e.round = round
    pure (some { round, sessionId, participants, turnEvents })

/-! ### When it is complete -/

/-- The report shows the members of the round and all its turns. -/
structure Complete (s : PolicyState) (m : MembershipSnapshot) (report : RoundContextReport) : Prop where
  members : ∀ p, p ∈ report.participants ↔ ∃ d ∈ m.definitions, participant profile d = p
  turns : report.turnEvents = (s.ledger.rows m.workspaceId m.sessionId).filter fun e =>
    e.eventType = agentTurnCompleted ∧ e.round = m.round

end Report

section Condition

variable (s : PolicyState) (w n : UUID) (r : ℕ)

/-- Some intervention brings the agent in, and none replaces it after that. -/
def BroughtIn (x : UUID) : Prop :=
  ∃ earlier i later, s.rows w n r = earlier ++ i :: later ∧ i.agentDefinitionId = x
    ∧ ∀ j ∈ later, j.replacedAgentDefinitionId ≠ some x

/-- The interventions of the round cancel out. -/
structure Cancelled : Prop where
  returned : ∀ x ∈ boundIds s.registry w n,
    (∃ i ∈ s.rows w n r, i.replacedAgentDefinitionId = some x) → BroughtIn s w n r x
  initial : ∀ x, BroughtIn s w n r x → x ∈ boundIds s.registry w n

/-- The turns of the round are among the events that are read. -/
def Scanned : Prop :=
  ∀ e ∈ s.ledger.ofSession w n, e.eventType = agentTurnCompleted → e.round = r →
    e.ledgerSeq ≤ maxEventScan

end Condition

variable {profile : UUID → AgentProfile} {collate : String → List ℕ} {s : PolicyState} {w n : UUID} {r : ℕ}

/-! ### Participants -/

theorem mem_boundDefinitions {reg : Registry} {d : AgentDefinition} :
    d ∈ boundDefinitions reg w n ↔ d ∈ reg.initial w n := by
  simp only [boundDefinitions, Registry.initial, List.mem_filterMap, List.mem_filter,
    List.mem_insertionSort, decide_eq_true_eq, Option.filter_eq_some_iff]
  constructor
  · rintro ⟨b, ⟨hb, hsession⟩, hd, rfl⟩
    have hsame : d.workspaceId = b.workspaceId := of_decide_eq_true (Option.filter_eq_some_iff.mp hd).2
    exact ⟨b, ⟨hb, hsame.symm, hsession⟩, hd⟩
  · rintro ⟨b, ⟨hb, rfl, hsession⟩, hd⟩
    exact ⟨b, ⟨hb, hsession⟩, hd, of_decide_eq_true (Option.filter_eq_some_iff.mp hd).2⟩

theorem mem_participants {reg : Registry} {p : SessionParticipant} :
    p ∈ participants profile collate reg w n ↔ ∃ d ∈ reg.initial w n, participant profile d = p := by
  simp only [participants, List.mem_map, List.mem_insertionSort, mem_boundDefinitions]

/-- Registered definitions show as participants what their ids are. -/
theorem participants_eq_iff {reg : Registry} {definitions : List AgentDefinition}
    (h : Coordinator.Registered reg definitions) :
    (∀ p, p ∈ participants profile collate reg w n ↔ ∃ d ∈ definitions, participant profile d = p)
      ↔ boundIds reg w n = ids definitions := by
  have hinitial : Coordinator.Registered reg (reg.initial w n) := Coordinator.registered_initial reg
  simp only [mem_participants]
  rw [← Coordinator.ids_initial]
  have hsame {as bs : List AgentDefinition} (ha : Coordinator.Registered reg as)
      (hb : Coordinator.Registered reg bs) (hids : ids as = ids bs) {d : AgentDefinition} (hd : d ∈ as) :
      d ∈ bs := by
    have hmem : d.id ∈ ids bs := hids ▸ List.mem_map_of_mem hd
    obtain ⟨e, he, hid⟩ := List.mem_map.mp hmem
    have hrow := hb e he
    rw [hid, ha d hd] at hrow
    rwa [Option.some.inj hrow]
  constructor
  · intro hparticipants
    have hid {as bs : List AgentDefinition} (hall : ∀ p, (∃ d ∈ as, participant profile d = p) →
        ∃ d ∈ bs, participant profile d = p) {x : UUID} (hx : x ∈ ids as) : x ∈ ids bs := by
      obtain ⟨d, hd, rfl⟩ := List.mem_map.mp hx
      obtain ⟨e, he, heq⟩ := hall _ ⟨d, hd, rfl⟩
      exact List.mem_map.mpr ⟨e, he, congrArg SessionParticipant.agentDefinitionId heq⟩
    ext x
    exact ⟨hid fun p => (hparticipants p).mp, hid fun p => (hparticipants p).mpr⟩
  · intro hids p
    constructor
    · rintro ⟨d, hd, rfl⟩
      exact ⟨d, hsame hinitial h hids hd, rfl⟩
    · rintro ⟨d, hd, rfl⟩
      exact ⟨d, hsame h hinitial hids.symm hd, rfl⟩

/-- The moves of the interventions bring someone in. -/
theorem broughtIn_iff {x : UUID} : BroughtIn s w n r x
    ↔ ∃ earlier m later, (s.rows w n r).map MembershipIntervention.move = earlier ++ m :: later
      ∧ m.added = x ∧ ∀ l ∈ later, l.removed ≠ some x := by
  constructor
  · rintro ⟨earlier, i, later, hrows, hadded, hlater⟩
    refine ⟨earlier.map MembershipIntervention.move, i.move, later.map MembershipIntervention.move, ?_,
      hadded, List.forall_mem_map.mpr hlater⟩
    rw [hrows, List.map_append, List.map_cons]
  · rintro ⟨moves, m, moves', hmoves, hadded, hlater⟩
    obtain ⟨earlier, rest, hrows, rfl, hrest⟩ := List.map_eq_append_iff.mp hmoves
    obtain ⟨i, later, rfl, rfl, rfl⟩ := List.map_eq_cons_iff.mp hrest
    rw [List.forall_mem_map] at hlater
    exact ⟨earlier, i, later, hrows, hadded, hlater⟩

/-- **Interventions.**  The agents present are the bound ones exactly when the moves cancel out. -/
theorem cancelled_iff : Cancelled s w n r ↔ boundIds s.registry w n
    = replay (boundIds s.registry w n) ((s.rows w n r).map MembershipIntervention.move) := by
  have hreplaced {x : UUID} : (∃ i ∈ s.rows w n r, i.replacedAgentDefinitionId = some x)
      ↔ ¬ ∀ m ∈ (s.rows w n r).map MembershipIntervention.move, m.removed ≠ some x := by
    rw [List.forall_mem_map]
    push Not
    rfl
  rw [Set.ext_iff]
  simp only [mem_replay_iff, ← broughtIn_iff]
  constructor
  · intro h x
    constructor
    · intro hx
      by_cases hnever : ∀ m ∈ (s.rows w n r).map MembershipIntervention.move, m.removed ≠ some x
      · exact .inl ⟨hx, hnever⟩
      · exact .inr (h.returned x hx (hreplaced.mpr hnever))
    · rintro (⟨hx, -⟩ | hadded)
      · exact hx
      · exact h.initial x hadded
  · intro h
    refine ⟨fun x hx hremoved => ?_, fun x hadded => (h x).mpr (.inr hadded)⟩
    rcases (h x).mp hx with ⟨-, hnever⟩ | hadded
    · exact absurd hnever (hreplaced.mp hremoved)
    · exact hadded

/-! ### Runs -/

theorem membershipSnapshot_ok {definitions : List AgentDefinition} {m : MembershipSnapshot}
    (h : Coordinator.membershipSnapshot w n r definitions = .ok m) :
    m.workspaceId = w ∧ m.sessionId = n ∧ m.round = r ∧ m.definitions = definitions := by
  unfold Coordinator.membershipSnapshot at h
  split_ifs at h
  obtain rfl := Except.ok.inj h
  exact ⟨rfl, rfl, rfl, rfl⟩

/-- **Reports.**  In every round of a session there are members and a report, which is complete exactly
    when the interventions cancel out and all turns have been scanned. -/
theorem exists_report (h : Coordinator.Kept w n s) {value : SessionLifecycle}
    (hvalue : s.lifecycle w n = .ok (some value)) (hr : 1 ≤ r) : ∃ m report,
      s.membership w n r = .ok m ∧ roundParticipantContext profile collate s w n r = .ok (some report)
        ∧ (Complete profile s m report ↔ Cancelled s w n r ∧ Scanned s w n r) := by
  obtain ⟨definitions, hmembers, hvalid⟩ := h.serves r hr
  obtain ⟨m, hm⟩ := (Coordinator.membershipSnapshot_ok_iff hr).mpr hvalid
  have hchained := h.history.chained
  have hread := Ledger.readFrom_eq_take hchained w n (show maxEventScan ≠ 0 by decide)
  let turn : LedgerEvent → Bool := fun e => e.eventType = agentTurnCompleted ∧ e.round = r
  let report : RoundContextReport :=
    { round := r
      sessionId := n
      participants := participants profile collate s.registry w n
      turnEvents := ((s.ledger.ofSession w n).take maxEventScan).filter turn }
  refine ⟨m, report, (Coordinator.membership_ok_iff hr).mpr ⟨definitions, hmembers, hm⟩, ?_, ?_⟩
  · unfold roundParticipantContext
    rw [hvalue, hread]
    rfl
  · obtain ⟨rfl, rfl, rfl, rfl⟩ := membershipSnapshot_ok hm
    have hmembers' := @participants_eq_iff profile collate m.workspaceId m.sessionId s.registry _
      (Coordinator.registered_members hmembers)
    rw [h.roster _ hr _ hmembers, ← cancelled_iff] at hmembers'
    have hturns : report.turnEvents = (s.ledger.rows m.workspaceId m.sessionId).filter turn
        ↔ Scanned s m.workspaceId m.sessionId m.round := by
      rw [Ledger.rows_eq_ofSession hchained, filter_take_eq_iff]
      have hseq := lt_ledgerSeq_iff (hchained.chain m.workspaceId m.sessionId).map_number (k := maxEventScan)
        (p := fun e => e.eventType = agentTurnCompleted ∧ e.round = m.round)
      simpa only [turn, decide_eq_false_iff_not, Scanned, and_imp] using hseq
    rw [← hmembers', ← hturns]
    exact ⟨fun hc => ⟨hc.members, hc.turns⟩, fun hc => ⟨hc.1, hc.2⟩⟩

/-- **Rounds.**  After any interventions, the report of a round is complete exactly when they cancel out
    and all turns of the round have been scanned. -/
theorem report_complete_iff (profile : UUID → AgentProfile) (collate : String → List ℕ) (db : Database)
    {w n : UUID} {s : PolicyState} (hstart : Coordinator.Fresh s) (hbound : s.registry.initial w n ≠ [])
    (hdistinct : ((s.registry.initial w n).map (·.logicalId)).Nodup) {calls : List PolicyCommand}
    (hseparate : ∀ c ∈ calls, Coordinator.Separate c) {value : SessionLifecycle}
    (hvalue : (after (Coordinator.exec db) s calls).lifecycle w n = .ok (some value)) {r : ℕ} (hr : 1 ≤ r) :
    ∃ m report, (after (Coordinator.exec db) s calls).membership w n r = .ok m
      ∧ roundParticipantContext profile collate (after (Coordinator.exec db) s calls) w n r
        = .ok (some report)
      ∧ (Complete profile (after (Coordinator.exec db) s calls) m report
        ↔ Cancelled (after (Coordinator.exec db) s calls) w n r
          ∧ Scanned (after (Coordinator.exec db) s calls) w n r) :=
  exists_report ((Coordinator.kept_start hstart hbound hdistinct).after db hseparate) hvalue hr

/-! ### A replaced agent -/

def sampleProfile : UUID → AgentProfile := fun _ => ⟨⟨"n", by decide⟩, ⟨"d", by decide⟩, .domainExpert⟩

def sampleCollate : String → List ℕ := fun name => name.toList.map Char.toNat

theorem fresh_sampleState : Coordinator.Fresh Coordinator.sampleState :=
  ⟨rfl, Ledger.chained_genesis _, List.forall_mem_nil _⟩

theorem report_complete_iff_draft :
    let s := after (Coordinator.exec unlimited) Coordinator.sampleState
      [.lifecycle (.addDraft (sampleId 0) (sampleId 0) (Session.noon 0))]
    ∃ m report, s.membership (sampleId 0) (sampleId 0) 1 = .ok m
      ∧ roundParticipantContext sampleProfile sampleCollate s (sampleId 0) (sampleId 0) 1 = .ok (some report)
      ∧ (Complete sampleProfile s m report
        ↔ Cancelled s (sampleId 0) (sampleId 0) 1 ∧ Scanned s (sampleId 0) (sampleId 0) 1) := by
  have hinitial : Coordinator.sampleState.registry.initial (sampleId 0) (sampleId 0)
      = [Coordinator.sampleAgent 1] := Coordinator.initial_sample
  have hvalue : (after (Coordinator.exec unlimited) Coordinator.sampleState
      [.lifecycle (.addDraft (sampleId 0) (sampleId 0) (Session.noon 0))]).lifecycle (sampleId 0) (sampleId 0)
      = .ok (some Session.sampleDraft) := by
    decide +kernel
  exact report_complete_iff sampleProfile sampleCollate unlimited fresh_sampleState (by simp [hinitial])
    (by simp [hinitial]) (by simp [Coordinator.Separate]) hvalue le_rfl

/-- The agent that was replaced before the first round is in its report, the other one is not. -/
theorem replaced_agent_reported :
    ¬ ∀ (profile : UUID → AgentProfile) (collate : String → List ℕ) (db : Database) (w n : UUID)
      (s : PolicyState), Coordinator.Fresh s → s.registry.initial w n ≠ [] →
      ((s.registry.initial w n).map (·.logicalId)).Nodup → ∀ calls : List PolicyCommand,
      (∀ c ∈ calls, Coordinator.Separate c) → ∀ r, 1 ≤ r → ∀ m report,
      (after (Coordinator.exec db) s calls).membership w n r = .ok m →
      roundParticipantContext profile collate (after (Coordinator.exec db) s calls) w n r
        = .ok (some report) →
      Complete profile (after (Coordinator.exec db) s calls) m report := by
  intro hclaim
  have hinitial : Coordinator.sampleState.registry.initial (sampleId 0) (sampleId 0)
      = [Coordinator.sampleAgent 1] := Coordinator.initial_sample
  have hbound : Coordinator.sampleState.registry.initial (sampleId 0) (sampleId 0) ≠ [] := by simp [hinitial]
  have hdistinct : ((Coordinator.sampleState.registry.initial (sampleId 0) (sampleId 0)).map
      (·.logicalId)).Nodup := by simp [hinitial]
  have hseparate : ∀ c ∈ Coordinator.sampleCalls, Coordinator.Separate c := by
    simp [Coordinator.sampleCalls, Coordinator.Separate]
  have hclaim := hclaim sampleProfile sampleCollate unlimited (sampleId 0) (sampleId 0)
    Coordinator.sampleState fresh_sampleState hbound hdistinct Coordinator.sampleCalls hseparate 1 le_rfl
  have hkept := (Coordinator.kept_start fresh_sampleState hbound hdistinct).after unlimited hseparate
  have hstate : (after (Coordinator.exec unlimited) Coordinator.sampleState
        Coordinator.sampleCalls).interventions = [Coordinator.sampleReplace]
      ∧ (after (Coordinator.exec unlimited) Coordinator.sampleState
        Coordinator.sampleCalls).registry.bindings.map (·.agentDefId) = [sampleId 1]
      ∧ (after (Coordinator.exec unlimited) Coordinator.sampleState
        Coordinator.sampleCalls).lifecycle (sampleId 0) (sampleId 0) = .ok (some Session.sampleDraft) := by
    decide +kernel
  generalize after (Coordinator.exec unlimited) Coordinator.sampleState Coordinator.sampleCalls = s
    at hclaim hkept hstate
  obtain ⟨hinterventions, hbindings, hvalue⟩ := hstate
  obtain ⟨m, report, hm, hreport, hcomplete⟩ :=
    @exists_report sampleProfile sampleCollate s (sampleId 0) (sampleId 0) 1 hkept _ hvalue le_rfl
  obtain ⟨hcancelled, -⟩ := hcomplete.mp (hclaim m report hm hreport)
  have hrows : s.rows (sampleId 0) (sampleId 0) 1 = [Coordinator.sampleReplace] := by
    rw [PolicyState.rows, hinterventions]
    rfl
  obtain ⟨b, hb, -, -, hagent⟩ := hcancelled.initial (sampleId 2)
    ⟨[], Coordinator.sampleReplace, [], hrows, rfl, List.forall_mem_nil _⟩
  have hmem : sampleId 2 ∈ s.registry.bindings.map (·.agentDefId) := hagent ▸ List.mem_map_of_mem hb
  rw [hbindings, List.mem_singleton] at hmem
  exact absurd hmem (by decide +kernel)

end Agora.Audit
