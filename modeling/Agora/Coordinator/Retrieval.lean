import Agora.Coordinator.Membership
import Agora.Lib.Roster

namespace Agora.Coordinator

open Ledger (LedgerAppend LedgerEvent LedgerState Database Chained append_cases unlimited)
open Session (SessionLifecycle LifecycleCommand sampleId)
open Stateful

/-!
# Who may retrieve the knowledge of a session

The retrieval query decides by itself whether an agent belongs to a session: it looks for a binding
that has not been replaced, or for an intervention that has introduced the agent and is not followed
by its replacement.  Membership replays the interventions one after the other.  Both give the same
answer (`retrieval_agrees`), since interventions are stored in the order of their rounds and of their
events (`History`), so that they are moves of one roster (`IsRoster`).
-/

/-! ### The query -/

section Query

variable (s : PolicyState) (w n principal : UUID) (round : ℕ)

/-- An intervention has replaced the principal. -/
def Replaces (replacement : MembershipIntervention) : Prop :=
  replacement.workspaceId = w ∧ replacement.sessionId = n ∧ replacement.kind = .replace
    ∧ replacement.replacedAgentDefinitionId = some principal ∧ replacement.effectiveRound ≤ round

/-- The row of the ledger that belongs to an intervention. -/
def IsEventOf (i : MembershipIntervention) (e : LedgerEvent) : Prop :=
  e.workspaceId = i.workspaceId ∧ e.sessionId = i.sessionId ∧ e.id = i.eventId

/-- The clause of `trusted_subjects` for an agent and a session, in a round. -/
def SessionClause : Prop :=
  (∃ sa ∈ s.registry.bindings, sa.workspaceId = w ∧ sa.sessionId = n ∧ sa.agentDefId = principal
      ∧ ¬ ∃ replacement ∈ s.interventions, Replaces w n principal round replacement)
    ∨ ∃ sai ∈ s.interventions, ∃ introduction ∈ s.ledger.events, IsEventOf sai introduction
      ∧ sai.workspaceId = w ∧ sai.sessionId = n ∧ sai.agentDefinitionId = principal
      ∧ sai.effectiveRound ≤ round
      ∧ ¬ ∃ replacement ∈ s.interventions, ∃ event ∈ s.ledger.events, IsEventOf replacement event
        ∧ Replaces w n principal round replacement ∧ introduction.ledgerSeq < event.ledgerSeq

/-- `trusted_subjects`, for an agent and the subject of a session: the round is the one of the
    lifecycle. -/
def TrustedSession : Prop :=
  ∃ lifecycle, s.sessions.values (w, n) = some lifecycle ∧ SessionClause s w n principal lifecycle.round

instance : DecidablePred (Replaces w n principal round) := fun _ => by
  unfold Replaces
  infer_instance

instance (i : MembershipIntervention) : DecidablePred (IsEventOf i) := fun _ => by
  unfold IsEventOf
  infer_instance

instance : Decidable (SessionClause s w n principal round) := by
  unfold SessionClause
  infer_instance

end Query

variable {db : Database} {s s' : PolicyState} {w n : UUID}

/-! ### The history of interventions -/

/-- The events of the ledger that are of interventions. -/
def IsIntervention (e : LedgerAppend) : Prop := ∃ kind, e.eventType = eventType kind

/-- A lifecycle command with an event of its own. -/
def Separate : PolicyCommand → Prop
  | .apply _ => True
  | .lifecycle (.transition c) => ¬ IsIntervention c.event
  | .lifecycle _ => True

/-- Interventions are stored in the order of their rounds and of their events. -/
structure History (s : PolicyState) : Prop where
  chained : Chained s.ledger
  stored : ∀ e ∈ s.ledger.events, IsIntervention e.toLedgerAppend → ∃ i ∈ s.interventions, i.eventId = e.id
  ordered : s.interventions.Pairwise fun i j => i.workspaceId = j.workspaceId → i.sessionId = j.sessionId →
    i.effectiveRound ≤ j.effectiveRound
      ∧ ∀ e f, s.event? i = some e → s.event? j = some f → e.ledgerSeq < f.ledgerSeq

theorem interventionEvent_ok {request : MembershipIntervention} {lifecycle : SessionLifecycle}
    {definition : AgentDefinition} {event : LedgerAppend}
    (h : interventionEvent request lifecycle definition = .ok event) :
    event.id = request.eventId ∧ event.workspaceId = request.workspaceId
      ∧ event.sessionId = request.sessionId ∧ event.eventType = eventType request.kind := by
  obtain ⟨payload, -, hevent⟩ := Except.bind_eq_ok.mp h
  obtain rfl := Except.ok.inj hevent
  exact ⟨rfl, rfl, rfl, rfl⟩

/-- Events of a session are numbered below its head. -/
theorem ledgerSeq_lt {ledger : LedgerState} (h : Chained ledger) {head : Ledger.SessionLedgerHead}
    (hhead : ledger.head? w n = some head) {e : LedgerEvent} (he : e ∈ ledger.events)
    (hscope : e.workspaceId = w ∧ e.sessionId = n) : e.ledgerSeq < head.nextSeq := by
  have hmem : e.ledgerSeq ∈ (ledger.ofSession w n).map (·.ledgerSeq) :=
    List.mem_map_of_mem (List.mem_filter.mpr ⟨he, decide_eq_true hscope⟩)
  rw [(h.chain w n).map_number, List.mem_range'_1] at hmem
  rw [(h.head w n head hhead).1]
  omega

theorem event?_some {i : MembershipIntervention} {e : LedgerEvent} (h : s.event? i = some e) :
    e ∈ s.ledger.events ∧ IsEventOf i e := by
  refine ⟨List.mem_of_find?_eq_some h, ?_⟩
  unfold PolicyState.event? at h
  have hfound := List.find?_some h
  simp only [decide_eq_true_eq] at hfound
  exact ⟨hfound.2.1, hfound.2.2, hfound.1⟩

/-- Ids are unique, so an intervention has one event. -/
theorem IsEventOf.event?_eq (hs : History s) {i : MembershipIntervention} {e : LedgerEvent}
    (h : IsEventOf i e) (he : e ∈ s.ledger.events) : s.event? i = some e := by
  obtain ⟨hworkspace, hsession, hid⟩ := h
  obtain ⟨f, hf⟩ : ∃ f, s.event? i = some f := by
    apply Option.isSome_iff_exists.mp
    rw [PolicyState.event?, List.find?_isSome]
    exact ⟨e, he, decide_eq_true ⟨hid, hworkspace, hsession⟩⟩
  obtain ⟨hmem, -, -, hid'⟩ := event?_some hf
  rw [hf, List.inj_on_of_nodup_map hs.chained.nodup hmem he (hid'.trans hid.symm)]

/-- The ledger may take other events. -/
theorem History.grow (hs : History s) (hw : Wellformed s) (hinterventions : s'.interventions = s.interventions)
    (hledger : s'.ledger = s.ledger ∨ ∃ event, ¬ IsIntervention event
      ∧ s'.ledger = (Ledger.append db event s.ledger).2) : History s' := by
  obtain ⟨hbefore, hchained, hstored⟩ : s.ledger.events <+: s'.ledger.events ∧ Chained s'.ledger
      ∧ ∀ e ∈ s'.ledger.events, IsIntervention e.toLedgerAppend → e ∈ s.ledger.events := by
    rcases hledger with hsame | ⟨event, hother, happend⟩
    · rw [hsame]
      exact ⟨List.prefix_rfl, hs.chained, fun e he _ => he⟩
    · rw [happend]
      refine ⟨prefix_append event _, hs.chained.append db event, fun e he hkind => ?_⟩
      rcases append_cases db event s.ledger with ⟨hsame, -⟩ | ⟨p, head, -, -, happend, hp, -⟩
      · rwa [hsame] at he
      · rw [happend] at he
        rcases List.mem_append.mp he with he | he
        · exact he
        · obtain rfl := List.mem_singleton.mp he
          rw [hp] at hkind
          exact absurd hkind hother
  refine ⟨hchained, fun e he hkind => ?_, ?_⟩ <;> rw [hinterventions]
  · exact hs.stored e (hstored e he hkind) hkind
  · refine hs.ordered.imp_of_mem fun {i j} hi hj h hworkspace hsession => ?_
    obtain ⟨hround, hseq⟩ := h hworkspace hsession
    refine ⟨hround, fun e f he hf => ?_⟩
    obtain ⟨e', he'⟩ := hw.recorded i hi
    obtain ⟨f', hf'⟩ := hw.recorded j hj
    obtain rfl := Option.some.inj ((event?_eq_some hbefore he').symm.trans he)
    obtain rfl := Option.some.inj ((event?_eq_some hbefore hf').symm.trans hf)
    exact hseq _ _ he' hf'

/-- The event of an admitted request is new. -/
theorem Admitted.append_new {request : MembershipIntervention} {lifecycle : SessionLifecycle}
    {definition : AgentDefinition} {event : LedgerAppend} (hs : History s)
    (h : Admitted db s request lifecycle definition event s') :
    ∃ p head, s.ledger.eventById event.id = none
      ∧ s.ledger.head? event.workspaceId event.sessionId = some head
      ∧ s'.ledger.events = s.ledger.events ++ [p] ∧ p.toLedgerAppend = event
      ∧ p.ledgerSeq = head.nextSeq ∧ Chained s'.ledger := by
  obtain ⟨hid, -, -, htype⟩ := interventionEvent_ok h.built
  obtain ⟨stored, hstored⟩ := h.appended
  have hledger : s'.ledger = (Ledger.append db event s.ledger).2 := by rw [h.state]
  have hchained : Chained s'.ledger := by
    rw [hledger]
    exact hs.chained.append db event
  rcases append_cases db event s.ledger with ⟨-, hold⟩ | ⟨p, head, hnew, hhead, happend, hp, hseq, -⟩
  · -- The type of a repeated event is the one of an intervention, which would be stored.
    exfalso
    have hfound := hold stored hstored
    rw [Ledger.append_stored hfound] at hstored
    obtain ⟨hsame, -, -, hkind⟩ := idempotent_scope hstored
    obtain ⟨i, hi, hevent⟩ := hs.stored stored (List.mem_of_find?_eq_some hfound)
      ⟨request.kind, hkind.trans htype⟩
    have hnone := List.find?_eq_none.mp h.new i hi
    exact hnone (decide_eq_true (hevent.trans (hsame.trans hid)))
  · refine ⟨p, head, hnew, hhead, ?_, hp, hseq, hchained⟩
    rw [hledger, happend]
    rfl

/-- **Step.**  Requests and separate lifecycle commands keep the order. -/
theorem History.exec (hs : History s) (hw : Wellformed s) {command : PolicyCommand}
    (hseparate : Separate command) : History (exec db command s).2 := by
  cases command with
  | apply request =>
    show History (andThen _ (apply db request s)).2
    rw [andThen_pure_snd]
    rcases apply_cases db request s with ⟨e, h⟩ | ⟨-, h⟩ | ⟨lifecycle, _, event, s', h, hadmitted⟩
    · rw [h]
      exact hs
    · rw [h]
      exact hs
    · rw [h]
      obtain ⟨p, head, hnew, hhead, hevents, rfl, hseq, hchained⟩ := hadmitted.append_new hs
      obtain ⟨hid, hworkspace, hsession, -⟩ := interventionEvent_ok hadmitted.built
      have hinterventions : s'.interventions = s.interventions ++ [request] := by rw [hadmitted.state]
      have hchange := Change.admitted hadmitted
      refine ⟨hchained, ?_, ?_⟩ <;> rw [hinterventions]
      · rw [hevents, List.forall_mem_append, List.forall_mem_singleton]
        refine ⟨fun e he hkind => ?_, fun _ => ⟨request, by simp, hid.symm⟩⟩
        obtain ⟨i, hi, hevent⟩ := hs.stored e he hkind
        exact ⟨i, List.mem_append_left _ hi, hevent⟩
      · rw [List.pairwise_append]
        refine ⟨?_, List.pairwise_singleton _ _, ?_⟩
        · refine hs.ordered.imp_of_mem fun {i j} hi hj h => ?_
          rw [hchange.event?_eq hw hi, hchange.event?_eq hw hj]
          exact h
        · intro i hi j hj hw' hn'
          obtain rfl := List.mem_singleton.mp hj
          refine ⟨?_, fun e f he hf => ?_⟩
          · obtain ⟨value, hvalue, hle⟩ := hw.round i hi
            rw [hw', hn', hadmitted.started] at hvalue
            obtain rfl := Option.some.inj hvalue
            rw [(checkRound_ok hadmitted.round).2.1]
            exact hle
          · rw [hchange.event?_eq hw hi] at he
            obtain ⟨he, hworkspace', hsession', -⟩ := event?_some he
            obtain ⟨hf, -, -, hid'⟩ := event?_some hf
            rw [hevents, List.mem_append, List.mem_singleton] at hf
            rcases hf with hf | rfl
            · -- No earlier event has the id of the request.
              have hmem : f.id ∈ s.ledger.events.map (·.id) := List.mem_map_of_mem hf
              rw [hid', ← hid] at hmem
              exact absurd hmem (Ledger.eventById_eq_none.mp hnew)
            · rw [hseq]
              exact ledgerSeq_lt hs.chained hhead he
                ⟨hworkspace'.trans (hw'.trans hworkspace.symm), hsession'.trans (hn'.trans hsession.symm)⟩
  | lifecycle command =>
    show History (andThen _ (zoom _ _ _ s)).2
    rw [andThen_pure_snd]
    rcases Session.sql_ledger (appendTo db) command s.sessions with hsame | ⟨c, rfl, happend⟩
    · exact @History.grow db s _ hs hw rfl (.inl hsame)
    · exact hs.grow hw rfl (.inr ⟨c.event, hseparate, happend⟩)

/-! ### The interventions are moves of a roster -/

/-- What an intervention does to the ids of the members. -/
def MembershipIntervention.move (i : MembershipIntervention) : RosterMove UUID where
  removed := i.replacedAgentDefinitionId
  added := i.agentDefinitionId

/-- In the order of their storage, interventions are in the order of the query. -/
theorem History.effective_eq (hs : History s) (hw : Wellformed s) (r : ℕ) :
    (s.effective w n r).map Prod.fst = s.rows w n r := by
  have hjoined : ((s.rows w n r).filterMap fun i => (s.event? i).map fun e => (i, e.ledgerSeq)).Pairwise
      fun a b => PolicyState.sortKey a ≤ PolicyState.sortKey b := by
    rw [List.pairwise_filterMap]
    refine (hs.ordered.filter _).imp_of_mem fun {i j} hi hj h a ha b hb => ?_
    obtain ⟨e, he, rfl⟩ := Option.map_eq_some_iff.mp ha
    obtain ⟨f, hf, rfl⟩ := Option.map_eq_some_iff.mp hb
    have hi := of_decide_eq_true (List.mem_filter.mp hi).2
    have hj := of_decide_eq_true (List.mem_filter.mp hj).2
    obtain ⟨hround, hseq⟩ := h (hi.1.trans hj.1.symm) (hi.2.1.trans hj.2.1.symm)
    have hlt := hseq e f he hf
    show toLex (i.effectiveRound, e.ledgerSeq) ≤ toLex (j.effectiveRound, f.ledgerSeq)
    rw [Prod.Lex.toLex_le_toLex]
    rcases hround.lt_or_eq with hlt | heq
    · exact .inl hlt
    · exact .inr ⟨heq, hlt.le⟩
  have hrecorded : ∀ i ∈ s.rows w n r, ∃ e, s.event? i = some e := fun i hi =>
    hw.recorded i (List.mem_of_mem_filter hi)
  simp only [PolicyState.effective]
  rw [hjoined.insertionSort_eq]
  clear hjoined
  generalize s.rows w n r = rows at hrecorded
  induction rows with
  | nil => rfl
  | cons i rows ih =>
    rw [List.forall_mem_cons] at hrecorded
    obtain ⟨⟨e, he⟩, hrecorded⟩ := hrecorded
    rw [List.filterMap_cons, he, Option.map_some, List.map_cons, ih hrecorded]

/-- All members are rows of the registry. -/
def Registered (r : Registry) (definitions : List AgentDefinition) : Prop :=
  ∀ d ∈ definitions, r.agents d.id = some d

theorem registered_initial (r : Registry) : Registered r (r.initial w n) := by
  intro d hd
  simp only [Registry.initial, List.mem_filterMap] at hd
  obtain ⟨b, -, hd⟩ := hd
  have hrow := (Option.filter_eq_some_iff.mp hd).1
  rw [r.agent_id _ d hrow]
  exact hrow

/-- Logical agents are distinct, so are definitions. -/
theorem Registered.nodup_ids {r : Registry} {definitions : List AgentDefinition}
    (h : Registered r definitions) (hdistinct : (definitions.map (·.logicalId)).Nodup) :
    (definitions.map (·.id)).Nodup := by
  refine hdistinct.of_map.map_on fun d hd e he heq => ?_
  have hrow := h d hd
  rw [heq, h e he] at hrow
  exact (Option.some.inj hrow).symm

/-- What an intervention adds is registered. -/
theorem registered_intervene {r : Registry} {ordered ordered' : List AgentDefinition}
    {i : MembershipIntervention} (h : intervene r w ordered i = .ok ordered')
    (hregistered : Registered r ordered) : Registered r ordered' := by
  unfold intervene at h
  split at h
  · cases h
  · next definition hdefinition =>
    have hrow := (Option.filter_eq_some_iff.mp hdefinition).1
    rw [← r.agent_id _ _ hrow] at hrow
    split at h
    · split at h
      · obtain rfl := Except.ok.inj h
        intro d hd
        rcases List.mem_or_eq_of_mem_set hd with hd | rfl
        · exact hregistered d hd
        · exact hrow
      · cases h
    · obtain rfl := Except.ok.inj h
      exact List.forall_mem_append.mpr ⟨hregistered, List.forall_mem_singleton.mpr hrow⟩

/-- The ids of some definitions. -/
def ids (definitions : List AgentDefinition) : Set UUID := {x | x ∈ definitions.map (·.id)}

/-- **One intervention.**  It moves the ids. -/
theorem ids_intervene {r : Registry} {ordered ordered' : List AgentDefinition}
    {i : MembershipIntervention} (h : intervene r w ordered i = .ok ordered')
    (hnodup : (ordered.map (·.id)).Nodup) : ids ordered' = i.move.act (ids ordered) := by
  unfold intervene at h
  split at h
  · cases h
  · next definition hdefinition =>
    have hid : definition.id = i.agentDefinitionId :=
      r.agent_id _ _ (Option.filter_eq_some_iff.mp hdefinition).1
    ext x
    split at h
    · split at h
      · next index hindex =>
        obtain rfl := Except.ok.inj h
        obtain ⟨hlt, hfound, -⟩ := List.findIdx?_eq_some_iff_getElem.mp hindex
        have hremoved : i.replacedAgentDefinitionId = some (ordered[index]).id :=
          (of_decide_eq_true hfound).symm
        have hlt' : index < (ordered.map (·.id)).length := by rwa [List.length_map]
        show x ∈ (ordered.set index definition).map (·.id) ↔ _
        rw [List.map_set, mem_set_of_nodup hnodup hlt', List.getElem_map, hid]
        simp only [ids, RosterMove.act, MembershipIntervention.move, hremoved, Set.mem_insert_iff,
          Set.mem_ofPred_eq, ne_eq, Option.some.injEq, eq_comm]
      · cases h
    · next hkind =>
      obtain rfl := Except.ok.inj h
      have hnone : i.replacedAgentDefinitionId = none := by
        by_contra hne
        rw [i.replacement_shape.mpr hne] at hkind
        cases hkind
      simp only [ids, RosterMove.act, MembershipIntervention.move, hnone, hid, List.map_append,
        List.map_cons, List.map_nil, List.mem_append, List.mem_singleton, Set.mem_insert_iff,
        Set.mem_ofPred_eq, ne_eq, reduceCtorEq, not_false_eq_true, and_true]
      exact or_comm

/-- Interventions are replayed in the order of their storage. -/
theorem History.members_eq (hs : History s) (hw : Wellformed s) (r : ℕ) :
    s.members w n r = (s.rows w n r).foldlM (intervene s.registry w) (s.registry.initial w n) := by
  unfold PolicyState.members
  rw [hs.effective_eq hw]

theorem registered_foldlM {r : Registry} {interventions : List MembershipIntervention}
    {ordered definitions : List AgentDefinition} (hregistered : Registered r ordered)
    (h : interventions.foldlM (intervene r w) ordered = .ok definitions) : Registered r definitions := by
  induction interventions generalizing ordered with
  | nil =>
    obtain rfl := Except.ok.inj h
    exact hregistered
  | cons i interventions ih =>
    rw [List.foldlM_cons] at h
    obtain ⟨next, hnext, h⟩ := Except.bind_eq_ok.mp h
    exact ih (registered_intervene hnext hregistered) h

theorem registered_members {r : ℕ} {definitions : List AgentDefinition}
    (h : s.members w n r = .ok definitions) : Registered s.registry definitions :=
  registered_foldlM (registered_initial s.registry) h

/-- An admitted request is the last one in the later rounds of its session. -/
theorem Admitted.rows_concat {request : MembershipIntervention} {lifecycle : SessionLifecycle}
    {definition : AgentDefinition} {event : LedgerAppend}
    (h : Admitted db s request lifecycle definition event s') {r : ℕ} (hle : request.effectiveRound ≤ r) :
    s'.rows request.workspaceId request.sessionId r
      = s.rows request.workspaceId request.sessionId r ++ [request] := by
  unfold PolicyState.rows
  rw [h.state, List.filter_append, List.filter_singleton, decide_eq_true ⟨rfl, rfl, hle⟩, cond_true]

/-- Members after an admitted request. -/
theorem Admitted.members_eq {request : MembershipIntervention} {lifecycle : SessionLifecycle}
    {definition : AgentDefinition} {event : LedgerAppend}
    (h : Admitted db s request lifecycle definition event s') (hs : History s) (hs' : History s')
    (hw : Wellformed s) {r : ℕ} (hle : request.effectiveRound ≤ r) :
    s'.members request.workspaceId request.sessionId r
      = (s.members request.workspaceId request.sessionId r >>= fun ordered =>
          intervene s'.registry request.workspaceId ordered request) := by
  have hagrees := (Change.admitted h).agrees hw
  rw [hs'.members_eq ((Change.admitted h).wellformed hw), hs.members_eq hw, h.rows_concat hle,
    List.foldlM_append, hagrees.initial]
  congr 1
  · refine Except.foldlM_congr (fun ordered i hi => ?_) _
    unfold intervene Registry.definition?
    rw [hagrees.introduced i (List.mem_of_mem_filter hi)]
  · funext ordered
    rw [List.foldlM_cons]
    cases intervene s'.registry request.workspaceId ordered request <;> rfl

/-! ### Runs -/

/-- The agents that a session is bound to. -/
def boundIds (r : Registry) (w n : UUID) : Set UUID :=
  {x | ∃ sa ∈ r.bindings, sa.workspaceId = w ∧ sa.sessionId = n ∧ sa.agentDefId = x}

theorem ids_initial (r : Registry) : ids (r.initial w n) = boundIds r w n := by
  ext x
  simp only [ids, boundIds, Registry.initial, List.mem_map, List.mem_filterMap, List.mem_insertionSort,
    List.mem_filter, decide_eq_true_eq, Set.mem_ofPred_eq]
  constructor
  · rintro ⟨d, ⟨b, ⟨hb, hworkspace, hsession⟩, hd⟩, rfl⟩
    exact ⟨b, hb, hworkspace, hsession, (r.agent_id _ d (Option.filter_eq_some_iff.mp hd).1).symm⟩
  · rintro ⟨b, hb, hworkspace, hsession, rfl⟩
    obtain ⟨d, hd, hsame, -⟩ := r.bound b hb
    exact ⟨d, ⟨b, ⟨hb, hworkspace, hsession⟩, Option.filter_eq_some_iff.mpr ⟨hd, decide_eq_true hsame⟩⟩,
      r.agent_id _ d hd⟩

/-- The members of every round are those that the moves of the session leave present. -/
def IsRoster (w n : UUID) (s : PolicyState) : Prop :=
  ∀ r, 1 ≤ r → ∀ definitions, s.members w n r = .ok definitions →
    ids definitions = replay (boundIds s.registry w n) ((s.rows w n r).map MembershipIntervention.move)

/-- The invariant of a run whose lifecycle commands are separate. -/
structure Kept (w n : UUID) (s : PolicyState) : Prop extends Sound w n s where
  history : History s
  roster : IsRoster w n s

/-- **Step.**  An admitted request is one more move. -/
theorem IsRoster.admitted {request : MembershipIntervention} {lifecycle : SessionLifecycle}
    {definition : AgentDefinition} {event : LedgerAppend}
    (h : Admitted db s request lifecycle definition event s')
    (hkept : Kept request.workspaceId request.sessionId s) (hs' : History s') {r : ℕ} (hr : 1 ≤ r)
    (hle : request.effectiveRound ≤ r) {definitions : List AgentDefinition}
    (hmembers : s'.members request.workspaceId request.sessionId r = .ok definitions) :
    ids definitions = replay (boundIds s'.registry request.workspaceId request.sessionId)
      ((s'.rows request.workspaceId request.sessionId r).map MembershipIntervention.move) := by
  have hbindings := ((Change.admitted h).agrees hkept.wellformed).bindings
  rw [h.members_eq hkept.history hs' hkept.wellformed hle, Except.bind_eq_ok] at hmembers
  obtain ⟨ordered, hordered, hmembers⟩ := hmembers
  obtain ⟨ordered', hordered', hvalid⟩ := hkept.serves r hr
  obtain rfl := Except.ok.inj (hordered.symm.trans hordered')
  rw [ids_intervene hmembers ((registered_members hordered).nodup_ids hvalid.2.2), h.rows_concat hle,
    List.map_append, List.map_singleton, replay_concat, hkept.roster r hr ordered hordered]
  unfold boundIds
  rw [hbindings]

theorem Kept.exec (h : Kept w n s) {command : PolicyCommand} (hseparate : Separate command) :
    Kept w n (exec db command s).2 := by
  have hchange := exec_change db command s
  have hhistory : History (Coordinator.exec db command s).2 := h.history.exec h.wellformed hseparate
  refine ⟨⟨hchange.wellformed h.wellformed, hchange.serves h.wellformed h.serves⟩, hhistory, ?_⟩
  generalize (Coordinator.exec db command s).2 = s' at hchange hhistory
  have hkeep {r : ℕ} (hr : 1 ≤ r) (hrows : s'.rows w n r = s.rows w n r)
      {definitions : List AgentDefinition} (hmembers : s'.members w n r = .ok definitions) :
      ids definitions = replay (boundIds s'.registry w n)
        ((s'.rows w n r).map MembershipIntervention.move) := by
    have hagrees := hchange.agrees h.wellformed
    rw [members_congr hagrees (fun _ => hchange.event?_eq h.wellformed) hrows] at hmembers
    rw [hrows, h.roster r hr definitions hmembers]
    unfold boundIds
    rw [hagrees.bindings]
  intro r hr definitions hmembers
  cases hchange with
  | nothing => exact h.roster r hr definitions hmembers
  | lifecycle command => exact hkeep hr rfl hmembers
  | @admitted request lifecycle definition event s' hadmitted =>
    by_cases hlater : request.workspaceId = w ∧ request.sessionId = n ∧ request.effectiveRound ≤ r
    · obtain ⟨rfl, rfl, hle⟩ := hlater
      exact IsRoster.admitted hadmitted h hhistory hr hle hmembers
    · exact hkeep hr (hadmitted.rows_eq hlater) hmembers

/-! ### The clause and the roster -/

variable {principal : UUID} {r : ℕ}

theorem replaces_iff {i : MembershipIntervention} (hi : i ∈ s.interventions) :
    Replaces w n principal r i ↔ i ∈ s.rows w n r ∧ i.move.removed = some principal := by
  unfold Replaces PolicyState.rows MembershipIntervention.move
  rw [List.mem_filter, decide_eq_true_eq]
  constructor
  · rintro ⟨hworkspace, hsession, -, hremoved, hle⟩
    exact ⟨⟨hi, hworkspace, hsession, hle⟩, hremoved⟩
  · rintro ⟨⟨-, hworkspace, hsession, hle⟩, hremoved⟩
    have hremoved : i.replacedAgentDefinitionId = some principal := hremoved
    refine ⟨hworkspace, hsession, i.replacement_shape.mpr ?_, hremoved, hle⟩
    rw [hremoved]
    exact Option.some_ne_none _

/-- The first subquery: no row removes the principal. -/
theorem not_replaced_iff : (¬ ∃ replacement ∈ s.interventions, Replaces w n principal r replacement)
    ↔ ∀ m ∈ (s.rows w n r).map MembershipIntervention.move, m.removed ≠ some principal := by
  rw [List.forall_mem_map]
  constructor
  · intro h i hi hremoved
    have hmem := List.mem_of_mem_filter hi
    exact h ⟨i, hmem, (replaces_iff hmem).mpr ⟨hi, hremoved⟩⟩
  · rintro h ⟨i, hi, hreplaces⟩
    obtain ⟨hrow, hremoved⟩ := (replaces_iff hi).mp hreplaces
    exact h i hrow hremoved

/-- In a round, the events of the rows are in their order. -/
theorem History.rows_ordered (hs : History s) : (s.rows w n r).Pairwise fun i j =>
    ∀ e f, s.event? i = some e → s.event? j = some f → e.ledgerSeq < f.ledgerSeq := by
  refine (hs.ordered.filter _).imp_of_mem fun {i j} hi hj h => ?_
  have hi := of_decide_eq_true (List.mem_filter.mp hi).2
  have hj := of_decide_eq_true (List.mem_filter.mp hj).2
  exact (h (hi.1.trans hj.1.symm) (hi.2.1.trans hj.2.1.symm)).2

/-- The second subquery: after the row, none removes the principal. -/
theorem not_replaced_later_iff (hs : History s) (hw : Wellformed s) {i : MembershipIntervention}
    {earlier later : List MembershipIntervention} (hrows : s.rows w n r = earlier ++ i :: later)
    {introduction : LedgerEvent} (hevent : s.event? i = some introduction) :
    (¬ ∃ replacement ∈ s.interventions, ∃ event ∈ s.ledger.events, IsEventOf replacement event
        ∧ Replaces w n principal r replacement ∧ introduction.ledgerSeq < event.ledgerSeq)
      ↔ ∀ j ∈ later, j.move.removed ≠ some principal := by
  have hordered := hs.rows_ordered (w := w) (n := n) (r := r)
  rw [hrows, List.pairwise_append, List.pairwise_cons] at hordered
  obtain ⟨-, ⟨hafter, -⟩, hbefore⟩ := hordered
  have hmem {j : MembershipIntervention} (hj : j ∈ earlier ++ i :: later) : j ∈ s.interventions :=
    List.mem_of_mem_filter (hrows ▸ hj : j ∈ s.rows w n r)
  constructor
  · intro h j hj hremoved
    have hrow : j ∈ earlier ++ i :: later := by simp [hj]
    obtain ⟨event, hj'⟩ := hw.recorded j (hmem hrow)
    obtain ⟨hstored, hof⟩ := event?_some hj'
    refine h ⟨j, hmem hrow, event, hstored, hof, (replaces_iff (hmem hrow)).mpr ⟨?_, hremoved⟩, ?_⟩
    · rw [hrows]
      exact hrow
    · exact hafter j hj _ _ hevent hj'
  · rintro h ⟨j, hj, event, hstored, hof, hreplaces, hlt⟩
    obtain ⟨hrow, hremoved⟩ := (replaces_iff hj).mp hreplaces
    have hj' := hof.event?_eq hs hstored
    rw [hrows, List.mem_append, List.mem_cons] at hrow
    -- A row that is not after the introduction has no later event.
    rcases hrow with hrow | rfl | hrow
    · have hgt := hbefore j hrow i List.mem_cons_self _ _ hj' hevent
      omega
    · obtain rfl := Option.some.inj (hevent.symm.trans hj')
      omega
    · exact h j hrow hremoved

/-- **The clause.**  It says who is present after the moves of the session. -/
theorem sessionClause_iff (hs : History s) (hw : Wellformed s) : SessionClause s w n principal r
    ↔ principal ∈ replay (boundIds s.registry w n) ((s.rows w n r).map MembershipIntervention.move) := by
  rw [mem_replay_iff, ← not_replaced_iff]
  refine or_congr ?_ ?_
  · constructor
    · rintro ⟨sa, hsa, hworkspace, hsession, hagent, hnever⟩
      exact ⟨⟨sa, hsa, hworkspace, hsession, hagent⟩, hnever⟩
    · rintro ⟨⟨sa, hsa, hworkspace, hsession, hagent⟩, hnever⟩
      exact ⟨sa, hsa, hworkspace, hsession, hagent, hnever⟩
  · constructor
    · rintro ⟨i, hi, introduction, hstored, hof, hworkspace, hsession, hagent, hle, hnever⟩
      have hrow : i ∈ s.rows w n r :=
        List.mem_filter.mpr ⟨hi, decide_eq_true ⟨hworkspace, hsession, hle⟩⟩
      obtain ⟨earlier, later, hrows⟩ := List.append_of_mem hrow
      have hlater := (not_replaced_later_iff hs hw hrows (hof.event?_eq hs hstored)).mp hnever
      refine ⟨earlier.map MembershipIntervention.move, i.move, later.map MembershipIntervention.move, ?_,
        hagent, List.forall_mem_map.mpr hlater⟩
      rw [hrows, List.map_append, List.map_cons]
    · rintro ⟨moves, m, moves', hmoves, hagent, hlater⟩
      obtain ⟨earlier, rest, hrows, rfl, hrest⟩ := List.map_eq_append_iff.mp hmoves
      obtain ⟨i, later, rfl, rfl, rfl⟩ := List.map_eq_cons_iff.mp hrest
      rw [List.forall_mem_map] at hlater
      have hrow : i ∈ s.rows w n r := by simp [hrows]
      obtain ⟨hi, hscope⟩ := List.mem_filter.mp hrow
      obtain ⟨hworkspace, hsession, hle⟩ := of_decide_eq_true hscope
      obtain ⟨introduction, hevent⟩ := hw.recorded i hi
      obtain ⟨hstored, hof⟩ := event?_some hevent
      exact ⟨i, hi, introduction, hstored, hof, hworkspace, hsession, hagent, hle,
        (not_replaced_later_iff hs hw hrows hevent).mpr hlater⟩

/-- No intervention yet, and none of its events. -/
structure Fresh (s : PolicyState) : Prop where
  interventions : s.interventions = []
  chained : Chained s.ledger
  events : ∀ e ∈ s.ledger.events, ¬ IsIntervention e.toLedgerAppend

theorem kept_start (hstart : Fresh s) (hbound : s.registry.initial w n ≠ [])
    (hdistinct : ((s.registry.initial w n).map (·.logicalId)).Nodup) : Kept w n s := by
  have hw := wellformed_start hstart.interventions
  refine ⟨⟨hw, serves_start hstart.interventions hbound hdistinct⟩, ⟨hstart.chained, ?_, ?_⟩, ?_⟩
  · exact fun e he hkind => absurd hkind (hstart.events e he)
  · rw [hstart.interventions]
    exact List.Pairwise.nil
  · intro r hr definitions hmembers
    simp only [PolicyState.members, PolicyState.effective, PolicyState.rows, hstart.interventions,
      List.filter_nil, List.filterMap_nil, List.insertionSort_nil, List.map_nil, List.foldlM_nil] at hmembers
    obtain rfl := Except.ok.inj hmembers
    rw [ids_initial, PolicyState.rows, hstart.interventions]
    rfl

theorem Kept.after (h : Kept w n s) (db : Database) {calls : List PolicyCommand}
    (hseparate : ∀ c ∈ calls, Separate c) : Kept w n (Agora.after (Coordinator.exec db) s calls) := by
  induction calls generalizing s with
  | nil => exact h
  | cons command calls ih =>
    rw [List.forall_mem_cons] at hseparate
    exact ih (h.exec hseparate.1) hseparate.2

/-- **Retrieval.**  In every round, the query trusts exactly the agents that are members then. -/
theorem retrieval_agrees (db : Database) {w n : UUID} {s : PolicyState} (hstart : Fresh s)
    (hbound : s.registry.initial w n ≠ [])
    (hdistinct : ((s.registry.initial w n).map (·.logicalId)).Nodup) {calls : List PolicyCommand}
    (hseparate : ∀ c ∈ calls, Separate c) (principal : UUID) :
    (∀ r, 1 ≤ r → ∃ m, (Agora.after (exec db) s calls).membership w n r = .ok m
        ∧ (SessionClause (Agora.after (exec db) s calls) w n principal r
          ↔ principal ∈ m.definitions.map (·.id)))
      ∧ ∀ lifecycle, (Agora.after (exec db) s calls).sessions.values (w, n) = some lifecycle →
        1 ≤ lifecycle.round →
        ∃ m, (Agora.after (exec db) s calls).membership w n lifecycle.round = .ok m
          ∧ (TrustedSession (Agora.after (exec db) s calls) w n principal
            ↔ principal ∈ m.definitions.map (·.id)) := by
  have hkept := (kept_start hstart hbound hdistinct).after db hseparate
  generalize Agora.after (exec db) s calls = s' at hkept
  have hclause (r : ℕ) (hr : 1 ≤ r) : ∃ m, s'.membership w n r = .ok m
      ∧ (SessionClause s' w n principal r ↔ principal ∈ m.definitions.map (·.id)) := by
    obtain ⟨definitions, hmembers, hvalid⟩ := hkept.serves r hr
    obtain ⟨m, hm⟩ := (membershipSnapshot_ok_iff hr).mpr hvalid
    refine ⟨m, (membership_ok_iff hr).mpr ⟨definitions, hmembers, hm⟩, ?_⟩
    rw [sessionClause_iff hkept.history hkept.wellformed, ← hkept.roster r hr definitions hmembers,
      definitions_of_snapshot hm]
    rfl
  refine ⟨hclause, fun lifecycle hvalue hr => ?_⟩
  obtain ⟨m, hm, hiff⟩ := hclause lifecycle.round hr
  refine ⟨m, hm, Iff.trans ⟨?_, fun h => ⟨lifecycle, hvalue, h⟩⟩ hiff⟩
  rintro ⟨found, hfound, h⟩
  obtain rfl := Option.some.inj (hvalue.symm.trans hfound)
  exact h

theorem retrieval_agrees_replace :
    let s := Agora.after (exec unlimited) sampleState sampleCalls
    (∀ r, 1 ≤ r → ∃ m, s.membership (sampleId 0) (sampleId 0) r = .ok m
        ∧ (SessionClause s (sampleId 0) (sampleId 0) (sampleId 2) r
          ↔ sampleId 2 ∈ m.definitions.map (·.id)))
      ∧ ∀ lifecycle, s.sessions.values (sampleId 0, sampleId 0) = some lifecycle → 1 ≤ lifecycle.round →
        ∃ m, s.membership (sampleId 0) (sampleId 0) lifecycle.round = .ok m
          ∧ (TrustedSession s (sampleId 0) (sampleId 0) (sampleId 2)
            ↔ sampleId 2 ∈ m.definitions.map (·.id)) := by
  have hinitial : sampleState.registry.initial (sampleId 0) (sampleId 0) = [sampleAgent 1] := initial_sample
  have hfresh : Fresh sampleState := ⟨rfl, Ledger.chained_genesis _, List.forall_mem_nil _⟩
  have hseparate : ∀ c ∈ sampleCalls, Separate c := by
    simp [sampleCalls, Separate]
  exact retrieval_agrees unlimited hfresh (by simp [hinitial]) (by simp [hinitial]) hseparate (sampleId 2)

end Agora.Coordinator
