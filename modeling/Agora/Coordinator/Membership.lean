import Agora.Coordinator.Policy
import Agora.Session.Finality
import Agora.Ledger.Idempotence

namespace Agora.Coordinator

open Ledger (LedgerAppend LedgerEvent LedgerState Database append_cases unlimited)
open Session (SessionLifecycle LifecycleState LifecycleCommand sampleId noon)
open Stateful

/-!
# Membership over time

A request that is admitted becomes effective in a later round than the current one, so what has been
replayed for a past round stays as it is (`Change.members_eq`), and the snapshot that `apply` computes
at the end is the one of every later round (`Change.serves`).  `membership_sound` puts both together.
-/

variable {db : Database} {s s' : PolicyState} {w n : UUID}

/-! ### What a request does -/

/-- A request that is new and passes all checks. -/
structure Admitted (db : Database) (s : PolicyState) (request : MembershipIntervention)
    (lifecycle : SessionLifecycle) (definition : AgentDefinition) (event : LedgerAppend)
    (s' : PolicyState) : Prop where
  new : s.intervention? request.eventId = none
  started : s.sessions.values (request.workspaceId, request.sessionId) = some lifecycle
  round : checkRound (some lifecycle) request = .ok lifecycle
  known : s.registry.definition? request.workspaceId request.agentDefinitionId = some definition
  members : ∃ current, s.membership request.workspaceId request.sessionId request.effectiveRound = .ok current
    ∧ checkMembers current.definitions definition request = .ok ()
  built : interventionEvent request lifecycle definition = .ok event
  appended : ∃ stored, (Ledger.append db event s.ledger).1 = .ok stored
  state : s' = {
    sessions := { s.sessions with ledger := (Ledger.append db event s.ledger).2 }
    registry := s.registry.reference request.workspaceId request.agentDefinitionId request.recordedAt
    interventions := s.interventions ++ [request] }
  served : ∃ m, s'.membership request.workspaceId request.sessionId request.effectiveRound = .ok m

theorem projection_ok {row value : SessionLifecycle} (h : Session.projection row = .ok value) :
    value = row := by
  obtain ⟨-, -, h⟩ := Except.bind_eq_ok.mp h
  exact (Except.ok.inj h).symm

/-- The checks of the round pass on the lifecycle itself. -/
theorem checkRound_ok {found : Option SessionLifecycle} {request : MembershipIntervention}
    {value : SessionLifecycle} (h : checkRound found request = .ok value) :
    found = some value ∧ request.effectiveRound = targetRound value
      ∧ (request.kind = .replace → value.round = 0) ∧ (request.kind = .inject → value.round ≠ 0) := by
  cases found with
  | none => cases h
  | some row =>
    unfold checkRound at h
    simp only at h
    split_ifs at h with hterminal hround hreplace hinject
    obtain rfl := Except.ok.inj h
    exact ⟨rfl, not_not.mp hround, fun hk => not_not.mp fun hne => hreplace ⟨hk, hne⟩,
      fun hk hzero => hinject ⟨hk, hzero⟩⟩

theorem checkDefinition_ok {found : Option AgentDefinition} {request : MembershipIntervention}
    {definition : AgentDefinition} (h : checkDefinition found request = .ok definition) :
    found = some definition ∧ definition.workspaceId = request.workspaceId
      ∧ definition.status = .active := by
  cases found with
  | none => cases h
  | some d =>
    unfold checkDefinition at h
    simp only at h
    split_ifs at h with hrefused
    obtain rfl := Except.ok.inj h
    rw [not_or, not_not, not_not] at hrefused
    exact ⟨rfl, hrefused⟩

theorem applyStatements_stored {request prior : MembershipIntervention}
    (h : s.intervention? request.eventId = some prior) : applyStatements db request s
      = if prior ≠ request then
          (.error (.valueError "membership intervention event id was reused with different content"), s)
        else (s.membership request.workspaceId request.sessionId request.effectiveRound, s) := by
  simp only [applyStatements, bind_apply, read_apply, andThen_ok, h]
  split <;> rfl

theorem applyStatements_new {request : MembershipIntervention}
    (h : s.intervention? request.eventId = none) : applyStatements db request s = (do
      let (lifecycle, definition) ← query (·.checked request)
      let event ← lift (interventionEvent request lifecycle definition)
      appendEvent db event
      addIntervention request
      query (·.membership request.workspaceId request.sessionId request.effectiveRound) :
        Stateful PolicyState PyException MembershipSnapshot) s := by
  simp only [applyStatements, bind_apply, read_apply, andThen_ok, h]

theorem checked_ok {request : MembershipIntervention} {lifecycle : SessionLifecycle}
    {definition : AgentDefinition} (h : s.checked request = .ok (lifecycle, definition)) :
    s.sessions.values (request.workspaceId, request.sessionId) = some lifecycle
      ∧ checkRound (some lifecycle) request = .ok lifecycle
      ∧ s.registry.definition? request.workspaceId request.agentDefinitionId = some definition
      ∧ ∃ current,
        s.membership request.workspaceId request.sessionId request.effectiveRound = .ok current
          ∧ checkMembers current.definitions definition request = .ok () := by
  obtain ⟨found, hfound, h⟩ := Except.bind_eq_ok.mp h
  obtain ⟨value, hround, h⟩ := Except.bind_eq_ok.mp h
  obtain ⟨d, hdefinition, h⟩ := Except.bind_eq_ok.mp h
  obtain ⟨current, hcurrent, h⟩ := Except.bind_eq_ok.mp h
  obtain ⟨u, hmembers, h⟩ := Except.bind_eq_ok.mp h
  obtain ⟨rfl, rfl⟩ := Prod.mk.inj (Except.ok.inj h)
  obtain ⟨rfl, -⟩ := checkRound_ok hround
  refine ⟨?_, hround, (checkDefinition_ok hdefinition).1, current, hcurrent, hmembers⟩
  unfold PolicyState.lifecycle at hfound
  split at hfound
  · cases hfound
  · next row hrow =>
    obtain ⟨v, hv, heq⟩ := Except.map_eq_ok.mp hfound
    rw [hrow, ← projection_ok hv, heq]

theorem appendTo_ok {event : LedgerAppend} {ledger : LedgerState}
    (h : (appendTo db event ledger).1 = .ok ()) : ∃ stored, (Ledger.append db event ledger).1 = .ok stored := by
  unfold appendTo at h
  cases hresult : (Ledger.append db event ledger).1 with
  | ok stored => exact ⟨stored, rfl⟩
  | error e =>
    rw [hresult] at h
    cases h

/-- An intervention that is not stored is added. -/
theorem addIntervention_new {i : MembershipIntervention} (h : s.intervention? i.eventId = none) :
    addIntervention i s = (.ok (), { s with
      registry := s.registry.reference i.workspaceId i.agentDefinitionId i.recordedAt
      interventions := s.interventions ++ [i] }) := by
  simp only [addIntervention, bind_apply, read_apply, andThen_ok, h, write_apply]

/-- **Requests.**  A request raises and changes nothing, or repeats a stored intervention, or is
    admitted. -/
theorem apply_cases (db : Database) (request : MembershipIntervention) (s : PolicyState) :
    (∃ e, apply db request s = (.error e, s))
      ∨ (s.intervention? request.eventId = some request ∧ (apply db request s).2 = s)
      ∨ ∃ lifecycle definition event s', (apply db request s).2 = s'
        ∧ Admitted db s request lifecycle definition event s' := by
  rcases rollback_cases (applyStatements db request) s with ⟨m, s', hrun, happly⟩ | ⟨e, -, happly⟩
  · have hresult : (apply db request s).2 = s' := congrArg Prod.snd happly
    cases hprior : s.intervention? request.eventId with
    | some prior =>
      rw [applyStatements_stored hprior] at hrun
      split_ifs at hrun with hdiffers
      · cases hrun
      · obtain rfl := not_not.mp hdiffers
        exact .inr (.inl ⟨rfl, hresult.trans (Prod.mk.inj hrun).2.symm⟩)
    | none =>
      rw [applyStatements_new hprior] at hrun
      obtain ⟨⟨lifecycle, definition⟩, t, hadmit, hrun⟩ := bind_eq_ok.mp hrun
      obtain ⟨hadmitted, rfl⟩ := Prod.mk.inj hadmit
      obtain ⟨event, t, hevent, hrun⟩ := bind_eq_ok.mp hrun
      obtain ⟨hbuilt, rfl⟩ := Prod.mk.inj hevent
      obtain ⟨u, t, happend, hrun⟩ := bind_eq_ok.mp hrun
      obtain ⟨happended, rfl⟩ := Prod.mk.inj happend
      obtain ⟨u', t, hadd, hrun⟩ := bind_eq_ok.mp hrun
      obtain ⟨hserved, rfl⟩ := Prod.mk.inj hrun
      -- The table of interventions has not changed since it was looked up.
      rw [addIntervention_new (by exact hprior)] at hadd
      obtain ⟨-, rfl⟩ := Prod.mk.inj hadd
      obtain ⟨hstarted, hround, hknown, hmembers⟩ := checked_ok hadmitted
      refine .inr (.inr ⟨lifecycle, definition, event, _, hresult, hprior, hstarted, hround, hknown,
        hmembers, hbuilt, appendTo_ok happended, rfl, m, hserved⟩)
  · exact .inl ⟨e, happly⟩

/-! ### What one command does -/

/-- What a command does: nothing, a lifecycle command, or an intervention. -/
inductive Change (db : Database) (s : PolicyState) : PolicyState → Prop
  | nothing : Change db s s
  | lifecycle (command : LifecycleCommand) :
      Change db s { s with sessions := (Session.sql (appendTo db) command s.sessions).2 }
  | admitted {request : MembershipIntervention} {lifecycle : SessionLifecycle}
      {definition : AgentDefinition} {event : LedgerAppend} {s' : PolicyState}
      (h : Admitted db s request lifecycle definition event s') : Change db s s'

theorem andThen_pure_snd {σ ε α : Type} (r : Except ε α × σ) :
    (andThen (fun _ => (pure () : Stateful σ ε Unit)) r).2 = r.2 := by
  obtain ⟨r, t⟩ := r
  cases r <;> rfl

theorem exec_change (db : Database) (command : PolicyCommand) (s : PolicyState) :
    Change db s (exec db command s).2 := by
  cases command with
  | apply request =>
    show Change db s (andThen _ (apply db request s)).2
    rw [andThen_pure_snd]
    rcases apply_cases db request s with ⟨e, h⟩ | ⟨-, h⟩ | ⟨_, _, _, s', h, hadmitted⟩
    · rw [h]
      exact .nothing
    · rw [h]
      exact .nothing
    · rw [h]
      exact .admitted hadmitted
  | lifecycle command =>
    show Change db s (andThen _ (zoom _ _ _ s)).2
    rw [andThen_pure_snd]
    exact .lifecycle command

/-! ### The ledger and the lifecycles -/

/-- The ledger only grows. -/
theorem prefix_append (event : LedgerAppend) (ledger : LedgerState) :
    ledger.events <+: (Ledger.append db event ledger).2.events := by
  rcases append_cases db event ledger with ⟨hsame, -⟩ | ⟨p, head, -, -, happend, -⟩
  · simp [hsame]
  · simp [happend, LedgerState.insert]

theorem Change.prefix_events (h : Change db s s') : s.ledger.events <+: s'.ledger.events := by
  cases h with
  | nothing => exact List.prefix_rfl
  | lifecycle command =>
    show s.sessions.ledger.events <+: (Session.sql (appendTo db) command s.sessions).2.ledger.events
    rcases Session.sql_ledger (appendTo db) command s.sessions with hsame | ⟨c, -, happend⟩
    · simp [hsame]
    · rw [happend]
      exact prefix_append c.event _
  | admitted h =>
    rw [h.state]
    exact prefix_append _ _

/-- An event that an intervention has stays its event. -/
theorem event?_eq_some {i : MembershipIntervention} {e : LedgerEvent}
    (h : s.ledger.events <+: s'.ledger.events) (he : s.event? i = some e) : s'.event? i = some e := by
  obtain ⟨l, hl⟩ := h
  unfold PolicyState.event? at he ⊢
  rw [← hl, List.find?_append, he, Option.some_or]

/-- Rounds do not decrease. -/
theorem Change.exists_round (h : Change db s s') {key : UUID × UUID} {value : SessionLifecycle}
    (hvalue : s.sessions.values key = some value) :
    ∃ value', s'.sessions.values key = some value' ∧ value.round ≤ value'.round := by
  cases h with
  | nothing => exact ⟨value, hvalue, le_rfl⟩
  | lifecycle command => exact (Session.sql_effect command).exists_round (fun _ _ h => h.1.checked) hvalue
  | admitted h =>
    rw [h.state]
    exact ⟨value, hvalue, le_rfl⟩

theorem targetRound_mono {value value' : SessionLifecycle} (h : value.round ≤ value'.round) :
    targetRound value ≤ targetRound value' := by
  unfold targetRound
  split_ifs <;> omega

/-- A repeated event has the id and the session of the stored one. -/
theorem idempotent_scope {event : LedgerAppend} {x stored : LedgerEvent}
    (h : Ledger.idempotentResult event x = .ok stored) :
    x.id = event.id ∧ x.workspaceId = event.workspaceId ∧ x.sessionId = event.sessionId
      ∧ x.eventType = event.eventType := by
  unfold Ledger.idempotentResult at h
  split_ifs at h with hsame
  simp only [Ledger.samePreimage, Bool.and_eq_true, decide_eq_true_eq] at hsame
  obtain ⟨⟨⟨hid, hworkspace⟩, hsession⟩, htype⟩ := hsame.1.1.1.1.1.1.1
  exact ⟨hid.symm, hworkspace.symm, hsession.symm, htype.symm⟩

/-! ### The tables -/

/-- What holds of every row of an intervention. -/
structure Wellformed (s : PolicyState) : Prop where
  recorded : ∀ i ∈ s.interventions, ∃ e, s.event? i = some e
  introduced : ∀ i ∈ s.interventions, ∃ d, s.registry.agents i.agentDefinitionId = some d
    ∧ d.workspaceId = i.workspaceId ∧ d.referencedAt ≠ none
  round : ∀ i ∈ s.interventions, ∃ value,
    s.sessions.values (i.workspaceId, i.sessionId) = some value ∧ i.effectiveRound ≤ targetRound value

theorem Registry.agents_reference {r : Registry} {id : UUID} {d : AgentDefinition}
    (h : r.agents id = some d) (hreferenced : d.referencedAt ≠ none) (workspaceId agentId : UUID)
    (recordedAt : Datetime) : (r.reference workspaceId agentId recordedAt).agents id = some d := by
  show (r.agents id).map _ = some d
  rw [h, Option.map_some, AgentDefinition.reference_eq_self _ _ _ hreferenced]

/-- The new definition is referenced by the intervention. -/
theorem Registry.exists_reference {r : Registry} {workspaceId agentId : UUID} {d : AgentDefinition}
    (h : r.definition? workspaceId agentId = some d) (recordedAt : Datetime) :
    ∃ d', (r.reference workspaceId agentId recordedAt).agents agentId = some d'
      ∧ d'.workspaceId = workspaceId ∧ d'.referencedAt ≠ none := by
  obtain ⟨hrow, hworkspace⟩ := Option.filter_eq_some_iff.mp h
  have hworkspace : d.workspaceId = workspaceId := of_decide_eq_true hworkspace
  refine ⟨d.reference workspaceId agentId recordedAt, ?_, ?_, ?_⟩
  · show (r.agents agentId).map _ = _
    rw [hrow]
    rfl
  · rw [AgentDefinition.reference_workspaceId, hworkspace]
  · rw [AgentDefinition.reference, if_pos ⟨hworkspace, r.agent_id agentId d hrow⟩]
    cases d.referencedAt <;> simp

/-- The event of an admitted request is in the ledger. -/
theorem Admitted.exists_event {request : MembershipIntervention} {lifecycle : SessionLifecycle}
    {definition : AgentDefinition} {event : LedgerAppend}
    (h : Admitted db s request lifecycle definition event s') : ∃ e, s'.event? request = some e := by
  obtain ⟨hid, hworkspace, hsession⟩ : event.id = request.eventId
      ∧ event.workspaceId = request.workspaceId ∧ event.sessionId = request.sessionId := by
    obtain ⟨payload, -, hevent⟩ := Except.bind_eq_ok.mp h.built
    obtain rfl := Except.ok.inj hevent
    exact ⟨rfl, rfl, rfl⟩
  obtain ⟨stored, hstored⟩ := h.appended
  have hmatch {x : LedgerEvent} (hx : x.id = event.id ∧ x.workspaceId = event.workspaceId
      ∧ x.sessionId = event.sessionId) (hmem : x ∈ s'.ledger.events) : ∃ e, s'.event? request = some e := by
    apply Option.isSome_iff_exists.mp
    rw [PolicyState.event?, List.find?_isSome]
    refine ⟨x, hmem, decide_eq_true ?_⟩
    rw [← hid, ← hworkspace, ← hsession]
    exact hx
  have hledger : s'.ledger = (Ledger.append db event s.ledger).2 := by rw [h.state]
  rcases append_cases db event s.ledger with ⟨hsame, hold⟩ | ⟨p, head, -, -, happend, rfl, -⟩
  · -- A repeated event is the one that is stored.
    have hfound := hold stored hstored
    rw [Ledger.append_stored hfound] at hstored
    obtain ⟨hid', hworkspace', hsession', -⟩ := idempotent_scope hstored
    refine hmatch ⟨hid', hworkspace', hsession'⟩ ?_
    rw [hledger, hsame]
    exact List.mem_of_find?_eq_some hfound
  · refine hmatch ⟨rfl, rfl, rfl⟩ ?_
    rw [hledger, happend]
    exact List.mem_append_right _ (List.mem_singleton_self p)

/-- **Step.**  Every command keeps the tables well-formed. -/
theorem Change.wellformed (h : Change db s s') (hs : Wellformed s) : Wellformed s' := by
  have hrounds {i : MembershipIntervention} (hi : ∃ value,
      s.sessions.values (i.workspaceId, i.sessionId) = some value ∧ i.effectiveRound ≤ targetRound value) :
      ∃ value, s'.sessions.values (i.workspaceId, i.sessionId) = some value
        ∧ i.effectiveRound ≤ targetRound value := by
    obtain ⟨value, hvalue, hle⟩ := hi
    obtain ⟨value', hvalue', hround⟩ := h.exists_round hvalue
    exact ⟨value', hvalue', hle.trans (targetRound_mono hround)⟩
  have hevents {i : MembershipIntervention} (hi : ∃ e, s.event? i = some e) : ∃ e, s'.event? i = some e :=
    hi.imp fun e he => event?_eq_some h.prefix_events he
  cases h with
  | nothing => exact hs
  | lifecycle command =>
    exact ⟨fun i hi => hevents (hs.recorded i hi), hs.introduced, fun i hi => hrounds (hs.round i hi)⟩
  | @admitted request lifecycle definition event s' h =>
    have hinterventions : s'.interventions = s.interventions ++ [request] := by rw [h.state]
    have hregistry : s'.registry = s.registry.reference request.workspaceId request.agentDefinitionId
        request.recordedAt := by rw [h.state]
    refine ⟨?_, ?_, ?_⟩ <;> rw [hinterventions, List.forall_mem_append, List.forall_mem_singleton]
    · exact ⟨fun i hi => hevents (hs.recorded i hi), h.exists_event⟩
    · rw [hregistry]
      refine ⟨fun i hi => ?_, Registry.exists_reference h.known _⟩
      obtain ⟨d, hd, hworkspace, hreferenced⟩ := hs.introduced i hi
      exact ⟨d, Registry.agents_reference hd hreferenced _ _ _, hworkspace, hreferenced⟩
    · exact ⟨fun i hi => hrounds (hs.round i hi),
        hrounds ⟨lifecycle, h.started, (checkRound_ok h.round).2.1.le⟩⟩

/-! ### What has been replayed stays -/

theorem Change.event?_eq (h : Change db s s') (hs : Wellformed s) {i : MembershipIntervention}
    (hi : i ∈ s.interventions) : s'.event? i = s.event? i := by
  obtain ⟨e, he⟩ := hs.recorded i hi
  rw [he, event?_eq_some h.prefix_events he]

/-- What a registry says of the definitions in use does not change. -/
structure Agrees (s : PolicyState) (r : Registry) : Prop where
  bindings : r.bindings = s.registry.bindings
  bound : ∀ b ∈ s.registry.bindings, r.agents b.agentDefId = s.registry.agents b.agentDefId
  introduced : ∀ i ∈ s.interventions, r.agents i.agentDefinitionId = s.registry.agents i.agentDefinitionId

theorem Change.agrees (h : Change db s s') (hs : Wellformed s) : Agrees s s'.registry := by
  cases h with
  | nothing => exact ⟨rfl, fun _ _ => rfl, fun _ _ => rfl⟩
  | lifecycle command => exact ⟨rfl, fun _ _ => rfl, fun _ _ => rfl⟩
  | admitted h =>
    rw [h.state]
    refine ⟨rfl, fun b hb => ?_, fun i hi => ?_⟩
    · obtain ⟨d, hd, -, hreferenced⟩ := s.registry.bound b hb
      rw [Registry.agents_reference hd hreferenced, hd]
    · obtain ⟨d, hd, -, hreferenced⟩ := hs.introduced i hi
      rw [Registry.agents_reference hd hreferenced, hd]

/-- The bound definitions are the same. -/
theorem Agrees.initial {r : Registry} (h : Agrees s r) : r.initial w n = s.registry.initial w n := by
  simp only [Registry.initial]
  rw [h.bindings]
  refine List.filterMap_congr fun b hb => ?_
  rw [List.mem_insertionSort] at hb
  unfold Registry.definition?
  rw [h.bound b (List.mem_of_mem_filter hb)]

/-- **Replay.**  The same interventions over the same definitions have the same result. -/
theorem members_congr {r r' : ℕ} (hagrees : Agrees s s'.registry)
    (hevents : ∀ i ∈ s.interventions, s'.event? i = s.event? i) (hrows : s'.rows w n r' = s.rows w n r) :
    s'.members w n r' = s.members w n r := by
  have heffective : s'.effective w n r' = s.effective w n r := by
    simp only [PolicyState.effective]
    rw [hrows]
    congr 1
    refine List.filterMap_congr fun i hi => ?_
    rw [hevents i (List.mem_of_mem_filter hi)]
  unfold PolicyState.members
  rw [heffective, hagrees.initial]
  refine Except.foldlM_congr (fun ordered i hi => ?_) _
  have hmem : i ∈ s.interventions := by
    obtain ⟨row, hrow, rfl⟩ := List.mem_map.mp hi
    simp only [PolicyState.effective, List.mem_insertionSort, List.mem_filterMap] at hrow
    obtain ⟨j, hj, hrow⟩ := hrow
    obtain ⟨e, -, rfl⟩ := Option.map_eq_some_iff.mp hrow
    exact List.mem_of_mem_filter hj
  unfold intervene Registry.definition?
  rw [hagrees.introduced i hmem]

/-- A request adds a row to the later rounds of its session. -/
theorem Admitted.rows_eq {request : MembershipIntervention} {lifecycle : SessionLifecycle}
    {definition : AgentDefinition} {event : LedgerAppend}
    (h : Admitted db s request lifecycle definition event s') {r : ℕ}
    (hother : ¬ (request.workspaceId = w ∧ request.sessionId = n ∧ request.effectiveRound ≤ r)) :
    s'.rows w n r = s.rows w n r := by
  unfold PolicyState.rows
  rw [h.state, List.filter_append, List.filter_singleton, decide_eq_false hother, cond_false,
    List.append_nil]

/-- The rows of a round, after a command: a request that is admitted comes later. -/
theorem Change.rows_eq (h : Change db s s') {r : ℕ}
    (hpast : ∀ value, s.sessions.values (w, n) = some value → r < targetRound value) :
    s'.rows w n r = s.rows w n r := by
  cases h with
  | nothing => rfl
  | lifecycle command => rfl
  | @admitted request lifecycle definition event s' h =>
    apply h.rows_eq
    rintro ⟨rfl, rfl, hle⟩
    have hround := (checkRound_ok h.round).2.1
    have hlater := hpast lifecycle h.started
    omega

/-- **Past.**  The members of a round that is over are the same after any command. -/
theorem Change.members_eq (h : Change db s s') (hs : Wellformed s) {r : ℕ}
    (hpast : ∀ value, s.sessions.values (w, n) = some value → r < targetRound value) :
    s'.members w n r = s.members w n r :=
  members_congr (h.agrees hs) (fun _ => h.event?_eq hs) (h.rows_eq hpast)

/-! ### Every round is served -/

/-- Members that make a snapshot. -/
def Valid (w : UUID) (definitions : List AgentDefinition) : Prop :=
  definitions ≠ [] ∧ (∀ d ∈ definitions, d.workspaceId = w) ∧ (definitions.map (·.logicalId)).Nodup

theorem membership_ok_iff {r : ℕ} (hr : 1 ≤ r) {m : MembershipSnapshot} :
    s.membership w n r = .ok m ↔ ∃ definitions, s.members w n r = .ok definitions
      ∧ membershipSnapshot w n r definitions = .ok m := by
  unfold PolicyState.membership
  rw [if_neg (by omega), Except.bind_eq_ok]

theorem membershipSnapshot_ok_iff {r : ℕ} (hr : 1 ≤ r) {definitions : List AgentDefinition} :
    (∃ m, membershipSnapshot w n r definitions = .ok m) ↔ Valid w definitions := by
  unfold membershipSnapshot Valid
  rw [dif_pos hr]
  constructor
  · rintro ⟨m, hm⟩
    split_ifs at hm with hempty hworkspace hversion
    exact ⟨hempty, hworkspace, hversion⟩
  · rintro ⟨hempty, hworkspace, hversion⟩
    rw [dif_pos hempty, dif_pos hworkspace, dif_pos hversion]
    exact ⟨_, rfl⟩

theorem definitions_of_snapshot {r : ℕ} {definitions : List AgentDefinition} {m : MembershipSnapshot}
    (h : membershipSnapshot w n r definitions = .ok m) : m.definitions = definitions := by
  unfold membershipSnapshot at h
  split_ifs at h
  exact congrArg MembershipSnapshot.definitions (Except.ok.inj h).symm

/-- The session has members in every round. -/
def Serves (s : PolicyState) (w n : UUID) : Prop :=
  ∀ r, 1 ≤ r → ∃ definitions, s.members w n r = .ok definitions ∧ Valid w definitions

/-- From the target round of a request on, all of its session is effective. -/
theorem rows_of_le (hs : Wellformed s) {value : SessionLifecycle}
    (hvalue : s.sessions.values (w, n) = some value) {r : ℕ} (hr : targetRound value ≤ r) :
    s.rows w n r = s.rows w n (targetRound value) := by
  refine List.filter_congr fun i hi => ?_
  rw [decide_eq_decide]
  refine and_congr_right fun hworkspace => and_congr_right fun hsession => ?_
  obtain ⟨value', hvalue', hle⟩ := hs.round i hi
  rw [hworkspace, hsession, hvalue] at hvalue'
  obtain rfl := Option.some.inj hvalue'
  exact ⟨fun _ => hle, fun _ => hle.trans hr⟩

/-- **Future.**  After every command there are members in every round. -/
theorem Change.serves (h : Change db s s') (hs : Wellformed s) (hserves : Serves s w n) :
    Serves s' w n := by
  have hkeep {r : ℕ} (hr : 1 ≤ r) (hrows : s'.rows w n r = s.rows w n r) :
      ∃ definitions, s'.members w n r = .ok definitions ∧ Valid w definitions := by
    rw [members_congr (h.agrees hs) (fun _ => h.event?_eq hs) hrows]
    exact hserves r hr
  have hs' := h.wellformed hs
  intro r hr
  cases h with
  | nothing => exact hkeep hr rfl
  | lifecycle command => exact hkeep hr rfl
  | @admitted request lifecycle definition event s' hadmitted =>
    have hround := (checkRound_ok hadmitted.round).2.1
    by_cases hlater : request.workspaceId = w ∧ request.sessionId = n ∧ targetRound lifecycle ≤ r
    · -- The snapshot that `apply` has returned is the one of this round.
      obtain ⟨rfl, rfl, hle⟩ := hlater
      have hvalue : s'.sessions.values (request.workspaceId, request.sessionId) = some lifecycle := by
        rw [hadmitted.state]
        exact hadmitted.started
      obtain ⟨m, hm⟩ := hadmitted.served
      obtain ⟨definitions, hmembers, hsnapshot⟩ := (membership_ok_iff request.positive_round).mp hm
      refine ⟨definitions, ?_, (membershipSnapshot_ok_iff request.positive_round).mp ⟨m, hsnapshot⟩⟩
      rw [← hmembers, hround]
      exact members_congr ⟨rfl, fun _ _ => rfl, fun _ _ => rfl⟩ (fun _ _ => rfl) (rows_of_le hs' hvalue hle)
    · apply hkeep hr
      apply hadmitted.rows_eq
      rw [hround]
      exact hlater

/-! ### Runs -/

/-- Before the first intervention the members are the definitions that the session is bound to. -/
theorem serves_start (hstart : s.interventions = []) (hbound : s.registry.initial w n ≠ [])
    (hdistinct : ((s.registry.initial w n).map (·.logicalId)).Nodup) : Serves s w n := by
  intro r hr
  refine ⟨s.registry.initial w n, ?_, hbound, fun d hd => ?_, hdistinct⟩
  · simp only [PolicyState.members, PolicyState.effective, PolicyState.rows, hstart]
    rfl
  · simp only [Registry.initial, List.mem_filterMap, List.mem_insertionSort, List.mem_filter,
      decide_eq_true_eq] at hd
    obtain ⟨b, ⟨-, rfl, -⟩, hd⟩ := hd
    exact of_decide_eq_true (Option.filter_eq_some_iff.mp hd).2

theorem wellformed_start (hstart : s.interventions = []) : Wellformed s := by
  refine ⟨?_, ?_, ?_⟩ <;> rw [hstart] <;> exact List.forall_mem_nil _

/-- The invariant of a run. -/
structure Sound (w n : UUID) (s : PolicyState) : Prop where
  wellformed : Wellformed s
  serves : Serves s w n

theorem Sound.after (h : Sound w n s) (db : Database) (calls : List PolicyCommand) :
    Sound w n (after (exec db) s calls) := by
  refine after_invariant (P := fun _ _ => True) (fun s command h _ => ?_) h
    (along_of_forall (fun _ _ => trivial) _ _)
  have hchange := exec_change db command s
  exact ⟨hchange.wellformed h.wellformed, hchange.serves h.wellformed h.serves⟩

/-- What is over stays over, and its members stay the same. -/
theorem members_after (hs : Sound w n s) {value : SessionLifecycle}
    (hvalue : s.sessions.values (w, n) = some value) {r : ℕ} (hr : r < targetRound value)
    (calls : List PolicyCommand) : (after (exec db) s calls).members w n r = s.members w n r := by
  induction calls generalizing s value with
  | nil => rfl
  | cons command calls ih =>
    have hchange := exec_change db command s
    obtain ⟨value', hvalue', hround⟩ := hchange.exists_round hvalue
    show (Agora.after (exec db) (exec db command s).2 calls).members w n r = _
    rw [ih ⟨hchange.wellformed hs.wellformed, hchange.serves hs.wellformed hs.serves⟩ hvalue'
      (hr.trans_le (targetRound_mono hround))]
    apply hchange.members_eq hs.wellformed
    intro value'' hvalue''
    obtain rfl := Option.some.inj (hvalue.symm.trans hvalue'')
    exact hr

/-- A stored intervention is only looked at. -/
theorem apply_stored {request prior : MembershipIntervention}
    (h : s.intervention? request.eventId = some prior) : apply db request s
      = if prior ≠ request then
          (.error (.valueError "membership intervention event id was reused with different content"), s)
        else (s.membership request.workspaceId request.sessionId request.effectiveRound, s) := by
  have hrun := @applyStatements_stored db _ _ _ h
  split_ifs at hrun ⊢
  · exact rollback_same hrun
  · exact rollback_same hrun

/-- What is claimed of the membership of a session after some commands. -/
structure MembershipSound (db : Database) (w n : UUID) (s : PolicyState) (calls : List PolicyCommand) :
    Prop where
  /-- There are members in every round. -/
  served : ∀ r, 1 ≤ r → ∃ m, (after (exec db) s calls).membership w n r = .ok m ∧ m.definitions ≠ []
    ∧ (m.definitions.map (·.logicalId)).Nodup
  /-- The members of a round that has begun were the same at any time since. -/
  past : ∀ earlier later, calls = earlier ++ later → ∀ value,
    (after (exec db) s earlier).sessions.values (w, n) = some value → 1 ≤ value.round →
      ∀ r, 1 ≤ r → r ≤ value.round → (after (exec db) s calls).membership w n r
        = (after (exec db) s earlier).membership w n r
  /-- An intervention that is stored is not stored again, nor anything else under its id. -/
  repeated : ∀ request prior, (after (exec db) s calls).intervention? request.eventId = some prior →
    (apply db request (after (exec db) s calls)).2 = after (exec db) s calls
      ∧ (prior ≠ request → ∃ e, (apply db request (after (exec db) s calls)).1 = .error e)

/-- **Membership.**  From distinct agents on, the membership of a session stays well-formed and its
    past as it was. -/
theorem membership_sound (db : Database) {w n : UUID} {s : PolicyState} (hstart : s.interventions = [])
    (hbound : s.registry.initial w n ≠ [])
    (hdistinct : ((s.registry.initial w n).map (·.logicalId)).Nodup) (calls : List PolicyCommand) :
    MembershipSound db w n s calls := by
  have hsound : Sound w n s := ⟨wellformed_start hstart, serves_start hstart hbound hdistinct⟩
  refine ⟨fun r hr => ?_, fun earlier later hcalls value hvalue hround r hr hpast => ?_,
    fun request prior hprior => ?_⟩
  · obtain ⟨definitions, hmembers, hvalid⟩ := (hsound.after db calls).serves r hr
    obtain ⟨m, hm⟩ := (membershipSnapshot_ok_iff hr).mpr hvalid
    exact ⟨m, (membership_ok_iff hr).mpr ⟨definitions, hmembers, hm⟩, m.nonempty, m.one_version⟩
  · have hlater : r < targetRound value := by
      unfold targetRound
      rw [if_neg (by omega)]
      omega
    have hsame : (Agora.after (exec db) (after (exec db) s earlier) later).members w n r = _ :=
      members_after (hsound.after db earlier) hvalue hlater later
    have hsplit : after (exec db) s calls = after (exec db) (after (exec db) s earlier) later := by
      rw [hcalls]
      exact after_append _ s earlier later
    rw [hsplit]
    unfold PolicyState.membership
    rw [hsame]
  · rw [apply_stored hprior]
    split_ifs with hdiffers
    · exact ⟨rfl, fun _ => ⟨_, rfl⟩⟩
    · exact ⟨rfl, fun h => absurd h hdiffers⟩

/-! ### A replacement -/

def sampleAgent (digit : Fin 10) : AgentDefinition where
  id := sampleId digit
  workspaceId := sampleId 0
  logicalId := sampleId digit
  version := 1
  status := .active
  referencedAt := some (noon 0)

/-- Two agents, the first of which is bound to the session. -/
def sampleRegistry : Registry where
  agents id := [sampleAgent 1, sampleAgent 2].find? fun d => d.id = id
  bindings := [⟨sampleId 0, sampleId 0, sampleId 1, noon 0⟩]
  agent_id id d h := by simpa using List.find?_some h
  bound b hb := by
    obtain rfl := List.mem_singleton.mp hb
    exact ⟨sampleAgent 1, by decide +kernel, rfl, by decide⟩

def sampleState : PolicyState where
  sessions := ⟨Ledger.genesis fun _ => some (sampleId 0), fun _ => none⟩
  registry := sampleRegistry
  interventions := []

/-- The second agent takes the place of the first. -/
def sampleReplace : MembershipIntervention where
  eventId := sampleId 5
  workspaceId := sampleId 0
  sessionId := sampleId 0
  kind := .replace
  replacedAgentDefinitionId := some (sampleId 1)
  agentDefinitionId := sampleId 2
  effectiveRound := 1
  actorId := sampleId 0
  correlationId := sampleId 0
  reason := ⟨"domain expert is on leave", by decide⟩
  recordedAt := noon 1
  positive_round := Nat.one_pos
  replacement_shape := by decide
  replacement_differs := by decide +kernel

def sampleCalls : List PolicyCommand :=
  [.lifecycle (.addDraft (sampleId 0) (sampleId 0) (noon 0)), .apply sampleReplace]

theorem initial_sample : sampleRegistry.initial (sampleId 0) (sampleId 0) = [sampleAgent 1] := by
  decide +kernel

theorem membership_sound_replace :
    MembershipSound unlimited (sampleId 0) (sampleId 0) sampleState sampleCalls := by
  have hinitial : sampleState.registry.initial (sampleId 0) (sampleId 0) = [sampleAgent 1] := initial_sample
  exact membership_sound unlimited rfl (by simp [hinitial]) (by simp [hinitial]) sampleCalls

end Agora.Coordinator
