import Agora.Session.Finality

namespace Agora.Session

open Ledger (LedgerAppend)
open Stateful SessionLifecycleState

/-!
# Consistent projections

The store in memory does not validate a projection that it changes.  Its projections are consistent
all along a run exactly when no draft takes an event of its own state (`inMemory_consistent_iff`): the
check of a transition lets such an event through, and a draft with an event is not consistent.
-/

section Consistency

variable {accepts : SessionTransition → SessionLifecycle → Prop}
  {values values' : UUID × UUID → Option SessionLifecycle} {command : LifecycleCommand}
  {c : SessionTransition} {current : SessionLifecycle}

def AllConsistent (values : UUID × UUID → Option SessionLifecycle) : Prop :=
  ∀ key value, values key = some value → value.Consistent

/-- What a projection does not say: a session has started when it leaves the draft. -/
def AllStarted (values : UUID × UUID → Option SessionLifecycle) : Prop :=
  ∀ key value, values key = some value → value.state ≠ .draft → value.startedAt ≠ none

variable (accepts values command) in
/-- An event that is accepted in the state of a draft. -/
def MarksDraft : Prop :=
  ∃ c current, command = .transition c ∧ values c.key = some current ∧ accepts c current
    ∧ current.state = .draft ∧ c.target = .draft

variable (values command) in
/-- Events are not recorded before their session was created. -/
def Timely : Prop :=
  ∀ c current, command = .transition c → values c.key = some current →
    current.createdAt ≤ c.event.recordedAt

theorem forall_setValue {P : SessionLifecycle → Prop} {key : UUID × UUID} {value : SessionLifecycle}
    (h : ∀ k v, values k = some v → k ≠ key → P v) (hvalue : P value) :
    ∀ k v, setValue key value values k = some v → P v := by
  intro k v hv
  by_cases hk : k = key
  · subst hk
    rw [setValue_self] at hv
    exact Option.some.inj hv ▸ hvalue
  · rw [setValue_of_ne _ hk] at hv
    exact h k v hv hk

/-- Only a draft can be in the state `DRAFT` again. -/
theorem draft_of_target (hchecked : checkTransition c current = .ok ()) (htarget : c.target = .draft) :
    current.state = .draft := by
  rcases checkTransition_ok hchecked with ⟨hstate, -⟩ | ⟨-, hedge, -⟩
  · exact hstate.trans htarget
  · rw [htarget] at hedge
    exact absurd hedge (draft_not_mem_transitions _)

/-- A transition leaves a consistent projection, unless to a draft. -/
theorem moved_consistent_iff (hconsistent : current.Consistent)
    (hstarted : current.state ≠ .draft → current.startedAt ≠ none)
    (htimely : current.createdAt ≤ c.event.recordedAt)
    (hchecked : checkTransition c current = .ok ()) :
    (current.moved c).Consistent ↔ c.target ≠ .draft := by
  constructor
  · intro h htarget
    have hnone := h.draft htarget
    cases hnone
  · intro htarget
    refine ⟨hconsistent.workflow, htimely, fun h => absurd h htarget, fun _ => ?_, fun _ => ?_, ?_⟩
    · show (if current.state = .draft then some c.event.recordedAt else current.initializedAt) ≠ none
      split_ifs with hdraft
      · exact Option.some_ne_none _
      · exact hconsistent.initialized hdraft
    · show (if current.state = .draft ∨ c.target = .running ∧ current.startedAt = none then
        some c.event.recordedAt else current.startedAt) ≠ none
      split_ifs with hfresh
      · exact Option.some_ne_none _
      · exact hstarted fun hdraft => hfresh (.inl hdraft)
    · show c.target.terminal
        = (if c.target.terminal then some c.event.recordedAt else current.endedAt).isSome
      cases hterminal : c.target.terminal with
      | true => rfl
      | false =>
        -- A session that has ended does not get another state.
        have hlive : current.state.terminal = false := by
          by_contra hended
          rw [Bool.not_eq_false] at hended
          rcases checkTransition_ok hchecked with ⟨hstate, -⟩ | ⟨-, hedge, -⟩
          · rw [hstate, hterminal] at hended
            cases hended
          · rw [transitions_of_terminal hended] at hedge
            cases hedge
        rw [if_neg Bool.false_ne_true, ← hconsistent.ended, hlive]

theorem allStarted_effect (h : Effect accepts values command values') (hstarted : AllStarted values) :
    AllStarted values' := by
  cases h with
  | nothing => exact hstarted
  | addDraft => exact forall_setValue (fun k v hv _ => hstarted k v hv) fun h => absurd rfl h
  | attachWorkflow hcurrent =>
    have hbefore := hstarted _ _ hcurrent
    exact forall_setValue (fun k v hv _ => hstarted k v hv) hbefore
  | @transition c current hcurrent haccepts =>
    refine forall_setValue (fun k v hv _ => hstarted k v hv) fun htarget => ?_
    show (if current.state = .draft ∨ c.target = .running ∧ current.startedAt = none then
      some c.event.recordedAt else current.startedAt) ≠ none
    split_ifs with hfresh
    · exact Option.some_ne_none _
    · exact hstarted _ _ hcurrent fun hdraft => hfresh (.inl hdraft)

/-- **Step.**  A command leaves consistent projections exactly if it does not mark a draft. -/
theorem allConsistent_iff (h : Effect accepts values command values') (hstarted : AllStarted values)
    (htimely : Timely values command) (hconsistent : AllConsistent values)
    (hchecked : ∀ c current, accepts c current → checkTransition c current = .ok ()) :
    AllConsistent values' ↔ ¬ MarksDraft accepts values command := by
  cases h with
  | nothing hrejects =>
    refine ⟨fun _ => ?_, fun _ => hconsistent⟩
    rintro ⟨c, current, hc, hcurrent, haccepts, -⟩
    exact hrejects c current hc hcurrent haccepts
  | addDraft =>
    refine ⟨fun _ ⟨_, _, hc, _⟩ => (nomatch hc), fun _ => ?_⟩
    refine forall_setValue (fun k v hv _ => hconsistent k v hv) ⟨rfl, le_rfl, fun _ => rfl,
      fun h => absurd rfl h, fun h => absurd (by simp) h, rfl⟩
  | attachWorkflow hcurrent =>
    refine ⟨fun _ ⟨_, _, hc, _⟩ => (nomatch hc), fun _ => ?_⟩
    refine forall_setValue (fun k v hv _ => hconsistent k v hv) ?_
    exact { hconsistent _ _ hcurrent with workflow := rfl }
  | @transition c current hcurrent haccepts =>
    have hmoved := moved_consistent_iff (hconsistent _ _ hcurrent) (hstarted _ _ hcurrent)
      (htimely c current rfl hcurrent) (hchecked c current haccepts)
    constructor
    · rintro hall ⟨c', current', hc, hcurrent', -, -, htarget⟩
      obtain rfl := LifecycleCommand.transition.inj hc
      exact hmoved.mp (hall _ _ (setValue_self _ _)) htarget
    · intro hquiet
      refine forall_setValue (fun k v hv _ => hconsistent k v hv) (hmoved.mpr fun htarget => ?_)
      exact hquiet ⟨c, current, rfl, hcurrent, haccepts,
        draft_of_target (hchecked c current haccepts) htarget, htarget⟩

variable {L : Type} (append : LedgerAppend → L → Py Unit × L)

/-- A command that raises has kept the projections. -/
theorem inMemory_rejected {s : LifecycleState L} {e : PyException}
    (h : (inMemory append command s).1 = .error e) :
    (inMemory append command s).2.values = s.values := by
  cases command with
  | addDraft workspaceId sessionId createdAt =>
    simp only [inMemory, bind_apply, read_apply, andThen_ok] at h ⊢
    cases hvalue : s.values (workspaceId, sessionId) with
    | some value => rfl
    | none =>
      rw [hvalue] at h
      cases h
  | attachWorkflow workspaceId sessionId workflowId runId =>
    simp only [inMemory] at h ⊢
    by_cases hblank : isBlank workflowId = true ∨ isBlank runId = true
    · rw [if_pos hblank]
      rfl
    rw [if_neg hblank] at h ⊢
    simp only [bind_apply, read_apply, andThen_ok] at h ⊢
    cases hvalue : s.values (workspaceId, sessionId) with
    | none => rfl
    | some value =>
      rw [hvalue] at h
      dsimp only at h ⊢
      split
      · rfl
      · rename_i hsame
        rw [if_neg hsame] at h
        cases h
  | transition c =>
    simp only [inMemory, bind_apply, read_apply, andThen_ok] at h ⊢
    cases hvalue : s.values c.key with
    | none => rfl
    | some current =>
      rw [hvalue] at h
      dsimp only at h ⊢
      by_cases hrepeated : c.isRepeated current
      · rw [if_pos hrepeated, bind_apply, appendEvent]
        cases (append c.event s.ledger).1 <;> rfl
      · rw [if_neg hrepeated] at h ⊢
        rcases checked_append (s := s) (do
          write (LifecycleState.set c.key (current.moved c))
          pure (current.moved c)) hrepeated with ⟨-, heq⟩ | ⟨-, e', s', heq, hs'⟩
        · rw [heq] at h
          cases h
        · rw [heq, hs']

/-- **Consistency.**  From an empty store, all projections of a run are consistent exactly when no
    event is accepted in the state of a draft; and a rejected command changes none. -/
theorem inMemory_consistent_iff (ledger : L) (calls : List LifecycleCommand)
    (htimely : Along (inMemory append) (fun s command => Timely s.values command)
      ⟨ledger, fun _ => none⟩ calls) :
    ((∀ earlier later, calls = earlier ++ later →
        AllConsistent (after (inMemory append) ⟨ledger, fun _ => none⟩ earlier).values)
      ↔ Along (inMemory append) (fun s command => ¬ MarksDraft (Accepts append s) s.values command)
        ⟨ledger, fun _ => none⟩ calls)
    ∧ ∀ s command e, (inMemory append command s).1 = .error e →
      (inMemory append command s).2.values = s.values := by
  refine ⟨?_, fun s command e => inMemory_rejected append⟩
  have hinv (s : LifecycleState L) (command : LifecycleCommand) (hstarted : AllStarted s.values)
      (_ : Timely s.values command) : AllStarted (inMemory append command s).2.values :=
    allStarted_effect (inMemory_effect command) hstarted
  -- A step from consistent projections leads to consistent ones exactly when it marks no draft.
  have hsafe (s : LifecycleState L) (command : LifecycleCommand) (hstarted : AllStarted s.values)
      (htimely : Timely s.values command) (hconsistent : AllConsistent s.values) :
      AllConsistent (inMemory append command s).2.values
        ↔ ¬ MarksDraft (Accepts append s) s.values command :=
    allConsistent_iff (inMemory_effect command) hstarted htimely hconsistent fun _ _ h => h.checked
  have hstart : AllStarted (fun _ => none) := fun key value h => nomatch h
  have hsound : AllConsistent (fun _ => none) := fun key value h => nomatch h
  exact forall_prefix_iff_along hinv hsafe hstart hsound htimely

end Consistency

/-! ### An event of a draft -/

/-- A session is created at noon, and an event leads from its draft to a state a minute later. -/
def draftThen (target : SessionLifecycleState) : List LifecycleCommand :=
  [.addDraft (sampleId 0) (sampleId 0) (noon 0), .transition (sampleTransition .draft target 1)]

theorem timely_draftThen (target : SessionLifecycleState) : Along (inMemory anyEvent)
    (fun s command => Timely s.values command) noSessions (draftThen target) := by
  refine ⟨fun c current hc => (nomatch hc), fun c current hc hcurrent => ?_, trivial⟩
  obtain rfl := LifecycleCommand.transition.inj hc
  have hvalue : (inMemory anyEvent (.addDraft (sampleId 0) (sampleId 0) (noon 0)) noSessions).2.values
      (sampleId 0, sampleId 0) = some sampleDraft := by decide +kernel
  obtain rfl := Option.some.inj (hvalue.symm.trans hcurrent)
  show noon 0 ≤ noon 1
  decide +kernel

theorem inMemory_consistent_iff_failed :
    ((∀ earlier later, draftThen .failed = earlier ++ later →
        AllConsistent (after (inMemory anyEvent) noSessions earlier).values)
      ↔ Along (inMemory anyEvent) (fun s command => ¬ MarksDraft (Accepts anyEvent s) s.values command)
        noSessions (draftThen .failed))
    ∧ ∀ s command e, (inMemory anyEvent command s).1 = .error e →
      (inMemory anyEvent command s).2.values = s.values :=
  inMemory_consistent_iff anyEvent () (draftThen .failed) (timely_draftThen .failed)

/-- A draft takes an event and stays a draft. -/
theorem inMemory_not_consistent :
    Along (inMemory anyEvent) (fun s command => Timely s.values command) noSessions (draftThen .draft)
      ∧ ¬ AllConsistent (after (inMemory anyEvent) noSessions (draftThen .draft)).values := by
  refine ⟨timely_draftThen .draft, fun h => ?_⟩
  have hmarked : (after (inMemory anyEvent) noSessions (draftThen .draft)).values
      (sampleId 0, sampleId 0) = some (sampleDraft.moved (sampleTransition .draft .draft 1)) := by
    decide +kernel
  exact Option.some_ne_none _ ((h _ _ hmarked).draft rfl)

end Agora.Session
