import Agora.Session.Effects

namespace Agora.Session

open Ledger (LedgerAppend)
open Stateful SessionLifecycleState

/-!
# Termination

Along every run rounds are right, and a session that has ended keeps its state and its round.  Its end
moves exactly when an event of the last state is accepted at another time (`termination_final_iff`).
-/

section Final

variable {accepts : SessionTransition → SessionLifecycle → Prop}
  {values values' : UUID × UUID → Option SessionLifecycle} {command : LifecycleCommand}
  {c : SessionTransition} {current : SessionLifecycle}

/-- What an accepted transition is: an event in the state of the session, or a step of the graph. -/
theorem checkTransition_ok (h : checkTransition c current = .ok ()) :
    (current.state = c.target ∧ c.round = current.round)
      ∨ (current.state ≠ c.target ∧ c.target ∈ current.state.transitions ∧ current.round ≤ c.round
        ∧ c.round ≤ current.round + 1 ∧ (c.round ≠ current.round → c.target = .running)) := by
  unfold checkTransition at h
  split_ifs at h
  exact validateSessionTransition_ok h

/-- A session that has ended is as it was: its state, its round and its end. -/
def EndKept (values values' : UUID × UUID → Option SessionLifecycle) : Prop :=
  ∀ key current, values key = some current → current.state.terminal = true →
    ∃ next, values' key = some next ∧ next.state = current.state ∧ next.round = current.round
      ∧ next.endedAt = current.endedAt

/-- Rounds go up one by one, and only when a session enters `RUNNING`. -/
def RoundsKept (values values' : UUID × UUID → Option SessionLifecycle) : Prop :=
  ∀ key current, values key = some current → ∃ next, values' key = some next
    ∧ current.round ≤ next.round ∧ next.round ≤ current.round + 1
    ∧ (next.round ≠ current.round → next.state = .running ∧ current.state ≠ .running)

variable (accepts values command) in
/-- An event that is accepted in the state in which a session has ended, with another time. -/
def MovesEnd : Prop :=
  ∃ c current, command = .transition c ∧ values c.key = some current ∧ accepts c current
    ∧ current.state.terminal = true ∧ current.endedAt ≠ some c.event.recordedAt

theorem endKept_refl (values : UUID × UUID → Option SessionLifecycle) : EndKept values values :=
  fun _ current hcurrent _ => ⟨current, hcurrent, rfl, rfl, rfl⟩

theorem EndKept.trans {values'' : UUID × UUID → Option SessionLifecycle}
    (h : EndKept values values') (h' : EndKept values' values'') : EndKept values values'' := by
  intro key current hcurrent hterminal
  obtain ⟨next, hnext, hstate, hround, hended⟩ := h key current hcurrent hterminal
  obtain ⟨last, hlast, hstate', hround', hended'⟩ := h' key next hnext (by rw [hstate, hterminal])
  exact ⟨last, hlast, hstate'.trans hstate, hround'.trans hround, hended'.trans hended⟩

@[simp] theorem setValue_self (key : UUID × UUID) (value : SessionLifecycle) :
    setValue key value values key = some value := if_pos rfl

theorem setValue_of_ne {key k : UUID × UUID} (value : SessionLifecycle) (h : k ≠ key) :
    setValue key value values k = values k := if_neg h

/-- **Step.**  A command moves the end of a session exactly if it is such an event. -/
theorem endKept_iff (h : Effect accepts values command values')
    (hchecked : ∀ c current, accepts c current → checkTransition c current = .ok ()) :
    EndKept values values' ↔ ¬ MovesEnd accepts values command := by
  cases h with
  | nothing hrejects =>
    refine ⟨fun _ => ?_, fun _ => endKept_refl values⟩
    rintro ⟨c, current, hc, hcurrent, haccepts, -⟩
    exact hrejects c current hc hcurrent haccepts
  | addDraft hnone =>
    refine ⟨fun _ ⟨_, _, hc, _⟩ => (nomatch hc), fun _ key current hcurrent _ => ?_⟩
    rw [setValue_of_ne]
    · exact ⟨current, hcurrent, rfl, rfl, rfl⟩
    · rintro rfl
      rw [hnone] at hcurrent
      cases hcurrent
  | @attachWorkflow workspaceId sessionId workflowId runId before hbefore =>
    refine ⟨fun _ ⟨_, _, hc, _⟩ => (nomatch hc), fun _ key current hcurrent _ => ?_⟩
    by_cases hkey : key = (workspaceId, sessionId)
    · subst hkey
      obtain rfl := Option.some.inj (hbefore.symm.trans hcurrent)
      exact ⟨_, setValue_self _ _, rfl, rfl, rfl⟩
    · rw [setValue_of_ne _ hkey]
      exact ⟨current, hcurrent, rfl, rfl, rfl⟩
  | @transition c before hbefore haccepts =>
    constructor
    · rintro hkept ⟨c', current, hc, hcurrent, -, hterminal, hended⟩
      obtain rfl := LifecycleCommand.transition.inj hc
      obtain rfl := Option.some.inj (hbefore.symm.trans hcurrent)
      obtain ⟨next, hnext, hstate, -, hend⟩ := hkept c.key before hbefore hterminal
      obtain rfl := Option.some.inj ((setValue_self _ _).symm.trans hnext)
      have htarget : c.target.terminal = true := by
        rw [show c.target = before.state from hstate]
        exact hterminal
      have hmoved : (before.moved c).endedAt = some c.event.recordedAt := if_pos htarget
      exact hended (hend.symm.trans hmoved)
    · intro hquiet key current hcurrent hterminal
      by_cases hkey : key = c.key
      · subst hkey
        obtain rfl := Option.some.inj (hbefore.symm.trans hcurrent)
        refine ⟨_, setValue_self _ _, ?_⟩
        rcases checkTransition_ok (hchecked c before haccepts) with ⟨hstate, hround⟩ | ⟨-, hedge, -⟩
        · have hended : before.endedAt = some c.event.recordedAt := by
            by_contra hended
            exact hquiet ⟨c, before, rfl, hbefore, haccepts, hterminal, hended⟩
          refine ⟨hstate.symm, hround, ?_⟩
          rw [hended]
          exact if_pos (hstate ▸ hterminal)
        · rw [transitions_of_terminal hterminal] at hedge
          cases hedge
      · rw [setValue_of_ne _ hkey]
        exact ⟨current, hcurrent, rfl, rfl, rfl⟩

theorem roundsKept (h : Effect accepts values command values')
    (hchecked : ∀ c current, accepts c current → checkTransition c current = .ok ()) :
    RoundsKept values values' := by
  have hsame {v : UUID × UUID → Option SessionLifecycle} {key : UUID × UUID}
      {current next : SessionLifecycle} (hnext : v key = some next)
      (hround : next.round = current.round) : ∃ next, v key = some next
        ∧ current.round ≤ next.round ∧ next.round ≤ current.round + 1
        ∧ (next.round ≠ current.round → next.state = .running ∧ current.state ≠ .running) :=
    ⟨next, hnext, hround.ge, by omega, fun hne => absurd hround hne⟩
  intro key current hcurrent
  cases h with
  | nothing => exact hsame hcurrent rfl
  | addDraft hnone =>
    refine hsame ?_ rfl
    rw [setValue_of_ne _ fun hkey => ?_]
    · exact hcurrent
    · rw [hkey, hnone] at hcurrent
      cases hcurrent
  | @attachWorkflow workspaceId sessionId workflowId runId before hbefore =>
    by_cases hkey : key = (workspaceId, sessionId)
    · subst hkey
      obtain rfl := Option.some.inj (hbefore.symm.trans hcurrent)
      exact hsame (setValue_self _ _) rfl
    · refine hsame ?_ rfl
      rw [setValue_of_ne _ hkey, hcurrent]
  | @transition c before hbefore haccepts =>
    by_cases hkey : key = c.key
    · subst hkey
      obtain rfl := Option.some.inj (hbefore.symm.trans hcurrent)
      rcases checkTransition_ok (hchecked c before haccepts) with ⟨-, hround⟩ | ⟨hne, -, hle, hlt, hrunning⟩
      · exact hsame (setValue_self _ _) hround
      · refine ⟨_, setValue_self _ _, hle, hlt, fun hround => ?_⟩
        have htarget := hrunning hround
        exact ⟨htarget, fun hstate => hne (hstate.trans htarget.symm)⟩
    · refine hsame ?_ rfl
      rw [setValue_of_ne _ hkey, hcurrent]

variable {L : Type} (append : LedgerAppend → L → Py Unit × L)

/-- Whatever happens, a session that has ended stays as it was. -/
def TerminationFinal {ω : Type} (exec : LifecycleCommand → LifecycleState L → ω × LifecycleState L)
    (s : LifecycleState L) (calls : List LifecycleCommand) : Prop :=
  ∀ earlier middle later, calls = earlier ++ middle ++ later →
    EndKept (after exec s earlier).values (after exec s (earlier ++ middle)).values

/-- **Termination.**  In every run rounds are right, and a session that has ended keeps its state, its
    round and its end exactly when no event is accepted in its last state at another time. -/
theorem termination_final_iff (s : LifecycleState L) (calls : List LifecycleCommand) :
    (TerminationFinal (inMemory append) s calls ↔ Along (inMemory append)
        (fun s command => ¬ MovesEnd (Accepts append s) s.values command) s calls)
      ∧ (TerminationFinal (sql append) s calls ↔ Along (sql append)
        (fun s command => ¬ MovesEnd (fun c current => Accepts append s c current
          ∧ (current.moved c).Consistent) s.values command) s calls)
      ∧ Along (inMemory append)
        (fun s command => RoundsKept s.values (inMemory append command s).2.values) s calls
      ∧ Along (sql append)
        (fun s command => RoundsKept s.values (sql append command s).2.values) s calls := by
  refine ⟨?_, ?_, along_of_forall (fun s command => ?_) s calls,
    along_of_forall (fun s command => ?_) s calls⟩
  · refine (forall_middle_iff_along (R := fun s s' => EndKept s.values s'.values)
      (fun s => endKept_refl _) fun _ _ _ => EndKept.trans).trans (along_congr (fun s command => ?_) s calls)
    exact endKept_iff (inMemory_effect command) fun _ _ h => h.checked
  · refine (forall_middle_iff_along (R := fun s s' => EndKept s.values s'.values)
      (fun s => endKept_refl _) fun _ _ _ => EndKept.trans).trans (along_congr (fun s command => ?_) s calls)
    exact endKept_iff (sql_effect command) fun _ _ h => h.1.checked
  · exact roundsKept (inMemory_effect command) fun _ _ h => h.checked
  · exact roundsKept (sql_effect command) fun _ _ h => h.1.checked

end Final

/-! ### An event after the end -/

/-- Ids that differ in the last digit. -/
theorem canonical_digit : ∀ digit : Fin 10,
    isCanonicalUuid ("00000000-0000-0000-0000-00000000000".push (Nat.digitChar digit)) = true := by
  decide +kernel

def sampleId (digit : Fin 10) : UUID where
  text := "00000000-0000-0000-0000-00000000000".push (Nat.digitChar digit)
  canonical := canonical_digit digit

theorem sampleId_injective : Function.Injective sampleId := by
  have hdigit : ∀ m < 10, ∀ n < 10, Nat.digitChar m = Nat.digitChar n → m = n := by decide
  have hlast : ∀ i, (sampleId i).text.toList.getLast? = some (Nat.digitChar i) := by
    intro i
    unfold sampleId
    rw [String.toList_push, List.getLast?_concat]
  intro i j h
  refine Fin.ext (hdigit i i.isLt j j.isLt ?_)
  rw [← Option.some.injEq, ← hlast, ← hlast, h]

theorem validMinute : ∀ minute : Fin 60, 12 < 24 ∧ (minute : ℕ) < 60 ∧ 0 < 60 ∧ 0 < 1000000 := by
  decide +kernel

def noon (minute : Fin 60) : Datetime :=
  ⟨⟨2026, 9, 5, valid2026, validSeptember, validFifth⟩, 12, minute, 0, 0, validMinute minute⟩

def sampleEvent (digit : Fin 10) : LedgerAppend where
  id := sampleId digit
  workspaceId := sampleId 0
  sessionId := sampleId 0
  eventType := ⟨"SESSION_FAILED", by decide⟩
  payloadSchemaVersion := 1
  causationId := none
  correlationId := sampleId 0
  actorClass := .service
  actorId := sampleId 0
  round := 0
  payload := ⟨[], .refl true, .refl true⟩
  recordedAt := noon (digit.castLE (by decide))
  positive_version := Nat.one_pos

/-- An event of the first round. -/
def sampleTransition (source target : SessionLifecycleState) (digit : Fin 10) : SessionTransition where
  source := source
  target := target
  round := 0
  event := sampleEvent digit
  allowSameState := true
  event_round := rfl
  same_state _ := rfl

/-- A ledger that takes every event. -/
def anyEvent : LedgerAppend → Unit → Py Unit × Unit := fun _ l => (.ok (), l)

def noSessions : LifecycleState Unit := ⟨(), fun _ => none⟩

def failedTwice : List LifecycleCommand :=
  [.addDraft (sampleId 0) (sampleId 0) (noon 0), .transition (sampleTransition .draft .failed 1),
    .transition (sampleTransition .failed .failed 2)]

def sampleDraft : SessionLifecycle where
  workspaceId := sampleId 0
  sessionId := sampleId 0
  createdAt := noon 0
  updatedAt := noon 0

/-- A session that has failed takes another failure, and with it another end. -/
theorem termination_not_final : ¬ TerminationFinal (inMemory anyEvent) noSessions failedTwice := by
  intro h
  let failed := sampleDraft.moved (sampleTransition .draft .failed 1)
  have hfirst : (after (inMemory anyEvent) noSessions (failedTwice.take 2)).values
      (sampleId 0, sampleId 0) = some failed := by decide +kernel
  have hsecond : (after (inMemory anyEvent) noSessions (failedTwice.take 2 ++ failedTwice.drop 2)).values
      (sampleId 0, sampleId 0) = some (failed.moved (sampleTransition .failed .failed 2)) := by
    decide +kernel
  obtain ⟨next, hnext, -, -, hended⟩ := h (failedTwice.take 2) (failedTwice.drop 2) [] rfl _ failed hfirst rfl
  obtain rfl := Option.some.inj (hsecond.symm.trans hnext)
  revert hended
  decide +kernel

end Agora.Session
