import Agora.Coordinator.Budget
import Agora.Ledger.Idempotence
import Mathlib.Tactic.NormNum

namespace Agora.Coordinator

open Ledger (LedgerAppend LedgerState Database)
open Session (SessionLifecycle LifecycleState)
open Stateful

/-!
# Runs of dispatches

All calls are for one session, and usage is recorded before, between and inside them.  The session is as
it was at the start until a check ends it, with one event; from then on every call raises and the inner
dispatcher is not called (`budgets_stop_dispatch`).
-/

section Runs

variable {Ω : Type} (store : LifecycleStore) (db : Database) (tables : BudgetTables)

/-! ### What is required of a call -/

/-- The state that the first check of a call sees. -/
def usedBefore (s : DispatchState) (call : DispatchCall Ω) : DispatchState := s.record call.recorded

/-- The state that the second check sees: the inner dispatcher was called. -/
def usedInside (s : DispatchState) (call : DispatchCall Ω) : DispatchState :=
  ((usedBefore s call).innerCalled call.request.contexts).record call.inner.recorded

/-- Nothing is reached in a state. -/
def Unreached (check : BudgetCheck) (s : DispatchState) : Prop :=
  NothingReached tables s.budget.calls check.workspaceId check.sessionId check.agentDefinitionIds

/-- A call while the session is live.  The inner dispatcher is called when the first check returns, and
    its outcomes are returned when the second one does. -/
structure OpenCall (check : BudgetCheck) (lifecycle : SessionLifecycle) (s : DispatchState)
    (call : DispatchCall Ω) : Prop where
  before : Enforced store db tables check lifecycle (usedBefore s call).budget
  inside : Enforced store db tables check lifecycle (usedInside s call).budget
  blocked : ∀ e t, enforce store db tables check (usedBefore s call).budget = (.error e, t) →
    perform store db tables call s = (.error e, { usedBefore s call with budget := t })
  raises : Unreached tables check (usedBefore s call) → ∀ e, call.inner.answer = .error e →
    perform store db tables call s = (.error (.raised e), usedInside s call)
  returns : Unreached tables check (usedBefore s call) → ∀ outcomes, call.inner.answer = .ok outcomes →
    Unreached tables check (usedInside s call) →
      perform store db tables call s = (.ok outcomes, usedInside s call)
  stopped : Unreached tables check (usedBefore s call) → ∀ outcomes, call.inner.answer = .ok outcomes →
    ∀ e t, enforce store db tables check (usedInside s call).budget = (.error e, t) →
      perform store db tables call s = (.error e, { usedInside s call with budget := t })

/-- A check has ended the session that was live at the start. -/
structure EndedBy (key : UUID × UUID) (lifecycle : SessionLifecycle) (start : LifecycleState LedgerState)
    (check : BudgetCheck) (b : Breach) (s : DispatchState) : Prop where
  key : check.key = key
  fits : Fits store db start.ledger check lifecycle b
  ended : Ended check lifecycle b start s.budget.sessions

/-- A call of a run. -/
structure CallCorrect (key : UUID × UUID) (lifecycle : SessionLifecycle)
    (start : LifecycleState LedgerState) (s : DispatchState) (call : DispatchCall Ω) : Prop where
  empty : call.request.contexts = [] → perform store db tables call s
    = (.error (.raised (.valueError "dispatch requires at least one logical turn")), usedBefore s call)
  reached : s.budget.sessions = start ∨ ∃ check b, EndedBy store db key lifecycle start check b s
  opened : s.budget.sessions = start → ∀ first ∈ call.request.contexts.head?,
    OpenCall store db tables (call.request.check first) lifecycle s call
  closed : ∀ check b, EndedBy store db key lifecycle start check b s →
    ∀ first ∈ call.request.contexts.head?, perform store db tables call s
      = (.error (if call.request.budgetEventId = check.eventId then
          .exhausted (failedBy check lifecycle)
        else .invalidSessionTransition "session is already terminal"), usedBefore s call)

/-- All turns of the call are of the session. -/
def OfSession (key : UUID × UUID) (call : DispatchCall Ω) : Prop :=
  ∀ first ∈ call.request.contexts.head?, (first.workspaceId, first.sessionId) = key

/-! ### One call -/

variable {store db tables} {key : UUID × UUID} {lifecycle : SessionLifecycle}
  {start : LifecycleState LedgerState} {s : DispatchState} {call : DispatchCall Ω} {first : TurnIdentity}

theorem enforced_apply (check : BudgetCheck) (s : DispatchState) : enforced store db tables check s
    = ((enforce store db tables check s.budget).1,
      { s with budget := (enforce store db tables check s.budget).2 }) := rfl

/-- The call checks, calls, and checks again. -/
theorem perform_cons {rest : List TurnIdentity} (hcontexts : call.request.contexts = first :: rest) :
    perform store db tables call s
      = (do
          enforced store db tables (call.request.check first)
          write (DispatchState.innerCalled call.request.contexts)
          write (DispatchState.record call.inner.recorded)
          let outcomes ← lift (call.inner.answer.mapError .raised)
          enforced store db tables (call.request.check first)
          pure outcomes : Stateful DispatchState BudgetError Ω) (usedBefore s call) := by
  unfold perform dispatch usedBefore
  rw [hcontexts]

theorem openCall_of_live {rest : List TurnIdentity} (hcontexts : call.request.contexts = first :: rest)
    (hvalue : s.budget.sessions.values (call.request.check first).key = some lifecycle)
    (hlive : Live store lifecycle) :
    OpenCall store db tables (call.request.check first) lifecycle s call := by
  have hrun := @perform_cons Ω store db tables s call first rest hcontexts
  have hbefore : Enforced store db tables (call.request.check first) lifecycle (usedBefore s call).budget :=
    enforced_of_live hvalue hlive
  have hinside : Enforced store db tables (call.request.check first) lifecycle (usedInside s call).budget :=
    enforced_of_live hvalue hlive
  -- After the first check has returned.
  have hpassed (h : Unreached tables (call.request.check first) (usedBefore s call)) :
      perform store db tables call s = (do
          let outcomes ← lift (call.inner.answer.mapError .raised)
          enforced store db tables (call.request.check first)
          pure outcomes : Stateful DispatchState BudgetError Ω) (usedInside s call) := by
    have hok := hbefore.returns.mp h
    rw [hrun, bind_apply, enforced_apply, hok, hbefore.quiet hok]
    rfl
  refine ⟨hbefore, hinside, fun e t h => ?_, fun h e he => ?_, fun h outcomes ho hafter => ?_,
    fun h outcomes ho e t hafter => ?_⟩
  · rw [hrun, bind_apply, enforced_apply, h]
    rfl
  · rw [hpassed h, he]
    rfl
  · have hok := hinside.returns.mp hafter
    rw [hpassed h, ho]
    show andThen _ (enforced store db tables (call.request.check first) (usedInside s call)) = _
    rw [enforced_apply, hok, hinside.quiet hok]
    rfl
  · rw [hpassed h, ho]
    show andThen _ (enforced store db tables (call.request.check first) (usedInside s call)) = _
    rw [enforced_apply, hafter]
    rfl

theorem failedBy_consistent {check : BudgetCheck} {b : Breach} (hlive : Live store lifecycle)
    (hfits : Fits store db start.ledger check lifecycle b) :
    store = .sqlAlchemy → (failedBy check lifecycle).Consistent := by
  intro hstore
  obtain ⟨payload, -, -, hintime⟩ := hfits
  exact (consistent_failedBy (hlive.consistent hstore)).mpr (hintime hstore)

/-- A call for a session that has ended: the first check raises. -/
theorem perform_closed {rest : List TurnIdentity} {check : BudgetCheck} {b : Breach}
    (hcontexts : call.request.contexts = first :: rest) (hlive : Live store lifecycle)
    (hkey : (call.request.check first).key = key)
    (hended : EndedBy store db key lifecycle start check b s) :
    perform store db tables call s
      = (.error (if call.request.budgetEventId = check.eventId then .exhausted (failedBy check lifecycle)
        else .invalidSessionTransition "session is already terminal"), usedBefore s call) := by
  have hvalue : (usedBefore s call).budget.sessions.values (call.request.check first).key
      = some (failedBy check lifecycle) := by
    show s.budget.sessions.values _ = _
    rw [hended.ended.values, hkey, ← hended.key]
    exact Session.setValue_self _ _
  have hstop := @enforce_ended store db tables (call.request.check first) (usedBefore s call).budget _ hvalue
    rfl (failedBy_consistent hlive hended.fits)
  have hid : ((failedBy check lifecycle).lastEventId = some (call.request.check first).eventId)
      = (call.request.budgetEventId = check.eventId) := by
    show (some check.eventId = some call.request.budgetEventId) = _
    rw [Option.some.injEq]
    exact propext eq_comm
  rw [perform_cons hcontexts, bind_apply, enforced_apply, hstop]
  simp only [hid, andThen_error]

/-! ### Every run -/

/-- The session is as it was, or a check has ended it. -/
def Stage (store : LifecycleStore) (db : Database) (key : UUID × UUID) (lifecycle : SessionLifecycle)
    (start : LifecycleState LedgerState) (s : DispatchState) : Prop :=
  s.budget.sessions = start ∨ ∃ check b, EndedBy store db key lifecycle start check b s

/-- A check leaves the sessions as they are, or ends the session. -/
theorem Enforced.stage {check : BudgetCheck} {t : BudgetState}
    (h : Enforced store db tables check lifecycle t) :
    (enforce store db tables check t).2.sessions = t.sessions
      ∨ ∃ b, Fits store db t.sessions.ledger check lifecycle b
        ∧ Ended check lifecycle b t.sessions (enforce store db tables check t).2.sessions := by
  rcases @breachOf_cases tables t.calls check.workspaceId check.sessionId check.agentDefinitionIds with
    ⟨-, hclear⟩ | ⟨b, -, hfirst⟩ | ⟨e, -, hfirst⟩
  · left
    rw [h.quiet (h.returns.mp hclear)]
  · by_cases hfits : Fits store db t.sessions.ledger check lifecycle b
    · obtain ⟨sessions, hended, hstop⟩ := h.stops b hfirst hfits
      refine .inr ⟨b, hfits, ?_⟩
      rw [hstop]
      exact hended
    · obtain ⟨e, hstop⟩ := h.refuses b hfirst hfits
      left
      rw [hstop]
  · left
    rw [h.unreadable e hfirst]

/-- **Calls.**  In every stage a call does what it should, and leads to a stage. -/
theorem call_correct (hlive : Live store lifecycle) (hstart : start.values key = some lifecycle)
    (hstage : Stage store db key lifecycle start s) (hone : OfSession key call) :
    CallCorrect store db tables key lifecycle start s call
      ∧ Stage store db key lifecycle start (perform store db tables call s).2 := by
  cases hcontexts : call.request.contexts with
  | nil =>
    have hempty : perform store db tables call s
        = (.error (.raised (.valueError "dispatch requires at least one logical turn")),
          usedBefore s call) := by
      unfold perform dispatch
      rw [hcontexts]
      rfl
    have hnone {first : TurnIdentity} (h : first ∈ call.request.contexts.head?) : False := by
      rw [hcontexts] at h
      cases h
    refine ⟨⟨fun _ => hempty, hstage, fun _ first h => (hnone h).elim,
      fun _ _ _ first h => (hnone h).elim⟩, ?_⟩
    rw [hempty]
    exact hstage.imp id fun ⟨check, b, h⟩ => ⟨check, b, h.key, h.fits, h.ended⟩
  | cons first rest =>
    have hkey : (call.request.check first).key = key := hone first (by rw [hcontexts]; rfl)
    have hfirst {other : TurnIdentity} (h : other ∈ call.request.contexts.head?) : other = first := by
      rw [hcontexts] at h
      exact (Option.some.inj h).symm
    have hopened (h : s.budget.sessions = start) :
        OpenCall store db tables (call.request.check first) lifecycle s call := by
      apply openCall_of_live hcontexts _ hlive
      rw [h, hkey]
      exact hstart
    have hclosed {check : BudgetCheck} {b : Breach} (h : EndedBy store db key lifecycle start check b s) :=
      @perform_closed Ω store db tables key lifecycle start s call first rest check b hcontexts hlive hkey h
    refine ⟨⟨fun h => ?_, hstage, fun h other hother => ?_, fun check b h other hother => hclosed h⟩, ?_⟩
    · rw [hcontexts] at h
      cases h
    · rw [hfirst hother]
      exact hopened h
    rcases hstage with hsame | ⟨check, b, hended⟩
    · -- The stage follows the check that decided, the first or the second one.
      have hcall := hopened hsame
      have hstages {t : DispatchState} (hsessions : t.budget.sessions = start)
          (henforced : Enforced store db tables (call.request.check first) lifecycle t.budget) :
          Stage store db key lifecycle start
            { t with budget := (enforce store db tables (call.request.check first) t.budget).2 } := by
        rcases henforced.stage with hkept | ⟨b, hfits, hended⟩
        · exact .inl (hkept.trans hsessions)
        · rw [hsessions] at hfits hended
          exact .inr ⟨_, b, hkey, hfits, hended⟩
      cases hchecked : (enforce store db tables (call.request.check first) (usedBefore s call).budget).1 with
      | error e =>
        rw [hcall.blocked e _ (Prod.ext hchecked rfl)]
        exact @hstages (usedBefore s call) hsame hcall.before
      | ok u =>
        have hclear : Unreached tables (call.request.check first) (usedBefore s call) :=
          hcall.before.returns.mpr hchecked
        cases hanswer : call.inner.answer with
        | error e =>
          rw [hcall.raises hclear e hanswer]
          exact .inl hsame
        | ok outcomes =>
          cases hagain : (enforce store db tables (call.request.check first)
              (usedInside s call).budget).1 with
          | error e =>
            rw [hcall.stopped hclear outcomes hanswer e _ (Prod.ext hagain rfl)]
            exact @hstages (usedInside s call) hsame hcall.inside
          | ok u =>
            rw [hcall.returns hclear outcomes hanswer (hcall.inside.returns.mpr hagain)]
            exact .inl hsame
    · rw [hclosed hended]
      exact .inr ⟨check, b, hended.key, hended.fits, hended.ended⟩

/-- **Budgets.**  In every run of dispatches of a live session the checks return exactly when no ceiling is
    reached; the first one that sees a reached ceiling and whose event fits ends the session with one
    event; and from then on no call writes to the sessions or the ledger, or calls the inner
    dispatcher. -/
theorem budgets_stop_dispatch (hlive : Live store lifecycle)
    (hstart : s.budget.sessions.values key = some lifecycle) (calls : List (DispatchCall Ω))
    (hone : ∀ call ∈ calls, OfSession key call) :
    Along (perform store db tables) (CallCorrect store db tables key lifecycle s.budget.sessions) s calls
      ∧ ∀ earlier later check b, calls = earlier ++ later →
        EndedBy store db key lifecycle s.budget.sessions check b
          (after (perform store db tables) s earlier) →
        (after (perform store db tables) s calls).budget.sessions
            = (after (perform store db tables) s earlier).budget.sessions
          ∧ (after (perform store db tables) s calls).dispatched
            = (after (perform store db tables) s earlier).dispatched := by
  have halong {t : DispatchState} {calls : List (DispatchCall Ω)}
      (hstage : Stage store db key lifecycle s.budget.sessions t)
      (hone : ∀ call ∈ calls, OfSession key call) :
      Along (perform store db tables) (CallCorrect store db tables key lifecycle s.budget.sessions) t calls
        ∧ Stage store db key lifecycle s.budget.sessions (after (perform store db tables) t calls) := by
    induction calls generalizing t with
    | nil => exact ⟨trivial, hstage⟩
    | cons call calls ih =>
      obtain ⟨hcall, hnext⟩ := call_correct hlive hstart hstage (hone call List.mem_cons_self)
      obtain ⟨hrest, hlast⟩ := ih hnext fun c hc => hone c (List.mem_cons_of_mem _ hc)
      exact ⟨⟨hcall, hrest⟩, hlast⟩
  have hfrozen {t : DispatchState} {calls : List (DispatchCall Ω)} {check : BudgetCheck} {b : Breach}
      (hended : EndedBy store db key lifecycle s.budget.sessions check b t)
      (hone : ∀ call ∈ calls, OfSession key call) :
      (after (perform store db tables) t calls).budget.sessions = t.budget.sessions
        ∧ (after (perform store db tables) t calls).dispatched = t.dispatched := by
    induction calls generalizing t with
    | nil => exact ⟨rfl, rfl⟩
    | cons call calls ih =>
      have hnext : (perform store db tables call t).2 = usedBefore t call := by
        obtain ⟨hcall, -⟩ := @call_correct Ω store db tables key lifecycle s.budget.sessions t call hlive
          hstart (.inr ⟨check, b, hended⟩) (hone call List.mem_cons_self)
        cases hcontexts : call.request.contexts with
        | nil => rw [hcall.empty hcontexts]
        | cons first rest => rw [hcall.closed check b hended first (by rw [hcontexts]; rfl)]
      rw [after_cons, hnext]
      have hkept : EndedBy store db key lifecycle s.budget.sessions check b (usedBefore t call) :=
        ⟨hended.key, hended.fits, hended.ended⟩
      exact ih hkept fun c hc => hone c (List.mem_cons_of_mem _ hc)
  refine ⟨(halong (.inl rfl) hone).1, ?_⟩
  rintro earlier later check b rfl hended
  rw [after_append]
  exact hfrozen hended fun c hc => hone c (List.mem_append_right _ hc)

end Runs

/-! ### Checks that neither return nor end the session -/

open Session (sampleId noon)

/-- A session of ten dollars and a thousand tokens, and an agent whose tokens are not a whole number. -/
def sampleBudgets : BudgetTables where
  sessions _ := some ⟨sampleId 0, 1000, 1000, by decide, by decide⟩
  agents _ := some ⟨sampleId 0, [("max_tokens", .float "1.5"), ("max_cost_usd", .str "1")]⟩

def runningSession : SessionLifecycle where
  workspaceId := sampleId 0
  sessionId := sampleId 1
  state := .running
  round := 1
  initializedAt := some (noon 1)
  startedAt := some (noon 1)
  createdAt := noon 1
  updatedAt := noon 1

theorem live_runningSession : Live .sqlAlchemy runningSession :=
  ⟨rfl, fun _ => ⟨rfl, le_rfl, nofun, fun _ => Option.some_ne_none _, fun _ => Option.some_ne_none _, rfl⟩⟩

def runningState (calls : List LLMCallRecord) : BudgetState where
  sessions := ⟨Ledger.genesis fun _ => some (sampleId 0), fun _ => some runningSession⟩
  calls

/-- A check of an agent at a time. -/
def sampleCheck (minute : Fin 60) : BudgetCheck where
  workspaceId := sampleId 0
  sessionId := sampleId 1
  agentDefinitionIds := [sampleId 2]
  eventId := sampleId 3
  correlationId := sampleId 4
  actorId := sampleId 5
  checkedAt := noon minute

/-- A call of a model that uses all tokens of the session. -/
def expensiveCall : LLMCallRecord where
  workspaceId := sampleId 0
  sessionId := some (sampleId 1)
  agentDefId := some (sampleId 2)
  inputTokens := 900
  outputTokens := 100
  costUnits := 200000000

def sampleDispatch : DispatchCall Unit where
  recorded := [expensiveCall]
  request := ⟨[⟨sampleId 0, sampleId 1, sampleId 2, sampleId 4⟩], sampleId 3, sampleId 5, noon 2⟩
  inner := ⟨[], .ok ()⟩

theorem budgets_stop_dispatch_sample :
    Along (perform .sqlAlchemy Ledger.unlimited sampleBudgets)
      (CallCorrect .sqlAlchemy Ledger.unlimited sampleBudgets (sampleId 0, sampleId 1) runningSession
        (runningState []).sessions)
      ⟨runningState [], []⟩ [sampleDispatch] := by
  refine (@budgets_stop_dispatch Unit .sqlAlchemy Ledger.unlimited sampleBudgets (sampleId 0, sampleId 1)
    runningSession ⟨runningState [], []⟩ live_runningSession rfl [sampleDispatch] ?_).1
  intro call hcall
  rw [List.mem_singleton.mp hcall]
  intro first hfirst
  obtain rfl := Option.some.inj hfirst
  rfl

/-- Nothing has been used and no ceiling is reached, but the check raises.  And the tokens of a session are
    used up, but a check that is earlier than the session leaves it running. -/
theorem check_neither_returns_nor_ends :
    ((∀ c ∈ sampleBudgets.sessionCeiling (sampleId 0) (sampleId 1),
          ¬ (usage [] (sampleId 0) (sampleId 1) none).Reaches c)
        ∧ (∀ c, sampleBudgets.agentCeiling (sampleId 0) (sampleId 2) ≠ .ok (some c))
        ∧ enforce .sqlAlchemy Ledger.unlimited sampleBudgets (sampleCheck 2) (runningState [])
          = (.error (.raised (.valueError "agent budget ceiling is invalid")), runningState []))
      ∧ (∃ c ∈ sampleBudgets.sessionCeiling (sampleId 0) (sampleId 1),
          (usage [expensiveCall] (sampleId 0) (sampleId 1) none).Reaches c)
      ∧ ∃ e, enforce .sqlAlchemy Ledger.unlimited sampleBudgets (sampleCheck 0)
          (runningState [expensiveCall]) = (.error (.raised e), runningState [expensiveCall]) := by
  have hsession : sampleBudgets.sessionCeiling (sampleId 0) (sampleId 1)
      = some ⟨1000, ⟨1000, -2⟩, by decide, by decide⟩ := rfl
  have hagent : sampleBudgets.agentCeiling (sampleId 0) (sampleId 2)
      = .error (.valueError "agent budget ceiling is invalid") := by rfl
  have hunused (c : BudgetCeiling) (hc : c ∈ sampleBudgets.sessionCeiling (sampleId 0) (sampleId 1)) :
      ¬ (usage [] (sampleId 0) (sampleId 1) none).Reaches c := by
    rw [hsession] at hc
    obtain rfl := Option.some.inj hc
    rintro (htokens | hcost)
    · revert htokens
      decide
    · have hcost : ((1000 : ℕ) : ℚ) * 10 ^ (-2 : ℤ) ≤ ((0 : ℕ) : ℚ) * 10 ^ (0 : ℤ) := hcost
      norm_num at hcost
  have hused : (usage [expensiveCall] (sampleId 0) (sampleId 1) none).Reaches
      ⟨1000, ⟨1000, -2⟩, by decide, by decide⟩ := by
    left
    decide +kernel
  refine ⟨⟨hunused, fun c hc => ?_, ?_⟩, ⟨_, hsession, hused⟩, ?_⟩
  · rw [hagent] at hc
    cases hc
  · have henforced := @enforced_of_live .sqlAlchemy Ledger.unlimited sampleBudgets (sampleCheck 2)
      runningSession (runningState []) rfl live_runningSession
    refine henforced.unreadable _ ⟨[none], some (sampleId 2), [], rfl, fun scope hscope => ?_, hagent⟩
    rw [List.mem_singleton.mp hscope]
    exact ⟨_, rfl, hunused⟩
  · have henforced := @enforced_of_live .sqlAlchemy Ledger.unlimited sampleBudgets (sampleCheck 0)
      runningSession (runningState [expensiveCall]) rfl live_runningSession
    refine henforced.refuses ⟨none, _, _⟩ ⟨[], [some (sampleId 2)], rfl, nofun,
      congrArg Except.ok hsession, rfl, hused⟩ ?_
    rintro ⟨payload, -, -, hintime⟩
    have hlate : ¬ noon 1 ≤ noon 0 := by decide +kernel
    exact hlate (hintime rfl).1

end Agora.Coordinator
