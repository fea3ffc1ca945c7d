import Agora.Session.Lifecycle

namespace Agora.Session

open Ledger (LedgerAppend)
open Stateful SessionLifecycleState

/-!
# What a lifecycle command does

One command changes at most one projection, and `Effect` says how.  Both stores have such effects
(`inMemory_effect`, `sql_effect`); they differ in the transitions that they accept.
-/

/-- What a command does to the projections.  A transition has an effect when it is accepted. -/
inductive Effect (accepts : SessionTransition → SessionLifecycle → Prop)
    (values : UUID × UUID → Option SessionLifecycle) :
    LifecycleCommand → (UUID × UUID → Option SessionLifecycle) → Prop
  | nothing {command : LifecycleCommand} :
      (∀ c current, command = .transition c → values c.key = some current → ¬ accepts c current) →
      Effect accepts values command values
  | addDraft {workspaceId sessionId : UUID} {createdAt : Datetime} :
      values (workspaceId, sessionId) = none →
      Effect accepts values (.addDraft workspaceId sessionId createdAt)
        (setValue (workspaceId, sessionId)
          { workspaceId, sessionId, createdAt, updatedAt := createdAt } values)
  | attachWorkflow {workspaceId sessionId : UUID} {workflowId runId : String}
      {current : SessionLifecycle} : values (workspaceId, sessionId) = some current →
      Effect accepts values (.attachWorkflow workspaceId sessionId workflowId runId)
        (setValue (workspaceId, sessionId)
          { current with workflowId := some workflowId, runId := some runId } values)
  | transition {c : SessionTransition} {current : SessionLifecycle} : values c.key = some current →
      accepts c current → Effect accepts values (.transition c)
        (setValue c.key (current.moved c) values)

/-- Other commands than transitions may do nothing at any time. -/
theorem Effect.keep {accepts : SessionTransition → SessionLifecycle → Prop}
    {values values' : UUID × UUID → Option SessionLifecycle} {command : LifecycleCommand}
    (hcommand : ∀ c, command ≠ .transition c) (hvalues : values' = values) :
    Effect accepts values command values' := by
  rw [hvalues]
  exact .nothing fun c _ hc => absurd hc (hcommand c)

section Effects

variable {L : Type} (append : LedgerAppend → L → Py Unit × L)

/-- A transition that is not a repetition, valid, and taken by the ledger. -/
structure Accepts (s : LifecycleState L) (c : SessionTransition) (current : SessionLifecycle) :
    Prop where
  fresh : ¬ c.isRepeated current
  checked : checkTransition c current = .ok ()
  appended : (append c.event s.ledger).1 = .ok ()

variable {append} {s : LifecycleState L} {c : SessionTransition} {current : SessionLifecycle}

/-- A transition that is not accepted raises before it writes. -/
theorem checked_append {α : Type} (k : Stateful (LifecycleState L) PyException α)
    (hfresh : ¬ c.isRepeated current) :
    (Accepts append s c current ∧ ((do
        lift (checkTransition c current)
        appendEvent append c.event
        k) : Stateful (LifecycleState L) PyException α) s
          = k { s with ledger := (append c.event s.ledger).2 })
      ∨ (¬ Accepts append s c current ∧ ∃ e s', ((do
        lift (checkTransition c current)
        appendEvent append c.event
        k) : Stateful (LifecycleState L) PyException α) s = (.error e, s') ∧ s'.values = s.values) := by
  simp only [bind_apply, lift_apply]
  cases hcheck : checkTransition c current with
  | error e =>
    refine .inr ⟨fun h => ?_, e, s, rfl, rfl⟩
    have hchecked := h.checked
    rw [hcheck] at hchecked
    cases hchecked
  | ok u =>
    rw [andThen_ok, bind_apply, appendEvent]
    cases happend : (append c.event s.ledger).1 with
    | error e =>
      refine .inr ⟨fun h => ?_, e, _, rfl, rfl⟩
      have happended := h.appended
      rw [happend] at happended
      cases happended
    | ok u => exact .inl ⟨⟨hfresh, hcheck, happend⟩, rfl⟩

/-- **In memory.**  Every transition that is checked and appended has its effect. -/
theorem inMemory_effect (command : LifecycleCommand) :
    Effect (Accepts append s) s.values command (inMemory append command s).2.values := by
  cases command with
  | addDraft workspaceId sessionId createdAt =>
    simp only [inMemory, bind_apply, read_apply, andThen_ok]
    cases hvalue : s.values (workspaceId, sessionId) with
    | some value => exact .keep (fun c h => nomatch h) rfl
    | none =>
      simp only [bind_apply, write_apply, andThen_ok, pure_apply]
      exact .addDraft hvalue
  | attachWorkflow workspaceId sessionId workflowId runId =>
    simp only [inMemory]
    split
    · exact .keep (fun c h => nomatch h) rfl
    simp only [bind_apply, read_apply, andThen_ok]
    cases hvalue : s.values (workspaceId, sessionId) with
    | none => exact .keep (fun c h => nomatch h) rfl
    | some value =>
      dsimp only
      split
      · exact .keep (fun c h => nomatch h) rfl
      · simp only [bind_apply, write_apply, andThen_ok, pure_apply]
        exact .attachWorkflow hvalue
  | transition c =>
    simp only [inMemory, bind_apply, read_apply, andThen_ok]
    cases hvalue : s.values c.key with
    | none =>
      refine .nothing fun c' current h hcurrent => ?_
      · obtain rfl := LifecycleCommand.transition.inj h
        rw [hvalue] at hcurrent
        cases hcurrent
    | some current =>
      have honly {P : SessionTransition → SessionLifecycle → Prop} (h : ¬ P c current) :
          ∀ c' current', LifecycleCommand.transition c = .transition c' →
            s.values c'.key = some current' → ¬ P c' current' := by
        intro c' current' hc hcurrent
        obtain rfl := LifecycleCommand.transition.inj hc
        obtain rfl := Option.some.inj (hvalue.symm.trans hcurrent)
        exact h
      dsimp only
      by_cases hrepeated : c.isRepeated current
      · rw [if_pos hrepeated, bind_apply, appendEvent]
        have hnothing := honly (P := Accepts append s) fun h => h.fresh hrepeated
        cases (append c.event s.ledger).1 <;> exact .nothing hnothing
      · rw [if_neg hrepeated]
        rcases checked_append (do
          write (LifecycleState.set c.key (current.moved c))
          pure (current.moved c)) hrepeated with ⟨haccepts, heq⟩ | ⟨hrejects, e, s', heq, hs'⟩
        · rw [heq]
          exact .transition hvalue haccepts
        · rw [heq, hs']
          exact .nothing (honly hrejects)

/-- A transaction that writes a row and then reads it keeps it if it is consistent. -/
theorem rollback_projection (key : UUID × UUID) (row : SessionLifecycle) (before s : LifecycleState L)
    {x : Stateful (LifecycleState L) PyException SessionLifecycle}
    (hx : x before = (do
      write (LifecycleState.set key row)
      lift (projection row) : Stateful (LifecycleState L) PyException SessionLifecycle) s) :
    (row.Consistent ∧ (rollback x before).2.values = setValue key row s.values)
      ∨ (¬ row.Consistent ∧ (rollback x before).2.values = before.values) := by
  rw [bind_apply, write_apply, andThen_ok, lift_apply, projection] at hx
  cases hrow : row.consistentProjection with
  | ok u =>
    rw [hrow] at hx
    exact .inl ⟨SessionLifecycle.consistentProjection_eq_ok.mp hrow, by rw [rollback_ok hx]; rfl⟩
  | error e =>
    rw [hrow] at hx
    refine .inr ⟨fun h => ?_, by rw [rollback_error (congrArg Prod.fst hx)]⟩
    rw [SessionLifecycle.consistentProjection_eq_ok.mpr h] at hrow
    cases hrow

theorem rollback_values {x : Stateful (LifecycleState L) PyException SessionLifecycle}
    (hx : (x s).2.values = s.values) : (rollback x s).2.values = s.values := by
  unfold rollback
  split
  · rename_i heq
    rw [heq] at hx
    exact hx
  · rfl

/-- **In the database.**  The new row has to be consistent too. -/
theorem sql_effect (command : LifecycleCommand) :
    Effect (fun c current => Accepts append s c current ∧ (current.moved c).Consistent) s.values
      command (sql append command s).2.values := by
  have hraised {command : LifecycleCommand} {e : PyException}
      (h : (sqlStatements append command s).1 = .error e) : (sql append command s).2.values = s.values := by
    rw [sql, rollback_error h]
  cases command with
  | addDraft workspaceId sessionId createdAt =>
    cases hvalue : s.values (workspaceId, sessionId) with
    | some value =>
      refine .keep (fun c h => nomatch h)
        (hraised (e := .runtimeError "duplicate key value violates unique constraint") ?_)
      simp only [sqlStatements, bind_apply, read_apply, andThen_ok, hvalue, raise_apply]
    | none =>
      rcases rollback_projection (x := sqlStatements append (.addDraft workspaceId sessionId createdAt))
        (workspaceId, sessionId) { workspaceId, sessionId, createdAt, updatedAt := createdAt } s s
        (by simp only [sqlStatements, bind_apply, read_apply, andThen_ok, hvalue]) with
        ⟨-, hset⟩ | ⟨-, hkept⟩
      · rw [sql, hset]
        exact .addDraft hvalue
      · exact .keep (fun c h => nomatch h) hkept
  | attachWorkflow workspaceId sessionId workflowId runId =>
    by_cases hblank : isBlank workflowId = true ∨ isBlank runId = true
    · refine .keep (fun c h => nomatch h)
        (hraised (e := .valueError "workflow_id and run_id must not be blank") ?_)
      simp only [sqlStatements, if_pos hblank, raise_apply]
    cases hvalue : s.values (workspaceId, sessionId) with
    | none =>
      refine .keep (fun c h => nomatch h) (hraised (e := invalidSessionTransition ("session "
        ++ sessionId.text ++ " has no lifecycle in workspace " ++ workspaceId.text)) ?_)
      simp only [sqlStatements, if_neg hblank, bind_apply, read_apply, andThen_ok, hvalue, raise_apply]
    | some row =>
      by_cases hattached : row.workflowId ≠ none
      · -- Nothing is written for a session that has a workflow.
        refine .keep (fun c h => nomatch h) (rollback_values ?_)
        simp only [sqlStatements, if_neg hblank, bind_apply, read_apply, andThen_ok, hvalue,
          if_pos hattached]
        split <;> rfl
      · rcases rollback_projection
          (x := sqlStatements append (.attachWorkflow workspaceId sessionId workflowId runId))
          (workspaceId, sessionId) { row with workflowId := some workflowId, runId := some runId } s s
          (by simp only [sqlStatements, if_neg hblank, bind_apply, read_apply, andThen_ok, hvalue,
            if_neg hattached]) with ⟨-, hset⟩ | ⟨-, hkept⟩
        · rw [sql, hset]
          exact .attachWorkflow hvalue
        · exact .keep (fun c h => nomatch h) hkept
  | transition c =>
    have hkeep (hvalues : (sql append (.transition c) s).2.values = s.values)
        (hrejects : ∀ current, s.values c.key = some current →
          ¬ (Accepts append s c current ∧ (current.moved c).Consistent)) :
        Effect (fun c current => Accepts append s c current ∧ (current.moved c).Consistent) s.values
          (.transition c) (sql append (.transition c) s).2.values := by
      rw [hvalues]
      refine .nothing fun c' current h hcurrent => ?_
      obtain rfl := LifecycleCommand.transition.inj h
      exact hrejects current hcurrent
    cases hvalue : s.values c.key with
    | none =>
      refine hkeep (hraised (e := invalidSessionTransition ("session " ++ c.event.sessionId.text
        ++ " has no lifecycle in workspace " ++ c.event.workspaceId.text)) ?_) fun current hcurrent => ?_
      · simp only [sqlStatements, bind_apply, read_apply, andThen_ok, hvalue, raise_apply]
      · rw [hvalue] at hcurrent
        cases hcurrent
    | some current =>
      have hbody : sqlStatements append (.transition c) s = (if c.isRepeated current then do
          appendEvent append c.event
          lift (projection current)
        else do
          lift (checkTransition c current)
          appendEvent append c.event
          write (LifecycleState.set c.key (current.moved c))
          lift (projection (current.moved c)) :
            Stateful (LifecycleState L) PyException SessionLifecycle) s := by
        simp only [sqlStatements, bind_apply, read_apply, andThen_ok, hvalue]
      have honly (h : ¬ (Accepts append s c current ∧ (current.moved c).Consistent)) :
          ∀ current', s.values c.key = some current' →
            ¬ (Accepts append s c current' ∧ (current'.moved c).Consistent) := by
        intro current' hcurrent
        obtain rfl := Option.some.inj (hvalue.symm.trans hcurrent)
        exact h
      by_cases hrepeated : c.isRepeated current
      · rw [if_pos hrepeated, bind_apply, appendEvent] at hbody
        refine hkeep (rollback_values ?_) (honly fun h => h.1.fresh hrepeated)
        rw [hbody]
        cases (append c.event s.ledger).1 <;> rfl
      · rw [if_neg hrepeated] at hbody
        rcases checked_append (s := s) (do
          write (LifecycleState.set c.key (current.moved c))
          lift (projection (current.moved c))) hrepeated with ⟨haccepts, heq⟩ | ⟨hrejects, e, s', heq, -⟩
        · rcases rollback_projection c.key (current.moved c) s _ (hbody.trans heq) with
            ⟨hconsistent, hset⟩ | ⟨hinconsistent, hkept⟩
          · rw [sql, hset]
            exact .transition hvalue ⟨haccepts, hconsistent⟩
          · exact hkeep hkept (honly fun h => hinconsistent h.2)
        · exact hkeep (hraised (congrArg Prod.fst (hbody.trans heq))) (honly fun h => hrejects h.1)

/-- **Ledger.**  A command appends the event of its transition, or nothing. -/
theorem sql_ledger (append : LedgerAppend → L → Py Unit × L) (command : LifecycleCommand)
    (s : LifecycleState L) : (sql append command s).2.ledger = s.ledger
      ∨ ∃ c, command = .transition c ∧ (sql append command s).2.ledger = (append c.event s.ledger).2 := by
  have hstatements : (sqlStatements append command s).2.ledger = s.ledger
      ∨ ∃ c, command = .transition c
        ∧ (sqlStatements append command s).2.ledger = (append c.event s.ledger).2 := by
    cases command with
    | addDraft workspaceId sessionId createdAt =>
      left
      simp only [sqlStatements, bind_apply, read_apply, andThen_ok]
      cases s.values (workspaceId, sessionId) <;> rfl
    | attachWorkflow workspaceId sessionId workflowId runId =>
      left
      simp only [sqlStatements]
      split_ifs
      · rfl
      simp only [bind_apply, read_apply, andThen_ok]
      cases s.values (workspaceId, sessionId) with
      | none => rfl
      | some row =>
        dsimp only
        split_ifs <;> rfl
    | transition c =>
      simp only [sqlStatements, bind_apply, read_apply, andThen_ok]
      cases s.values c.key with
      | none => exact .inl rfl
      | some current =>
        dsimp only
        split_ifs
        · -- A repeated event goes to the ledger again.
          rw [bind_apply, appendEvent]
          refine .inr ⟨c, rfl, ?_⟩
          cases (append c.event s.ledger).1 <;> rfl
        · rw [bind_apply, lift_apply]
          cases checkTransition c current with
          | error e => exact .inl rfl
          | ok u =>
            rw [andThen_ok, bind_apply, appendEvent]
            refine .inr ⟨c, rfl, ?_⟩
            cases (append c.event s.ledger).1 <;> rfl
  rcases rollback_cases (sqlStatements append command) s with ⟨a, s', hrun, hrollback⟩ | ⟨e, -, hrollback⟩
  · rw [sql, hrollback]
    rwa [hrun] at hstatements
  · rw [sql, hrollback]
    exact .inl rfl

/-- **Rounds.**  A command that is checked does not lower the round of a session. -/
theorem Effect.exists_round {accepts : SessionTransition → SessionLifecycle → Prop}
    {values values' : UUID × UUID → Option SessionLifecycle} {command : LifecycleCommand}
    (h : Effect accepts values command values')
    (haccepts : ∀ c current, accepts c current → checkTransition c current = .ok ()) {key : UUID × UUID}
    {value : SessionLifecycle} (hvalue : values key = some value) :
    ∃ value', values' key = some value' ∧ value.round ≤ value'.round := by
  have hset {changed : UUID × UUID} {new : SessionLifecycle}
      (hle : ∀ old, values changed = some old → old.round ≤ new.round) :
      ∃ value', setValue changed new values key = some value' ∧ value.round ≤ value'.round := by
    unfold setValue
    split
    · next heq =>
      subst heq
      exact ⟨new, rfl, hle value hvalue⟩
    · exact ⟨value, hvalue, le_rfl⟩
  cases h with
  | nothing _ => exact ⟨value, hvalue, le_rfl⟩
  | addDraft hnew =>
    apply hset
    intro old hold
    rw [hnew] at hold
    cases hold
  | attachWorkflow hcurrent =>
    apply hset
    intro old hold
    obtain rfl := Option.some.inj (hcurrent.symm.trans hold)
    exact le_rfl
  | transition hcurrent hok =>
    apply hset
    intro old hold
    obtain rfl := Option.some.inj (hcurrent.symm.trans hold)
    have hcheck := haccepts _ _ hok
    unfold checkTransition at hcheck
    split_ifs at hcheck
    rcases validateSessionTransition_ok hcheck with ⟨-, hsame⟩ | ⟨-, -, hle, -⟩
    · exact hsame.ge
    · exact hle

end Effects

end Agora.Session
