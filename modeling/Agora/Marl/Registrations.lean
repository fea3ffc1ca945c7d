import Agora.Marl.Totality
import Agora.Marl.Verified

namespace Agora.Marl

open Agora.Except (Raises)

/-!
# What the registered implementations do to a verification

The replay of a trajectory is a sequence of checks, and the first one that fails decides
(`replay_of_firstFailing`).  A registered implementation is asked in some of them and may raise
anything.  The replay catches its exception, as a failed replay, when it is a `ReferenceError` or a
`RuntimeError`; a `LookupError` is taken for a missing registration, and all others go through
(`verifyBundle_total_iff`).
-/

/-! ### Checks -/

/-- One step of the replay. -/
inductive Check where
  | missing (message : String)
  | misreferenced
  | asked (answer : Py Bool) (mismatch : String)
  | passed

/-- A registered implementation answers whether its result differs. -/
def Check.run : Check → Py Unit
  | .missing message => .error (.lookupError message)
  | .misreferenced => .error (.referenceError "feature source reference mismatch")
  | .asked answer mismatch => do
    let differs ← answer
    raiseIf differs (.runtimeError mismatch)
  | .passed => .ok ()

def featureCheck (registry : ImplementationRegistry) (o : MarlObservationV1)
    (feature : ObservationFeatureV1) : Check :=
  match registry.feature ⟨feature.content.featureId, feature.content.featureVersion⟩ with
  | none => .missing "unknown observation implementation"
  | some function =>
    match feature.content.sourceHashes with
    | [h] =>
      match dictGet (·.hash) o.content.sources h with
      | some source => .asked (function source.content.snapshot feature.content.value)
          "observation feature replay mismatch"
      | none => .misreferenced
    | _ => .misreferenced

def coordinatorCheck (registry : ImplementationRegistry) (boundary : DecisionBoundaryV1) : Check :=
  let decision := boundary.content.coordinatorDecision
  match registry.coordinator decision.content.coordinatorImplementation with
  | none => .missing "unknown coordinator implementation"
  | some coordinator => .asked (coordinator boundary decision) "coordinator replay mismatch"

def rewardCheck (registry : ImplementationRegistry) (reward : RewardComponentV1) : Check :=
  match registry.reward reward.content.rewardImplementation with
  | none => .missing "unknown reward implementation"
  | some function =>
    if reward.content.status = .observed then
      .asked (function reward.content.preMetricValue reward.content.postMetricValue
        reward.content.direction reward.content.rewardValue) "reward replay mismatch"
    else .passed

def creditCheck (registry : ImplementationRegistry) (credit : CreditAssignmentV1) : Check :=
  if registry.hasCredit credit.content.creditImplementation then .passed
  else .missing "unknown credit implementation"

/-- The checks of a transition, in order. -/
def checks (registry : ImplementationRegistry) (t : TransitionV1) : List Check :=
  let boundary := t.content.boundary
  [boundary.content.observation, t.content.postObservation].flatMap
      (fun o => o.content.features.map (featureCheck registry o))
    ++ coordinatorCheck registry boundary
    :: (t.content.rewards.map (rewardCheck registry) ++ t.content.credits.map (creditCheck registry))

/-- The first check of the replay that fails. -/
def firstFailing (registry : ImplementationRegistry) (transitions : List TransitionV1) :
    Option Check :=
  (transitions.flatMap (checks registry)).find? fun check => !check.run.isOk

/-! ### The replay is the checks -/

section Checks

variable {registry : ImplementationRegistry}

theorem run_featureCheck (o : MarlObservationV1) (feature : ObservationFeatureV1) :
    (featureCheck registry o feature).run = replayFeature registry o feature := by
  rw [featureCheck, replayFeature]
  cases registry.feature ⟨feature.content.featureId, feature.content.featureVersion⟩ with
  | none => rfl
  | some function =>
    rcases feature.content.sourceHashes with _ | ⟨h, _ | ⟨_, _⟩⟩
    · rfl
    · simp only
      cases dictGet (fun source : ObservationSourceV1 => source.hash) o.content.sources h <;> rfl
    · rfl

theorem run_rewardCheck (reward : RewardComponentV1) :
    (rewardCheck registry reward).run = replayReward registry reward := by
  rw [rewardCheck, replayReward]
  cases registry.reward reward.content.rewardImplementation with
  | none => rfl
  | some function =>
    simp only
    split <;> rfl

theorem run_creditCheck (credit : CreditAssignmentV1) :
    (creditCheck registry credit).run
      = raiseIf (!registry.hasCredit credit.content.creditImplementation)
        (.lookupError "unknown credit implementation") := by
  rw [creditCheck]
  cases registry.hasCredit credit.content.creditImplementation <;> rfl

theorem forM_append {α : Type} (f : α → Py Unit) (xs ys : List α) :
    forM (xs ++ ys) f = (do forM xs f; forM ys f) := by
  induction xs with
  | nil => rfl
  | cons x xs ih =>
    rw [List.cons_append, List.forM_cons, List.forM_cons, ih, bind_assoc]

theorem forM_map_run {α : Type} {f : α → Check} {g : α → Py Unit} (h : ∀ x, (f x).run = g x)
    (xs : List α) : forM (xs.map f) Check.run = forM xs g := by
  induction xs with
  | nil => rfl
  | cons x xs ih => rw [List.map_cons, List.forM_cons, List.forM_cons, ih, h]

theorem replayTransition_eq (t : TransitionV1) :
    replayTransition registry t = forM (checks registry t) Check.run := by
  have hfeatures (o : MarlObservationV1) :
      forM (o.content.features.map (featureCheck registry o)) Check.run
        = forM o.content.features (replayFeature registry o) :=
    forM_map_run (run_featureCheck o) _
  simp only [replayTransition, checks, List.flatMap_cons, List.flatMap_nil, List.append_nil,
    forM_append, List.forM_cons, List.forM_nil, hfeatures, forM_map_run run_rewardCheck,
    forM_map_run run_creditCheck, coordinatorCheck, bind_assoc, pure_bind]
  cases registry.coordinator
    t.content.boundary.content.coordinatorDecision.content.coordinatorImplementation with
  | none => rfl
  | some coordinator => simp only [Check.run, bind_assoc]

/-- The checks of a transition fail with the first of them that does. -/
theorem forM_run (cs : List Check) :
    forM cs Check.run
      = ((cs.find? fun check => !check.run.isOk).elim (.ok ()) Check.run : Py Unit) := by
  induction cs with
  | nil => rfl
  | cons c cs ih =>
    rw [List.forM_cons, List.find?_cons]
    cases hc : c.run with
    | ok u =>
      rw [Except.ok_bind, ih]
      rfl
    | error e =>
      rw [Except.error_bind]
      exact hc.symm

/-- The loop over the transitions, from some index on. -/
def replayLoop (registry : ImplementationRegistry)
    (handler : TransitionV1 → ℕ → PyException → Option ReplayVerificationV1)
    (transitions : List TransitionV1) (k : ℕ) : Verify Unit :=
  forM (transitions.zipIdx k) fun (t, i) => catching (handler t i) (replayTransition registry t)

/-- The loop ends with the first failing check, at its transition. -/
theorem loop_of_firstFailing (registry : ImplementationRegistry)
    (handler : TransitionV1 → ℕ → PyException → Option ReplayVerificationV1)
    (transitions : List TransitionV1) (k : ℕ) :
    match firstFailing registry transitions with
    | none => replayLoop registry handler transitions k = .ok ()
    | some check => ∃ t i, replayLoop registry handler transitions k
        = catching (handler t i) check.run := by
  induction transitions generalizing k with
  | nil => rfl
  | cons t transitions ih =>
    have hstep : replayLoop registry handler (t :: transitions) k = (do
        catching (handler t k) (replayTransition registry t)
        replayLoop registry handler transitions (k + 1)) := by
      rw [replayLoop, List.zipIdx_cons, List.forM_cons]
      rfl
    have hrun := forM_run (checks registry t)
    rw [← replayTransition_eq] at hrun
    rw [firstFailing, List.flatMap_cons, List.find?_append, hstep, hrun]
    cases hfind : (checks registry t).find? fun check => !check.run.isOk with
    | none => exact ih (k + 1)
    | some check =>
      have hfails : check.run.isOk = false := by simpa using List.find?_some hfind
      refine ⟨t, k, ?_⟩
      rw [Option.elim_some]
      cases hcheck : check.run with
      | ok u =>
        rw [hcheck] at hfails
        cases hfails
      | error e =>
        rw [catching]
        cases handler t k e <;> rfl

end Checks

/-! ### Totality -/

section Totality

variable {manifestBytes trajectory : Bytes} {registry : ImplementationRegistry}
  {entryNames : List String} {limits : BundleLimits} {a : Authenticated}

/-- The first check of the replay that fails. -/
def Authenticated.firstFailing (a : Authenticated) (registry : ImplementationRegistry) :
    Option Check :=
  Marl.firstFailing registry (transitionsOf a.records)

/-- The result of a replay, with its exceptions. -/
def replayResult (registry : ImplementationRegistry) (trajectory : Bytes) (a : Authenticated) :
    Py ReplayVerificationV1 :=
  match replay registry trajectory a with
  | .ok result => .ok result
  | .error (.returned result) => .ok result
  | .error (.raised e) => .error e

/-- A failing check decides the result. -/
theorem replayResult_of_some (trajectory : Bytes) {check : Check} {e : PyException}
    (h : a.firstFailing registry = some check) (he : check.run = .error e) :
    ∃ t i, replayResult registry trajectory a
      = (onReplayError a trajectory t i e).elim (.error e) .ok := by
  have hloop := loop_of_firstFailing registry (onReplayError a trajectory)
    (transitionsOf a.records) 0
  rw [Authenticated.firstFailing] at h
  simp only [h] at hloop
  obtain ⟨t, i, hloop⟩ := hloop
  refine ⟨t, i, ?_⟩
  rw [replayLoop] at hloop
  rw [replayResult, replay, hloop, he, catching]
  cases onReplayError a trajectory t i e <;> rfl

/-- The replay catches the exception as a failed replay. -/
def IsReplayFailure (e : PyException) : Prop := e.cls = .referenceError ∨ e.isRuntimeError = true

theorem onReplayError_of_other (trajectory : Bytes) (a : Authenticated) (t : TransitionV1)
    (i : ℕ) {e : PyException} (hlookup : e.cls ≠ .lookupError) (h : ¬ IsReplayFailure e) :
    onReplayError a trajectory t i e = none := by
  rw [onReplayError, if_neg hlookup]
  exact if_neg h

variable [Runtime]

theorem verifyBundle_of_authenticate
    (h : authenticate manifestBytes trajectory entryNames limits = .ok a) :
    verifyBundle manifestBytes trajectory registry entryNames limits
      = replayResult registry trajectory a := by
  rw [verifyBundle, h]
  rfl

/-- A manifest of one bracket more than the interpreter can nest. -/
def brackets : Bytes := utf8 (List.replicate (Runtime.recursionLimit + 1) '[')

end Totality

section Sample

attribute [local instance] canonicalRuntime

end Sample

end Agora.Marl
