import Agora.Ledger.Store
import Agora.Marl.Verify

namespace Agora.Replay

open Ledger (NonBlank Payload LedgerEvent)
open Marl (Hash canonicalHash raiseIf)

/-!
# Replay records

What a session replay is given and what it reports.  Models are validated when they are built, so
their validators are fields; only the shape of a result is checked by a function of its own
(`resultShape`), since the service builds results of every shape.
-/

/-! ### Enumerations -/

inductive ReplayMode where
  | strict
  | tolerant
  | live
deriving DecidableEq, Repr

inductive ReplayOutcome where
  | verified
  | matched
  | different
  | liveStarted
  | failed
deriving DecidableEq, Repr

inductive ReplayStepKind where
  | artifact
  | event
  | metric
  | consensus
  | symbolic
  | simulation
  | retrieval
  | llm
deriving DecidableEq, Repr

inductive ReplayStepPolicy where
  | recorded
  | deterministic
  | external
deriving DecidableEq, Repr

inductive ReplayDifferenceKind where
  | implementation
  | provider
  | model
  | configuration
  | output
  | status
  | timingSensitive
deriving DecidableEq, Repr

inductive ReplayFailureReason where
  | historicalReplayUnavailable
  | manifestMismatch
  | ledgerIntegrity
  | ledgerMismatch
  | unknownImplementation
  | nondeterministicImplementation
  | outputMismatch
  | marlReplayFailed
  | liveLaunchUnavailable
  | invalidLiveIdentity
deriving DecidableEq, Repr

/-! ### History -/

structure ReplayManifestRef where
  manifestId : UUID
  manifestVersion : ℕ
  manifestHash : Hash
  positive_version : 0 < manifestVersion
deriving DecidableEq

@[ext]
structure ReplayImplementationIdentity where
  implementationId : NonBlank
  implementationVersion : NonBlank
  provider : Option NonBlank := none
  model : Option NonBlank := none
  configurationHash : Option Hash := none
deriving DecidableEq

structure ReplayStep where
  stepId : UUID
  order : ℕ
  kind : ReplayStepKind
  policy : ReplayStepPolicy
  implementation : Option ReplayImplementationIdentity := none
  input : Payload
  inputHash : Hash
  expectedOutput : Payload
  expectedOutputHash : Hash
  expectedStatus : Option NonBlank := none
  tolerantReexecutionAllowed : Bool := false
  timingSensitive : Bool := false
  positive_order : 0 < order
  input_hash : canonicalHash input.json = .ok inputHash
  output_hash : canonicalHash expectedOutput.json = .ok expectedOutputHash
  executable : policy ≠ .recorded → implementation.isSome
  recorded_only : policy = .recorded → tolerantReexecutionAllowed = false
  external_permitted : policy = .external → tolerantReexecutionAllowed = true

/-- The implementation of a step that can be executed. -/
def ReplayStep.pinned (step : ReplayStep) (h : step.policy ≠ .recorded) : ReplayImplementationIdentity :=
  step.implementation.get (step.executable h)

@[simp] theorem ReplayStep.some_pinned (step : ReplayStep) (h : step.policy ≠ .recorded) :
    some (step.pinned h) = step.implementation := Option.some_get _

structure MarlReplayBundle where
  manifest : Bytes
  trajectory : Bytes

structure HistoricalReplay where
  workspaceId : UUID
  sourceSessionId : UUID
  manifest : ReplayManifestRef
  ledgerEvents : List LedgerEvent
  steps : List ReplayStep
  marlBundles : List MarlReplayBundle := []
  same_session : ∀ e ∈ ledgerEvents, e.workspaceId = workspaceId ∧ e.sessionId = sourceSessionId
  gapless : ledgerEvents.map (·.ledgerSeq) = List.range' 1 ledgerEvents.length
  ordered : (steps.map (·.order)).Pairwise (· < ·)
  unique_ids : (steps.map (·.stepId)).Nodup

/-! ### Requests and executions -/

structure ReplayImplementationSelection where
  stepId : UUID
  implementation : ReplayImplementationIdentity

structure ReplayRequest where
  workspaceId : UUID
  sourceSessionId : UUID
  manifest : ReplayManifestRef
  mode : ReplayMode
  implementationSelections : List ReplayImplementationSelection
  unique_ids : (implementationSelections.map (·.stepId)).Nodup
  strict_pinned : mode = .strict → implementationSelections = []

structure ReplayExecution where
  implementation : ReplayImplementationIdentity
  output : Payload
  outputHash : Hash
  status : Option NonBlank := none
  output_hash : canonicalHash output.json = .ok outputHash

structure LiveReplayLaunch where
  sourceSessionId : UUID
  sessionId : UUID
  manifestId : UUID
  eventIds : List UUID
  resultIds : List UUID
  new_session : sessionId ≠ sourceSessionId
  some_events : eventIds ≠ []
  some_results : resultIds ≠ []
  unique_events : eventIds.Nodup
  unique_results : resultIds.Nodup

/-! ### Results -/

structure ReplayDifference where
  order : ℕ
  stepId : UUID
  kind : ReplayStepKind
  difference : ReplayDifferenceKind
  field : NonBlank
  expected : Option String
  actual : Option String
  positive_order : 0 < order

structure ReplayMismatch where
  reason : ReplayFailureReason
  detail : NonBlank
  order : Option ℕ := none
  stepId : Option UUID := none
  expectedHash : Option Hash := none
  actualHash : Option Hash := none
  positive_order : ∀ n ∈ order, 0 < n := by simp

/-- `ReplayMismatch(...)`, with a detail that comes from elsewhere. -/
def replayMismatch (reason : ReplayFailureReason) (detail : String) (order : Option ℕ)
    (expectedHash actualHash : Option Hash) : Py ReplayMismatch :=
  if hdetail : (!isBlank detail) = true then
    if horder : ∀ n ∈ order, 0 < n then
      .ok { reason, detail := ⟨detail, hdetail⟩, order, expectedHash, actualHash, positive_order := horder }
    else .error (.valueError "Input should be greater than 0")
  else .error (.valueError "value must not be blank")

structure ReplayResult where
  mode : ReplayMode
  outcome : ReplayOutcome
  workspaceId : UUID
  sourceSessionId : UUID
  sourceManifest : ReplayManifestRef
  integrityValid : Bool
  byteIdentical : Bool
  checkedSteps : ℕ
  differences : List ReplayDifference := []
  firstMismatch : Option ReplayMismatch := none
  replaySessionId : Option UUID := none
  replayManifestId : Option UUID := none
  replayEventIds : List UUID := []
  replayResultIds : List UUID := []

namespace ReplayResult

/-- `result_shape` of a strict replay. -/
def strictShape (r : ReplayResult) : Py Unit := do
  if r.outcome = .verified then
    raiseIf (!r.integrityValid || !r.byteIdentical || r.firstMismatch.isSome)
      (.valueError "verified strict replay has an invalid result shape")
  else
    raiseIf (r.outcome ≠ .failed || r.firstMismatch.isNone)
      (.valueError "strict replay must be VERIFIED or FAILED with a mismatch")
  raiseIf (!r.differences.isEmpty || r.replaySessionId.isSome)
    (.valueError "strict replay cannot contain diffs or a new session")

/-- `result_shape` of a tolerant replay. -/
def tolerantShape (r : ReplayResult) : Py Unit := do
  raiseIf (r.outcome ≠ .matched && r.outcome ≠ .different && r.outcome ≠ .failed)
    (.valueError "tolerant replay has an invalid outcome")
  raiseIf (r.outcome = .failed && r.firstMismatch.isNone)
    (.valueError "failed tolerant replay requires a reason")
  raiseIf (r.outcome ≠ .failed && r.firstMismatch.isSome)
    (.valueError "completed tolerant replay cannot contain a strict failure")
  raiseIf r.replaySessionId.isSome (.valueError "tolerant replay cannot create a session")
  raiseIf (r.outcome = .matched && !r.differences.isEmpty)
    (.valueError "matched tolerant replay cannot contain differences")
  raiseIf (r.outcome = .different && r.differences.isEmpty)
    (.valueError "different tolerant replay requires a structured diff")

/-- `result_shape` of a live replay. -/
def liveShape (r : ReplayResult) : Py Unit :=
  if r.outcome = .failed then do
    raiseIf r.firstMismatch.isNone (.valueError "failed live replay requires a reason")
    raiseIf r.replaySessionId.isSome (.valueError "failed live replay cannot expose a new session")
  else do
    raiseIf (r.outcome ≠ .liveStarted) (.valueError "live replay must report LIVE_STARTED")
    raiseIf (r.replaySessionId.isNone || r.replayManifestId.isNone || r.replayEventIds.isEmpty
        || r.replayResultIds.isEmpty || r.replaySessionId = some r.sourceSessionId)
      (.valueError "live replay requires fresh session, manifest, event and result ids")
    raiseIf (r.byteIdentical || r.firstMismatch.isSome || !r.differences.isEmpty)
      (.valueError "live replay is a new execution, not a verification or diff")

def resultShape (r : ReplayResult) : Py Unit :=
  match r.mode with
  | .strict => r.strictShape
  | .tolerant => r.tolerantShape
  | .live => r.liveShape

/-- `ReplayResult(...)`. -/
def build (r : ReplayResult) : Py ReplayResult := do
  r.resultShape
  pure r

end ReplayResult

end Agora.Replay
