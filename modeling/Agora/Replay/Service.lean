import Agora.Replay.Records

namespace Agora.Replay

open Ledger (NonBlank Payload LedgerEvent LedgerState)
open Marl (Hash)

/-!
# The replay service

A replay first checks what it is given (the manifest, the ledger, the bundles), then goes through the
steps: `strict` stops at the first mismatch, `tolerant` collects the differences of every step, and
`live` starts a session of its own.
-/

/-! ### Implementations -/

/-- A registered function is a pure function of its input. -/
structure ReplayImplementation where
  identity : ReplayImplementationIdentity
  execute : Payload → Py ReplayExecution
  deterministic : Bool
  external : Bool

/-- `_key`. -/
def ReplayImplementationIdentity.key (identity : ReplayImplementationIdentity) : NonBlank × NonBlank :=
  (identity.implementationId, identity.implementationVersion)

structure ReplayImplementationRegistry where
  implementations : List ReplayImplementation
  unique : (implementations.map (·.identity.key)).Nodup

namespace ReplayImplementationRegistry

/-- `ReplayImplementationRegistry(implementations)`. -/
def create (implementations : List ReplayImplementation) : Py ReplayImplementationRegistry :=
  if h : (implementations.map (·.identity.key)).Nodup then .ok ⟨implementations, h⟩
  else .error (.valueError "duplicate replay implementation identity")

def resolve (registry : ReplayImplementationRegistry) (identity : ReplayImplementationIdentity) :
    Option ReplayImplementation :=
  dictGet (·.identity.key) registry.implementations identity.key

end ReplayImplementationRegistry

/-! ### Comparing an execution -/

/-- `_strict_mismatch`. -/
def strictMismatch (step : ReplayStep) (execution : ReplayExecution) : Option ReplayMismatch :=
  if some execution.implementation ≠ step.implementation then
    some {
      reason := .unknownImplementation
      detail := ⟨"executor did not use the exact pinned implementation identity", by decide⟩
      order := some step.order
      stepId := some step.stepId
      positive_order := by simp [step.positive_order] }
  else if execution.outputHash ≠ step.expectedOutputHash then
    some {
      reason := .outputMismatch
      detail := ⟨"deterministic output differs from the historical output", by decide⟩
      order := some step.order
      stepId := some step.stepId
      expectedHash := some step.expectedOutputHash
      actualHash := some execution.outputHash
      positive_order := by simp [step.positive_order] }
  else if execution.status ≠ step.expectedStatus then
    some {
      reason := .outputMismatch
      detail := ⟨"deterministic status differs from the historical status", by decide⟩
      order := some step.order
      stepId := some step.stepId
      positive_order := by simp [step.positive_order] }
  else none

/-- A field of an identity that `_differences` compares. -/
structure ComparedField where
  field : NonBlank
  difference : ReplayDifferenceKind
  value : ReplayImplementationIdentity → Option String

/-- The table `fields`. -/
def comparedFields : List ComparedField :=
  [⟨⟨"implementation_id", by decide⟩, .implementation, fun i => some i.implementationId.text⟩,
    ⟨⟨"implementation_version", by decide⟩, .implementation, fun i => some i.implementationVersion.text⟩,
    ⟨⟨"provider", by decide⟩, .provider, fun i => i.provider.map (·.text)⟩,
    ⟨⟨"model", by decide⟩, .model, fun i => i.model.map (·.text)⟩,
    ⟨⟨"configuration_hash", by decide⟩, .configuration, fun i => i.configurationHash.map (·.text)⟩]

/-- A difference of a step, when two values differ. -/
def ReplayStep.compare (step : ReplayStep) (difference : ReplayDifferenceKind) (field : NonBlank)
    (expected actual : Option String) : List ReplayDifference :=
  if expected ≠ actual then
    [{ order := step.order, stepId := step.stepId, kind := step.kind, difference, field, expected, actual
       positive_order := step.positive_order }]
  else []

/-- `_differences`, of a step with the implementation `pinned`. -/
def differences (step : ReplayStep) (pinned : ReplayImplementationIdentity) (execution : ReplayExecution) :
    List ReplayDifference :=
  comparedFields.flatMap (fun f =>
      step.compare f.difference f.field (f.value pinned) (f.value execution.implementation))
    ++ step.compare .output ⟨"output_hash", by decide⟩ (some step.expectedOutputHash.text)
      (some execution.outputHash.text)
    ++ step.compare (if step.timingSensitive then .timingSensitive else .status) ⟨"status", by decide⟩
      (step.expectedStatus.map (·.text)) (execution.status.map (·.text))

/-! ### The steps -/

/-- How the steps end before the last one: a failed result after some checked steps, or an
    exception. -/
inductive Stop where
  | failed (mismatch : ReplayMismatch) (checked : ℕ)
  | raised (e : PyException)

/-- An exception of an implementation goes through. -/
def executing {α : Type} : Py α → Except Stop α
  | .ok a => .ok a
  | .error e => .error (.raised e)

variable (registry : ReplayImplementationRegistry)

/-- One step of `_strict`, after some checked steps. -/
def strictStep (checked : ℕ) (step : ReplayStep) : Except Stop ℕ :=
  if hrecorded : step.policy = .recorded then .ok (checked + 1)
  else
    match registry.resolve (step.pinned hrecorded) with
    | none => .error (.failed {
        reason := .unknownImplementation
        detail := ⟨"the exact pinned implementation is unavailable", by decide⟩
        order := some step.order
        stepId := some step.stepId
        positive_order := by simp [step.positive_order] } checked)
    | some implementation =>
      if implementation.external || !implementation.deterministic then
        .error (.failed {
          reason := .nondeterministicImplementation
          detail := ⟨"strict replay prohibits external or nondeterministic execution", by decide⟩
          order := some step.order
          stepId := some step.stepId
          positive_order := by simp [step.positive_order] } checked)
      else do
        let execution ← executing (implementation.execute step.input)
        match strictMismatch step execution with
        | some mismatch => .error (.failed mismatch (checked + 1))
        | none => .ok (checked + 1)

/-- One step of `_tolerant`, after some differences and checked steps. -/
def tolerantStep (selected : List ReplayImplementationSelection) (found : List ReplayDifference × ℕ)
    (step : ReplayStep) : Except Stop (List ReplayDifference × ℕ) :=
  if hrecorded : step.policy = .recorded then .ok (found.1, found.2 + 1)
  else if step.policy = .external ∧ step.tolerantReexecutionAllowed = false then .ok found
  else
    let pinned := step.pinned hrecorded
    let identity := ((dictGet (·.stepId) selected step.stepId).map (·.implementation)).getD pinned
    match registry.resolve identity with
    | none => .error (.failed {
        reason := .unknownImplementation
        detail := ⟨"the selected tolerant replay implementation is unavailable", by decide⟩
        order := some step.order
        stepId := some step.stepId
        positive_order := by simp [step.positive_order] } found.2)
    | some implementation => do
      let execution ← executing (implementation.execute step.input)
      .ok (found.1 ++ differences step pinned execution, found.2 + 1)

/-! ### Failures -/

/-- `_failed`. -/
def failed (request : ReplayRequest) (mismatch : ReplayMismatch) (checked : ℕ := 0) : Py ReplayResult :=
  ReplayResult.build {
    mode := request.mode
    outcome := .failed
    workspaceId := request.workspaceId
    sourceSessionId := request.sourceSessionId
    sourceManifest := request.manifest
    integrityValid := mismatch.reason ≠ .ledgerIntegrity ∧ mismatch.reason ≠ .ledgerMismatch
    byteIdentical := false
    checkedSteps := checked
    firstMismatch := some mismatch }

/-- The result of the steps: `complete`, or a failure. -/
def conclude {α : Type} (request : ReplayRequest) (complete : α → ReplayResult) :
    Except Stop α → Py ReplayResult
  | .ok a => (complete a).build
  | .error (.failed mismatch checked) => failed request mismatch checked
  | .error (.raised e) => .error e

/-- The result of `_strict`, after all steps. -/
def strictResult (request : ReplayRequest) (checked : ℕ) : ReplayResult where
  mode := request.mode
  outcome := .verified
  workspaceId := request.workspaceId
  sourceSessionId := request.sourceSessionId
  sourceManifest := request.manifest
  integrityValid := true
  byteIdentical := true
  checkedSteps := checked

/-- `_strict`. -/
def strict (request : ReplayRequest) (historical : HistoricalReplay) : Py ReplayResult :=
  conclude request (strictResult request) (historical.steps.foldlM (strictStep registry) 0)

/-- The result of `_tolerant`, after all steps. -/
def tolerantResult (request : ReplayRequest) (found : List ReplayDifference × ℕ) : ReplayResult where
  mode := request.mode
  outcome := if found.1.isEmpty then .matched else .different
  workspaceId := request.workspaceId
  sourceSessionId := request.sourceSessionId
  sourceManifest := request.manifest
  integrityValid := true
  byteIdentical := found.1.isEmpty
  checkedSteps := found.2
  differences := found.1

/-- `_tolerant`. -/
def tolerant (request : ReplayRequest) (historical : HistoricalReplay) : Py ReplayResult :=
  conclude request (tolerantResult request)
    (historical.steps.foldlM (tolerantStep registry request.implementationSelections) ([], 0))

/-! ### The service -/

/-- `LiveReplayLauncher.launch`. -/
abbrev LiveReplayLauncher :=
  ReplayRequest → HistoricalReplay → List ReplayImplementationSelection → Py LiveReplayLaunch

/-- `_LEDGER_READ_LIMIT`. -/
def ledgerReadLimit : ℕ := 1000

/-- After an event of a batch, fewer events are left. -/
theorem length_rest_lt {ledger : LedgerState} {workspaceId sessionId : UUID} {nextSeq limit : ℕ}
    {batch : List LedgerEvent} (hread : ledger.readFrom workspaceId sessionId nextSeq limit = .ok batch)
    {event : LedgerEvent} (hevent : event ∈ batch) :
    ((ledger.rows workspaceId sessionId).filter (event.ledgerSeq + 1 ≤ ·.ledgerSeq)).length
      < ((ledger.rows workspaceId sessionId).filter (nextSeq ≤ ·.ledgerSeq)).length := by
  have hmem : event ∈ (ledger.rows workspaceId sessionId).filter (nextSeq ≤ ·.ledgerSeq) := by
    unfold LedgerState.readFrom at hread
    split_ifs at hread
    obtain rfl := Except.ok.inj hread
    exact List.mem_of_mem_take hevent
  have hfrom := of_decide_eq_true (List.mem_filter.mp hmem).2
  have hrest : (ledger.rows workspaceId sessionId).filter (event.ledgerSeq + 1 ≤ ·.ledgerSeq)
      = ((ledger.rows workspaceId sessionId).filter (nextSeq ≤ ·.ledgerSeq)).filter
        (event.ledgerSeq + 1 ≤ ·.ledgerSeq) := by
    rw [List.filter_filter]
    refine List.filter_congr fun e _ => ?_
    rw [← Bool.decide_and, decide_eq_decide]
    omega
  rw [hrest, List.length_filter_lt_length_iff_exists]
  exact ⟨event, hmem, by simp⟩

/-- Events from a number on, in batches of `ledgerReadLimit`. -/
def readLedger (ledger : LedgerState) (workspaceId sessionId : UUID) (nextSeq : ℕ) :
    Py (List LedgerEvent) :=
  match hread : ledger.readFrom workspaceId sessionId nextSeq ledgerReadLimit with
  | .error e => .error e
  | .ok batch =>
    if hlength : batch.length < ledgerReadLimit then .ok batch
    else do
      let last := batch.getLast (by
        rintro rfl
        exact hlength (by decide))
      let rest ← readLedger ledger workspaceId sessionId (last.ledgerSeq + 1)
      pure (batch ++ rest)
termination_by ((ledger.rows workspaceId sessionId).filter (nextSeq ≤ ·.ledgerSeq)).length
decreasing_by
  -- The last event of the batch is not read again.
  exact length_rest_lt hread (List.getLast_mem _)

variable [Marl.Runtime]

structure SessionReplayService where
  source : UUID → UUID → ReplayManifestRef → Py (Option HistoricalReplay)
  ledger : LedgerState
  implementations : ReplayImplementationRegistry
  liveLauncher : Option LiveReplayLauncher := none
  marlImplementations : Option Marl.ImplementationRegistry := none

namespace SessionReplayService

variable (service : SessionReplayService)

omit [Marl.Runtime] in
/-- `_validate_source`. -/
def validateSource (request : ReplayRequest) (historical : HistoricalReplay) : Option ReplayMismatch :=
  if request.workspaceId ≠ historical.workspaceId
      ∨ request.sourceSessionId ≠ historical.sourceSessionId ∨ request.manifest ≠ historical.manifest then
    some {
      reason := .manifestMismatch
      detail := ⟨"request does not identify the supplied historical session and manifest", by decide⟩ }
  else if ¬ ∀ item ∈ request.implementationSelections, item.stepId ∈ historical.steps.map (·.stepId) then
    some {
      reason := .manifestMismatch
      detail := ⟨"implementation selection references an unknown historical step", by decide⟩ }
  else none

omit [Marl.Runtime] in
/-- The first of two lists of events to differ, or their lengths. -/
def compareLedger (recorded actual : List LedgerEvent) : Option ReplayMismatch :=
  match (recorded.zip actual).find? fun (r, a) => r.eventHash ≠ a.eventHash with
  | some (recorded, replayed) => some {
      reason := .ledgerMismatch
      detail := ⟨"historical ledger differs at the first recorded event hash", by decide⟩
      order := some recorded.ledgerSeq
      expectedHash := some recorded.eventHash
      actualHash := some replayed.eventHash
      positive_order := by simp [recorded.positive_seq] }
  | none =>
    if recorded.length ≠ actual.length then some {
      reason := .ledgerMismatch
      detail := ⟨"historical ledger event count differs from the replay source", by decide⟩
      order := some (min recorded.length actual.length + 1) }
    else none

/-- `_verify_ledger`. -/
def verifyLedger (historical : HistoricalReplay) : Py (Option ReplayMismatch) := do
  let verification ← service.ledger.verify historical.workspaceId historical.sourceSessionId
  if !verification.valid then
    let reason := (verification.reason.filter (· ≠ "")).getD "reasoning ledger verification failed"
    some <$> replayMismatch .ledgerIntegrity reason verification.firstInvalidSeq none none
  else
    let actual ← readLedger service.ledger historical.workspaceId historical.sourceSessionId 1
    pure (compareLedger historical.ledgerEvents actual)

/-- The loop of `_verify_marl`. -/
def verifyBundles (registry : Marl.ImplementationRegistry) :
    List MarlReplayBundle → Py (Option ReplayMismatch)
  | [] => .ok none
  | bundle :: bundles => do
    let verification ← Marl.verifyBundle bundle.manifest bundle.trajectory registry
    if verification.outcome = .verified then verifyBundles registry bundles
    else
      let failure := verification.firstFailure
      some <$> replayMismatch .marlReplayFailed ((failure.map (·.detail)).getD "MARL replay failed")
        ((failure.bind (·.decisionIndex)).map (· + 1)) (failure.bind (·.expectedHash))
        (failure.bind (·.actualHash))

/-- `_verify_marl`. -/
def verifyMarl (historical : HistoricalReplay) : Py (Option ReplayMismatch) :=
  if historical.marlBundles.isEmpty then .ok none
  else
    match service.marlImplementations with
    | none => .ok (some {
        reason := .unknownImplementation
        detail := ⟨"Phase 12 MARL implementation registry is unavailable", by decide⟩ })
    | some registry => verifyBundles registry historical.marlBundles

/-- What is wrong before the first step. -/
def mismatch? (request : ReplayRequest) (historical : HistoricalReplay) : Py (Option ReplayMismatch) :=
  match validateSource request historical with
  | some mismatch => .ok (some mismatch)
  | none => do
    match ← service.verifyLedger historical with
    | some mismatch => pure (some mismatch)
    | none => service.verifyMarl historical

omit [Marl.Runtime] in
/-- The ids of a history, which a live replay may not use again. -/
def historicalIds (historical : HistoricalReplay) : List UUID :=
  historical.ledgerEvents.map (·.id) ++ historical.steps.map (·.stepId)
    ++ [historical.manifest.manifestId, historical.sourceSessionId]

/-- `_live`. -/
def live (request : ReplayRequest) (historical : HistoricalReplay) : Py ReplayResult :=
  match service.liveLauncher with
  | none => failed request {
      reason := .liveLaunchUnavailable
      detail := ⟨"live replay launcher is unavailable", by decide⟩ }
  | some launcher => do
    let launch ← launcher request historical request.implementationSelections
    let newIds := launch.sessionId :: launch.manifestId :: (launch.eventIds ++ launch.resultIds)
    if launch.sourceSessionId ≠ historical.sourceSessionId then
      failed request {
        reason := .invalidLiveIdentity
        detail := ⟨"live replay did not link to the historical source session", by decide⟩ }
    else if ∃ id ∈ newIds, id ∈ historicalIds historical then
      failed request {
        reason := .invalidLiveIdentity
        detail := ⟨"live replay reused a historical identity", by decide⟩ }
    else ReplayResult.build {
      mode := request.mode
      outcome := .liveStarted
      workspaceId := request.workspaceId
      sourceSessionId := request.sourceSessionId
      sourceManifest := request.manifest
      integrityValid := true
      byteIdentical := false
      checkedSteps := 0
      replaySessionId := some launch.sessionId
      replayManifestId := some launch.manifestId
      replayEventIds := launch.eventIds
      replayResultIds := launch.resultIds }

/-- `replay`. -/
def replay (request : ReplayRequest) : Py ReplayResult := do
  match ← service.source request.workspaceId request.sourceSessionId request.manifest with
  | none => failed request {
      reason := .historicalReplayUnavailable
      detail := ⟨"the exact historical session and manifest are unavailable", by decide⟩ }
  | some historical =>
    match ← service.mismatch? request historical with
    | some mismatch => failed request mismatch
    | none =>
      match request.mode with
      | .strict => strict service.implementations request historical
      | .tolerant => tolerant service.implementations request historical
      | .live => service.live request historical

end SessionReplayService

end Agora.Replay
