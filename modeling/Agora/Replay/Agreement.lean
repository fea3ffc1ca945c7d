import Agora.Replay.Service
import Agora.Marl.Verified

namespace Agora.Replay

open Ledger (Payload genesis genesisHash ledgerPayloadHash_eq)
open Marl (sampleId)

/-!
# Strict and tolerant replay

Both loops go on exactly over the steps that reproduce what was recorded (`Reproduced`), the strict
one only where it may execute the implementation (`Permitted`).  So a strict replay is verified exactly
when the tolerant replay without selections matches and all of its implementations are permitted
(`strict_agrees_tolerant`).
-/

/-! ### One execution -/

theorem ReplayStep.compare_eq_nil {step : ReplayStep} {difference : ReplayDifferenceKind}
    {field : Ledger.NonBlank} {expected actual : Option String} :
    step.compare difference field expected actual = [] ↔ expected = actual := by
  unfold ReplayStep.compare
  by_cases h : expected = actual
  · rw [if_neg (not_not.mpr h)]
    exact iff_of_true rfl h
  · rw [if_pos h]
    exact iff_of_false (List.cons_ne_nil _ _) h

theorem map_text_inj {p : String → Bool} {s t : Option (Marl.Text p)} :
    s.map (·.text) = t.map (·.text) ↔ s = t := by
  refine ⟨fun h => Option.map_injective ?_ h, congrArg _⟩
  intro a b hab
  exact Marl.Text.eq_of_text_eq hab

/-- The compared fields are all fields. -/
theorem comparedFields_eq_iff {i j : ReplayImplementationIdentity} :
    (∀ f ∈ comparedFields, f.value i = f.value j) ↔ i = j := by
  constructor
  · intro h
    simp only [comparedFields, List.forall_mem_cons, map_text_inj, Option.some.injEq] at h
    obtain ⟨hid, hversion, hprovider, hmodel, hconfiguration, -⟩ := h
    exact ReplayImplementationIdentity.ext (Marl.Text.eq_of_text_eq hid) (Marl.Text.eq_of_text_eq hversion) hprovider hmodel
      hconfiguration
  · rintro rfl f -
    rfl

theorem strictMismatch_eq_none {step : ReplayStep} {execution : ReplayExecution} :
    strictMismatch step execution = none ↔ some execution.implementation = step.implementation
      ∧ execution.outputHash = step.expectedOutputHash ∧ execution.status = step.expectedStatus := by
  unfold strictMismatch
  split_ifs with himplementation houtput hstatus <;> simp_all

/-- **Comparison.**  There is no difference exactly when there is no mismatch. -/
theorem differences_eq_nil {step : ReplayStep} {h : step.policy ≠ .recorded} {execution : ReplayExecution} :
    differences step (step.pinned h) execution = [] ↔ strictMismatch step execution = none := by
  unfold differences
  rw [strictMismatch_eq_none, List.append_eq_nil_iff, List.append_eq_nil_iff, List.flatMap_eq_nil_iff]
  simp only [ReplayStep.compare_eq_nil, map_text_inj, Option.some.injEq, ← step.some_pinned h]
  rw [comparedFields_eq_iff, and_assoc]
  refine and_congr eq_comm (and_congr ?_ eq_comm)
  exact ⟨fun h => (Marl.Text.eq_of_text_eq h).symm, fun h => congrArg _ h.symm⟩

/-! ### One step -/

section Steps

variable {registry : ReplayImplementationRegistry} {step : ReplayStep} {checked checked' : ℕ}

/-- The pinned implementation of a step gives what was recorded. -/
def Reproduced (registry : ReplayImplementationRegistry) (step : ReplayStep) : Prop :=
  ∀ h : step.policy ≠ .recorded, ∃ implementation execution,
    registry.resolve (step.pinned h) = some implementation
      ∧ implementation.execute step.input = .ok execution ∧ strictMismatch step execution = none

/-- The pinned implementation of a step is deterministic and not external. -/
def Permitted (registry : ReplayImplementationRegistry) (step : ReplayStep) : Prop :=
  ∀ (h : step.policy ≠ .recorded) (implementation : ReplayImplementation),
    registry.resolve (step.pinned h) = some implementation →
      implementation.deterministic = true ∧ implementation.external = false

theorem executing_eq_ok {α : Type} {x : Py α} {a : α} : executing x = .ok a ↔ x = .ok a := by
  cases x <;> simp [executing]

theorem strictStep_eq_ok : strictStep registry checked step = .ok checked'
    ↔ (Reproduced registry step ∧ Permitted registry step) ∧ checked' = checked + 1 := by
  unfold strictStep
  split_ifs with hrecorded
  · have hnone : Reproduced registry step ∧ Permitted registry step :=
      ⟨fun h => absurd hrecorded h, fun h => absurd hrecorded h⟩
    rw [and_iff_right hnone, Except.ok.injEq, eq_comm]
  · constructor
    · intro h
      split at h
      · cases h
      · next implementation hresolve =>
        split_ifs at h with hallowed
        rw [Bool.not_eq_true, Bool.or_eq_false_iff, Bool.not_eq_false'] at hallowed
        obtain ⟨execution, hexecution, h⟩ := Except.bind_eq_ok.mp h
        split at h
        · cases h
        · next hmismatch =>
          obtain rfl := Except.ok.inj h
          refine ⟨⟨fun _ => ?_, fun _ other hother => ?_⟩, rfl⟩
          · exact ⟨implementation, execution, hresolve, executing_eq_ok.mp hexecution, hmismatch⟩
          · obtain rfl := Option.some.inj (hresolve.symm.trans hother)
            exact ⟨hallowed.2, hallowed.1⟩
    · rintro ⟨⟨hreproduced, hpermitted⟩, rfl⟩
      obtain ⟨implementation, execution, hresolve, hexecution, hmismatch⟩ := hreproduced hrecorded
      obtain ⟨hdeterministic, hexternal⟩ := hpermitted hrecorded implementation hresolve
      simp [hresolve, hdeterministic, hexternal, executing_eq_ok.mpr hexecution, hmismatch]

/-- Without selections, a tolerant step that leaves no difference. -/
theorem tolerantStep_eq_ok {found : List ReplayDifference} :
    tolerantStep registry [] (found, checked) step = .ok ([], checked')
      ↔ found = [] ∧ Reproduced registry step ∧ checked' = checked + 1 := by
  unfold tolerantStep
  split_ifs with hrecorded hskipped
  · have hnone : Reproduced registry step := fun h => absurd hrecorded h
    simp [hnone, eq_comm]
  · -- An external step permits its execution.
    have hpermitted := step.external_permitted hskipped.1
    rw [hskipped.2] at hpermitted
    cases hpermitted
  · -- Nothing is selected, so the pinned implementation is.
    simp only [dictGet, List.reverse_nil, List.find?_nil, Option.map_none, Option.getD_none]
    constructor
    · intro h
      split at h
      · cases h
      · next implementation hresolve =>
        obtain ⟨execution, hexecution, h⟩ := Except.bind_eq_ok.mp h
        obtain ⟨hfound, rfl⟩ := Prod.mk.inj (Except.ok.inj h)
        obtain ⟨hfound, hdifferences⟩ := List.append_eq_nil_iff.mp hfound
        refine ⟨hfound, fun _ => ?_, rfl⟩
        exact ⟨implementation, execution, hresolve, executing_eq_ok.mp hexecution,
          differences_eq_nil.mp hdifferences⟩
    · rintro ⟨rfl, hreproduced, rfl⟩
      obtain ⟨implementation, execution, hresolve, hexecution, hmismatch⟩ := hreproduced hrecorded
      have hdifferences := (@differences_eq_nil step hrecorded execution).mpr hmismatch
      simp [hresolve, executing_eq_ok.mpr hexecution, hdifferences]

/-! ### All steps -/

/-- **Strict run.**  It is over exactly the steps that are reproduced and permitted. -/
theorem strict_run {steps : List ReplayStep} : steps.foldlM (strictStep registry) checked = .ok checked'
    ↔ (∀ step ∈ steps, Reproduced registry step ∧ Permitted registry step)
      ∧ checked' = checked + steps.length := by
  induction steps generalizing checked with
  | nil => simp [eq_comm]
  | cons step steps ih =>
    rw [List.foldlM_cons, Except.bind_eq_ok, List.forall_mem_cons, List.length_cons]
    constructor
    · rintro ⟨next, hstep, hsteps⟩
      obtain ⟨hhead, rfl⟩ := strictStep_eq_ok.mp hstep
      obtain ⟨htail, rfl⟩ := ih.mp hsteps
      exact ⟨⟨hhead, htail⟩, by omega⟩
    · rintro ⟨⟨hhead, htail⟩, rfl⟩
      exact ⟨checked + 1, strictStep_eq_ok.mpr ⟨hhead, rfl⟩, ih.mpr ⟨htail, by omega⟩⟩

/-- **Tolerant run.**  It finds no difference exactly when all steps are reproduced. -/
theorem tolerant_run {found : List ReplayDifference} {steps : List ReplayStep} :
    steps.foldlM (tolerantStep registry []) (found, checked) = .ok ([], checked')
      ↔ found = [] ∧ (∀ step ∈ steps, Reproduced registry step) ∧ checked' = checked + steps.length := by
  induction steps generalizing found checked with
  | nil => simp [eq_comm]
  | cons step steps ih =>
    rw [List.foldlM_cons, Except.bind_eq_ok, List.forall_mem_cons, List.length_cons]
    constructor
    · rintro ⟨⟨next, checked''⟩, hstep, hsteps⟩
      -- Differences are never dropped.
      obtain ⟨rfl, htail, rfl⟩ := ih.mp hsteps
      obtain ⟨hfound, hhead, rfl⟩ := tolerantStep_eq_ok.mp hstep
      exact ⟨hfound, ⟨hhead, htail⟩, by omega⟩
    · rintro ⟨hfound, ⟨hhead, htail⟩, rfl⟩
      exact ⟨([], checked + 1), tolerantStep_eq_ok.mpr ⟨hfound, hhead, rfl⟩,
        ih.mpr ⟨rfl, htail, by omega⟩⟩

end Steps

/-! ### Results -/

section Results

variable [Marl.Runtime] {service : SessionReplayService} {w n : UUID} {manifest : ReplayManifestRef}

/-- A request without selections. -/
def plainRequest (mode : ReplayMode) (w n : UUID) (manifest : ReplayManifestRef) : ReplayRequest where
  workspaceId := w
  sourceSessionId := n
  manifest
  mode
  implementationSelections := []
  unique_ids := List.nodup_nil
  strict_pinned _ := rfl

/-- A history that passes all checks before its first step; these do not depend on the mode. -/
def Checked (service : SessionReplayService) (w n : UUID) (manifest : ReplayManifestRef)
    (historical : HistoricalReplay) : Prop :=
  service.source w n manifest = .ok (some historical)
    ∧ service.mismatch? (plainRequest .strict w n manifest) historical = .ok none

omit [Marl.Runtime] in
theorem outcome_of_failed {request : ReplayRequest} {mismatch : ReplayMismatch} {checked : ℕ}
    {r : ReplayResult} (h : failed request mismatch checked = .ok r) : r.outcome = .failed := by
  obtain ⟨_, -, h⟩ := Except.bind_eq_ok.mp h
  rw [← Except.ok.inj h]

omit [Marl.Runtime] in
/-- A result that has not failed comes from all steps. -/
theorem conclude_eq_ok {α : Type} {request : ReplayRequest} {complete : α → ReplayResult}
    {x : Except Stop α} {r : ReplayResult} (h : conclude request complete x = .ok r)
    (houtcome : r.outcome ≠ .failed) : ∃ a, x = .ok a ∧ r = complete a := by
  unfold conclude at h
  split at h
  · next a =>
    obtain ⟨_, -, h⟩ := Except.bind_eq_ok.mp h
    exact ⟨a, rfl, (Except.ok.inj h).symm⟩
  · exact absurd (outcome_of_failed h) houtcome
  · cases h

/-- A replay that has not failed got to its steps. -/
theorem exists_checked {mode : ReplayMode} {r : ReplayResult}
    (h : service.replay (plainRequest mode w n manifest) = .ok r) (houtcome : r.outcome ≠ .failed) :
    ∃ historical, Checked service w n manifest historical := by
  obtain ⟨found, hsource, h⟩ := Except.bind_eq_ok.mp h
  cases found with
  | none => exact absurd (outcome_of_failed h) houtcome
  | some historical =>
    obtain ⟨mismatch, hmismatch, h⟩ := Except.bind_eq_ok.mp h
    cases mismatch with
    | some mismatch => exact absurd (outcome_of_failed h) houtcome
    | none => exact ⟨historical, hsource, hmismatch⟩

theorem replay_strict {historical : HistoricalReplay} (h : Checked service w n manifest historical) :
    service.replay (plainRequest .strict w n manifest)
      = strict service.implementations (plainRequest .strict w n manifest) historical := by
  show (service.source w n manifest >>= _) = _
  rw [h.1, Except.ok_bind]
  show (service.mismatch? (plainRequest .strict w n manifest) historical >>= _) = _
  rw [h.2, Except.ok_bind]
  rfl

theorem replay_tolerant {historical : HistoricalReplay} (h : Checked service w n manifest historical) :
    service.replay (plainRequest .tolerant w n manifest)
      = tolerant service.implementations (plainRequest .tolerant w n manifest) historical := by
  show (service.source w n manifest >>= _) = _
  rw [h.1, Except.ok_bind]
  show (service.mismatch? (plainRequest .strict w n manifest) historical >>= _) = _
  rw [h.2, Except.ok_bind]
  rfl

/-- **Strict replay** is verified exactly when all steps are reproduced by permitted implementations. -/
theorem strict_verified_iff {r : ReplayResult} :
    service.replay (plainRequest .strict w n manifest) = .ok r ∧ r.outcome = .verified
      ↔ ∃ historical, Checked service w n manifest historical
        ∧ (∀ step ∈ historical.steps,
          Reproduced service.implementations step ∧ Permitted service.implementations step)
        ∧ r = strictResult (plainRequest .strict w n manifest) historical.steps.length := by
  constructor
  · rintro ⟨h, houtcome⟩
    have hfailed : r.outcome ≠ .failed := by simp [houtcome]
    obtain ⟨historical, hchecked⟩ := exists_checked h hfailed
    rw [replay_strict hchecked] at h
    obtain ⟨checked, hsteps, rfl⟩ := conclude_eq_ok h hfailed
    obtain ⟨hall, rfl⟩ := strict_run.mp hsteps
    rw [Nat.zero_add]
    exact ⟨historical, hchecked, hall, rfl⟩
  · rintro ⟨historical, hchecked, hall, rfl⟩
    refine ⟨?_, rfl⟩
    rw [replay_strict hchecked, strict, strict_run.mpr ⟨hall, rfl⟩, Nat.zero_add]
    rfl

/-- **Tolerant replay** without selections matches exactly when all steps are reproduced. -/
theorem tolerant_matched_iff {r : ReplayResult} :
    service.replay (plainRequest .tolerant w n manifest) = .ok r ∧ r.outcome = .matched
      ↔ ∃ historical, Checked service w n manifest historical
        ∧ (∀ step ∈ historical.steps, Reproduced service.implementations step)
        ∧ r = tolerantResult (plainRequest .tolerant w n manifest) ([], historical.steps.length) := by
  constructor
  · rintro ⟨h, houtcome⟩
    have hfailed : r.outcome ≠ .failed := by simp [houtcome]
    obtain ⟨historical, hchecked⟩ := exists_checked h hfailed
    rw [replay_tolerant hchecked] at h
    obtain ⟨⟨found, checked⟩, hsteps, rfl⟩ := conclude_eq_ok h hfailed
    obtain rfl : found = [] := by
      cases found with
      | nil => rfl
      | cons d found => cases houtcome
    obtain ⟨-, hall, rfl⟩ := tolerant_run.mp hsteps
    rw [Nat.zero_add]
    exact ⟨historical, hchecked, hall, rfl⟩
  · rintro ⟨historical, hchecked, hall, rfl⟩
    refine ⟨?_, rfl⟩
    have hsteps : historical.steps.foldlM (tolerantStep service.implementations []) ([], 0)
        = .ok ([], historical.steps.length) := tolerant_run.mpr ⟨rfl, hall, (Nat.zero_add _).symm⟩
    rw [replay_tolerant hchecked, tolerant]
    show conclude _ _ (historical.steps.foldlM (tolerantStep service.implementations []) ([], 0)) = _
    rw [hsteps]
    rfl

/-- **Agreement.**  A verified strict replay is a matching tolerant one, and the other way round where
    all implementations are permitted. -/
theorem strict_agrees_tolerant (service : SessionReplayService) (w n : UUID)
    (manifest : ReplayManifestRef) :
    (∀ r, service.replay (plainRequest .strict w n manifest) = .ok r → r.outcome = .verified →
      ∃ r', service.replay (plainRequest .tolerant w n manifest) = .ok r' ∧ r'.outcome = .matched
        ∧ r'.checkedSteps = r.checkedSteps ∧ r'.byteIdentical = true)
      ∧ ∀ r', service.replay (plainRequest .tolerant w n manifest) = .ok r' → r'.outcome = .matched →
        (∀ historical, service.source w n manifest = .ok (some historical) →
          ∀ step ∈ historical.steps, Permitted service.implementations step) →
        ∃ r, service.replay (plainRequest .strict w n manifest) = .ok r ∧ r.outcome = .verified := by
  constructor
  · intro r h houtcome
    obtain ⟨historical, hchecked, hall, rfl⟩ := strict_verified_iff.mp ⟨h, houtcome⟩
    obtain ⟨hreplay, hmatched⟩ := tolerant_matched_iff.mpr
      ⟨historical, hchecked, fun step hstep => (hall step hstep).1, rfl⟩
    exact ⟨_, hreplay, hmatched, rfl, rfl⟩
  · intro r' h houtcome hpermitted
    obtain ⟨historical, hchecked, hall, -⟩ := tolerant_matched_iff.mp ⟨h, houtcome⟩
    refine ⟨_, strict_verified_iff.mpr ⟨historical, hchecked, fun step hstep => ⟨hall step hstep, ?_⟩, rfl⟩⟩
    exact hpermitted historical hchecked.1 step hstep

end Results

/-! ### A step -/

def sampleManifest : ReplayManifestRef := ⟨sampleId 3, 1, genesisHash, Nat.one_pos⟩

def sampleIdentity : ReplayImplementationIdentity where
  implementationId := ⟨"echo", by decide⟩
  implementationVersion := ⟨"1", by decide⟩

/-- `{}`. -/
def emptyPayload : Payload := ⟨[], rfl, rfl⟩

def emptyHash : Marl.Hash := Marl.sha256Hash (utf8 emptyPayload.json.canonical)

def sampleStep : ReplayStep where
  stepId := sampleId 4
  order := 1
  kind := .consensus
  policy := .deterministic
  implementation := some sampleIdentity
  input := emptyPayload
  inputHash := emptyHash
  expectedOutput := emptyPayload
  expectedOutputHash := emptyHash
  positive_order := Nat.one_pos
  input_hash := ledgerPayloadHash_eq emptyPayload
  output_hash := ledgerPayloadHash_eq emptyPayload
  executable _ := rfl
  recorded_only := nofun
  external_permitted := nofun

def sampleHistory : HistoricalReplay where
  workspaceId := sampleId 0
  sourceSessionId := sampleId 0
  manifest := sampleManifest
  ledgerEvents := []
  steps := [sampleStep]
  same_session := List.forall_mem_nil _
  gapless := rfl
  ordered := List.pairwise_singleton _ _
  unique_ids := List.nodup_singleton _

def echoExecution : ReplayExecution where
  implementation := sampleIdentity
  output := emptyPayload
  outputHash := emptyHash
  output_hash := ledgerPayloadHash_eq emptyPayload

def echo : ReplayImplementation where
  identity := sampleIdentity
  execute _ := .ok echoExecution
  deterministic := true
  external := false

def echoRegistry : ReplayImplementationRegistry := ⟨[echo], List.nodup_singleton _⟩

def sampleService : SessionReplayService where
  source _ _ _ := .ok (some sampleHistory)
  ledger := genesis fun _ => some (sampleId 0)
  implementations := echoRegistry

theorem resolve_echo (h : sampleStep.policy ≠ .recorded) :
    echoRegistry.resolve (sampleStep.pinned h) = some echo := by
  show dictGet (·.identity.key) [echo] sampleIdentity.key = some echo
  exact (dictGet_eq_some echoRegistry.unique).mpr ⟨List.mem_singleton_self _, rfl⟩

theorem reproduced_sample : Reproduced echoRegistry sampleStep := fun h =>
  ⟨echo, echoExecution, resolve_echo h, rfl, strictMismatch_eq_none.mpr ⟨rfl, rfl, rfl⟩⟩

theorem permitted_sample : Permitted echoRegistry sampleStep := by
  intro h implementation himplementation
  obtain rfl := Option.some.inj ((resolve_echo h).symm.trans himplementation)
  exact ⟨rfl, rfl⟩

theorem checked_sample : @Checked Marl.canonicalRuntime sampleService (sampleId 0) (sampleId 0)
    sampleManifest sampleHistory := by
  have hread : readLedger sampleService.ledger (sampleId 0) (sampleId 0) 1 = .ok [] := by
    unfold readLedger
    split
    · next h => cases h
    · next batch h =>
      obtain rfl := Except.ok.inj h
      rfl
  have hverify : sampleService.ledger.verify (sampleId 0) (sampleId 0)
      = .ok { valid := true, eventCount := 0, headHash := genesisHash } := rfl
  have hledger : sampleService.verifyLedger sampleHistory = .ok none := by
    show (sampleService.ledger.verify (sampleId 0) (sampleId 0) >>= _) = _
    rw [hverify, Except.ok_bind]
    show (readLedger sampleService.ledger (sampleId 0) (sampleId 0) 1 >>= _) = _
    rw [hread]
    rfl
  refine ⟨rfl, ?_⟩
  show (sampleService.verifyLedger sampleHistory >>= _) = _
  rw [hledger]
  rfl

theorem strict_agrees_tolerant_echo :
    (∃ r', @SessionReplayService.replay Marl.canonicalRuntime sampleService
        (plainRequest .tolerant (sampleId 0) (sampleId 0) sampleManifest) = .ok r'
      ∧ r'.outcome = .matched ∧ r'.checkedSteps = 1 ∧ r'.byteIdentical = true)
    ∧ ∃ r, @SessionReplayService.replay Marl.canonicalRuntime sampleService
        (plainRequest .strict (sampleId 0) (sampleId 0) sampleManifest) = .ok r ∧ r.outcome = .verified := by
  have hall : ∀ step ∈ sampleHistory.steps, Reproduced echoRegistry step ∧ Permitted echoRegistry step :=
    List.forall_mem_singleton.mpr ⟨reproduced_sample, permitted_sample⟩
  obtain ⟨hreplay, hverified⟩ := (@strict_verified_iff Marl.canonicalRuntime _ _ _ _ _).mpr
    ⟨sampleHistory, checked_sample, hall, rfl⟩
  obtain ⟨hstrict, htolerant⟩ :=
    @strict_agrees_tolerant Marl.canonicalRuntime sampleService (sampleId 0) (sampleId 0) sampleManifest
  obtain ⟨r', hreplay', hmatched, hchecked, hidentical⟩ := hstrict _ hreplay hverified
  refine ⟨⟨r', hreplay', hmatched, hchecked, hidentical⟩, htolerant r' hreplay' hmatched ?_⟩
  intro historical hsource step hstep
  obtain rfl := Option.some.inj (Except.ok.inj hsource)
  exact (hall step hstep).2

end Agora.Replay
