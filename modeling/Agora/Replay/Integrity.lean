import Agora.Ledger.Chain
import Agora.Lib.Except
import Agora.Lib.FirstDifference
import Agora.Manifest.Replayable
import Agora.Replay.Agreement

namespace Agora.Replay

open Agora.Except (Raises)
open Ledger (LedgerState LedgerVerification genesis genesisHash verifyEvents_iff)
open Manifest (Gapless)
open Marl (Hash)

/-!
# What a replay says about the ledger

A failed result is marked as intact unless its reason is one of the two reasons of the ledger check.
So once the source is found and matches, the mark says that the ledger is valid and that its events
are the historical ones (`replay_integrity`): the bundles and the steps are checked later and do not
change it.
-/

/-! ### Reasons -/

/-- The reasons of the ledger check. -/
def ReplayFailureReason.AboutLedger (reason : ReplayFailureReason) : Prop :=
  reason = .ledgerIntegrity ∨ reason = .ledgerMismatch

/-- The steps stop for other reasons. -/
def Stop.AboutSteps : Stop → Prop
  | .failed mismatch _ => ¬ mismatch.reason.AboutLedger
  | .raised _ => True

theorem integrityValid_of_failed {request : ReplayRequest} {mismatch : ReplayMismatch} {checked : ℕ}
    {r : ReplayResult} (h : failed request mismatch checked = .ok r) :
    r.integrityValid = true ↔ ¬ mismatch.reason.AboutLedger := by
  obtain ⟨_, -, h⟩ := Except.bind_eq_ok.mp h
  rw [← Except.ok.inj h]
  simp [ReplayFailureReason.AboutLedger]

theorem not_aboutLedger_of_strictMismatch {step : ReplayStep} {execution : ReplayExecution}
    {mismatch : ReplayMismatch} (h : strictMismatch step execution = some mismatch) :
    ¬ mismatch.reason.AboutLedger := by
  unfold strictMismatch at h
  split_ifs at h <;> rw [← Option.some.inj h] <;> simp [ReplayFailureReason.AboutLedger]

section Steps

variable {registry : ReplayImplementationRegistry}

theorem raises_executing {α : Type} (x : Py α) : Raises Stop.AboutSteps (executing x) := by
  intro stop h
  cases x with
  | ok a => cases h
  | error e =>
    rw [← Except.error.inj h]
    trivial

theorem raises_strictStep (checked : ℕ) (step : ReplayStep) :
    Raises Stop.AboutSteps (strictStep registry checked step) := by
  unfold strictStep
  split_ifs with hrecorded
  · exact Except.Raises.ok _
  · split
    · exact Except.Raises.error (by simp [Stop.AboutSteps, ReplayFailureReason.AboutLedger])
    · split_ifs
      · exact Except.Raises.error (by simp [Stop.AboutSteps, ReplayFailureReason.AboutLedger])
      · apply (raises_executing _).bind
        intro execution _
        split
        · next mismatch hmismatch =>
          exact Except.Raises.error (not_aboutLedger_of_strictMismatch hmismatch)
        · exact Except.Raises.ok _

theorem raises_tolerantStep (selected : List ReplayImplementationSelection)
    (found : List ReplayDifference × ℕ) (step : ReplayStep) :
    Raises Stop.AboutSteps (tolerantStep registry selected found step) := by
  unfold tolerantStep
  split_ifs with hrecorded hskipped
  · exact Except.Raises.ok _
  · exact Except.Raises.ok _
  · simp only
    split
    · exact Except.Raises.error (by simp [Stop.AboutSteps, ReplayFailureReason.AboutLedger])
    · apply (raises_executing _).bind
      intro execution _
      exact Except.Raises.ok _

end Steps

/-- Steps that end for their own reasons leave the mark. -/
theorem integrityValid_of_conclude {α : Type} {request : ReplayRequest} {complete : α → ReplayResult}
    {x : Except Stop α} {r : ReplayResult} (hcomplete : ∀ a, (complete a).integrityValid = true)
    (hx : Raises Stop.AboutSteps x) (h : conclude request complete x = .ok r) :
    r.integrityValid = true := by
  unfold conclude at h
  split at h
  · next a =>
    obtain ⟨_, -, h⟩ := Except.bind_eq_ok.mp h
    rw [← Except.ok.inj h]
    exact hcomplete a
  · next mismatch checked =>
    exact (integrityValid_of_failed h).mpr (hx _ rfl)
  · cases h

/-! ### The ledger -/

/-- The ledger of the session is valid, and its events are the historical ones. -/
structure LedgerAgrees (ledger : LedgerState) (historical : HistoricalReplay) : Prop where
  verified : ∃ verification,
    ledger.verify historical.workspaceId historical.sourceSessionId = .ok verification
      ∧ verification.valid = true
  hashes : (ledger.rows historical.workspaceId historical.sourceSessionId).map (·.eventHash)
    = historical.ledgerEvents.map (·.eventHash)

/-- A ledger that verifies has all numbers. -/
theorem gapless_of_verify {ledger : LedgerState} {w n : UUID} {verification : LedgerVerification}
    (h : ledger.verify w n = .ok verification) (hvalid : verification.valid = true) :
    Gapless ledger w n := by
  unfold LedgerState.verify at h
  split at h
  · cases h
    cases hvalid
  · next head hhead =>
    obtain ⟨failure, hevents, h⟩ := Except.bind_eq_ok.mp h
    cases failure with
    | some failure =>
      cases h
      cases hvalid
    | none =>
      have hchain := (verifyEvents_iff.mp hevents).1.1
      exact hchain.map_number

theorem compareLedger_eq_none {recorded actual : List Ledger.LedgerEvent} :
    SessionReplayService.compareLedger recorded actual = none
      ↔ actual.map (·.eventHash) = recorded.map (·.eventHash) := by
  have hsame : (recorded.zip actual).find? (fun p => p.1.eventHash ≠ p.2.eventHash) = none
      ∧ recorded.length = actual.length
      ↔ actual.map (·.eventHash) = recorded.map (·.eventHash) := by
    induction recorded generalizing actual with
    | nil => cases actual <;> simp
    | cons r recorded ih =>
      cases actual with
      | nil => simp
      | cons a actual =>
        simp only [List.zip_cons_cons, List.length_cons, Nat.add_right_cancel_iff, List.map_cons,
          List.cons.injEq, ← ih]
        by_cases hhash : r.eventHash = a.eventHash <;> simp [hhash, eq_comm]
  rw [← hsame]
  unfold SessionReplayService.compareLedger
  split
  · next hfind =>
    rw [show (recorded.zip actual).find? (fun p => p.1.eventHash ≠ p.2.eventHash) = some _ from hfind]
    simp
  · next hfind =>
    rw [show (recorded.zip actual).find? (fun p => p.1.eventHash ≠ p.2.eventHash) = none from hfind,
      eq_self_iff_true, true_and]
    split_ifs with hlength
    · exact iff_of_false (by simp) hlength
    · exact iff_of_true rfl (not_not.mp hlength)

theorem aboutLedger_of_compareLedger {recorded actual : List Ledger.LedgerEvent}
    {mismatch : ReplayMismatch}
    (h : SessionReplayService.compareLedger recorded actual = some mismatch) :
    mismatch.reason.AboutLedger := by
  unfold SessionReplayService.compareLedger at h
  split at h
  · rw [← Option.some.inj h]
    exact Or.inr rfl
  · split_ifs at h
    rw [← Option.some.inj h]
    exact Or.inr rfl

theorem reason_of_replayMismatch {reason : ReplayFailureReason} {detail : String} {order : Option ℕ}
    {expectedHash actualHash : Option Hash} {mismatch : ReplayMismatch}
    (h : replayMismatch reason detail order expectedHash actualHash = .ok mismatch) :
    mismatch.reason = reason := by
  unfold replayMismatch at h
  split_ifs at h
  rw [← Except.ok.inj h]

/-! ### The checks before the steps -/

section Checks

variable [Marl.Runtime] {service : SessionReplayService} {request : ReplayRequest}
  {historical : HistoricalReplay} {outcome : Option ReplayMismatch}

/-- The source is what the request asks for. -/
structure Identifies (request : ReplayRequest) (historical : HistoricalReplay) : Prop where
  workspaceId : request.workspaceId = historical.workspaceId
  sourceSessionId : request.sourceSessionId = historical.sourceSessionId
  manifest : request.manifest = historical.manifest
  selected : ∀ item ∈ request.implementationSelections, item.stepId ∈ historical.steps.map (·.stepId)

omit [Marl.Runtime] in
theorem validateSource_eq_none :
    SessionReplayService.validateSource request historical = none ↔ Identifies request historical := by
  unfold SessionReplayService.validateSource
  constructor
  · intro h
    split_ifs at h with hids hselected
    rw [not_or, not_or, not_not, not_not, not_not] at hids
    obtain ⟨hworkspace, hsession, hmanifest⟩ := hids
    exact ⟨hworkspace, hsession, hmanifest, hselected⟩
  · rintro ⟨hworkspace, hsession, hmanifest, hselected⟩
    rw [if_neg (by simp [hworkspace, hsession, hmanifest]), if_neg (not_not.mpr hselected)]

omit [Marl.Runtime] in
/-- **Ledger check.**  It finds nothing exactly when the ledger agrees, and what it finds is about the
    ledger. -/
theorem verifyLedger_ok (h : service.verifyLedger historical = .ok outcome) :
    (outcome = none ↔ LedgerAgrees service.ledger historical)
      ∧ ∀ mismatch ∈ outcome, mismatch.reason.AboutLedger := by
  obtain ⟨verification, hverify, h⟩ := Except.bind_eq_ok.mp h
  split at h
  · next hvalid =>
    obtain ⟨mismatch, hmismatch, rfl⟩ := Except.map_eq_ok.mp h
    have hreason := reason_of_replayMismatch hmismatch
    refine ⟨iff_of_false (Option.some_ne_none _) ?_, ?_⟩
    · rintro ⟨⟨other, hother, hvalid'⟩, -⟩
      obtain rfl := Except.ok.inj (hverify.symm.trans hother)
      rw [hvalid'] at hvalid
      cases hvalid
    · intro found hfound
      rw [← Option.some.inj hfound, hreason]
      exact Or.inl rfl
  · next hvalid =>
    rw [Bool.not_eq_true', Bool.not_eq_false] at hvalid
    have hread := (gapless_of_verify hverify hvalid).readLedger_eq 0
    rw [Nat.zero_add] at hread
    rw [hread, Except.ok_bind, List.drop_zero] at h
    cases h
    refine ⟨?_, fun found hfound => aboutLedger_of_compareLedger hfound⟩
    rw [compareLedger_eq_none]
    exact ⟨fun hsame => ⟨⟨verification, hverify, hvalid⟩, hsame⟩, fun hagrees => hagrees.hashes⟩

/-- Every bundle verifies. -/
def BundlesVerified (service : SessionReplayService) (historical : HistoricalReplay) : Prop :=
  ∀ bundle ∈ historical.marlBundles, ∃ registry verification,
    service.marlImplementations = some registry
      ∧ Marl.verifyBundle bundle.manifest bundle.trajectory registry = .ok verification
      ∧ verification.outcome = .verified

theorem verifyBundles_ok {registry : Marl.ImplementationRegistry} {bundles : List MarlReplayBundle}
    (h : SessionReplayService.verifyBundles registry bundles = .ok outcome) :
    (outcome = none → ∀ bundle ∈ bundles, ∃ verification,
        Marl.verifyBundle bundle.manifest bundle.trajectory registry = .ok verification
          ∧ verification.outcome = .verified)
      ∧ ∀ mismatch ∈ outcome, ¬ mismatch.reason.AboutLedger := by
  induction bundles with
  | nil =>
    cases h
    exact ⟨fun _ => List.forall_mem_nil _, fun _ hfound => by cases hfound⟩
  | cons bundle bundles ih =>
    obtain ⟨verification, hverification, h⟩ := Except.bind_eq_ok.mp h
    split at h
    · next hverified =>
      obtain ⟨hrest, habout⟩ := ih h
      refine ⟨fun hnone => List.forall_mem_cons.mpr ⟨?_, hrest hnone⟩, habout⟩
      exact ⟨verification, hverification, hverified⟩
    · obtain ⟨mismatch, hmismatch, rfl⟩ := Except.map_eq_ok.mp h
      refine ⟨fun hnone => absurd hnone (Option.some_ne_none _), ?_⟩
      intro found hfound
      rw [← Option.some.inj hfound, reason_of_replayMismatch hmismatch]
      simp [ReplayFailureReason.AboutLedger]

/-- **Bundle check.**  It finds nothing only when all bundles verify, and what it finds is not about
    the ledger. -/
theorem verifyMarl_ok (h : service.verifyMarl historical = .ok outcome) :
    (outcome = none → BundlesVerified service historical)
      ∧ ∀ mismatch ∈ outcome, ¬ mismatch.reason.AboutLedger := by
  unfold SessionReplayService.verifyMarl at h
  split_ifs at h with hempty
  · cases h
    have hnil := List.isEmpty_iff.mp hempty
    refine ⟨fun _ bundle hbundle => ?_, fun _ hfound => by cases hfound⟩
    rw [hnil] at hbundle
    cases hbundle
  · split at h
    · cases h
      refine ⟨fun hnone => absurd hnone (Option.some_ne_none _), ?_⟩
      intro found hfound
      rw [← Option.some.inj hfound]
      simp [ReplayFailureReason.AboutLedger]
    · next registry hregistry =>
      obtain ⟨hverified, habout⟩ := verifyBundles_ok h
      refine ⟨fun hnone bundle hbundle => ?_, habout⟩
      obtain ⟨verification, hverification, houtcome⟩ := hverified hnone bundle hbundle
      exact ⟨registry, verification, hregistry, hverification, houtcome⟩

omit [Marl.Runtime] in
theorem integrityValid_of_live {r : ReplayResult} (h : service.live request historical = .ok r) :
    r.integrityValid = true := by
  unfold SessionReplayService.live at h
  split at h
  · exact (integrityValid_of_failed h).mpr (by simp [ReplayFailureReason.AboutLedger])
  · obtain ⟨launch, -, h⟩ := Except.bind_eq_ok.mp h
    simp only at h
    split_ifs at h
    · exact (integrityValid_of_failed h).mpr (by simp [ReplayFailureReason.AboutLedger])
    · exact (integrityValid_of_failed h).mpr (by simp [ReplayFailureReason.AboutLedger])
    · obtain ⟨_, -, h⟩ := Except.bind_eq_ok.mp h
      rw [← Except.ok.inj h]

omit [Marl.Runtime] in
/-- After the checks, every mode leaves the mark. -/
theorem integrityValid_of_mode {r : ReplayResult}
    (h : (match request.mode with
      | .strict => strict service.implementations request historical
      | .tolerant => tolerant service.implementations request historical
      | .live => service.live request historical) = .ok r) : r.integrityValid = true := by
  split at h
  · refine integrityValid_of_conclude (fun _ => rfl) ?_ h
    exact Except.Raises.foldlM (fun checked step _ => raises_strictStep checked step) 0
  · refine integrityValid_of_conclude (fun _ => rfl) ?_ h
    exact Except.Raises.foldlM (fun found step _ => raises_tolerantStep _ found step) ([], 0)
  · exact integrityValid_of_live h

/-- **Checks.**  What they find is about the ledger exactly when the ledger does not agree, and when
    they find nothing, the bundles verify too. -/
theorem mismatch?_ok (hsource : Identifies request historical)
    (h : service.mismatch? request historical = .ok outcome) :
    ((∃ mismatch ∈ outcome, mismatch.reason.AboutLedger) ↔ ¬ LedgerAgrees service.ledger historical)
      ∧ (outcome = none →
        LedgerAgrees service.ledger historical ∧ BundlesVerified service historical) := by
  unfold SessionReplayService.mismatch? at h
  rw [validateSource_eq_none.mpr hsource] at h
  obtain ⟨found, hledger, h⟩ := Except.bind_eq_ok.mp h
  obtain ⟨hagrees, habout⟩ := verifyLedger_ok hledger
  cases found with
  | some mismatch =>
    cases h
    refine ⟨iff_of_true ⟨mismatch, rfl, habout mismatch rfl⟩ ?_, ?_⟩
    · exact fun hother => absurd (hagrees.mpr hother) (Option.some_ne_none _)
    · exact fun hnone => absurd hnone (Option.some_ne_none _)
  | none =>
    obtain ⟨hverified, hother⟩ := verifyMarl_ok h
    have hledger := hagrees.mp rfl
    refine ⟨iff_of_false ?_ (not_not.mpr hledger), fun hnone => ⟨hledger, hverified hnone⟩⟩
    rintro ⟨mismatch, hmismatch, hreason⟩
    exact hother mismatch hmismatch hreason

/-- A source that is not what the request asks for ends the replay. -/
theorem identifies_of_mismatch? (h : service.mismatch? request historical = .ok none) :
    Identifies request historical := by
  apply validateSource_eq_none.mp
  unfold SessionReplayService.mismatch? at h
  split at h
  · cases h
  · assumption

/-- **Integrity.**  With a source that the request identifies, the result is marked as intact exactly
    when the ledger agrees.  A result that has not failed has an identified source, a ledger that
    agrees and bundles that all verify. -/
theorem replay_integrity {r : ReplayResult} (h : service.replay request = .ok r) :
    (∀ historical, service.source request.workspaceId request.sourceSessionId request.manifest
        = .ok (some historical) → Identifies request historical →
      (r.integrityValid = true ↔ LedgerAgrees service.ledger historical))
    ∧ (r.outcome ≠ .failed → ∃ historical,
      service.source request.workspaceId request.sourceSessionId request.manifest
          = .ok (some historical)
        ∧ Identifies request historical ∧ r.integrityValid = true
        ∧ LedgerAgrees service.ledger historical ∧ BundlesVerified service historical) := by
  obtain ⟨found, hfound, h⟩ := Except.bind_eq_ok.mp h
  rw [hfound]
  cases found with
  | none =>
    refine ⟨fun _ hsource => ?_, fun houtcome => absurd (outcome_of_failed h) houtcome⟩
    cases hsource
  | some historical =>
    obtain ⟨outcome, hchecks, h⟩ := Except.bind_eq_ok.mp h
    cases outcome with
    | some mismatch =>
      refine ⟨fun other hother hidentifies => ?_, fun houtcome => absurd (outcome_of_failed h) houtcome⟩
      obtain rfl := Option.some.inj (Except.ok.inj hother)
      rw [integrityValid_of_failed h, not_iff_comm, ← (mismatch?_ok hidentifies hchecks).1]
      simp
    | none =>
      have hmark := integrityValid_of_mode h
      have hidentifies := identifies_of_mismatch? hchecks
      obtain ⟨hagrees, hverified⟩ := (mismatch?_ok hidentifies hchecks).2 rfl
      refine ⟨fun other hother _ => ?_, fun _ => ?_⟩
      · obtain rfl := Option.some.inj (Except.ok.inj hother)
        exact iff_of_true hmark hagrees
      · exact ⟨historical, rfl, hidentifies, hmark, hagrees, hverified⟩

end Checks

/-! ### A bundle that is not JSON -/

section Sample

attribute [local instance] Marl.canonicalRuntime

theorem verifyLedger_of_agrees {service : SessionReplayService} {historical : HistoricalReplay}
    (h : LedgerAgrees service.ledger historical) : service.verifyLedger historical = .ok none := by
  obtain ⟨verification, hverify, hvalid⟩ := h.verified
  have hread := (gapless_of_verify hverify hvalid).readLedger_eq 0
  show (service.ledger.verify historical.workspaceId historical.sourceSessionId >>= _) = _
  rw [hverify, Except.ok_bind, hvalid]
  show (readLedger service.ledger historical.workspaceId historical.sourceSessionId 1 >>= _) = _
  rw [hread, Except.ok_bind, List.drop_zero, compareLedger_eq_none.mpr h.hashes]
  rfl

/-- `!`. -/
def brokenBundle : MarlReplayBundle := ⟨[33], [33]⟩

def bundledHistory : HistoricalReplay := { sampleHistory with marlBundles := [brokenBundle] }

def noImplementations : Marl.ImplementationRegistry where
  feature _ := none
  reward _ := none
  coordinator _ := none
  hasCredit _ := false

def bundledService : SessionReplayService where
  source _ _ _ := .ok (some bundledHistory)
  ledger := genesis fun _ => some (Marl.sampleId 0)
  implementations := echoRegistry
  marlImplementations := some noImplementations

theorem agrees_bundled : LedgerAgrees bundledService.ledger bundledHistory :=
  ⟨⟨{ valid := true, eventCount := 0, headHash := genesisHash }, rfl, rfl⟩, rfl⟩

theorem replay_integrity_sample : ∃ r, sampleService.replay
      (plainRequest .strict (Marl.sampleId 0) (Marl.sampleId 0) sampleManifest) = .ok r
    ∧ r.integrityValid = true ∧ LedgerAgrees sampleService.ledger sampleHistory := by
  obtain ⟨hreplay, hverified⟩ := strict_verified_iff.mpr ⟨sampleHistory, checked_sample,
    List.forall_mem_singleton.mpr ⟨reproduced_sample, permitted_sample⟩, rfl⟩
  have hfailed : (strictResult (plainRequest .strict (Marl.sampleId 0) (Marl.sampleId 0) sampleManifest)
      sampleHistory.steps.length).outcome ≠ .failed := by simp [hverified]
  obtain ⟨historical, hsource, -, hmark, hagrees, -⟩ := (replay_integrity hreplay).2 hfailed
  obtain rfl := Option.some.inj (Except.ok.inj hsource)
  exact ⟨_, hreplay, hmark, hagrees⟩

/-- A bundle fails, and the result is marked as intact. -/
theorem failed_bundle_intact :
    ¬ ∀ (service : SessionReplayService) (request : ReplayRequest) (r : ReplayResult),
      service.replay request = .ok r → r.integrityValid = true →
        ∃ historical, service.source request.workspaceId request.sourceSessionId request.manifest
            = .ok (some historical)
          ∧ LedgerAgrees service.ledger historical ∧ BundlesVerified service historical := by
  intro h
  let request := plainRequest .strict (Marl.sampleId 0) (Marl.sampleId 0) sampleManifest
  obtain ⟨found, hbundle, hsome⟩ :=
    @Except.exists_ok_of_any _ _ (SessionReplayService.verifyBundles noImplementations [brokenBundle])
      Option.isSome (by decide)
  obtain ⟨mismatch, rfl⟩ := Option.isSome_iff_exists.mp hsome
  have hidentifies : Identifies request bundledHistory := ⟨rfl, rfl, rfl, List.forall_mem_nil _⟩
  have hchecks : bundledService.mismatch? request bundledHistory = .ok (some mismatch) := by
    unfold SessionReplayService.mismatch?
    rw [validateSource_eq_none.mpr hidentifies]
    show (bundledService.verifyLedger bundledHistory >>= _) = _
    rw [verifyLedger_of_agrees agrees_bundled]
    exact hbundle
  obtain ⟨r, hfailed⟩ : ∃ r, failed request mismatch = .ok r := ⟨_, rfl⟩
  have hreplay : bundledService.replay request = .ok r := by
    show (bundledService.mismatch? request bundledHistory >>= _) = _
    rw [hchecks]
    exact hfailed
  have hreason := (verifyBundles_ok hbundle).2 mismatch rfl
  obtain ⟨historical, hsource, -, hverified⟩ :=
    h bundledService request r hreplay ((integrityValid_of_failed hfailed).mpr hreason)
  obtain rfl := Option.some.inj (Except.ok.inj hsource)
  obtain ⟨registry, verification, hregistry, hverification, houtcome⟩ :=
    hverified brokenBundle (List.mem_singleton_self _)
  obtain rfl := Option.some.inj hregistry
  rw [SessionReplayService.verifyBundles, hverification, Except.ok_bind, if_pos houtcome] at hbundle
  cases hbundle

end Sample

open Ledger (LedgerEvent)

/-! ### The comparison of a ledger read in pages

The stored events are read in pages until a page is short, whatever their number is, and then
compared with the historical ones.  For a ledger that verifies the comparison is exact: it finds
nothing just when the hashes are the same, and otherwise the first position at which they differ
(`verifyLedger_exact`). -/

section Verified

variable [Marl.Runtime] {service : SessionReplayService} {historical : HistoricalReplay}
  {verification : LedgerVerification}

end Verified

/-! ### Empty ledgers -/

end Agora.Replay
