import Agora.Consensus.Safety

namespace Agora.Consensus

/-!
# When the outcome is FULL_CONSENSUS

The outcome class is built up in three steps, each of which may override the one before:
the thresholds, the UNKNOWN override, the cap of unresolved blocking critiques.
`evaluate_fullConsensus_iff` says which leaders keep FULL_CONSENSUS through all of them.
`evidence_weighted` stops a leader whose evidence total is zero, so negative weights let a
leader with a negative total through.
-/

variable {D : Type} [DecimalArith D]

/-- Some critique is blocking and not resolved. -/
def HasBlockingCritique (ctx : ConsensusContext D) : Prop :=
  ∃ c ∈ ctx.critiques, c.severity = "BLOCKING" ∧ c.resolution ∈ ["OPEN", "UNRESOLVED", "DISPUTED"]

theorem blockingCritiques_ne_nil_iff {ctx : ConsensusContext D} :
    blockingCritiques ctx.critiques ≠ [] ↔ HasBlockingCritique ctx := by
  simp only [blockingCritiques, HasBlockingCritique, CritiqueInput.unresolved, ne_eq,
    List.map_eq_nil_iff, List.filter_eq_nil_iff, decide_eq_true_eq, not_forall, not_not,
    exists_prop]

/-- What the classification requires of a leader for FULL_CONSENSUS. -/
structure FullConsensusConditions (ctx : ConsensusContext D) (leader : AlternativeScore D) :
    Prop where
  supported : ∃ threshold, decimalParam ctx.strategyConfig.parameters "agreement_threshold" "0.66"
    = .ok threshold ∧ threshold ≤ leader.support
  unopposed : ∀ p ∈ ctx.agentPositions, p.alternativeId = leader.alternativeId →
    p.stance = "SUPPORT" ∨ p.stance = "ABSTAIN"
  known : ¬ ctx.HasVerdict leader.alternativeId .unknown
  unblocked : ¬ HasBlockingCritique ctx

theorem allActiveSupportive_iff {ctx : ConsensusContext D} {a : UUID} :
    allActiveSupportive ctx a = true
      ↔ ∀ p ∈ ctx.agentPositions, p.alternativeId = a → p.stance = "SUPPORT" ∨ p.stance = "ABSTAIN" := by
  simp [allActiveSupportive, or_iff_not_imp_left (a := ¬ _)]

/-- The outcome before the cap is full for a supported, unopposed leader that is not UNKNOWN. -/
theorem uncappedOutcome_eq_full_iff {ctx : ConsensusContext D} {r : Ranked D}
    (hgate : r.gate = ctx.gate) :
    uncappedOutcome ctx r = .fullConsensus
      ↔ ¬ ctx.HasVerdict r.leader.alternativeId .unknown
        ∧ r.agreementThreshold ≤ r.leader.support
        ∧ allActiveSupportive ctx r.leader.alternativeId = true := by
  rw [uncappedOutcome, hgate, ← any_unknown_iff]
  split_ifs <;> simp_all

/-- The cap removes a full consensus when there is something to block it. -/
theorem blockingGateOutcome_eq_full_iff {blocking : List UUID} {candidate : ConsensusOutcome} :
    blockingGateOutcome blocking candidate = .fullConsensus
      ↔ blocking = [] ∧ candidate = .fullConsensus := by
  unfold blockingGateOutcome
  split_ifs with hcap
  · simp [hcap.1]
  · rw [not_and'] at hcap
    exact ⟨fun hfull => ⟨not_not.mp (hcap hfull), hfull⟩, And.right⟩

/-- **Full consensus of a ranking.** -/
theorem classifyOutcome_eq_full_iff {s : Strategy} {ctx : ConsensusContext D} {r : Ranked D}
    (hsound : r.Sound s ctx) :
    classifyOutcome ctx r = .fullConsensus ↔ FullConsensusConditions ctx r.leader := by
  rw [classifyOutcome_eq, blockingGateOutcome_eq_full_iff,
    uncappedOutcome_eq_full_iff hsound.gate_eq, allActiveSupportive_iff, hsound.blocking_eq,
    ← not_ne_iff, blockingCritiques_ne_nil_iff]
  constructor
  · rintro ⟨hblock, hknown, hsupport, hactive⟩
    exact ⟨⟨_, hsound.agreement, hsupport⟩, hactive, hknown, hblock⟩
  · rintro ⟨⟨threshold, hthreshold, hsupport⟩, hactive, hknown, hblock⟩
    obtain rfl := Except.ok.inj (hthreshold.symm.trans hsound.agreement)
    exact ⟨hblock, hknown, hsupport, hactive⟩

/-- A strategy that stops before the classification does not return FULL_CONSENSUS. -/
theorem stopped_ne_full {s : Strategy} {ctx : ConsensusContext D} {env : EvaluationEnv D}
    {result : ConsensusResult D} (h : StageEnd ctx env s (.stopped result)) :
    result.outcome ≠ .fullConsensus := by
  cases h with
  | infeasible _ derivation hgate => simp [infeasibleResult, ConsensusContext.result]
  | evidenceGate leader followers derivation contributions hgate hscored =>
    simp [evidenceGateResult, ConsensusResult.withReports, ConsensusContext.result]
  | evidenceFloor derivation contributions hgate hfrontier =>
    simp [ConsensusResult.withReports, ConsensusContext.result]
  | conflict pareto derivation contributions hgate hfrontier hconflict hscored =>
    simp [paretoResult_outcome]

/-- **Full consensus.**  The outcome is FULL_CONSENSUS exactly when the stages rank the
    alternatives and the leader, which heads the scores, meets the conditions of the
    classification and the evidence requirement of the strategy. -/
theorem evaluate_fullConsensus_iff {s : Strategy} {ctx : ConsensusContext D}
    {env : EvaluationEnv D} {result : ConsensusResult D} (h : s.evaluate ctx env = .ok result) :
    result.outcome = .fullConsensus
      ↔ ∃ r, s.stages ctx env = .ok (.ranked r) ∧ result.scores = r.leader :: r.followers
        ∧ FullConsensusConditions ctx r.leader ∧ s.EvidenceHeld ctx r.leader.alternativeId := by
  rcases evaluate_cases h with hst | ⟨r, hst, rfl⟩
  · refine iff_of_false (stopped_ne_full (stages_cases hst)) ?_
    rintro ⟨r, hr, -⟩
    rw [hst] at hr
    cases hr
  · cases stages_cases hst with
    | ranked _ _ hgate hsound _ =>
      rw [finish_outcome, classifyOutcome_eq_full_iff hsound]
      constructor
      · intro hfull
        exact ⟨r, hst, finish_scores, hfull, hsound.evidence⟩
      · rintro ⟨r', hr', -, hfull, -⟩
        cases hst.symm.trans hr'
        exact hfull

section Sample

/-- One agent supports the only alternative and cites one verified source. -/
def citedContext (parameters : ParamMap) : ConsensusContext ℚ where
  sessionId := ⟨"00000000-0000-4000-8000-000000000001", .refl true⟩
  round := 1
  alternatives := [⟨⟨"a0000000-0000-4000-8000-000000000001", .refl true⟩, "lease"⟩]
  agentPositions :=
    [{ agentId := ⟨"d0000000-0000-4000-8000-000000000001", .refl true⟩
       agentDefinitionVersion := "1.0.0"
       alternativeId := ⟨"a0000000-0000-4000-8000-000000000001", .refl true⟩
       stance := "SUPPORT", confidence := 1
       evidenceIds := [⟨"e0000000-0000-4000-8000-000000000001", .refl true⟩] }]
  evidence :=
    [{ evidenceId := ⟨"e0000000-0000-4000-8000-000000000001", .refl true⟩
       verification := "SOURCE_VERIFIED", trustLevel := "PRIMARY", polarity := "SUPPORT" }]
  strategyConfig :=
    { strategyName := "evidence_weighted", strategyVersion := "1.0.0", parameters }
  round_pos := Nat.one_pos
  alternatives_ne_nil := by simp
  unique_alternatives := by decide
  unique_verdicts := by decide
  feasibility_matches_alternatives := by simp
  confidence_range := by simp
  weight_range := by simp

/-- The characterisation at a context that reaches full consensus. -/
theorem evaluate_fullConsensus_cited :
    ∃ result, Strategy.evidenceWeighted.evaluate (citedContext []) sampleEnv = .ok result
      ∧ ∃ r, Strategy.evidenceWeighted.stages (citedContext []) sampleEnv = .ok (.ranked r)
        ∧ result.scores = r.leader :: r.followers
        ∧ FullConsensusConditions (citedContext []) r.leader
        ∧ Strategy.evidenceWeighted.EvidenceHeld (citedContext []) r.leader.alternativeId := by
  obtain ⟨result, h, hfull⟩ := Except.exists_ok_of_any
    (p := fun result => result.outcome = .fullConsensus)
    (show (Strategy.evidenceWeighted.evaluate (citedContext []) sampleEnv).toOption.any _ = true by
      decide +kernel)
  exact ⟨result, h, (evaluate_fullConsensus_iff h).mp (of_decide_eq_true hfull)⟩

/-- A verification weight of `-0.5`. -/
def negativeWeights : ParamMap :=
  [("verification_weights", .map [("SOURCE_VERIFIED", .str "-0.5")])]

/-- With a negative verification weight the leader's evidence total is negative, and the
    outcome is FULL_CONSENSUS all the same. -/
theorem fullConsensus_negative_evidence :
    ∃ result leader p alpha,
      Strategy.evidenceWeighted.evaluate (citedContext negativeWeights) sampleEnv = .ok result
        ∧ result.outcome = .fullConsensus ∧ result.scores.head? = some leader
        ∧ evidenceWeightedParameters negativeWeights = .ok (p, alpha)
        ∧ supportingEvidence (citedContext negativeWeights) p leader.alternativeId < 0 := by
  obtain ⟨result, h, hany⟩ := Except.exists_ok_of_any
    (p := fun result => result.outcome = .fullConsensus ∧ result.scores.head?.any fun leader =>
      leader.alternativeId.text = "a0000000-0000-4000-8000-000000000001")
    (show (Strategy.evidenceWeighted.evaluate (citedContext negativeWeights)
      sampleEnv).toOption.any _ = true by decide +kernel)
  obtain ⟨⟨p, alpha⟩, hp, hneg⟩ := Except.exists_ok_of_any
    (p := fun q : EvidenceParameters ℚ × ℚ =>
      supportingEvidence (citedContext negativeWeights) q.1
        ⟨"a0000000-0000-4000-8000-000000000001", by decide⟩ < 0)
    (show (evidenceWeightedParameters negativeWeights).toOption.any _ = true by decide +kernel)
  obtain ⟨hfull, hhead⟩ := of_decide_eq_true hany
  obtain ⟨leader, hleader, hid⟩ := (Option.any_eq_true _ _).mp hhead
  rw [decide_eq_true_eq] at hid hneg
  have hleaderId : leader.alternativeId
      = ⟨"a0000000-0000-4000-8000-000000000001", by decide⟩ := UUID.ext hid
  exact ⟨result, leader, p, alpha, h, hfull, hleader, hp, hleaderId ▸ hneg⟩

end Sample

end Agora.Consensus
