import Agora.Consensus.Permutation
import Agora.Consensus.Trace
import Mathlib.Tactic.Linarith
import Mathlib.Tactic.Ring

namespace Agora.Consensus

/-!
# How far evidence moves a support

With weights in `[0, 1]` the evidence ratio lies strictly between `-1` and `1`, and a positive ratio
raises the score of its position.  So the blended support lies between the raw support and `1`
(`supportBounds`), and the clamps of the reported support change nothing (`evidence_bounds`).
-/

/-- A number of the unit interval. -/
def InUnit (x : ℚ) : Prop := 0 ≤ x ∧ x ≤ 1

/-- Weights, `beta` and `lambda` in `[0, 1]`. -/
structure EvidenceParameters.Normalized (p : EvidenceParameters ℚ) : Prop where
  positionWeights : ∀ entry ∈ weightsOrDefault p.positionWeights, InUnit entry.2
  verificationWeights : ∀ entry ∈ p.verificationWeights, InUnit entry.2
  trustMultiplier : ∀ entry ∈ p.trustMultiplier, InUnit entry.2
  beta : InUnit p.beta
  lam : InUnit p.lam

/-! ### Weights -/

section Weights

theorem lookup_getD_inUnit {table : List (String × ℚ)} (h : ∀ entry ∈ table, InUnit entry.2)
    {default : ℚ} (hdefault : InUnit default) (key : String) :
    InUnit ((table.lookup key).getD default) := by
  cases hkey : table.lookup key with
  | none => exact hdefault
  | some weight =>
    obtain ⟨before, after, rfl, -⟩ := List.lookup_eq_some_iff.mp hkey
    exact h (key, weight) (by simp)

theorem positionScore_inUnit {weights : Option (List (String × ℚ))}
    (h : ∀ entry ∈ weightsOrDefault weights, InUnit entry.2) (stance : String) {confidence : ℚ}
    (hconfidence : InUnit confidence) (useConfidence : Bool) :
    InUnit (positionScore stance confidence useConfidence weights) := by
  have hhalf : InUnit (ofRat (1 / 2) : ℚ) := ⟨by decide +kernel, by decide +kernel⟩
  have hweight := lookup_getD_inUnit h hhalf stance
  unfold positionScore
  dsimp only
  split
  · exact ⟨mul_nonneg hweight.1 hconfidence.1,
      mul_le_one₀ hweight.2 hconfidence.1 hconfidence.2⟩
  · exact hweight

variable {p : EvidenceParameters ℚ} (hp : p.Normalized)
include hp

theorem citationWeight_nonneg (c : EvidenceCitationInput) :
    0 ≤ citationWeight c p.verificationWeights p.trustMultiplier := by
  have hzero : InUnit (0 : ℚ) := ⟨le_rfl, zero_le_one⟩
  exact mul_nonneg (lookup_getD_inUnit hp.verificationWeights hzero _).1
    (lookup_getD_inUnit hp.trustMultiplier hzero _).1

theorem evidenceStrength_nonneg (q : AgentPosition ℚ) (evidence : List EvidenceCitationInput) :
    0 ≤ (evidenceStrength q evidence p.verificationWeights p.trustMultiplier p.independenceCap).1
      ∧ 0 ≤ (evidenceStrength q evidence p.verificationWeights p.trustMultiplier
        p.independenceCap).2 := by
  have hnonneg (citations : List EvidenceCitationInput) : 0 ≤ pySum (citations.map fun c =>
      citationWeight c p.verificationWeights p.trustMultiplier) := by
    rw [pySum_eq_sum]
    apply List.sum_nonneg
    intro w hw
    obtain ⟨c, -, rfl⟩ := List.mem_map.mp hw
    exact citationWeight_nonneg hp c
  exact ⟨hnonneg _, hnonneg _⟩

end Weights

/-! ### The ratio -/

section Ratio

variable {e d : ℚ}

/-- `(E - D) / (E + D + 1)`. -/
def evidenceRatio (e d : ℚ) : ℚ := (e - d) / (e + d + 1)

theorem divisor_pos (he : 0 ≤ e) (hd : 0 ≤ d) : 0 < e + d + 1 := by linarith

theorem evidenceRatio_bounds (he : 0 ≤ e) (hd : 0 ≤ d) :
    -1 < evidenceRatio e d ∧ evidenceRatio e d < 1 := by
  have hpos := divisor_pos he hd
  constructor
  · apply (lt_div_iff₀ hpos).mpr
    linarith
  · apply (div_lt_iff₀ hpos).mpr
    linarith

theorem evidenceRatio_nonpos (he : 0 ≤ e) (hd : 0 ≤ d) (h : ¬ d < e) : evidenceRatio e d ≤ 0 := by
  apply div_nonpos_of_nonpos_of_nonneg _ (divisor_pos he hd).le
  linarith

end Ratio

/-! ### The blended support -/

section Blend

variable {ctx : ConsensusContext ℚ} {p : EvidenceParameters ℚ}

/-- The support without evidence. -/
def rawSupport (ctx : ConsensusContext ℚ) (p : SupportParameters ℚ) (a : UUID) : ℚ :=
  (computeSupport a ctx.agentPositions p.useConfidence p.abstainPolicy p.positionWeights).1

/-- `(E, D)` of a position. -/
def strengthOf (ctx : ConsensusContext ℚ) (p : EvidenceParameters ℚ) (q : AgentPosition ℚ) :
    ℚ × ℚ :=
  evidenceStrength q ctx.evidence p.verificationWeights p.trustMultiplier p.independenceCap

/-- The score of a position without evidence. -/
def baseScore (p : SupportParameters ℚ) (q : AgentPosition ℚ) : ℚ :=
  positionScore q.stance q.confidence p.useConfidence p.positionWeights

/-- By how much evidence multiplies the score of a position. -/
def evidenceFactor (ctx : ConsensusContext ℚ) (p : EvidenceParameters ℚ) (q : AgentPosition ℚ) :
    ℚ :=
  1 + p.lam * max 0 (evidenceRatio (strengthOf ctx p q).1 (strengthOf ctx p q).2)

/-- The two supports that are blended. -/
def evidenceSupport (ctx : ConsensusContext ℚ) (p : EvidenceParameters ℚ) (a : UUID) : ℚ :=
  min 1 (mean ((relevantPositions a ctx.agentPositions p.abstainPolicy).map fun q =>
    baseScore p.toSupportParameters q * evidenceFactor ctx p q))

theorem blend_bounds {x y t : ℚ} (ht : InUnit t) (h : x ≤ y) :
    x ≤ (1 - t) * x + t * y ∧ (1 - t) * x + t * y ≤ y := by
  have hgain := mul_nonneg ht.1 (sub_nonneg.mpr h)
  have hloss := mul_nonneg (sub_nonneg.mpr ht.2) (sub_nonneg.mpr h)
  constructor <;> linarith

/-- What the evidence pass makes of the terms of the positions. -/
theorem alternativeSupport_of_terms {alt : AlternativeInput} {terms : List (ℚ × ℚ)}
    (h : (relevantPositions alt.alternativeId ctx.agentPositions p.abstainPolicy).mapM
      (evidenceTerm ctx p) = .ok terms) :
    alternativeSupport ctx p alt = .ok
      { alternative := alt
        relevant := relevantPositions alt.alternativeId ctx.agentPositions p.abstainPolicy
        evidenceTotal := pySum (terms.map (·.1))
        support := (1 - p.beta) * rawSupport ctx p.toSupportParameters alt.alternativeId
          + p.beta * min 1 (mean (terms.map (·.2))) } := by
  have hlength := (Except.mapM_eq_ok_iff.mp h).length_eq
  have hempty : (relevantPositions alt.alternativeId ctx.agentPositions p.abstainPolicy).isEmpty
      = (terms.map (·.2)).isEmpty := by
    rw [Bool.eq_iff_iff, List.isEmpty_iff_length_eq_zero, List.isEmpty_iff_length_eq_zero, hlength,
      List.length_map]
  unfold alternativeSupport
  simp only [h, Except.ok_bind, Except.pure_eq_ok, hempty, hlength, pyMin_eq_min]
  unfold mean
  rw [List.length_map]
  split
  · rw [min_eq_right zero_le_one]
    rfl
  · rfl

theorem alternativeSupport_bind (alt : AlternativeInput) : alternativeSupport ctx p alt
    = (relevantPositions alt.alternativeId ctx.agentPositions p.abstainPolicy).mapM
      (evidenceTerm ctx p) >>= fun terms => .ok
        { alternative := alt
          relevant := relevantPositions alt.alternativeId ctx.agentPositions p.abstainPolicy
          evidenceTotal := pySum (terms.map (·.1))
          support := (1 - p.beta) * rawSupport ctx p.toSupportParameters alt.alternativeId
            + p.beta * min 1 (mean (terms.map (·.2))) } := by
  cases h : (relevantPositions alt.alternativeId ctx.agentPositions p.abstainPolicy).mapM
      (evidenceTerm ctx p) with
  | error e =>
    unfold alternativeSupport
    simp only [h, Except.error_bind]
  | ok terms => exact alternativeSupport_of_terms h

variable (hp : p.Normalized)
include hp

/-- The division is never by zero, and the clamp of the ratio changes nothing. -/
theorem evidenceTerm_eq (q : AgentPosition ℚ) : evidenceTerm ctx p q
    = .ok ((strengthOf ctx p q).1, baseScore p.toSupportParameters q * evidenceFactor ctx p q) := by
  obtain ⟨he, hd⟩ := evidenceStrength_nonneg hp q ctx.evidence
  have hne := (divisor_pos he hd).ne'
  obtain ⟨hlow, hhigh⟩ := evidenceRatio_bounds he hd
  unfold evidenceTerm decDiv
  dsimp only
  rw [if_neg hne, Except.ok_bind]
  show Except.ok (_, _ * (1 + p.lam * pyMax 0 (clamp (evidenceRatio _ _) (-1) 1))) = _
  rw [clamp_eq_self hlow.le hhigh.le, pyMax_eq_max]
  rfl

theorem evidenceFactor_ge_one (q : AgentPosition ℚ) : 1 ≤ evidenceFactor ctx p q := by
  have hgain := mul_nonneg hp.lam.1 (le_max_left 0
    (evidenceRatio (strengthOf ctx p q).1 (strengthOf ctx p q).2))
  unfold evidenceFactor
  linarith

theorem evidenceFactor_eq_one {q : AgentPosition ℚ}
    (h : ¬ (strengthOf ctx p q).2 < (strengthOf ctx p q).1) : evidenceFactor ctx p q = 1 := by
  obtain ⟨he, hd⟩ := evidenceStrength_nonneg hp q ctx.evidence
  have hratio : evidenceRatio (strengthOf ctx p q).1 (strengthOf ctx p q).2 ≤ 0 :=
    evidenceRatio_nonpos he hd h
  rw [evidenceFactor, max_eq_left hratio, mul_zero, add_zero]

theorem alternativeSupport_eq (ctx : ConsensusContext ℚ) (alt : AlternativeInput) :
    ∃ b, alternativeSupport ctx p alt = .ok b
      ∧ b.support = (1 - p.beta) * rawSupport ctx p.toSupportParameters alt.alternativeId
        + p.beta * evidenceSupport ctx p alt.alternativeId := by
  have hterms (l : List (AgentPosition ℚ)) : l.mapM (evidenceTerm ctx p) = .ok (l.map fun q =>
      ((strengthOf ctx p q).1, baseScore p.toSupportParameters q * evidenceFactor ctx p q)) := by
    rw [Except.mapM_eq_ok_iff, List.forall₂_map_right_iff, List.forall₂_same]
    intro q _
    exact evidenceTerm_eq hp q
  refine ⟨_, alternativeSupport_of_terms (hterms _), ?_⟩
  dsimp only
  rw [List.map_map]
  rfl

theorem baseScore_inUnit {q : AgentPosition ℚ} (hq : q ∈ ctx.agentPositions) :
    InUnit (baseScore p.toSupportParameters q) :=
  positionScore_inUnit hp.positionWeights _ (ctx.confidence_range q hq) _

theorem rawSupport_le_one (a : UUID) : rawSupport ctx p.toSupportParameters a ≤ 1 := by
  rw [rawSupport, computeSupport_fst]
  apply mean_le_one
  intro v hv
  obtain ⟨q, hq, rfl⟩ := List.mem_map.mp hv
  exact (baseScore_inUnit hp (mem_relevantPositions.mp hq).1).2

theorem rawSupport_nonneg (a : UUID) : 0 ≤ rawSupport ctx p.toSupportParameters a := by
  rw [rawSupport, computeSupport_fst]
  apply mean_nonneg
  intro v hv
  obtain ⟨q, hq, rfl⟩ := List.mem_map.mp hv
  exact (baseScore_inUnit hp (mem_relevantPositions.mp hq).1).1

/-- Evidence does not lower a support. -/
theorem rawSupport_le_evidenceSupport (a : UUID) :
    rawSupport ctx p.toSupportParameters a ≤ evidenceSupport ctx p a := by
  apply le_min (rawSupport_le_one hp a)
  rw [rawSupport, computeSupport_fst]
  apply mean_mono
  rw [List.forall₂_map_left_iff, List.forall₂_map_right_iff, List.forall₂_same]
  intro q hq
  exact le_mul_of_one_le_right (baseScore_inUnit hp (mem_relevantPositions.mp hq).1).1
    (evidenceFactor_ge_one hp q)

/-- Without a position that has more for it than against it, evidence changes nothing. -/
theorem evidenceSupport_eq {a : UUID}
    (h : ∀ q ∈ relevantPositions a ctx.agentPositions p.abstainPolicy,
      ¬ (strengthOf ctx p q).2 < (strengthOf ctx p q).1) :
    evidenceSupport ctx p a = rawSupport ctx p.toSupportParameters a := by
  have hscores : (relevantPositions a ctx.agentPositions p.abstainPolicy).map (fun q =>
        baseScore p.toSupportParameters q * evidenceFactor ctx p q)
      = (relevantPositions a ctx.agentPositions p.abstainPolicy).map
        (baseScore p.toSupportParameters) := by
    apply List.map_congr_left
    intro q hq
    rw [evidenceFactor_eq_one hp (h q hq), mul_one]
  have hraw : rawSupport ctx p.toSupportParameters a ≤ 1 := rawSupport_le_one hp a
  rw [rawSupport, computeSupport_fst] at hraw ⊢
  rw [evidenceSupport, hscores]
  exact min_eq_right hraw

/-- **Bounds.**  The blended support lies between the raw support and 1. -/
theorem supportBounds {alt : AlternativeInput} {b : AlternativeSupport ℚ}
    (hb : alternativeSupport ctx p alt = .ok b) :
    rawSupport ctx p.toSupportParameters alt.alternativeId ≤ b.support ∧ b.support ≤ 1 := by
  obtain ⟨b', hb', hsupport⟩ := alternativeSupport_eq hp ctx alt
  obtain rfl := Except.ok.inj (hb.symm.trans hb')
  obtain ⟨hlow, hhigh⟩ := blend_bounds hp.beta (rawSupport_le_evidenceSupport hp alt.alternativeId)
  rw [hsupport]
  exact ⟨hlow, hhigh.trans (min_le_left _ _)⟩

end Blend

/-! ### The reported support -/

section Reported

variable {ctx : ConsensusContext ℚ} {env : EvaluationEnv ℚ}

/-- The parameters with which a strategy weighs evidence. -/
def Strategy.WeighsEvidence (s : Strategy) (params : ParamMap) (p : EvidenceParameters ℚ) : Prop :=
  match s with
  | .weighted => False
  | .evidenceWeighted => ∃ alpha, evidenceWeightedParameters params = .ok (p, alpha)
  | .constraintAware => ∃ q : ConstraintAwareParameters ℚ,
      constraintAwareParameters params = .ok q ∧ q.toEvidenceParameters = p

/-- A score that reports the clamped support of its alternative. -/
def ReportsSupport (ctx : ConsensusContext ℚ) (p : EvidenceParameters ℚ) (t : AlternativeScore ℚ) :
    Prop :=
  ∃ alt ∈ ctx.gate.rankable, t.alternativeId = alt.alternativeId
    ∧ ∃ b, alternativeSupport ctx p alt = .ok b ∧ t.support = clamp b.support 0 1

theorem evidenceWeighted_reports {p : EvidenceParameters ℚ} {alpha : ℚ}
    (hp : evidenceWeightedParameters ctx.strategyConfig.parameters = .ok (p, alpha))
    {result : ConsensusResult ℚ} (h : Strategy.evidenceWeighted.evaluate ctx env = .ok result) :
    ∀ t ∈ result.scores, ReportsSupport ctx p t := by
  have hranked : result.scores = [] ∨ ∃ rows, ctx.gate.rankable.mapM
      (evidenceWeightedRow ctx p alpha ctx.gate) = .ok rows ∧ result.scores = rankRows rows := by
    obtain ⟨st, hst, h⟩ := Except.bind_eq_ok.mp h
    rw [Strategy.stages, evidenceWeightedStages, hp, Except.ok_bind] at hst
    simp only [feasibilityGate_eq, Except.ok_bind] at hst
    by_cases hgate : ctx.gate.allInfeasible = true
    · rw [if_pos hgate] at hst
      cases hst
      cases h
      exact Or.inl rfl
    · rw [if_neg hgate] at hst
      obtain ⟨rows, hrows, hst⟩ := Except.bind_eq_ok.mp hst
      cases hrank : rankRows rows with
      | nil =>
        simp only [hrank] at hst
        cases hst
        cases h
        exact Or.inl rfl
      | cons leader followers =>
        simp only [hrank] at hst
        by_cases hzero : leader.evidenceStrength.getD 0 = 0
        · rw [if_pos hzero] at hst
          cases hst
          cases h
          exact Or.inr ⟨rows, hrows, hrank.symm⟩
        · rw [if_neg hzero] at hst
          cases hst
          cases h
          exact Or.inr ⟨rows, hrows, hrank.symm⟩
  rcases hranked with hnone | ⟨rows, hrows, hscores⟩
  · simp [hnone]
  · intro t ht
    rw [hscores] at ht
    obtain ⟨row, hrow, n, rfl⟩ := mem_rankRows ht
    obtain ⟨alt, halt, hrow⟩ := Except.exists_of_mem_mapM hrows hrow
    obtain ⟨b, hb, hrow⟩ := Except.bind_eq_ok.mp hrow
    obtain ⟨value, -, hrow⟩ := Except.bind_eq_ok.mp hrow
    obtain rfl := Except.ok.inj hrow
    exact ⟨alt, halt, rfl, b, hb, rfl⟩

theorem frontier_support {p : ConstraintAwareParameters ℚ} {supports : List (AlternativeSupport ℚ)}
    (hsupports : ctx.gate.rankable.mapM (alternativeSupport ctx p.toEvidenceParameters)
      = .ok supports)
    {pareto : List (Candidate ℚ)} (hpareto : frontier ctx p supports = .ok pareto) {c : Candidate ℚ}
    (hc : c ∈ pareto) : ∃ alt ∈ ctx.gate.rankable, c.id = alt.alternativeId
      ∧ alternativeSupport ctx p.toEvidenceParameters alt = .ok c.toAlternativeSupport := by
  obtain ⟨candidates, hcandidates, hpareto⟩ := Except.bind_eq_ok.mp hpareto
  obtain rfl := Except.ok.inj hpareto
  obtain ⟨b, hb, hvalues⟩ := Except.exists_of_mem_mapM hcandidates (List.mem_filter.mp hc).1
  obtain ⟨values, -, hvalues⟩ := Except.bind_eq_ok.mp hvalues
  obtain rfl := Except.ok.inj hvalues
  have hfloor : b ∈ supports := by
    unfold evidenceFloor at hb
    split at hb
    · exact hb
    · exact (List.mem_filter.mp hb).1
  obtain ⟨alt, halt, hok⟩ := Except.exists_of_mem_mapM hsupports hfloor
  exact ⟨alt, halt, congrArg _ (alternativeSupport_spec hok).1, hok⟩

theorem constraintAware_reports {p : ConstraintAwareParameters ℚ}
    (hp : constraintAwareParameters ctx.strategyConfig.parameters = .ok p)
    {result : ConsensusResult ℚ} (h : Strategy.constraintAware.evaluate ctx env = .ok result) :
    ∀ t ∈ result.scores, ReportsSupport ctx p.toEvidenceParameters t := by
  obtain ⟨st, hst, h⟩ := Except.bind_eq_ok.mp h
  rw [Strategy.stages, constraintAwareStages, hp, Except.ok_bind] at hst
  simp only [feasibilityGate_eq, Except.ok_bind] at hst
  by_cases hgate : ctx.gate.allInfeasible = true
  · rw [if_pos hgate] at hst
    cases hst
    cases h
    simp [infeasibleResult, ConsensusContext.result]
  · rw [if_neg hgate] at hst
    obtain ⟨supports, hsupports, hst⟩ := Except.bind_eq_ok.mp hst
    by_cases hfloor : (evidenceFloor p supports).isEmpty = true
    · rw [if_pos hfloor] at hst
      cases hst
      cases h
      simp [ConsensusResult.withReports, ConsensusContext.result]
    · rw [if_neg hfloor] at hst
      obtain ⟨pareto, hpareto, hst⟩ := Except.bind_eq_ok.mp hst
      -- A score of either return is that of a member of the frontier.
      have hscore {c : Candidate ℚ} (hc : c ∈ pareto) (rankScore : Option ℚ)
          (feasibility : FeasibilityStatus) (n : ℕ) : ReportsSupport ctx p.toEvidenceParameters
            { candidateScore c rankScore feasibility with rank := n } := by
        obtain ⟨alt, halt, hid, hok⟩ := frontier_support hsupports hpareto hc
        exact ⟨alt, halt, hid, _, hok, rfl⟩
      by_cases hconflict : conflictTest ctx.objectives pareto = true
      · rw [if_pos hconflict] at hst
        cases hst
        cases h
        intro t ht
        obtain ⟨u, hu, n, rfl⟩ := mem_withRanks ht
        obtain ⟨c, hc, rfl⟩ := List.mem_map.mp hu
        exact hscore hc _ _ n
      · rw [if_neg hconflict] at hst
        have hmem : ∀ t ∈ withRanks ((sortedDesc (·.support) pareto).map fun c =>
            candidateScore c (some c.support) (scoreFeasibility ctx.gate c.id)),
            ReportsSupport ctx p.toEvidenceParameters t := by
          intro t ht
          obtain ⟨u, hu, n, rfl⟩ := mem_withRanks ht
          obtain ⟨c, hc, rfl⟩ := List.mem_map.mp hu
          exact hscore (mem_sortedDesc.mp hc) _ _ n
        split at hst
        · cases hst
        · rename_i leader followers hrank
          cases hst
          cases h
          intro t ht
          rw [finish_scores] at ht
          rw [hrank] at hmem
          exact hmem t ht

theorem evaluate_reports {s : Strategy} {p : EvidenceParameters ℚ}
    (hp : s.WeighsEvidence ctx.strategyConfig.parameters p) {result : ConsensusResult ℚ}
    (h : s.evaluate ctx env = .ok result) : ∀ t ∈ result.scores, ReportsSupport ctx p t := by
  cases s with
  | weighted => exact absurd hp id
  | evidenceWeighted =>
    obtain ⟨alpha, hp⟩ := hp
    exact evidenceWeighted_reports hp h
  | constraintAware =>
    obtain ⟨q, hp, rfl⟩ := hp
    exact constraintAware_reports hp h

/-- `weighted` reads the parameters of a support in the same way. -/
theorem weightedParameters_eq {params : ParamMap} {s : Strategy} {p : EvidenceParameters ℚ}
    (hp : s.WeighsEvidence params p) {p' : SupportParameters ℚ} {alpha : ℚ}
    (h : weightedParameters params = .ok (p', alpha)) : p' = p.toSupportParameters := by
  obtain ⟨policy, hpolicy, h⟩ := Except.bind_eq_ok.mp h
  obtain ⟨agreement, hagreement, h⟩ := Except.bind_eq_ok.mp h
  obtain ⟨partialThreshold, hpartial, h⟩ := Except.bind_eq_ok.mp h
  obtain ⟨_, halpha, h⟩ := Except.bind_eq_ok.mp h
  obtain ⟨weights, hweights, h⟩ := Except.bind_eq_ok.mp h
  cases h
  cases s with
  | weighted => exact absurd hp id
  | evidenceWeighted =>
    obtain ⟨alpha', hp⟩ := hp
    simp only [evidenceWeightedParameters, hpolicy, hagreement, hpartial, halpha, hweights,
      Except.ok_bind] at hp
    iterate 5 obtain ⟨_, -, hp⟩ := Except.bind_eq_ok.mp hp
    cases hp
    rfl
  | constraintAware =>
    obtain ⟨q, hp, rfl⟩ := hp
    simp only [constraintAwareParameters, hpolicy, hagreement, hpartial, hweights,
      Except.ok_bind] at hp
    iterate 7 obtain ⟨_, -, hp⟩ := Except.bind_eq_ok.mp hp
    cases hp
    rfl

/-- What evidence does to the supports of a context. -/
structure EvidenceRaises (s : Strategy) (ctx : ConsensusContext ℚ) (p : EvidenceParameters ℚ) :
    Prop where
  /-- The division of the ratio does not fail, and the ratio is strictly between -1 and 1. -/
  ratio : ∀ q ∈ ctx.agentPositions, ∃ ratio,
    decDiv ((strengthOf ctx p q).1 - (strengthOf ctx p q).2)
        ((strengthOf ctx p q).1 + (strengthOf ctx p q).2 + 1) = .ok ratio
      ∧ -1 < ratio ∧ ratio < 1
  support : ∀ alt ∈ ctx.gate.rankable, ∃ b, alternativeSupport ctx p alt = .ok b
    ∧ rawSupport ctx p.toSupportParameters alt.alternativeId ≤ b.support ∧ b.support ≤ 1
    ∧ ((∀ q ∈ relevantPositions alt.alternativeId ctx.agentPositions p.abstainPolicy,
        ¬ (strengthOf ctx p q).2 < (strengthOf ctx p q).1) →
      b.support = rawSupport ctx p.toSupportParameters alt.alternativeId)
  /-- What is reported is the blended support itself. -/
  reported : ∀ env result, s.evaluate ctx env = .ok result → ∀ t ∈ result.scores,
    ∃ alt ∈ ctx.gate.rankable, t.alternativeId = alt.alternativeId
      ∧ ∃ b, alternativeSupport ctx p alt = .ok b ∧ t.support = b.support
  /-- The raw support is what `weighted` reports. -/
  weighted : ∀ env result, Strategy.weighted.evaluate ctx env = .ok result →
    ∀ t ∈ result.scores, t.support = rawSupport ctx p.toSupportParameters t.alternativeId

/-- **Evidence raises a support within its bounds.** -/
theorem evidence_bounds {s : Strategy} {p : EvidenceParameters ℚ}
    (hp : s.WeighsEvidence ctx.strategyConfig.parameters p) (hn : p.Normalized) :
    EvidenceRaises s ctx p where
  ratio := by
    intro q _
    obtain ⟨he, hd⟩ := evidenceStrength_nonneg hn q ctx.evidence
    refine ⟨evidenceRatio (strengthOf ctx p q).1 (strengthOf ctx p q).2, ?_,
      evidenceRatio_bounds he hd⟩
    exact if_neg (divisor_pos he hd).ne'
  support := by
    intro alt _
    obtain ⟨b, hb, hsupport⟩ := alternativeSupport_eq hn ctx alt
    obtain ⟨hlow, hhigh⟩ := supportBounds hn hb
    refine ⟨b, hb, hlow, hhigh, fun hnone => ?_⟩
    rw [hsupport, evidenceSupport_eq hn hnone]
    ring
  reported := by
    intro env result h t ht
    obtain ⟨alt, halt, hid, b, hb, hreported⟩ := evaluate_reports hp h t ht
    obtain ⟨hlow, hhigh⟩ := supportBounds hn hb
    refine ⟨alt, halt, hid, b, hb, ?_⟩
    rw [hreported]
    exact clamp_eq_self ((rawSupport_nonneg hn _).trans hlow) hhigh
  weighted := by
    intro env result h t ht
    obtain ⟨st, hst, -⟩ := Except.bind_eq_ok.mp h
    obtain ⟨⟨p', alpha⟩, hp', -⟩ := Except.bind_eq_ok.mp hst
    rcases weighted_result hp' h with ⟨-, hnone⟩ | ⟨rows, hrows, hscores, -⟩
    · rw [hnone] at ht
      cases ht
    · rw [hscores] at ht
      obtain ⟨row, hrow, n, rfl⟩ := mem_rankRows ht
      obtain ⟨alt, halt, hrow⟩ := Except.exists_of_mem_mapM hrows hrow
      obtain ⟨value, -, hrow⟩ := Except.bind_eq_ok.mp hrow
      obtain rfl := Except.ok.inj hrow
      rw [weightedParameters_eq hp hp']
      exact clamp_eq_self (rawSupport_nonneg hn _) (rawSupport_le_one hn _)

end Reported

section Sample

instance (x : ℚ) : Decidable (InUnit x) := by
  unfold InUnit
  infer_instance

instance (p : EvidenceParameters ℚ) : Decidable p.Normalized :=
  decidable_of_iff ((∀ entry ∈ weightsOrDefault p.positionWeights, InUnit entry.2)
      ∧ (∀ entry ∈ p.verificationWeights, InUnit entry.2)
      ∧ (∀ entry ∈ p.trustMultiplier, InUnit entry.2) ∧ InUnit p.beta ∧ InUnit p.lam)
    ⟨fun ⟨hw, hv, ht, hbeta, hlam⟩ => ⟨hw, hv, ht, hbeta, hlam⟩,
      fun ⟨hw, hv, ht, hbeta, hlam⟩ => ⟨hw, hv, ht, hbeta, hlam⟩⟩

/-- The default weights are normalized. -/
theorem evidence_bounds_split : ∃ p : EvidenceParameters ℚ,
    EvidenceRaises .evidenceWeighted splitContext p := by
  obtain ⟨⟨p, alpha⟩, hp, hnormalized⟩ := Except.exists_ok_of_any
    (p := fun p : EvidenceParameters ℚ × ℚ => p.1.Normalized)
    (show (evidenceWeightedParameters splitContext.strategyConfig.parameters).toOption.any _ = true
      by decide +kernel)
  exact ⟨p, evidence_bounds ⟨alpha, hp⟩ (of_decide_eq_true hnormalized)⟩

end Sample

end Agora.Consensus
