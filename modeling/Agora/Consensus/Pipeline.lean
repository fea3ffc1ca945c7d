import Agora.Consensus.Strategies

namespace Agora.Consensus

/-!
# What the stages of a strategy can do

`StageEnd` lists the ways in which the stages of a strategy end, with everything later results
need about each: the gate removed every alternative, the leader or every alternative is
without evidence, the frontier is in conflict, or a leader is handed to the classification.
`stages_cases` is the one inversion of the three pipelines; every property of a result is a
case analysis over `StageEnd`.
-/

variable {D : Type} [DecimalArith D]

/-! ### Scores of rankable alternatives -/

/-- The total supporting evidence `Σ_i E(i, a)` over the positions that count. -/
def supportingEvidence (ctx : ConsensusContext D) (p : EvidenceParameters D) (a : UUID) : D :=
  pySum ((relevantPositions a ctx.agentPositions p.abstainPolicy).map fun pos =>
    (evidenceStrength pos ctx.evidence p.verificationWeights p.trustMultiplier
      p.independenceCap).1)

/-- A score for an alternative the gate let through. -/
def Scored (ctx : ConsensusContext D) (a : UUID) : Prop :=
  a ∈ ctx.gate.rankable.map (·.alternativeId)

/-- A score that carries the status the gate recorded. -/
def StatusKept (ctx : ConsensusContext D) (s : AlternativeScore D) : Prop :=
  s.feasibility = scoreFeasibility ctx.gate s.alternativeId

theorem evidenceTerm_fst {ctx : ConsensusContext D} {p : EvidenceParameters D}
    {pos : AgentPosition D} {t : D × D} (h : evidenceTerm ctx p pos = .ok t) :
    t.1 = (evidenceStrength pos ctx.evidence p.verificationWeights p.trustMultiplier
      p.independenceCap).1 := by
  obtain ⟨ratio, -, h⟩ := Except.bind_eq_ok.mp h
  obtain rfl := Except.ok.inj h
  rfl

/-- What the evidence pass returns for an alternative. -/
theorem alternativeSupport_spec {ctx : ConsensusContext D} {p : EvidenceParameters D}
    {alt : AlternativeInput} {s : AlternativeSupport D} (h : alternativeSupport ctx p alt = .ok s) :
    s.alternative = alt ∧ s.evidenceTotal = supportingEvidence ctx p alt.alternativeId := by
  obtain ⟨terms, hterms, h⟩ := Except.bind_eq_ok.mp h
  obtain rfl := Except.ok.inj h
  exact ⟨rfl, congrArg pySum (Except.map_eq_of_mapM (fun _ _ => evidenceTerm_fst) hterms)⟩

/-- What a row of `weighted` carries. -/
theorem weightedRow_spec {ctx : ConsensusContext D} {p : SupportParameters D} {alpha : D}
    {gate : FeasibilityGateResult} {alt : AlternativeInput} {row : Row D}
    (h : weightedRow ctx p alpha gate alt = .ok row) :
    row.score.alternativeId = alt.alternativeId
      ∧ row.score.feasibility = scoreFeasibility gate alt.alternativeId := by
  obtain ⟨value, -, h⟩ := Except.bind_eq_ok.mp h
  obtain rfl := Except.ok.inj h
  exact ⟨rfl, rfl⟩

/-- What a row of `evidence_weighted` carries. -/
theorem evidenceWeightedRow_spec {ctx : ConsensusContext D} {p : EvidenceParameters D} {alpha : D}
    {gate : FeasibilityGateResult} {alt : AlternativeInput} {row : Row D}
    (h : evidenceWeightedRow ctx p alpha gate alt = .ok row) :
    row.score.alternativeId = alt.alternativeId
      ∧ row.score.feasibility = scoreFeasibility gate alt.alternativeId
      ∧ row.score.evidenceStrength = some (supportingEvidence ctx p alt.alternativeId) := by
  obtain ⟨s, hs, h⟩ := Except.bind_eq_ok.mp h
  obtain ⟨value, -, h⟩ := Except.bind_eq_ok.mp h
  obtain rfl := Except.ok.inj h
  exact ⟨rfl, rfl, congrArg some (alternativeSupport_spec hs).2⟩

/-! ### Ranking -/

omit [DecimalArith D] in
theorem mem_withRanks {scores : List (AlternativeScore D)} {s : AlternativeScore D}
    (h : s ∈ withRanks scores) : ∃ t ∈ scores, ∃ n, s = { t with rank := n } := by
  obtain ⟨⟨t, i⟩, hmem, rfl⟩ := List.mem_map.mp h
  exact ⟨t, List.fst_mem_of_mem_zipIdx hmem, _, rfl⟩

omit [DecimalArith D] in
theorem exists_mem_withRanks {scores : List (AlternativeScore D)} {t : AlternativeScore D}
    (h : t ∈ scores) : ∃ n, { t with rank := n } ∈ withRanks scores := by
  obtain ⟨i, hi⟩ := List.mem_iff_getElem?.mp h
  exact ⟨i + 1, List.mem_map.mpr ⟨(t, i), List.mem_zipIdx_iff_getElem?.mpr hi, rfl⟩⟩

theorem mem_sortedDesc {α : Type} {key : α → D} {rows : List α} {row : α} :
    row ∈ sortedDesc key rows ↔ row ∈ rows :=
  List.mem_insertionSort _

/-- Every ranked score is a row's score, renumbered. -/
theorem mem_rankRows {rows : List (Row D)} {s : AlternativeScore D} (h : s ∈ rankRows rows) :
    ∃ row ∈ rows, ∃ n, s = { row.score with rank := n } := by
  obtain ⟨t, ht, n, rfl⟩ := mem_withRanks h
  obtain ⟨row, hrow, rfl⟩ := List.mem_map.mp ht
  exact ⟨row, mem_sortedDesc.mp hrow, n, rfl⟩

omit [DecimalArith D] in
theorem withRanks_eq_nil_iff {scores : List (AlternativeScore D)} :
    withRanks scores = [] ↔ scores = [] := by
  simp [withRanks]

/-! ### The ends of the stages -/

/-- The undominated set that stage 3 of `constraint_aware` computes on a context. -/
def constraintAwareFrontier (ctx : ConsensusContext D) : Py (List (Candidate D)) := do
  let p ← constraintAwareParameters ctx.strategyConfig.parameters
  let supports ← ctx.gate.rankable.mapM (alternativeSupport ctx p.toEvidenceParameters)
  frontier ctx p supports

/-- What a strategy requires of a leader's evidence before it classifies it. -/
def Strategy.EvidenceHeld (s : Strategy) (ctx : ConsensusContext D) (a : UUID) : Prop :=
  match s with
  | .weighted => True
  | .evidenceWeighted =>
    ∃ p alpha, evidenceWeightedParameters ctx.strategyConfig.parameters = .ok (p, alpha)
      ∧ supportingEvidence ctx p a ≠ 0
  | .constraintAware =>
    ∃ p : ConstraintAwareParameters D,
      constraintAwareParameters ctx.strategyConfig.parameters = .ok p
        ∧ (p.allowUnevidenced = true ∨ 0 < supportingEvidence ctx p.toEvidenceParameters a)

/-- What the classification may rely on. -/
structure Ranked.Sound (s : Strategy) (ctx : ConsensusContext D) (r : Ranked D) : Prop where
  gate_eq : r.gate = ctx.gate
  blocking_eq : r.blocking = blockingCritiques ctx.critiques
  reports_eq : ∃ contributions, r.reports = reportsOf ctx ctx.gate contributions
  scored : ∀ t ∈ r.leader :: r.followers, Scored ctx t.alternativeId ∧ StatusKept ctx t
  agreement : decimalParam ctx.strategyConfig.parameters "agreement_threshold" "0.66"
    = .ok r.agreementThreshold
  evidence : s.EvidenceHeld ctx r.leader.alternativeId

/-- The ways in which the stages of a strategy end. -/
inductive StageEnd (ctx : ConsensusContext D) (env : EvaluationEnv D) : Strategy → Staged D → Prop
  | infeasible (s : Strategy) (derivation : List (DerivationStep D))
      (hgate : ctx.gate.allInfeasible = true) :
      StageEnd ctx env s (.stopped (infeasibleResult ctx env s.name ctx.gate derivation))
  | evidenceGate (leader : AlternativeScore D) (followers : List (AlternativeScore D))
      (derivation : List (DerivationStep D)) (contributions : List (AgentContribution D))
      (hgate : ctx.gate.allInfeasible = false)
      (hscored : ∀ t ∈ leader :: followers, Scored ctx t.alternativeId ∧ StatusKept ctx t) :
      StageEnd ctx env .evidenceWeighted (.stopped (evidenceGateResult ctx env derivation
        (reportsOf ctx ctx.gate contributions) leader followers))
  | evidenceFloor (derivation : List (DerivationStep D))
      (contributions : List (AgentContribution D)) (hgate : ctx.gate.allInfeasible = false)
      (hfrontier : constraintAwareFrontier ctx = .ok []) :
      StageEnd ctx env .constraintAware (.stopped ((ctx.result env "constraint_aware"
        .insufficientEvidence derivation).withReports (reportsOf ctx ctx.gate contributions)
          (blockingCritiques ctx.critiques)))
  | conflict (pareto : List (Candidate D)) (derivation : List (DerivationStep D))
      (contributions : List (AgentContribution D)) (hgate : ctx.gate.allInfeasible = false)
      (hfrontier : constraintAwareFrontier ctx = .ok pareto)
      (hconflict : conflictTest ctx.objectives pareto = true)
      (hscored : ∀ c ∈ pareto, Scored ctx c.id) :
      StageEnd ctx env .constraintAware (.stopped (paretoResult ctx env derivation
        (reportsOf ctx ctx.gate contributions) pareto))
  | ranked (s : Strategy) (r : Ranked D) (hgate : ctx.gate.allInfeasible = false)
      (hsound : r.Sound s ctx)
      (hfrontier : s = .constraintAware → ∃ pareto, constraintAwareFrontier ctx = .ok pareto
        ∧ conflictTest ctx.objectives pareto = false) :
      StageEnd ctx env s (.ranked r)

/-! ### Inversion -/

/-- The rows of a strategy give scores of rankable alternatives with the gate's status. -/
theorem rankRows_scored {ctx : ConsensusContext D} {f : AlternativeInput → Py (Row D)}
    (hf : ∀ alt row, f alt = .ok row → row.score.alternativeId = alt.alternativeId
      ∧ row.score.feasibility = scoreFeasibility ctx.gate alt.alternativeId)
    {rows : List (Row D)} (hrows : ctx.gate.rankable.mapM f = .ok rows) :
    ∀ t ∈ rankRows rows, Scored ctx t.alternativeId ∧ StatusKept ctx t := by
  intro t ht
  obtain ⟨row, hrow, n, rfl⟩ := mem_rankRows ht
  obtain ⟨alt, halt, hok⟩ := Except.exists_of_mem_mapM hrows hrow
  obtain ⟨hid, hstatus⟩ := hf alt row hok
  refine ⟨List.mem_map.mpr ⟨alt, halt, hid.symm⟩, ?_⟩
  show row.score.feasibility = scoreFeasibility ctx.gate row.score.alternativeId
  rw [hstatus, hid]

/-- A gate that lets something through leaves a leader. -/
theorem rankRows_ne_nil {ctx : ConsensusContext D} {f : AlternativeInput → Py (Row D)}
    (hgate : ctx.gate.allInfeasible = false) {rows : List (Row D)}
    (hrows : ctx.gate.rankable.mapM f = .ok rows) : rankRows rows ≠ [] := by
  intro hnil
  rw [rankRows, withRanks_eq_nil_iff, List.map_eq_nil_iff] at hnil
  have hlen := (Except.mapM_eq_ok_iff.mp hrows).length_eq
  have hempty : rows = [] := by
    rw [List.eq_nil_iff_forall_not_mem]
    intro row hrow
    exact List.not_mem_nil (hnil ▸ mem_sortedDesc.mpr hrow)
  rw [hempty, List.length_nil, List.length_eq_zero_iff] at hlen
  simp [FeasibilityGateResult.allInfeasible, hlen] at hgate

theorem weightedParameters_agreement {params : ParamMap} {p : SupportParameters D} {alpha : D}
    (h : weightedParameters params = .ok (p, alpha)) :
    decimalParam params "agreement_threshold" "0.66" = .ok p.agreementThreshold := by
  obtain ⟨_, -, h⟩ := Except.bind_eq_ok.mp h
  obtain ⟨agreement, hagreement, h⟩ := Except.bind_eq_ok.mp h
  obtain ⟨_, -, h⟩ := Except.bind_eq_ok.mp h
  obtain ⟨_, -, h⟩ := Except.bind_eq_ok.mp h
  obtain ⟨_, -, h⟩ := Except.bind_eq_ok.mp h
  cases h
  exact hagreement

theorem weightedStages_end {ctx : ConsensusContext D} {env : EvaluationEnv D} {st : Staged D}
    (h : weightedStages ctx env = .ok st) : StageEnd ctx env .weighted st := by
  obtain ⟨⟨p, alpha⟩, hp, h⟩ := Except.bind_eq_ok.mp h
  simp only [feasibilityGate_eq, Except.ok_bind] at h
  by_cases hgate : ctx.gate.allInfeasible = true
  · rw [if_pos hgate] at h
    cases h
    exact .infeasible .weighted _ hgate
  · rw [if_neg hgate] at h
    rw [Bool.not_eq_true] at hgate
    obtain ⟨rows, hrows, h⟩ := Except.bind_eq_ok.mp h
    have hscored := rankRows_scored (fun _ _ => weightedRow_spec) hrows
    cases hrank : rankRows rows with
    | nil => exact absurd hrank (rankRows_ne_nil hgate hrows)
    | cons leader followers =>
      simp only [hrank] at h
      cases h
      exact .ranked .weighted _ hgate
        { gate_eq := rfl, blocking_eq := rfl, reports_eq := ⟨_, rfl⟩
          scored := hrank ▸ hscored, agreement := weightedParameters_agreement hp
          evidence := trivial } (fun hs => nomatch hs)

theorem evidenceWeightedParameters_agreement {params : ParamMap} {p : EvidenceParameters D}
    {alpha : D} (h : evidenceWeightedParameters params = .ok (p, alpha)) :
    decimalParam params "agreement_threshold" "0.66" = .ok p.agreementThreshold := by
  obtain ⟨_, -, h⟩ := Except.bind_eq_ok.mp h
  obtain ⟨agreement, hagreement, h⟩ := Except.bind_eq_ok.mp h
  iterate 8 obtain ⟨_, -, h⟩ := Except.bind_eq_ok.mp h
  cases h
  exact hagreement

theorem evidenceWeightedStages_end {ctx : ConsensusContext D} {env : EvaluationEnv D}
    {st : Staged D} (h : evidenceWeightedStages ctx env = .ok st) :
    StageEnd ctx env .evidenceWeighted st := by
  obtain ⟨⟨p, alpha⟩, hp, h⟩ := Except.bind_eq_ok.mp h
  simp only [feasibilityGate_eq, Except.ok_bind] at h
  by_cases hgate : ctx.gate.allInfeasible = true
  · rw [if_pos hgate] at h
    cases h
    exact .infeasible .evidenceWeighted _ hgate
  · rw [if_neg hgate] at h
    rw [Bool.not_eq_true] at hgate
    obtain ⟨rows, hrows, h⟩ := Except.bind_eq_ok.mp h
    have hscored := rankRows_scored
      (fun _ _ hrow => ⟨(evidenceWeightedRow_spec hrow).1, (evidenceWeightedRow_spec hrow).2.1⟩)
      hrows
    cases hrank : rankRows rows with
    | nil => exact absurd hrank (rankRows_ne_nil hgate hrows)
    | cons leader followers =>
      simp only [hrank] at h
      by_cases hzero : leader.evidenceStrength.getD 0 = 0
      · rw [if_pos hzero] at h
        cases h
        exact .evidenceGate leader followers _ _ hgate (hrank ▸ hscored)
      · rw [if_neg hzero] at h
        cases h
        -- The leader's recorded evidence is the total over its positions.
        obtain ⟨row, hrow, n, hleader⟩ := mem_rankRows (hrank ▸ List.mem_cons_self (a := leader))
        obtain ⟨alt, -, hok⟩ := Except.exists_of_mem_mapM hrows hrow
        obtain ⟨hid, -, hev⟩ := evidenceWeightedRow_spec hok
        have hheld : supportingEvidence ctx p leader.alternativeId ≠ 0 := by
          simpa [hleader, hev, hid] using hzero
        exact .ranked .evidenceWeighted _ hgate
          { gate_eq := rfl, blocking_eq := rfl, reports_eq := ⟨_, rfl⟩
            scored := hrank ▸ hscored, agreement := evidenceWeightedParameters_agreement hp
            evidence := ⟨p, alpha, hp, hheld⟩ } (fun hs => nomatch hs)

theorem constraintAwareParameters_agreement {params : ParamMap} {p : ConstraintAwareParameters D}
    (h : constraintAwareParameters params = .ok p) :
    decimalParam params "agreement_threshold" "0.66" = .ok p.agreementThreshold := by
  obtain ⟨_, -, h⟩ := Except.bind_eq_ok.mp h
  obtain ⟨agreement, hagreement, h⟩ := Except.bind_eq_ok.mp h
  iterate 9 obtain ⟨_, -, h⟩ := Except.bind_eq_ok.mp h
  cases h
  exact hagreement

/-- What a member of the frontier carries over from the stages before. -/
theorem frontier_spec {ctx : ConsensusContext D} {p : ConstraintAwareParameters D}
    {supports : List (AlternativeSupport D)} {pareto : List (Candidate D)}
    (hsupports : ctx.gate.rankable.mapM (alternativeSupport ctx p.toEvidenceParameters)
      = .ok supports)
    (hpareto : frontier ctx p supports = .ok pareto) {c : Candidate D} (hc : c ∈ pareto) :
    Scored ctx c.id
      ∧ (p.allowUnevidenced = true ∨ 0 < supportingEvidence ctx p.toEvidenceParameters c.id) := by
  obtain ⟨candidates, hcandidates, h⟩ := Except.bind_eq_ok.mp hpareto
  obtain rfl := Except.ok.inj h
  obtain ⟨s, hs, hvalues⟩ := Except.exists_of_mem_mapM hcandidates (List.mem_filter.mp hc).1
  obtain ⟨values, -, hvalues⟩ := Except.bind_eq_ok.mp hvalues
  obtain rfl := Except.ok.inj hvalues
  have hmem : s ∈ supports ∧ (p.allowUnevidenced = true ∨ 0 < s.evidenceTotal) := by
    unfold evidenceFloor at hs
    split at hs
    case isTrue hallow => exact ⟨hs, .inl hallow⟩
    case isFalse =>
      obtain ⟨hs, hpos⟩ := List.mem_filter.mp hs
      exact ⟨hs, .inr (by simpa using hpos)⟩
  obtain ⟨alt, halt, hok⟩ := Except.exists_of_mem_mapM hsupports hmem.1
  obtain ⟨halternative, htotal⟩ := alternativeSupport_spec hok
  subst halternative
  exact ⟨List.mem_map.mpr ⟨_, halt, rfl⟩, htotal ▸ hmem.2⟩

theorem constraintAwareStages_end {ctx : ConsensusContext D} {env : EvaluationEnv D}
    {st : Staged D} (h : constraintAwareStages ctx env = .ok st) :
    StageEnd ctx env .constraintAware st := by
  obtain ⟨p, hp, h⟩ := Except.bind_eq_ok.mp h
  simp only [feasibilityGate_eq, Except.ok_bind] at h
  by_cases hgate : ctx.gate.allInfeasible = true
  · rw [if_pos hgate] at h
    cases h
    exact .infeasible .constraintAware _ hgate
  · rw [if_neg hgate] at h
    rw [Bool.not_eq_true] at hgate
    obtain ⟨supports, hsupports, h⟩ := Except.bind_eq_ok.mp h
    have hfrontier : constraintAwareFrontier ctx = frontier ctx p supports := by
      rw [constraintAwareFrontier, hp, Except.ok_bind, hsupports, Except.ok_bind]
    by_cases hfloor : (evidenceFloor p supports).isEmpty = true
    · rw [if_pos hfloor] at h
      cases h
      refine .evidenceFloor _ _ hgate (hfrontier.trans ?_)
      rw [frontier, List.isEmpty_iff.mp hfloor]
      rfl
    · rw [if_neg hfloor] at h
      obtain ⟨pareto, hpareto, h⟩ := Except.bind_eq_ok.mp h
      by_cases hconflict : conflictTest ctx.objectives pareto = true
      · rw [if_pos hconflict] at h
        cases h
        exact .conflict pareto _ _ hgate (hfrontier.trans hpareto) hconflict
          (fun c hc => (frontier_spec hsupports hpareto hc).1)
      · rw [if_neg hconflict] at h
        rw [Bool.not_eq_true] at hconflict
        -- Every score of the support order is that of a frontier member.
        have hmem : ∀ t ∈ withRanks ((sortedDesc (·.support) pareto).map fun c =>
            candidateScore c (some c.support) (scoreFeasibility ctx.gate c.id)),
            ∃ c ∈ pareto, t.alternativeId = c.id
              ∧ t.feasibility = scoreFeasibility ctx.gate c.id := by
          intro t ht
          obtain ⟨u, hu, n, rfl⟩ := mem_withRanks ht
          obtain ⟨c, hc, rfl⟩ := List.mem_map.mp hu
          exact ⟨c, mem_sortedDesc.mp hc, rfl, rfl⟩
        split at h
        · cases h
        · rename_i leader followers hrank
          cases h
          rw [hrank] at hmem
          obtain ⟨c, hc, hid, -⟩ := hmem leader List.mem_cons_self
          refine .ranked .constraintAware _ hgate
            { gate_eq := rfl, blocking_eq := rfl, reports_eq := ⟨_, rfl⟩
              scored := fun t ht => ?_, agreement := constraintAwareParameters_agreement hp
              evidence := ⟨p, hp, hid ▸ (frontier_spec hsupports hpareto hc).2⟩ }
            (fun _ => ⟨pareto, hfrontier.trans hpareto, hconflict⟩)
          obtain ⟨c, hc, hid, hstatus⟩ := hmem t ht
          refine ⟨hid ▸ (frontier_spec hsupports hpareto hc).1, ?_⟩
          rw [StatusKept, hid]
          exact hstatus

/-- **Inversion.**  The stages of a strategy end in one of the ways of `StageEnd`. -/
theorem stages_cases {s : Strategy} {ctx : ConsensusContext D} {env : EvaluationEnv D}
    {st : Staged D} (h : s.stages ctx env = .ok st) : StageEnd ctx env s st := by
  cases s with
  | weighted => exact weightedStages_end h
  | evidenceWeighted => exact evidenceWeightedStages_end h
  | constraintAware => exact constraintAwareStages_end h

/-- A result comes from an early return or from the classification of a ranking. -/
theorem evaluate_cases {s : Strategy} {ctx : ConsensusContext D} {env : EvaluationEnv D}
    {result : ConsensusResult D} (h : s.evaluate ctx env = .ok result) :
    s.stages ctx env = .ok (.stopped result)
      ∨ ∃ r, s.stages ctx env = .ok (.ranked r) ∧ result = s.finish ctx env r := by
  obtain ⟨st, hst, h⟩ := Except.bind_eq_ok.mp h
  cases st with
  | stopped result' =>
    cases h
    exact .inl hst
  | ranked r =>
    cases h
    exact .inr ⟨r, hst, rfl⟩

end Agora.Consensus
