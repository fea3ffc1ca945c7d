import Agora.Consensus.Support
import Mathlib.Data.List.Sort

namespace Agora.Consensus

/-!
# The three consensus strategies

`weightedStages`, `evidenceWeightedStages` and `constraintAwareStages` follow `evaluate` of
their strategy up to the point where an outcome class is chosen: each either returns early
(`Staged.stopped`) or hands a ranking with a leader to the classification (`Staged.ranked`).
`classify` is the common last part of the three `evaluate` methods.

The dictionaries the source keys by alternative id are fields of one row per alternative:
the ids of a context are distinct.
-/

/-! ### Parameters -/

structure SupportParameters (D : Type) where
  useConfidence : Bool
  abstainPolicy : AbstainPolicy
  agreementThreshold : D
  partialThreshold : D
  positionWeights : Option (List (String × D))

structure EvidenceParameters (D : Type) extends SupportParameters D where
  beta : D
  lam : D
  independenceCap : ℤ
  verificationWeights : List (String × D)
  trustMultiplier : List (String × D)

structure ConstraintAwareParameters (D : Type) extends EvidenceParameters D where
  epsilon : D
  minFlipDistance : D
  allowUnevidenced : Bool

/-- `AbstainPolicy(params.get("abstain_policy", "EXCLUDE"))`. -/
def abstainPolicyOf (params : ParamMap) : Py AbstainPolicy :=
  match params.lookup "abstain_policy" with
  | none => .ok .exclude
  | some (.str "EXCLUDE") => .ok .exclude
  | some (.str "HALF") => .ok .half
  | some _ => .error (.valueError "not a valid AbstainPolicy")

/-- `int(params.get("independence_cap", 2))`. -/
def independenceCapOf (params : ParamMap) : Py ℤ :=
  match params.lookup "independence_cap" with
  | none => .ok 2
  | some v => v.toInt

variable {D : Type} [DecimalArith D]

/-- The parameters of `weighted`, and `alpha`. -/
def weightedParameters (params : ParamMap) : Py (SupportParameters D × D) := do
  let abstainPolicy ← abstainPolicyOf params
  let agreementThreshold ← decimalParam params "agreement_threshold" "0.66"
  let partialThreshold ← decimalParam params "partial_threshold" "0.5"
  let alpha ← decimalParam params "alpha" "0.5"
  let positionWeights ← tableParam params "position_weights"
  pure ({ useConfidence := boolParam params "use_confidence"
          abstainPolicy, agreementThreshold, partialThreshold, positionWeights }, alpha)

/-- The parameters of `evidence_weighted`, and `alpha`. -/
def evidenceWeightedParameters (params : ParamMap) : Py (EvidenceParameters D × D) := do
  let abstainPolicy ← abstainPolicyOf params
  let agreementThreshold ← decimalParam params "agreement_threshold" "0.66"
  let partialThreshold ← decimalParam params "partial_threshold" "0.5"
  let alpha ← decimalParam params "alpha" "0.5"
  let beta ← decimalParam params "evidence_weight" "0.4"
  let lam ← decimalParam params "lambda" "0.5"
  let independenceCap ← independenceCapOf params
  let verification ← tableParam params "verification_weights"
  let trust ← tableParam params "trust_multiplier"
  let positionWeights ← tableParam params "position_weights"
  pure ({ useConfidence := boolParam params "use_confidence"
          abstainPolicy, agreementThreshold, partialThreshold, positionWeights
          beta, lam, independenceCap
          verificationWeights := verification.getD verificationWeightsDefault
          trustMultiplier := trust.getD trustMultiplierDefault }, alpha)

def constraintAwareParameters (params : ParamMap) : Py (ConstraintAwareParameters D) := do
  let abstainPolicy ← abstainPolicyOf params
  let agreementThreshold ← decimalParam params "agreement_threshold" "0.66"
  let partialThreshold ← decimalParam params "partial_threshold" "0.5"
  let beta ← decimalParam params "evidence_weight" "0.4"
  let lam ← decimalParam params "lambda" "0.5"
  let independenceCap ← independenceCapOf params
  let epsilon ← decimalParam params "epsilon" "0.01"
  let minFlipDistance ← decimalParam params "min_flip_distance" "0.05"
  let verification ← tableParam params "verification_weights"
  let trust ← tableParam params "trust_multiplier"
  let positionWeights ← tableParam params "position_weights"
  pure { useConfidence := boolParam params "use_confidence"
         abstainPolicy, agreementThreshold, partialThreshold, positionWeights
         beta, lam, independenceCap
         verificationWeights := verification.getD verificationWeightsDefault
         trustMultiplier := trust.getD trustMultiplierDefault
         epsilon, minFlipDistance
         allowUnevidenced := boolParam params "allow_unevidenced" }

/-! ### Results and early returns -/

/-- What an evaluation takes from outside its context: the fresh `uuid4()` of the result, and
    the hash of the context, which nothing else in the result depends on. -/
structure EvaluationEnv (D : Type) [DecimalArith D] where
  resultId : UUID
  consensusInputHash : ConsensusContext D → String

/-- The fields every return of a strategy fills in the same way. -/
def ConsensusContext.result (ctx : ConsensusContext D) (env : EvaluationEnv D) (name : String)
    (outcome : ConsensusOutcome) (derivation : List (DerivationStep D)) : ConsensusResult D where
  resultId := env.resultId
  sessionId := ctx.sessionId
  round := ctx.round
  strategy := name
  strategyVersion := "1.0.0"
  outcome := outcome
  degenerateInput := degenerate ctx
  inputHash := env.consensusInputHash ctx
  derivation := derivation

/-- The derivation step of the gate. -/
def gateStep (ctx : ConsensusContext D) (gate : FeasibilityGateResult)
    (stage description : String) : DerivationStep D where
  step := 1
  stage := stage
  description := description
  inputs := [("alternative_count", .nat ctx.alternatives.length)]
  outputs := [("rankable", .nat gate.rankable.length),
    ("infeasible", .nat gate.infeasible.length), ("unknown", .nat gate.unknown.length)]

/-- The early return of a strategy whose gate leaves nothing to rank. -/
def infeasibleResult (ctx : ConsensusContext D) (env : EvaluationEnv D) (name : String)
    (gate : FeasibilityGateResult) (derivation : List (DerivationStep D)) : ConsensusResult D :=
  { ctx.result env name .infeasible derivation with
    blockingConstraints := gate.infeasible.flatMap (·.unsatCore) }

/-- The reports a strategy collects over the rankable alternatives. -/
structure Reports (D : Type) where
  contributions : List (AgentContribution D)
  dissent : List DissentEntry
  minority : List MinorityEntry

def ConsensusResult.withReports (r : ConsensusResult D) (reports : Reports D)
    (blocking : List UUID) : ConsensusResult D :=
  { r with
    blockingCritiques := blocking
    contributions := reports.contributions
    dissent := reports.dissent
    minorityReport := reports.minority }

/-- Dissent and minority entries are collected alternative by alternative. -/
def reportsOf (ctx : ConsensusContext D) (gate : FeasibilityGateResult)
    (contributions : List (AgentContribution D)) : Reports D where
  contributions := contributions
  dissent := gate.rankable.flatMap fun alt => buildDissent alt.alternativeId ctx.agentPositions
  minority := gate.rankable.flatMap fun alt =>
    buildMinority alt.alternativeId ctx.agentPositions ctx.critiques

/-- A ranking that reaches the classification. -/
structure Ranked (D : Type) where
  gate : FeasibilityGateResult
  leader : AlternativeScore D
  followers : List (AlternativeScore D)
  agreementThreshold : D
  partialThreshold : D
  blocking : List UUID
  reports : Reports D
  conditions : List String
  derivation : List (DerivationStep D)

/-- How the stages before the classification end. -/
inductive Staged (D : Type) where
  | stopped (result : ConsensusResult D)
  | ranked (r : Ranked D)

/-- The status a score carries. -/
def scoreFeasibility (gate : FeasibilityGateResult) (a : UUID) : FeasibilityStatus :=
  if gate.unknown.any fun v => v.alternativeId = a then .unknown else .sat

/-- Number the scores in rank order. -/
def withRanks (scores : List (AlternativeScore D)) : List (AlternativeScore D) :=
  scores.zipIdx.map fun (s, i) => { s with rank := i + 1 }

/-- `sorted(rows, key=key, reverse=True)`: descending and stable. -/
def sortedDesc {α : Type} (key : α → D) (rows : List α) : List α :=
  rows.insertionSort fun a b => ¬ key a < key b

/-! ### Classification -/

/-- Every position on the leader is SUPPORT or ABSTAIN. -/
def allActiveSupportive (ctx : ConsensusContext D) (leader : UUID) : Bool :=
  (ctx.agentPositions.filter fun p => p.alternativeId = leader).all fun p =>
    p.stance ∈ ["SUPPORT", "ABSTAIN"]

/-- The outcome class of a ranking: thresholds, then the UNKNOWN override, then the cap. -/
def classifyOutcome (ctx : ConsensusContext D) (r : Ranked D) : ConsensusOutcome :=
  let outcome :=
    if r.agreementThreshold ≤ r.leader.support
        ∧ allActiveSupportive ctx r.leader.alternativeId then
      ConsensusOutcome.fullConsensus
    else if r.partialThreshold ≤ r.leader.support then .partialConsensus
    else .noConsensus
  let outcome :=
    if r.gate.unknown.any fun v => v.alternativeId = r.leader.alternativeId then
      .conditionalConsensus
    else outcome
  blockingGateOutcome r.blocking outcome

/-- `count / (len(agent_positions) or 1)` for the positions with a stance. -/
def stanceRatio (ctx : ConsensusContext D) (stance : String) : D :=
  let count := (ctx.agentPositions.filter fun p => p.stance = stance).length
  let total := if ctx.agentPositions.isEmpty then 1 else ctx.agentPositions.length
  ofRat count / ofRat total

/-- The last part of every strategy: classify the ranking and build the result. -/
def classify (ctx : ConsensusContext D) (env : EvaluationEnv D) (name stage : String) (step : ℕ)
    (r : Ranked D) : ConsensusResult D :=
  let outcome := classifyOutcome ctx r
  let derivation := r.derivation ++
    [{ step := step
       stage := stage
       description := "outcome classified from thresholds and blocking critiques"
       inputs := [("agreement_threshold", .dec r.agreementThreshold),
         ("partial_threshold", .dec r.partialThreshold)]
       outputs := [("outcome", .text outcome.value), ("leader_support", .dec r.leader.support)] }]
  { (ctx.result env name outcome derivation).withReports r.reports r.blocking with
    scores := r.leader :: r.followers
    selectedAlternativeId := if outcome.selectable then some r.leader.alternativeId else none
    support := some r.leader.support
    dissentRatio := some (stanceRatio ctx "OPPOSE")
    abstentionRatio := some (stanceRatio ctx "ABSTAIN")
    conditions := r.conditions }

/-! ### `weighted` -/

/-- A scored alternative of `weighted` and `evidence_weighted`: the score, the key it is
    ranked by, and its contributions. -/
structure Row (D : Type) where
  score : AlternativeScore D
  rankKey : D
  contributions : List (AgentContribution D)

/-- `alpha * support + (1 - alpha) * value`, or the support alone without a value. -/
def rankScoreOf (alpha support : D) : Option D → D
  | some value => alpha * support + (1 - alpha) * value
  | none => support

/-- The score of a rankable alternative; `rank` is set once the scores are sorted. -/
def rowScore (gate : FeasibilityGateResult) (alt : AlternativeInput) (support : D)
    (value : Option D) (rankScore : D) (evidence : Option D) : AlternativeScore D where
  alternativeId := alt.alternativeId
  alternativeName := alt.name
  rank := 1
  support := clamp support 0 1
  valueScore := value
  rankScore := some rankScore
  feasibility := scoreFeasibility gate alt.alternativeId
  evidenceStrength := evidence

def weightedRow (ctx : ConsensusContext D) (p : SupportParameters D) (alpha : D)
    (gate : FeasibilityGateResult) (alt : AlternativeInput) : Py (Row D) := do
  let support := (computeSupport alt.alternativeId ctx.agentPositions p.useConfidence
    p.abstainPolicy p.positionWeights).1
  let value ← weightedObjectiveValue alt.alternativeId ctx.objectives ctx.objectiveValues
  let rankScore := rankScoreOf alpha support value
  pure
    { score := rowScore gate alt support value rankScore none
      rankKey := rankScore
      contributions := contributionsOf
        (ctx.agentPositions.filter fun q => q.alternativeId = alt.alternativeId) p.useConfidence }

/-- The rows in rank order, as scores. -/
def rankRows (rows : List (Row D)) : List (AlternativeScore D) :=
  withRanks ((sortedDesc (·.rankKey) rows).map (·.score))

/-- The derivation step of the ranking; `shown` are the fields it prints of a score. -/
def rankingStep (description : String) (inputs : List (String × TraceValue D))
    (shown : AlternativeScore D → List (String × TraceValue D))
    (scores : List (AlternativeScore D)) : DerivationStep D where
  step := 2
  stage := "ranking"
  description := description
  inputs := inputs
  outputs := scores.map fun s => (s.alternativeId.text, .obj (shown s))

def weightedStages (ctx : ConsensusContext D) (env : EvaluationEnv D) : Py (Staged D) := do
  let (p, alpha) ← weightedParameters ctx.strategyConfig.parameters
  let gate ← feasibilityGate ctx.alternatives ctx.feasibility
  let derivation := [gateStep ctx gate "feasibility"
    "shared feasibility gate applied before ranking (C-1)"]
  if gate.allInfeasible then
    pure (.stopped (infeasibleResult ctx env "weighted" gate derivation))
  else do
    let rows ← gate.rankable.mapM (weightedRow ctx p alpha gate)
    let scores := rankRows rows
    let derivation := derivation ++
      [rankingStep "support and rank_score computed per feasible alternative"
        [("alpha", .dec alpha)]
        (fun s => [("support", .dec s.support), ("rank_score", .optDec s.rankScore)]) scores]
    match scores with
    | [] => pure (.stopped (ctx.result env "weighted" .noConsensus derivation))
    | leader :: followers =>
      pure (.ranked
        { gate, leader, followers
          agreementThreshold := p.agreementThreshold
          partialThreshold := p.partialThreshold
          blocking := blockingCritiques ctx.critiques
          reports := reportsOf ctx gate (rows.flatMap (·.contributions))
          conditions := []
          derivation })

/-! ### `evidence_weighted` -/

/-- The evidence pass over one alternative, shared by the two strategies that weigh evidence. -/
structure AlternativeSupport (D : Type) where
  alternative : AlternativeInput
  relevant : List (AgentPosition D)
  evidenceTotal : D
  support : D

/-- `E` of a position, and its term in the evidence-weighted support. -/
def evidenceTerm (ctx : ConsensusContext D) (p : EvidenceParameters D) (pos : AgentPosition D) :
    Py (D × D) := do
  let (e, d) := evidenceStrength pos ctx.evidence p.verificationWeights p.trustMultiplier
    p.independenceCap
  let ratio ← decDiv (e - d) (e + d + 1)
  let evid := clamp ratio (ofRat (-1)) 1
  let base := positionScore pos.stance pos.confidence p.useConfidence p.positionWeights
  pure (e, base * (1 + p.lam * pyMax 0 evid))

def alternativeSupport (ctx : ConsensusContext D) (p : EvidenceParameters D)
    (alt : AlternativeInput) : Py (AlternativeSupport D) := do
  let relevant := relevantPositions alt.alternativeId ctx.agentPositions p.abstainPolicy
  let terms ← relevant.mapM (evidenceTerm ctx p)
  let supportEv :=
    if relevant.isEmpty then 0
    else pyMin 1 (pySum (terms.map (·.2)) / ofRat relevant.length)
  let supportWeighted := (computeSupport alt.alternativeId ctx.agentPositions p.useConfidence
    p.abstainPolicy p.positionWeights).1
  pure
    { alternative := alt
      relevant := relevant
      evidenceTotal := pySum (terms.map (·.1))
      support := (1 - p.beta) * supportWeighted + p.beta * supportEv }

def evidenceWeightedRow (ctx : ConsensusContext D) (p : EvidenceParameters D) (alpha : D)
    (gate : FeasibilityGateResult) (alt : AlternativeInput) : Py (Row D) := do
  let s ← alternativeSupport ctx p alt
  let value ← weightedObjectiveValue alt.alternativeId ctx.objectives ctx.objectiveValues
  let rankScore := rankScoreOf alpha s.support value
  pure
    { score := rowScore gate alt s.support value rankScore (some s.evidenceTotal)
      rankKey := rankScore
      contributions := contributionsOf s.relevant p.useConfidence }

/-- The early return when the leader has no verified backing. -/
def evidenceGateResult (ctx : ConsensusContext D) (env : EvaluationEnv D)
    (derivation : List (DerivationStep D)) (reports : Reports D)
    (leader : AlternativeScore D) (followers : List (AlternativeScore D)) : ConsensusResult D :=
  { (ctx.result env "evidence_weighted" .insufficientEvidence
      (derivation ++
        [{ step := 3
           stage := "evidence_gate"
           description := "leading alternative has no verified backing (evidence_weighted.md)"
           inputs := [("alternative_id", .text leader.alternativeId.text)]
           outputs := [("outcome", .text "INSUFFICIENT_EVIDENCE")] }])).withReports reports
      (blockingCritiques ctx.critiques) with
    scores := leader :: followers }

def evidenceWeightedStages (ctx : ConsensusContext D) (env : EvaluationEnv D) :
    Py (Staged D) := do
  let (p, alpha) ← evidenceWeightedParameters ctx.strategyConfig.parameters
  let gate ← feasibilityGate ctx.alternatives ctx.feasibility
  let derivation := [gateStep ctx gate "feasibility"
    "shared feasibility gate applied before ranking (C-1)"]
  if gate.allInfeasible then
    pure (.stopped (infeasibleResult ctx env "evidence_weighted" gate derivation))
  else do
    let rows ← gate.rankable.mapM (evidenceWeightedRow ctx p alpha gate)
    let scores := rankRows rows
    let reports := reportsOf ctx gate (rows.flatMap (·.contributions))
    let derivation := derivation ++
      [rankingStep "support blended with evidence-weighted support_ev per alternative"
        [("alpha", .dec alpha), ("beta", .dec p.beta), ("lambda", .dec p.lam)]
        (fun s => [("support", .dec s.support), ("evidence_strength", .optDec s.evidenceStrength),
          ("rank_score", .optDec s.rankScore)]) scores]
    match scores with
    | [] => pure (.stopped (ctx.result env "evidence_weighted" .noConsensus derivation))
    | leader :: followers =>
      if leader.evidenceStrength.getD 0 = 0 then
        pure (.stopped (evidenceGateResult ctx env derivation reports leader followers))
      else
        pure (.ranked
          { gate, leader, followers
            agreementThreshold := p.agreementThreshold
            partialThreshold := p.partialThreshold
            blocking := blockingCritiques ctx.critiques
            reports
            conditions := []
            derivation })

/-! ### `constraint_aware` -/

/-- A stage-2 alternative with its objective values. -/
structure Candidate (D : Type) extends AlternativeSupport D where
  values : List (UUID × D)

def Candidate.id (c : Candidate D) : UUID := c.alternative.alternativeId

/-- The loop of `_dominates` over the objectives. -/
def dominatesLoop (aValues bValues : List (UUID × D)) (epsilon : D) :
    List UUID → Bool → Bool
  | [], atLeastOneBetter => atLeastOneBetter
  | k :: ks, atLeastOneBetter =>
    match aValues.lookup k, bValues.lookup k with
    | some av, some bv =>
      if av < bv then false
      else dominatesLoop aValues bValues epsilon ks (atLeastOneBetter || decide (bv + epsilon < av))
    | _, _ => false

/-- `a >= b` on all objectives, and beyond `epsilon` on at least one. -/
def dominates (aValues bValues : List (UUID × D)) (objectiveIds : List UUID) (epsilon : D) :
    Bool :=
  if objectiveIds.isEmpty then false
  else dominatesLoop aValues bValues epsilon objectiveIds false

/-- Stage 3: the undominated set `P`. -/
def undominated (candidates : List (Candidate D)) (objectiveIds : List UUID) (epsilon : D) :
    List (Candidate D) :=
  candidates.filter fun a => !candidates.any fun b =>
    b.id ≠ a.id && dominates b.values a.values objectiveIds epsilon

/-- The first alternative of `P` with the largest recorded value of an objective. -/
def bestAlternative (pareto : List (Candidate D)) (objectiveId : UUID) : Option UUID :=
  (pareto.foldl (fun (best : Option (UUID × D)) c =>
    match c.values.lookup objectiveId, best with
    | none, best => best
    | some v, none => some (c.id, v)
    | some v, some (b, bestVal) => if bestVal < v then some (c.id, v) else some (b, bestVal))
    none).map (·.1)

/-- The alternatives that are best in some objective. -/
def argmaxes (objectives : List (ObjectiveInput D)) (pareto : List (Candidate D)) : List UUID :=
  (objectives.filterMap fun obj => bestAlternative pareto obj.objectiveId).dedup

/-- Stage 4: the objectives are declared conflicting and disagree on the best of `P`. -/
def conflictTest (objectives : List (ObjectiveInput D)) (pareto : List (Candidate D)) : Bool :=
  objectives.any (fun o => !o.conflictsWith.isEmpty) && decide (2 ≤ (argmaxes objectives pareto).length)
    && decide (1 < pareto.length)

/-- Stage 2: keep an alternative iff it has verified evidence, unless the floor is waived. -/
def evidenceFloor (p : ConstraintAwareParameters D) (supports : List (AlternativeSupport D)) :
    List (AlternativeSupport D) :=
  if p.allowUnevidenced then supports else supports.filter fun s => 0 < s.evidenceTotal

/-- Stages 2 and 3: the undominated alternatives above the evidence floor. -/
def frontier (ctx : ConsensusContext D) (p : ConstraintAwareParameters D)
    (supports : List (AlternativeSupport D)) : Py (List (Candidate D)) := do
  let candidates ← (evidenceFloor p supports).mapM fun s => do
    let values ← objectiveValueLookup s.alternative.alternativeId ctx.objectives
      ctx.objectiveValues
    pure { toAlternativeSupport := s, values : Candidate D }
  pure (undominated candidates (ctx.objectives.map (·.objectiveId)) p.epsilon)

/-- The score of a candidate; the frontier and the support order fill in the last two. -/
def candidateScore (c : Candidate D) (rankScore : Option D) (feasibility : FeasibilityStatus) :
    AlternativeScore D where
  alternativeId := c.id
  alternativeName := c.alternative.name
  rank := 1
  support := clamp c.support 0 1
  valueScore := none
  rankScore := rankScore
  feasibility := feasibility
  evidenceStrength := some c.evidenceTotal

/-- Stage 4's early return.  Its scores carry a literal SAT. -/
def paretoResult (ctx : ConsensusContext D) (env : EvaluationEnv D)
    (derivation : List (DerivationStep D)) (reports : Reports D) (pareto : List (Candidate D)) :
    ConsensusResult D :=
  let blocking := blockingCritiques ctx.critiques
  { (ctx.result env "constraint_aware" (blockingGateOutcome blocking .paretoSet)
      (derivation ++
        [{ step := 4
           stage := "stage4_conflict_test"
           description := "objectives declared conflicting; frontier returned"
           inputs := [("argmax_count", .nat (argmaxes ctx.objectives pareto).length)]
           outputs := [("frontier", .ids (pareto.map (·.id)))] }])).withReports reports blocking with
    scores := withRanks (pareto.map fun c => candidateScore c none .sat)
    paretoSet := pareto.map (·.id) }

/-- Stage 6: the two leading supports are closer than the flip distance. -/
def thresholdBound (minFlipDistance : D) : List (AlternativeScore D) → Bool
  | s :: t :: _ => pyAbs (s.support - t.support) < minFlipDistance
  | _ => false

def constraintAwareStages (ctx : ConsensusContext D) (env : EvaluationEnv D) :
    Py (Staged D) := do
  let p ← constraintAwareParameters ctx.strategyConfig.parameters
  let gate ← feasibilityGate ctx.alternatives ctx.feasibility
  let derivation := [gateStep ctx gate "stage1_feasibility"
    "UNSAT removed, unsat cores recorded; all UNSAT -> INFEASIBLE"]
  if gate.allInfeasible then
    pure (.stopped (infeasibleResult ctx env "constraint_aware" gate derivation))
  else do
    let supports ← gate.rankable.mapM (alternativeSupport ctx p.toEvidenceParameters)
    let reports := reportsOf ctx gate
      (supports.flatMap fun s => contributionsOf s.relevant p.useConfidence)
    let blocking := blockingCritiques ctx.critiques
    let derivation := derivation ++
      [{ step := 2
         stage := "stage2_evidence_floor"
         description := "alternatives with zero verified evidence excluded"
         inputs := [("allow_unevidenced", .bool p.allowUnevidenced)]
         outputs := [("remaining", .nat (evidenceFloor p supports).length)] }]
    if (evidenceFloor p supports).isEmpty then
      pure (.stopped ((ctx.result env "constraint_aware" .insufficientEvidence
        derivation).withReports reports blocking))
    else do
      let pareto ← frontier ctx p supports
      let derivation := derivation ++
        [{ step := 3
           stage := "stage3_dominance"
           description := "undominated set computed over declared objectives"
           inputs := [("objective_count", .nat ctx.objectives.length)]
           outputs := [("undominated", .ids (pareto.map (·.id)))] }]
      if conflictTest ctx.objectives pareto then
        pure (.stopped (paretoResult ctx env derivation reports pareto))
      else
        let scores := withRanks ((sortedDesc (·.support) pareto).map fun c =>
          candidateScore c (some c.support) (scoreFeasibility gate c.id))
        let bound := thresholdBound p.minFlipDistance scores
        let derivation := derivation ++
          [{ step := 5
             stage := "stage5_support_order"
             description := "undominated set ranked by support_ev(a)"
             inputs := []
             outputs := scores.map fun s => (s.alternativeId.text, .dec s.support) },
           { step := 6
             stage := "stage6_robustness"
             description := "flip distance compared against min_flip_distance"
             inputs := [("min_flip_distance", .dec p.minFlipDistance)]
             outputs := [("threshold_bound", .bool bound)] }]
        match scores with
        | [] => .error (.lookupError "tuple index out of range")
        | leader :: followers =>
          pure (.ranked
            { gate, leader, followers
              agreementThreshold := p.agreementThreshold
              partialThreshold := p.partialThreshold
              blocking, reports
              conditions :=
                if bound then
                  ["ranking is threshold-bound: flip distance below min_flip_distance"]
                else []
              derivation })

/-! ### `evaluate` -/

/-- The registered strategies. -/
inductive Strategy where
  | weighted
  | evidenceWeighted
  | constraintAware
deriving DecidableEq, Repr

namespace Strategy

def name : Strategy → String
  | weighted => "weighted"
  | evidenceWeighted => "evidence_weighted"
  | constraintAware => "constraint_aware"

/-- The stages of a strategy before its classification. -/
def stages (s : Strategy) (ctx : ConsensusContext D) (env : EvaluationEnv D) : Py (Staged D) :=
  match s with
  | weighted => weightedStages ctx env
  | evidenceWeighted => evidenceWeightedStages ctx env
  | constraintAware => constraintAwareStages ctx env

/-- The classification a strategy ends with, by its name and derivation stage. -/
def finish (s : Strategy) (ctx : ConsensusContext D) (env : EvaluationEnv D) (r : Ranked D) :
    ConsensusResult D :=
  match s with
  | weighted => classify ctx env s.name "classify" 3 r
  | evidenceWeighted => classify ctx env s.name "classify" 3 r
  | constraintAware => classify ctx env s.name "stage7_classify" 7 r

/-- `strategy.evaluate(context)`. -/
def evaluate (s : Strategy) (ctx : ConsensusContext D) (env : EvaluationEnv D) :
    Py (ConsensusResult D) := do
  match ← s.stages ctx env with
  | .stopped result => pure result
  | .ranked r => pure (s.finish ctx env r)

end Strategy

end Agora.Consensus
