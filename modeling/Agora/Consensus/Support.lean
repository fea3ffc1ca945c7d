import Agora.Consensus.Gate

namespace Agora.Consensus

/-!
# Shared helpers of the strategies

Position scores and support, blocking critiques, the dissent and minority reports, objective
values, and the evidence strength of a position.  Every strategy is assembled from these.
-/

variable {D : Type} [DecimalArith D]

/-! ### Support -/

/-- `_POSITION_WEIGHTS`. -/
def positionWeightsDefault : List (String × D) :=
  [("SUPPORT", ofRat 1), ("CONDITIONALLY_SUPPORT", ofRat (3 / 4)),
    ("INSUFFICIENT_EVIDENCE", ofRat (1 / 4)), ("OPPOSE", ofRat 0), ("ABSTAIN", ofRat (1 / 2))]

/-- `weights or _POSITION_WEIGHTS`: an empty table falls back to the default one. -/
def weightsOrDefault : Option (List (String × D)) → List (String × D)
  | none | some [] => positionWeightsDefault
  | some weights => weights

def positionScore (stance : String) (confidence : D) (useConfidence : Bool)
    (weights : Option (List (String × D)) := none) : D :=
  let w := ((weightsOrDefault weights).lookup stance).getD (ofRat (1 / 2))
  if useConfidence then w * confidence else w

/-- The positions on an alternative that enter its support. -/
def relevantPositions (altId : UUID) (positions : List (AgentPosition D))
    (abstainPolicy : AbstainPolicy) : List (AgentPosition D) :=
  let relevant := positions.filter fun p => p.alternativeId = altId
  if abstainPolicy = .exclude then relevant.filter fun p => p.stance ≠ "ABSTAIN" else relevant

omit [DecimalArith D] in
theorem mem_relevantPositions {altId : UUID} {positions : List (AgentPosition D)}
    {abstainPolicy : AbstainPolicy} {q : AgentPosition D} :
    q ∈ relevantPositions altId positions abstainPolicy
      ↔ q ∈ positions ∧ q.alternativeId = altId
        ∧ (abstainPolicy = .exclude → q.stance ≠ "ABSTAIN") := by
  cases abstainPolicy with
  | exclude =>
    simp only [relevantPositions, if_true, List.mem_filter, decide_eq_true_eq, and_assoc,
      forall_const]
  | half => simp [relevantPositions]

/-- Support and active count of an alternative. -/
def computeSupport (altId : UUID) (positions : List (AgentPosition D)) (useConfidence : Bool)
    (abstainPolicy : AbstainPolicy) (weights : Option (List (String × D))) : D × ℕ :=
  let relevant := relevantPositions altId positions abstainPolicy
  if relevant.isEmpty then (0, 0)
  else
    let total := pySum (relevant.map fun p =>
      positionScore p.stance p.confidence useConfidence weights)
    (total / ofRat relevant.length, relevant.length)

/-! ### Critiques, dissent, contributions -/

/-- `resolution in ("OPEN", "UNRESOLVED", "DISPUTED")`. -/
def CritiqueInput.unresolved (c : CritiqueInput) : Bool :=
  c.resolution ∈ ["OPEN", "UNRESOLVED", "DISPUTED"]

def blockingCritiques (critiques : List CritiqueInput) : List UUID :=
  (critiques.filter fun c => c.severity = "BLOCKING" ∧ c.unresolved).map (·.critiqueId)

/-- The stances the dissent report records. -/
def dissentStance (stance : String) : Bool :=
  stance ∈ ["OPPOSE", "ABSTAIN", "INSUFFICIENT_EVIDENCE"]

/-- The stances the minority report records. -/
def minorityStance (stance : String) : Bool := stance ∈ ["OPPOSE", "INSUFFICIENT_EVIDENCE"]

def AgentPosition.dissentEntry (p : AgentPosition D) : DissentEntry where
  agentId := p.agentId
  stance := p.stance
  warrantArtifactIds := p.evidenceIds

def buildDissent (altId : UUID) (positions : List (AgentPosition D)) : List DissentEntry :=
  (positions.filter fun p => p.alternativeId = altId ∧ dissentStance p.stance).map
    (·.dissentEntry)

/-- The unresolved critiques as a set; the source leaves their order to the set. -/
def unresolvedCritiques (critiques : List CritiqueInput) : List UUID :=
  ((critiques.filter (·.unresolved)).map (·.critiqueId)).dedup

def AgentPosition.minorityEntry (p : AgentPosition D) (critiques : List CritiqueInput) :
    MinorityEntry where
  agentId := p.agentId
  position := p.stance
  warrantArtifactIds := p.evidenceIds
  unresolvedCritiques := unresolvedCritiques critiques

def buildMinority (altId : UUID) (positions : List (AgentPosition D))
    (critiques : List CritiqueInput) : List MinorityEntry :=
  (positions.filter fun p => p.alternativeId = altId ∧ minorityStance p.stance).map
    (·.minorityEntry critiques)

/-- Contributions always use the default position weights. -/
def contributionsOf (positions : List (AgentPosition D)) (useConfidence : Bool) :
    List (AgentContribution D) :=
  positions.map fun p =>
    { agentId := p.agentId
      alternativeId := p.alternativeId
      stance := p.stance
      positionScore := positionScore p.stance p.confidence useConfidence
      confidence := p.confidence
      evidenceScore := 0 }

/-- An unresolved blocking critique caps the outcome at `PARTIAL_CONSENSUS`. -/
def blockingGateOutcome (blocking : List UUID) (candidate : ConsensusOutcome) :
    ConsensusOutcome :=
  if blocking ≠ [] ∧ candidate = .fullConsensus then .partialConsensus else candidate

/-- One alternative, one active agent, or none. -/
def degenerate (ctx : ConsensusContext D) : Bool :=
  ctx.alternatives.length ≤ 1 ∨ (ctx.agentPositions.map (·.agentId)).dedup.length ≤ 1

/-! ### Objective values -/

/-- `objective_values.get(str(objective_id), {}).get(str(alt_id))`. -/
def rawObjectiveValue (objectiveValues : ObjectiveValues) (objectiveId altId : UUID) :
    Option String :=
  ((objectiveValues.lookup objectiveId.text).getD []).lookup altId.text

/-- `v_k(a)` per objective for one alternative. -/
def objectiveValueLookup (altId : UUID) (objectives : List (ObjectiveInput D))
    (objectiveValues : ObjectiveValues) : Py (List (UUID × D)) := do
  let values ← objectives.mapM fun obj =>
    match rawObjectiveValue objectiveValues obj.objectiveId altId with
    | none => .ok none
    | some raw => do
      let v ← decimalOf raw
      pure (some (obj.objectiveId, v))
  pure (values.filterMap id)

/-- `value(a) = Σ_k w_k · v_k(a)`, `none` when no objective has a value. -/
def weightedObjectiveValue (altId : UUID) (objectives : List (ObjectiveInput D))
    (objectiveValues : ObjectiveValues) : Py (Option D) := do
  let terms ← objectives.mapM fun obj =>
    match rawObjectiveValue objectiveValues obj.objectiveId altId with
    | none => .ok none
    | some raw => do
      let v ← decimalOf raw
      pure (some (obj.weight * v))
  let terms := terms.filterMap id
  pure (if terms.isEmpty then none else some (pySum terms))

/-! ### Evidence strength -/

/-- `_VERIFICATION_WEIGHTS`. -/
def verificationWeightsDefault : List (String × D) :=
  [("UNVERIFIED", ofRat (3 / 10)), ("SOURCE_VERIFIED", ofRat (4 / 5)),
    ("CROSS_CHECKED", ofRat 1), ("DISPUTED", ofRat (1 / 10)), ("REJECTED", ofRat 0)]

/-- `_TRUST_MULTIPLIER`. -/
def trustMultiplierDefault : List (String × D) :=
  [("PRIMARY", ofRat 1), ("AUTHORITATIVE", ofRat (9 / 10)), ("SECONDARY", ofRat (3 / 5)),
    ("COMMERCIAL", ofRat (2 / 5)), ("UNATTRIBUTED", ofRat 0), ("SYNTHETIC", ofRat 0)]

def citationWeight (citation : EvidenceCitationInput)
    (verificationWeights trustMultiplier : List (String × D)) : D :=
  let v := (verificationWeights.lookup citation.verification).getD 0
  let t := (trustMultiplier.lookup citation.trustLevel).getD 0
  v * t

/-- `max(low, min(high, value))`. -/
def clamp (value low high : D) : D := pyMax low (pyMin high value)

/-- The catalogue entries a position cites, in citation order. -/
def evidenceForPosition (position : AgentPosition D) (evidence : List EvidenceCitationInput) :
    List EvidenceCitationInput :=
  position.evidenceIds.filterMap (dictGet (·.evidenceId) evidence)

/-- At most `cap` citations are counted from one publisher; `counts` has those seen. -/
def cappedByPublisher (cap : ℤ) (counts : String → ℤ) :
    List EvidenceCitationInput → List EvidenceCitationInput
  | [] => []
  | c :: rest =>
    let seen := counts c.publisher + 1
    let kept := cappedByPublisher cap (fun key => if key = c.publisher then seen else counts key) rest
    if seen ≤ cap then c :: kept else kept

/-- `(E, D)` for one agent position: the supporting and the opposing citation weights. -/
def evidenceStrength (position : AgentPosition D) (evidence : List EvidenceCitationInput)
    (verificationWeights trustMultiplier : List (String × D)) (independenceCap : ℤ) : D × D :=
  let citations := cappedByPublisher independenceCap (fun _ => 0)
    (evidenceForPosition position evidence)
  let counted := citations.filter fun c => c.verification ≠ "REJECTED"
  let weight := fun c => citationWeight c verificationWeights trustMultiplier
  (pySum ((counted.filter fun c => c.polarity = "SUPPORT").map weight),
    pySum ((counted.filter fun c => c.polarity = "OPPOSE").map weight))

end Agora.Consensus
