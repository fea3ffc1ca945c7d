import Agora.Consensus.Decimal

namespace Agora.Consensus

/-!
# Consensus value objects

The frozen inputs and results of a consensus evaluation.  A validator of the source is a
proposition carried by the structure, so a context or a verdict that its validators reject
cannot be built.  Stances, severities and resolutions are free strings, as in the source.
-/

/-! ### Enumerations -/

inductive ConsensusOutcome where
  | fullConsensus
  | partialConsensus
  | conditionalConsensus
  | paretoSet
  | noConsensus
  | deadlock
  | insufficientEvidence
  | infeasible
deriving DecidableEq, Repr

/-- The text of an outcome. -/
def ConsensusOutcome.value : ConsensusOutcome → String
  | .fullConsensus => "FULL_CONSENSUS"
  | .partialConsensus => "PARTIAL_CONSENSUS"
  | .conditionalConsensus => "CONDITIONAL_CONSENSUS"
  | .paretoSet => "PARETO_SET"
  | .noConsensus => "NO_CONSENSUS"
  | .deadlock => "DEADLOCK"
  | .insufficientEvidence => "INSUFFICIENT_EVIDENCE"
  | .infeasible => "INFEASIBLE"

/-- The outcomes that may carry a selected alternative. -/
def ConsensusOutcome.selectable : ConsensusOutcome → Bool
  | .fullConsensus | .partialConsensus | .conditionalConsensus => true
  | _ => false

inductive FeasibilityStatus where
  | sat
  | unsat
  | unknown
deriving DecidableEq, Repr

inductive AbstainPolicy where
  | exclude
  | half
deriving DecidableEq, Repr

/-! ### Inputs -/

/-- Per-alternative feasibility from the shared gate.  `evidenceMatchesStatus` is the model
    validator: SAT carries no contradiction and no reason, UNSAT a core and nothing else,
    UNKNOWN a reason that is not blank and nothing else. -/
structure FeasibilityVerdict where
  alternativeId : UUID
  status : FeasibilityStatus
  unsatCore : List String := []
  witness : Option ParamMap := none
  reasonUnknown : Option String := none
  evidenceMatchesStatus :
    match status with
    | .sat => unsatCore = [] ∧ reasonUnknown = none
    | .unsat => unsatCore ≠ [] ∧ witness.isNone ∧ reasonUnknown = none
    | .unknown =>
      (∃ reason, reasonUnknown = some reason ∧ isBlank reason = false) ∧ unsatCore = []
        ∧ witness.isNone

/-- One agent's position on one alternative. -/
structure AgentPosition (D : Type) where
  agentId : UUID
  agentDefinitionVersion : String
  alternativeId : UUID
  stance : String
  confidence : D
  rationale : String := ""
  evidenceIds : List UUID := []

/-- An evidence citation with verification and trust metadata. -/
structure EvidenceCitationInput where
  evidenceId : UUID
  verification : String
  trustLevel : String
  polarity : String
  publisher : String := ""

structure ObjectiveInput (D : Type) where
  objectiveId : UUID
  name : String
  weight : D
  direction : String
  conflictsWith : List UUID := []

structure ConstraintInput where
  constraintId : UUID
  name : String
  constraintType : String
  formalStatus : String

structure AlternativeInput where
  alternativeId : UUID
  name : String

structure PropositionInput where
  propositionId : UUID
  normalizedText : String

structure CritiqueInput where
  critiqueId : UUID
  targetId : UUID
  critiqueType : String
  severity : String
  resolution : String

structure AssumptionInput where
  assumptionId : UUID
  statement : String
  materiality : String := ""

/-- Strategy selection and parameter binding. -/
structure StrategyConfig where
  strategyName : String
  strategyVersion : String
  parameters : ParamMap := []

/-- `dict[str, dict[str, str]]`: objective id, then alternative id, then the value. -/
abbrev ObjectiveValues := List (String × List (String × String))

/-- The complete frozen input set of an evaluation.  The proofs it carries are its
    validators: at least one alternative, distinct alternative ids, at most one verdict for
    an alternative, verdicts only on alternatives of the context, confidences and weights in
    `[0, 1]`. -/
structure ConsensusContext (D : Type) [DecimalArith D] where
  sessionId : UUID
  round : ℕ
  alternatives : List AlternativeInput
  propositions : List PropositionInput := []
  agentPositions : List (AgentPosition D) := []
  evidence : List EvidenceCitationInput := []
  assumptions : List AssumptionInput := []
  critiques : List CritiqueInput := []
  objectives : List (ObjectiveInput D) := []
  constraints : List ConstraintInput := []
  feasibility : List FeasibilityVerdict := []
  strategyConfig : StrategyConfig
  objectiveValues : ObjectiveValues := []
  round_pos : 1 ≤ round
  alternatives_ne_nil : alternatives ≠ []
  unique_alternatives : (alternatives.map (·.alternativeId)).Nodup
  unique_verdicts : (feasibility.map (·.alternativeId)).Nodup
  feasibility_matches_alternatives :
    ∀ v ∈ feasibility, v.alternativeId ∈ alternatives.map (·.alternativeId)
  confidence_range : ∀ p ∈ agentPositions, 0 ≤ p.confidence ∧ p.confidence ≤ 1
  weight_range : ∀ o ∈ objectives, 0 ≤ o.weight ∧ o.weight ≤ 1

/-! ### Results -/

/-- Per-alternative score computed by a strategy. -/
structure AlternativeScore (D : Type) where
  alternativeId : UUID
  alternativeName : String
  rank : ℕ
  support : D
  valueScore : Option D
  rankScore : Option D
  feasibility : FeasibilityStatus
  evidenceStrength : Option D

/-- Per-agent contribution to the result. -/
structure AgentContribution (D : Type) where
  agentId : UUID
  alternativeId : UUID
  stance : String
  positionScore : D
  confidence : D
  evidenceScore : D

/-- Dissenting or abstaining agent record. -/
structure DissentEntry where
  agentId : UUID
  stance : String
  warrantArtifactIds : List UUID
  disputedPropositionIds : List UUID := []
  unresolvedCritiqueIds : List UUID := []
  whatWouldChange : String := ""
deriving DecidableEq

/-- Minority report entry. -/
structure MinorityEntry where
  agentId : UUID
  position : String
  warrantArtifactIds : List UUID
  disputedPropositions : List UUID := []
  unresolvedCritiques : List UUID
  whatWouldChange : String := ""
deriving DecidableEq

/-- A value in a derivation step.  A decimal stands for its `str`. -/
inductive TraceValue (D : Type) where
  | nat (n : ℕ)
  | bool (b : Bool)
  | text (s : String)
  | dec (d : D)
  | optDec (d : Option D)
  | ids (ids : List UUID)
  | obj (entries : List (String × TraceValue D))

structure DerivationStep (D : Type) where
  step : ℕ
  stage : String
  description : String
  inputs : List (String × TraceValue D)
  outputs : List (String × TraceValue D)

/-- Full result of a consensus evaluation.  The optional fields keep the defaults of the
    source, so an early return that does not set one leaves it empty. -/
structure ConsensusResult (D : Type) where
  resultId : UUID
  sessionId : UUID
  round : ℕ
  strategy : String
  strategyVersion : String
  outcome : ConsensusOutcome
  scores : List (AlternativeScore D) := []
  selectedAlternativeId : Option UUID := none
  paretoSet : List UUID := []
  support : Option D := none
  dissentRatio : Option D := none
  abstentionRatio : Option D := none
  blockingConstraints : List String := []
  blockingCritiques : List UUID := []
  conditions : List String := []
  degenerateInput : Bool := false
  inputHash : String
  contributions : List (AgentContribution D) := []
  dissent : List DissentEntry := []
  minorityReport : List MinorityEntry := []
  derivation : List (DerivationStep D) := []
  schemaVersion : ℕ := 1

end Agora.Consensus
