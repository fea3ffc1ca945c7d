import Agora.Marl.Observation
import Mathlib.Algebra.BigOperators.Group.List.Basic

namespace Agora.Marl

/-!
# Decision boundaries and transitions

Actions, coordinator decisions, rewards and credits, and the three record kinds of a trajectory:
transitions, the pending decision boundary and the incomplete marker.
-/

variable [Runtime]

/-! ### Actions and decisions -/

structure ProposedAction where
  proposalId : UUID
  episodeId : UUID
  decisionIndex : ℕ
  observationId : UUID
  observationHash : Hash
  policyImplementation : ImplementationRefV1
  seed : ℤ
  kind : ActionKind
  agentDefinitionIds : List UUID := []
  payload : ActionPayload
  agents_ordered : IdsOrdered agentDefinitionIds
  agents_unique : agentDefinitionIds.Nodup

instance : HashedModel ProposedAction where
  before := Fields.nil
  after := Fields.schemaVersion (Fields.oneDefault "agent_definition_ids" uuidCodec.list []
      |>.field "decision_index" Codec.nat
      |>.field "episode_id" uuidCodec
      |>.field "kind" ActionKind.codec
      |>.field "observation_hash" (Text.codec isHash)
      |>.field "observation_id" uuidCodec
      |>.field "payload" (Codec.json fun j => isObject j && j.encodable)
      |>.field "policy_implementation" ImplementationRefV1.codec
      |>.field "proposal_id" uuidCodec)
    |>.field "seed" Codec.int
  hashField := "action_hash"
  Valid := fun (_, (((((((((agents, _), _), _), _), _), _), _), _), _)) =>
    IdsOrdered agents ∧ agents.Nodup
  decValid := fun _ => inferInstance
  build := fun (_, (((((((((agents, index), episode), kind), observationHash), observation),
      payload), policy), proposal), seed)) h =>
    { proposalId := proposal, episodeId := episode, decisionIndex := index
      observationId := observation, observationHash, policyImplementation := policy, seed, kind
      agentDefinitionIds := agents, payload, agents_ordered := h.1, agents_unique := h.2 }
  repr := fun a => ((), (((((((((a.agentDefinitionIds, a.decisionIndex), a.episodeId), a.kind),
    a.observationHash), a.observationId), a.payload), a.policyImplementation), a.proposalId),
    a.seed))
  holds := fun a => ⟨a.agents_ordered, a.agents_unique⟩
  build_repr := fun _ => rfl
  repr_build := fun _ _ => rfl
  ordered := by decide +kernel

abbrev ProposedActionV1 := Hashed ProposedAction

/-- The validator does not ask for distinct agents here. -/
structure ExecutedAction where
  executionId : UUID
  episodeId : UUID
  decisionIndex : ℕ
  kind : ActionKind
  agentDefinitionIds : List UUID := []
  payload : ActionPayload
  agents_ordered : IdsOrdered agentDefinitionIds

instance : HashedModel ExecutedAction where
  before := (Fields.oneDefault "agent_definition_ids" uuidCodec.list []
    |>.field "decision_index" Codec.nat
    |>.field "episode_id" uuidCodec)
  after := Fields.schemaVersion (Fields.one "execution_id" uuidCodec
    |>.field "kind" ActionKind.codec
    |>.field "payload" (Codec.json fun j => isObject j && j.encodable))
  hashField := "executed_action_hash"
  Valid := fun (((agents, _), _), _) => IdsOrdered agents
  decValid := fun _ => inferInstance
  build := fun (((agents, index), episode), ((execution, kind), payload)) h =>
    { executionId := execution, episodeId := episode, decisionIndex := index, kind
      agentDefinitionIds := agents, payload, agents_ordered := h }
  repr := fun a => (((a.agentDefinitionIds, a.decisionIndex), a.episodeId),
    ((a.executionId, a.kind), a.payload))
  holds := fun a => a.agents_ordered
  build_repr := fun _ => rfl
  repr_build := fun _ _ => rfl
  ordered := by decide +kernel

abbrev ExecutedActionV1 := Hashed ExecutedAction

/-- The validator `decision_shape`. -/
def DecisionShape (outcome : DecisionOutcome) (proposalHash executedActionHash : Option Hash)
    (feasibility : Feasibility) : Prop :=
  ¬ (outcome = .noProposal ∧ proposalHash.isSome)
    ∧ ¬ (outcome = .accepted ∧ executedActionHash.isNone)
    ∧ ¬ (outcome ≠ .accepted ∧ executedActionHash.isSome)
    ∧ ¬ (feasibility = .unsat ∧ outcome = .accepted)
    ∧ ¬ (feasibility = .unknown ∧ outcome = .accepted)

instance (outcome : DecisionOutcome) (proposalHash executedActionHash : Option Hash)
    (feasibility : Feasibility) :
    Decidable (DecisionShape outcome proposalHash executedActionHash feasibility) :=
  inferInstanceAs (Decidable (_ ∧ _))

structure CoordinatorDecision where
  decisionId : UUID
  episodeId : UUID
  decisionIndex : ℕ
  observationHash : Hash
  proposalHash : Option Hash
  outcome : DecisionOutcome
  reason : Reason
  coordinatorImplementation : ImplementationRefV1
  executedActionHash : Option Hash
  feasibilityStatus : Feasibility
  shape : DecisionShape outcome proposalHash executedActionHash feasibilityStatus

instance : HashedModel CoordinatorDecision where
  before := Fields.one "coordinator_implementation" ImplementationRefV1.codec
  after := Fields.schemaVersion (Fields.one "decision_id" uuidCodec
    |>.field "decision_index" Codec.nat
    |>.field "episode_id" uuidCodec
    |>.field "executed_action_hash" ((Text.codec isHash).option nofun)
    |>.field "feasibility_status" Feasibility.codec
    |>.field "observation_hash" (Text.codec isHash)
    |>.field "outcome" DecisionOutcome.codec
    |>.field "proposal_hash" ((Text.codec isHash).option nofun)
    |>.field "reason" (Text.codec isReason))
  hashField := "decision_hash"
  Valid := fun (_, ((((((((_, _), _), executed), feasibility), _), outcome), proposal), _)) =>
    DecisionShape outcome proposal executed feasibility
  decValid := fun _ => inferInstance
  build := fun (implementation, ((((((((id, index), episode), executed), feasibility), observation),
      outcome), proposal), reason)) h =>
    { decisionId := id, episodeId := episode, decisionIndex := index, observationHash := observation
      proposalHash := proposal, outcome, reason, coordinatorImplementation := implementation
      executedActionHash := executed, feasibilityStatus := feasibility, shape := h }
  repr := fun d => (d.coordinatorImplementation, ((((((((d.decisionId, d.decisionIndex),
    d.episodeId), d.executedActionHash), d.feasibilityStatus), d.observationHash), d.outcome),
    d.proposalHash), d.reason))
  holds := fun d => d.shape
  build_repr := fun _ => rfl
  repr_build := fun _ _ => rfl
  ordered := by decide +kernel

abbrev CoordinatorDecisionV1 := Hashed CoordinatorDecision

/-! ### Rewards and credits -/

/-- The validator `reward_shape` on the values of a component. -/
def RewardShape (status : RewardStatus) (pre post : Option RationalV1) (reward : RationalV1)
    (neutralReason : Option ReasonCode) : Prop :=
  if status = .observed then pre.isSome ∧ post.isSome ∧ neutralReason.isNone
  else reward = RationalV1.zero ∧ neutralReason.isSome

instance (status : RewardStatus) (pre post : Option RationalV1) (reward : RationalV1)
    (neutralReason : Option ReasonCode) :
    Decidable (RewardShape status pre post reward neutralReason) :=
  inferInstanceAs (Decidable (if status = .observed then
    (pre.isSome : Prop) ∧ (post.isSome : Prop) ∧ (neutralReason.isNone : Prop)
    else reward = RationalV1.zero ∧ (neutralReason.isSome : Prop)))

structure RewardComponent where
  componentId : UUID
  episodeId : UUID
  decisionIndex : ℕ
  ordinal : ℕ
  metricId : Identifier
  metricVersion : Version
  rewardImplementation : ImplementationRefV1
  direction : RewardDirection
  preMetricValue : Option RationalV1
  postMetricValue : Option RationalV1
  rewardValue : RationalV1
  status : RewardStatus
  neutralReason : Option ReasonCode
  sourceHashes : List Hash
  ordinal_le : ordinal ≤ 4
  sources_ordered : HashesOrdered sourceHashes
  shape : RewardShape status preMetricValue postMetricValue rewardValue neutralReason

instance : HashedModel RewardComponent where
  before := Fields.nil
  after := Fields.schemaVersion (Fields.one "component_id" uuidCodec
      |>.field "decision_index" Codec.nat
      |>.field "direction" RewardDirection.codec
      |>.field "episode_id" uuidCodec
      |>.field "metric_id" (Text.codec isIdentifier)
      |>.field "metric_version" (Text.codec isVersion)
      |>.field "neutral_reason" ((Text.codec isReasonCode).option Text.codec_dump_ne)
      |>.field "ordinal" Codec.nat
      |>.field "post_metric_value" (RationalV1.codec.option nofun)
      |>.field "pre_metric_value" (RationalV1.codec.option nofun)
      |>.field "reward_implementation" ImplementationRefV1.codec
      |>.field "reward_value" RationalV1.codec)
    |>.field "source_hashes" (Text.codec isHash).list
    |>.field "status" RewardStatus.codec
  hashField := "component_hash"
  Valid := fun (_, (((((((((((((_, _), _), _), _), _), neutral), ordinal), post), pre), _), value),
      sources), status)) =>
    ordinal ≤ 4 ∧ HashesOrdered sources ∧ RewardShape status pre post value neutral
  decValid := fun _ => inferInstance
  build := fun (_, (((((((((((((id, index), direction), episode), metric), version), neutral),
      ordinal), post), pre), implementation), value), sources), status)) h =>
    { componentId := id, episodeId := episode, decisionIndex := index, ordinal, metricId := metric
      metricVersion := version, rewardImplementation := implementation, direction
      preMetricValue := pre, postMetricValue := post, rewardValue := value, status
      neutralReason := neutral, sourceHashes := sources, ordinal_le := h.1
      sources_ordered := h.2.1, shape := h.2.2 }
  repr := fun r => ((), (((((((((((((r.componentId, r.decisionIndex), r.direction), r.episodeId),
    r.metricId), r.metricVersion), r.neutralReason), r.ordinal), r.postMetricValue),
    r.preMetricValue), r.rewardImplementation), r.rewardValue), r.sourceHashes), r.status))
  holds := fun r => ⟨r.ordinal_le, r.sources_ordered, r.shape⟩
  build_repr := fun _ => rfl
  repr_build := fun _ _ => rfl
  ordered := by decide +kernel

abbrev RewardComponentV1 := Hashed RewardComponent

structure CreditAssignment where
  creditId : UUID
  episodeId : UUID
  decisionIndex : ℕ
  rewardComponentId : UUID
  rewardComponentHash : Hash
  status : CreditStatus
  agentDefinitionIds : List UUID
  sourceHashes : List Hash
  share : RationalV1
  creditedValue : RationalV1
  creditImplementation : ImplementationRefV1
  agents_ordered : IdsOrdered agentDefinitionIds
  sources_ordered : HashesOrdered sourceHashes
  neutral_shape : status = .neutral → agentDefinitionIds = [] ∧ creditedValue = RationalV1.zero
  shared_shape : status = .shared → 2 ≤ agentDefinitionIds.length

instance : HashedModel CreditAssignment where
  before := Fields.one "agent_definition_ids" uuidCodec.list
  after := Fields.schemaVersion (Fields.one "credit_id" uuidCodec
      |>.field "credit_implementation" ImplementationRefV1.codec
      |>.field "credited_value" RationalV1.codec
      |>.field "decision_index" Codec.nat
      |>.field "episode_id" uuidCodec
      |>.field "reward_component_hash" (Text.codec isHash)
      |>.field "reward_component_id" uuidCodec)
    |>.field "share" RationalV1.codec
    |>.field "source_hashes" (Text.codec isHash).list
    |>.field "status" CreditStatus.codec
  hashField := "credit_hash"
  Valid := fun (agents, (((((((((_, _), value), _), _), _), _), _), sources), status)) =>
    IdsOrdered agents ∧ HashesOrdered sources
      ∧ (status = .neutral → agents = [] ∧ value = RationalV1.zero)
      ∧ (status = .shared → 2 ≤ agents.length)
  decValid := fun _ => inferInstance
  build := fun (agents, (((((((((id, implementation), value), index), episode), componentHash),
      component), share), sources), status)) h =>
    { creditId := id, episodeId := episode, decisionIndex := index, rewardComponentId := component
      rewardComponentHash := componentHash, status, agentDefinitionIds := agents
      sourceHashes := sources, share, creditedValue := value, creditImplementation := implementation
      agents_ordered := h.1, sources_ordered := h.2.1, neutral_shape := h.2.2.1
      shared_shape := h.2.2.2 }
  repr := fun c => (c.agentDefinitionIds, (((((((((c.creditId, c.creditImplementation),
    c.creditedValue), c.decisionIndex), c.episodeId), c.rewardComponentHash),
    c.rewardComponentId), c.share), c.sourceHashes), c.status))
  holds := fun c => ⟨c.agents_ordered, c.sources_ordered, c.neutral_shape, c.shared_shape⟩
  build_repr := fun _ => rfl
  repr_build := fun _ _ => rfl
  ordered := by decide +kernel

abbrev CreditAssignmentV1 := Hashed CreditAssignment

/-- `_validate_credit_conservation`: every credit names an exact component, and the credits of
    a component have the right shape and add up to its reward. -/
def CreditsConserved (rewards : List RewardComponentV1) (credits : List CreditAssignmentV1) : Prop :=
  (∀ c ∈ credits, ∃ r ∈ rewards, r.content.componentId = c.content.rewardComponentId
      ∧ r.hash = c.content.rewardComponentHash)
    ∧ ∀ r ∈ rewards,
      let group := credits.filter fun c => c.content.rewardComponentId = r.content.componentId
      (if r.content.status = .observed then group ≠ []
        else group.length = 1 ∧ ∀ c ∈ group, c.content.status = .neutral)
      ∧ (group.map (·.content.creditedValue.fraction)).sum = r.content.rewardValue.fraction

instance (rewards : List RewardComponentV1) (credits : List CreditAssignmentV1) :
    Decidable (CreditsConserved rewards credits) :=
  haveI (group : List CreditAssignmentV1) : Decidable (group ≠ []) :=
    decidable_of_iff (group.isEmpty = false) (by simp)
  inferInstanceAs (Decidable (_ ∧ _))

/-! ### Records -/

/-- The validator `references`. -/
def BoundaryReferences (episodeId : UUID) (index : ℕ) (observation : MarlObservationV1)
    (proposed : Option ProposedActionV1) (decision : CoordinatorDecisionV1)
    (executed : Option ExecutedActionV1) : Prop :=
  observation.content.episodeId = episodeId ∧ decision.content.episodeId = episodeId
    ∧ (∀ a ∈ proposed, a.content.episodeId = episodeId)
    ∧ (∀ a ∈ executed, a.content.episodeId = episodeId)
    ∧ observation.content.decisionIndex = index ∧ decision.content.decisionIndex = index
    ∧ (∀ a ∈ proposed, a.content.decisionIndex = index)
    ∧ (∀ a ∈ executed, a.content.decisionIndex = index)
    ∧ observation.content.terminal = false
    ∧ proposed.isNone = decide (decision.content.outcome = .noProposal)
    ∧ executed.isNone = decide (decision.content.outcome ≠ .accepted)

instance (episodeId : UUID) (index : ℕ) (observation : MarlObservationV1)
    (proposed : Option ProposedActionV1) (decision : CoordinatorDecisionV1)
    (executed : Option ExecutedActionV1) :
    Decidable (BoundaryReferences episodeId index observation proposed decision executed) :=
  inferInstanceAs (Decidable (_ ∧ _))

structure DecisionBoundary where
  episodeId : UUID
  decisionIndex : ℕ
  observation : MarlObservationV1
  proposedAction : Option ProposedActionV1
  coordinatorDecision : CoordinatorDecisionV1
  executedAction : Option ExecutedActionV1
  references : BoundaryReferences episodeId decisionIndex observation proposedAction
    coordinatorDecision executedAction

instance : HashedModel DecisionBoundary where
  before := Fields.nil
  after := Fields.schemaVersion (Fields.one "coordinator_decision" Hashed.codec
    |>.field "decision_index" Codec.nat
    |>.field "episode_id" uuidCodec
    |>.field "executed_action" Hashed.optionCodec
    |>.field "observation" Hashed.codec
    |>.field "proposed_action" Hashed.optionCodec
    |>.constant "record_type" (Codec.literalText "decision_boundary"))
  hashField := "boundary_hash"
  Valid := fun (_, (((((decision, index), episode), executed), observation), proposed)) =>
    BoundaryReferences episode index observation proposed decision executed
  decValid := fun _ => inferInstance
  build := fun (_, (((((decision, index), episode), executed), observation), proposed)) h =>
    { episodeId := episode, decisionIndex := index, observation, proposedAction := proposed
      coordinatorDecision := decision, executedAction := executed, references := h }
  repr := fun b => ((), (((((b.coordinatorDecision, b.decisionIndex), b.episodeId),
    b.executedAction), b.observation), b.proposedAction))
  holds := fun b => b.references
  build_repr := fun _ => rfl
  repr_build := fun _ _ => rfl
  ordered := by decide +kernel

abbrev DecisionBoundaryV1 := Hashed DecisionBoundary

/-- The validator `transition_shape`. -/
def TransitionShape (episodeId : UUID) (index : ℕ) (boundary : DecisionBoundaryV1)
    (post : MarlObservationV1) (rewards : List RewardComponentV1)
    (credits : List CreditAssignmentV1) (terminal : Bool) : Prop :=
  boundary.content.episodeId = episodeId ∧ boundary.content.decisionIndex = index
    ∧ post.content.episodeId = episodeId ∧ post.content.decisionIndex = index + 1
    ∧ boundary.content.observation.content.ledgerSeq ≤ post.content.ledgerSeq
    ∧ terminal = post.content.terminal
    ∧ rewards.map (·.content.ordinal) = List.range 5
    ∧ (rewards.map (·.content.componentId)).Nodup
    ∧ CreditsConserved rewards credits

instance (episodeId : UUID) (index : ℕ) (boundary : DecisionBoundaryV1)
    (post : MarlObservationV1) (rewards : List RewardComponentV1)
    (credits : List CreditAssignmentV1) (terminal : Bool) :
    Decidable (TransitionShape episodeId index boundary post rewards credits terminal) :=
  inferInstanceAs (Decidable (_ ∧ _))

structure Transition where
  episodeId : UUID
  decisionIndex : ℕ
  boundary : DecisionBoundaryV1
  postObservation : MarlObservationV1
  rewards : List RewardComponentV1
  credits : List CreditAssignmentV1
  terminal : Bool
  shape : TransitionShape episodeId decisionIndex boundary postObservation rewards credits terminal

instance : HashedModel Transition where
  before := Fields.schemaVersion (Fields.one "boundary" Hashed.codec
      |>.field "credits" Hashed.codec.list
      |>.field "decision_index" Codec.nat
      |>.field "episode_id" uuidCodec
      |>.field "post_observation" Hashed.codec
      |>.constant "record_type" (Codec.literalText "transition")
      |>.field "rewards" Hashed.codec.list)
    |>.field "terminal" Codec.bool
  after := Fields.nil
  hashField := "transition_hash"
  Valid := fun (((((((boundary, credits), index), episode), post), rewards), terminal), _) =>
    TransitionShape episode index boundary post rewards credits terminal
  decValid := fun _ => inferInstance
  build := fun (((((((boundary, credits), index), episode), post), rewards), terminal), _) h =>
    { episodeId := episode, decisionIndex := index, boundary, postObservation := post, rewards
      credits, terminal, shape := h }
  repr := fun t => (((((((t.boundary, t.credits), t.decisionIndex), t.episodeId),
    t.postObservation), t.rewards), t.terminal), ())
  holds := fun t => t.shape
  build_repr := fun _ => rfl
  repr_build := fun _ _ => rfl
  ordered := by decide +kernel

abbrev TransitionV1 := Hashed Transition

structure IncompleteMarker where
  markerId : UUID
  episodeId : UUID
  openDecisionIndex : ℕ
  reason : Reason
  boundaryHash : Option Hash
deriving DecidableEq

instance : HashedModel IncompleteMarker where
  before := (Fields.one "boundary_hash" ((Text.codec isHash).option nofun)).field "episode_id"
    uuidCodec
  after := Fields.schemaVersion (Fields.one "marker_id" uuidCodec
    |>.field "open_decision_index" Codec.nat
    |>.field "reason" (Text.codec isReason)
    |>.constant "record_type" (Codec.literalText "incomplete"))
  hashField := "incomplete_hash"
  Valid := fun _ => True
  decValid := fun _ => inferInstance
  build := fun ((boundary, episode), ((marker, index), reason)) _ =>
    ⟨marker, episode, index, reason, boundary⟩
  repr := fun m => ((m.boundaryHash, m.episodeId), ((m.markerId, m.openDecisionIndex), m.reason))
  holds := fun _ => trivial
  build_repr := fun _ => rfl
  repr_build := fun _ _ => rfl
  ordered := by decide +kernel

abbrev IncompleteMarkerV1 := Hashed IncompleteMarker

end Agora.Marl
