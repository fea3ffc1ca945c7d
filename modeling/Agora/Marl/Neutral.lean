import Agora.Marl.Leaves

namespace Agora.Marl

/-!
# Neutral records

The plainest records of an episode: observations without sources and features, decisions without a
proposal, and the reward vector of five components without input, each with its neutral credit.
They are built the way the constructors build records, so they are hashed correctly
(`hashesOk_transition`) and their credits conserve the rewards (`creditsConserved_neutral`).
-/

/-- What the records of one episode share. -/
structure EpisodeScope where
  episodeId : UUID
  workspaceId : UUID
  sessionId : UUID
  environmentVersion : Identifier
  implementation : ImplementationRefV1
  metricVersion : Version
  reason : Reason
  reasonCode : ReasonCode
  componentIds : Fin 5 → UUID
  componentIds_injective : Function.Injective componentIds

/-- The hash of an empty list. -/
def emptyHash : Hash := sha256Hash (utf8 ['[', ']'])

theorem canonicalHash_nil : canonicalHash (.arr []) = .ok emptyHash := rfl

namespace EpisodeScope

variable (s : EpisodeScope)

/-! ### Observations and boundaries -/

/-- An observation without sources and features; it is terminal when it has a reason. -/
def observation (id : UUID) (index seq : ℕ) (reason : Option ReasonCode) : MarlObservation where
  observationId := id
  episodeId := s.episodeId
  workspaceId := s.workspaceId
  sessionId := s.sessionId
  decisionIndex := index
  environmentVersion := s.environmentVersion
  observationImplementation := s.implementation
  ledgerSeq := seq
  ledgerEventId := none
  ledgerHash := emptyHash
  terminal := reason.isSome
  terminalReason := reason
  sources := []
  features := []
  sourcesHash := emptyHash
  featuresHash := emptyHash
  terminal_shape := rfl
  ordinals_gapless := rfl
  features_ordered := List.Pairwise.nil
  features_unique := List.Pairwise.nil

/-- The decision of a boundary without a proposal. -/
def undecided (id : UUID) (o : MarlObservationV1) : CoordinatorDecision where
  decisionId := id
  episodeId := s.episodeId
  decisionIndex := o.content.decisionIndex
  observationHash := o.hash
  proposalHash := none
  outcome := .noProposal
  reason := s.reason
  coordinatorImplementation := s.implementation
  executedActionHash := none
  feasibilityStatus := .unknown
  shape := by decide

variable [Runtime]

/-- The boundary of an observation, without a proposal. -/
def boundary (id : UUID) (o : MarlObservationV1) (hepisode : o.content.episodeId = s.episodeId)
    (hterminal : o.content.terminal = false) : DecisionBoundary where
  episodeId := s.episodeId
  decisionIndex := o.content.decisionIndex
  observation := o
  proposedAction := none
  coordinatorDecision := .sealed (s.undecided id o)
  executedAction := none
  references := ⟨hepisode, rfl, nofun, nofun, rfl, rfl, nofun, nofun, hterminal, rfl, rfl⟩

/-! ### Rewards and credits -/

omit [Runtime] in
/-- A component whose metric has no input. -/
def reward (index : ℕ) (i : Fin 5) : RewardComponent where
  componentId := s.componentIds i
  episodeId := s.episodeId
  decisionIndex := index
  ordinal := i
  metricId := s.environmentVersion
  metricVersion := s.metricVersion
  rewardImplementation := s.implementation
  direction := .noDirection
  preMetricValue := none
  postMetricValue := none
  rewardValue := .zero
  status := .missingInput
  neutralReason := some s.reasonCode
  sourceHashes := []
  ordinal_le := Nat.le_of_lt_succ i.isLt
  sources_ordered := List.Pairwise.nil
  shape := ⟨rfl, rfl⟩

/-- The neutral credit of a component. -/
def credit (r : RewardComponentV1) : CreditAssignment where
  creditId := r.content.componentId
  episodeId := s.episodeId
  decisionIndex := r.content.decisionIndex
  rewardComponentId := r.content.componentId
  rewardComponentHash := r.hash
  status := .neutral
  agentDefinitionIds := []
  sourceHashes := []
  share := .zero
  creditedValue := .zero
  creditImplementation := s.implementation
  agents_ordered := List.Pairwise.nil
  sources_ordered := List.Pairwise.nil
  neutral_shape := fun _ => ⟨rfl, rfl⟩
  shared_shape := nofun

/-- The reward vector of a decision. -/
def rewards (index : ℕ) : List RewardComponentV1 :=
  (List.finRange 5).map fun i => .sealed (s.reward index i)

def credits (index : ℕ) : List CreditAssignmentV1 :=
  (s.rewards index).map fun r => .sealed (s.credit r)

omit [Runtime] in
/-- The credits of one component, when the components are distinct. -/
theorem filter_map_of_nodup {α β κ : Type} [DecidableEq κ] {l : List α} (f : α → β) (key : α → κ)
    (key' : β → κ) (hkey : ∀ a, key' (f a) = key a) (hl : (l.map key).Nodup) {a : α} (ha : a ∈ l) :
    (l.map f).filter (fun b => key' b = key a) = [f a] := by
  induction l with
  | nil => cases ha
  | cons b l ih =>
    rw [List.map_cons, List.nodup_cons] at hl
    rw [List.map_cons, List.filter_cons]
    rcases List.mem_cons.mp ha with rfl | ha
    · rw [if_pos (decide_eq_true (hkey a)), List.filter_eq_nil_iff.mpr]
      intro c hc
      obtain ⟨d, hd, rfl⟩ := List.mem_map.mp hc
      rw [hkey, decide_eq_true_eq]
      intro heq
      exact hl.1 (heq ▸ List.mem_map_of_mem hd)
    · have hne : key b ≠ key a := fun heq => hl.1 (heq ▸ List.mem_map_of_mem ha)
      rw [if_neg (by rw [hkey, decide_eq_true_eq]; exact hne), ih hl.2 ha]

/-- Neutral credits conserve the rewards of components without input. -/
theorem creditsConserved_neutral {rewards : List RewardComponentV1}
    (hids : (rewards.map (·.content.componentId)).Nodup)
    (hstatus : ∀ r ∈ rewards, r.content.status ≠ .observed) :
    CreditsConserved rewards (rewards.map fun r => .sealed (s.credit r)) := by
  constructor
  · intro c hc
    obtain ⟨r, hr, rfl⟩ := List.mem_map.mp hc
    exact ⟨r, hr, rfl, rfl⟩
  · intro r hr
    have hgroup := filter_map_of_nodup (fun r => Hashed.sealed (s.credit r))
      (fun r : RewardComponentV1 => r.content.componentId)
      (fun c : CreditAssignmentV1 => c.content.rewardComponentId) (fun _ => rfl) hids hr
    -- A component that is not observed is worth nothing.
    have hshape := r.content.shape
    rw [RewardShape, if_neg (hstatus r hr)] at hshape
    simp only [hgroup, if_neg (hstatus r hr), hshape.1]
    refine ⟨⟨rfl, fun c hc => ?_⟩, ?_⟩
    · rw [List.mem_singleton.mp hc]
      rfl
    · rw [List.map_singleton, List.sum_singleton]
      rfl

/-! ### Transitions and markers -/

omit [Runtime] in
/-- The observation can follow the boundary. -/
structure Follows (b : DecisionBoundaryV1) (post : MarlObservationV1) : Prop where
  episode : b.content.episodeId = s.episodeId
  postEpisode : post.content.episodeId = s.episodeId
  postIndex : post.content.decisionIndex = b.content.decisionIndex + 1
  watermark : b.content.observation.content.ledgerSeq ≤ post.content.ledgerSeq

theorem map_ordinal_rewards (index : ℕ) :
    (s.rewards index).map (·.content.ordinal) = List.range 5 := rfl

theorem nodup_rewards (index : ℕ) : ((s.rewards index).map (·.content.componentId)).Nodup := by
  rw [rewards, List.map_map]
  exact (List.nodup_finRange 5).map s.componentIds_injective

/-- The transition from a boundary to a following observation, with neutral rewards. -/
def transition (b : DecisionBoundaryV1) (post : MarlObservationV1) (h : s.Follows b post) :
    Transition where
  episodeId := s.episodeId
  decisionIndex := b.content.decisionIndex
  boundary := b
  postObservation := post
  rewards := s.rewards b.content.decisionIndex
  credits := s.credits b.content.decisionIndex
  terminal := post.content.terminal
  shape := by
    refine ⟨h.episode, rfl, h.postEpisode, h.postIndex, h.watermark, rfl,
      s.map_ordinal_rewards _, s.nodup_rewards _, s.creditsConserved_neutral (s.nodup_rewards _) ?_⟩
    intro r hr
    obtain ⟨i, -, rfl⟩ := List.mem_map.mp hr
    nofun

omit [Runtime] in
def marker (id : UUID) (index : ℕ) (boundary : Option Hash) : IncompleteMarker where
  markerId := id
  episodeId := s.episodeId
  openDecisionIndex := index
  reason := s.reason
  boundaryHash := boundary

/-! ### Leaves -/

section Leaves

variable {s} {p : PyStr → Bool} {q : ℤ → Bool} (h : LeafTest p q)

include h

theorem leaves_reward {index : ℕ} {i : Fin 5} (hindex : q index = true) (hordinal : q i = true)
    (hzero : q 0 = true) : (Hashed.preimage (s.reward index i)).allLeaves p q = true :=
  leaves_rewardComponent h hindex hordinal nofun nofun (leaves_rational h hzero h.one)

theorem leaves_credit {r : RewardComponentV1} (hindex : q r.content.decisionIndex = true)
    (hzero : q 0 = true) : (Hashed.preimage (s.credit r)).allLeaves p q = true :=
  leaves_creditAssignment h hindex (leaves_rational h hzero h.one) (leaves_rational h hzero h.one)

/-- A boundary without actions passes when its observation does. -/
theorem leaves_boundary {id : UUID} {o : MarlObservationV1}
    (hepisode : o.content.episodeId = s.episodeId) (hterminal : o.content.terminal = false)
    (hindex : q o.content.decisionIndex = true)
    (hobservation : (Hashed.codec.dump o).allLeaves p q = true) :
    (Hashed.preimage (s.boundary id o hepisode hterminal)).allLeaves p q = true :=
  leaves_decisionBoundary h hindex hobservation nofun
    (leaves_hashed h (by simp only [HashedModel.hashField]; decide)
      (leaves_coordinatorDecision h hindex)) nofun

/-- A transition passes when its boundary and its observation do. -/
theorem leaves_neutralTransition {b : DecisionBoundaryV1} {post : MarlObservationV1}
    (hfollows : s.Follows b post) (hindex : q b.content.decisionIndex = true)
    (hordinals : ∀ i : Fin 5, q i = true)
    (hboundary : (Hashed.codec.dump b).allLeaves p q = true)
    (hpost : (Hashed.codec.dump post).allLeaves p q = true) :
    (Hashed.preimage (s.transition b post hfollows)).allLeaves p q = true := by
  have hzero : q 0 = true := hordinals 0
  refine leaves_transition h hindex hboundary hpost (fun r hr => ?_) fun c hc => ?_
  · obtain ⟨i, -, rfl⟩ := List.mem_map.mp hr
    exact leaves_hashed h (by simp only [HashedModel.hashField]; decide)
      (leaves_reward h hindex (hordinals i) hzero)
  · obtain ⟨r, hr, rfl⟩ := List.mem_map.mp hc
    obtain ⟨i, -, rfl⟩ := List.mem_map.mp hr
    exact leaves_hashed h (by simp only [HashedModel.hashField]; decide)
      (leaves_credit h hindex hzero)

end Leaves

/-! ### Hashes -/

theorem hashesOk_observation {id : UUID} {index seq : ℕ} {reason : Option ReasonCode}
    (hindex : Json.isPrintable index = true) (hseq : Json.isPrintable seq = true) :
    MarlObservationV1.HashesOk (.sealed (s.observation id index seq reason)) where
  sources := nofun
  features := nofun
  lists := ⟨canonicalHash_nil, canonicalHash_nil⟩
  self := hashOk_sealed_of_leaves (leaves_observation leafTest_encodable hindex hseq nofun nofun)

omit [Runtime] in
theorem isPrintable_ordinal (i : Fin 5) : Json.isPrintable i = true :=
  isPrintable_small (by omega)

omit [Runtime] in
theorem leaves_of_hashOk {C : Type} [m : HashedModel C] {x : Hashed C}
    (hkey : m.hashField.length ≤ 128) (h : x.HashOk) :
    (Hashed.codec.dump x).allLeaves Json.isScalar Json.isPrintable = true := by
  rw [← Json.encodable_eq_allLeaves]
  exact encodable_of_hashOk hkey h

theorem hashesOk_boundary {id : UUID} {o : MarlObservationV1}
    (hepisode : o.content.episodeId = s.episodeId) (hterminal : o.content.terminal = false)
    (hindex : Json.isPrintable o.content.decisionIndex = true)
    (ho : MarlObservationV1.HashesOk o) :
    DecisionBoundaryV1.HashesOk (.sealed (s.boundary id o hepisode hterminal)) where
  observation := ho
  proposed := nofun
  executed := nofun
  decision := hashOk_sealed_of_leaves (leaves_coordinatorDecision leafTest_encodable hindex)
  self := hashOk_sealed_of_leaves (leaves_boundary leafTest_encodable hepisode hterminal hindex
    (leaves_of_hashOk (by simp only [HashedModel.hashField]; decide) ho.self))

/-- Sealed neutral transitions are hashed correctly when their parts are. -/
theorem hashesOk_transition {b : DecisionBoundaryV1} {post : MarlObservationV1}
    (hfollows : s.Follows b post) (hindex : Json.isPrintable b.content.decisionIndex = true)
    (hb : DecisionBoundaryV1.HashesOk b) (hpost : MarlObservationV1.HashesOk post) :
    TransitionV1.HashesOk (.sealed (s.transition b post hfollows)) where
  boundary := hb
  post := hpost
  rewards := by
    intro r hr
    obtain ⟨i, -, rfl⟩ := List.mem_map.mp hr
    exact hashOk_sealed_of_leaves (leaves_reward leafTest_encodable hindex
      (isPrintable_ordinal i) (isPrintable_ordinal 0))
  credits := by
    intro c hc
    obtain ⟨r, hr, rfl⟩ := List.mem_map.mp hc
    obtain ⟨i, -, rfl⟩ := List.mem_map.mp hr
    exact hashOk_sealed_of_leaves (leaves_credit leafTest_encodable hindex
      (isPrintable_ordinal 0))
  self := hashOk_sealed_of_leaves (leaves_neutralTransition leafTest_encodable hfollows hindex
    isPrintable_ordinal
    (leaves_of_hashOk (by simp only [HashedModel.hashField]; decide) hb.self)
    (leaves_of_hashOk (by simp only [HashedModel.hashField]; decide) hpost.self))

theorem hashOk_marker {id : UUID} {index : ℕ} {boundary : Option Hash}
    (hindex : Json.isPrintable index = true) :
    (Hashed.sealed (s.marker id index boundary)).HashOk :=
  hashOk_sealed_of_leaves (leaves_incompleteMarker leafTest_encodable hindex)

/-! ### Replay -/

/-- A registry that knows every reward, credit and coordinator implementation.  Its coordinator
    decides as recorded, and its reward functions are never called on neutral components. -/
def neutralRegistry : ImplementationRegistry where
  feature _ := none
  reward _ := some fun _ _ _ _ => .ok true
  coordinator _ := some fun _ _ => .ok false
  hasCredit _ := true

theorem reproduces_transition {b : DecisionBoundaryV1} {post : MarlObservationV1}
    {hfollows : s.Follows b post} {hash : Hash} (hb : b.content.observation.content.features = [])
    (hpost : post.content.features = []) :
    Reproduces neutralRegistry ⟨s.transition b post hfollows, hash⟩ where
  features := by
    intro o ho f hf
    rcases List.mem_cons.mp ho with rfl | ho
    · rw [show (s.transition b post hfollows).boundary = b from rfl, hb] at hf
      cases hf
    · rw [List.mem_singleton.mp ho, show (s.transition b post hfollows).postObservation = post
        from rfl, hpost] at hf
      cases hf
  coordinator := ⟨_, rfl, rfl⟩
  rewards := by
    intro r hr
    obtain ⟨i, -, rfl⟩ := List.mem_map.mp hr
    exact ⟨_, rfl, nofun⟩
  credits := fun _ _ => rfl

/-! ### Episodes -/

/-- The first boundary of an episode. -/
def firstBoundary : DecisionBoundaryV1 :=
  .sealed (s.boundary (s.componentIds 0) (.sealed (s.observation (s.componentIds 0) 0 0 none))
    rfl rfl)

/-- The observation after it.  It is terminal when there is a reason. -/
def secondObservation (reason : Option ReasonCode) : MarlObservationV1 :=
  .sealed (s.observation (s.componentIds 1) 1 1 reason)

theorem follows_first (reason : Option ReasonCode) :
    s.Follows s.firstBoundary (s.secondObservation reason) :=
  ⟨rfl, rfl, rfl, Nat.zero_le _⟩

/-- The first transition of an episode. -/
def firstTransition (reason : Option ReasonCode) : TransitionV1 :=
  .sealed (s.transition s.firstBoundary (s.secondObservation reason) (s.follows_first reason))

/-- An episode of one terminal transition. -/
def completed : MarlEpisodeV1 where
  episodeId := s.episodeId
  workspaceId := s.workspaceId
  sessionId := s.sessionId
  environmentVersion := s.environmentVersion
  codeIdentity := emptyHash
  status := .complete
  transitions := [s.firstTransition (some s.reasonCode)]

/-- An episode that was interrupted after one transition, at the boundary. -/
def interrupted (b : DecisionBoundaryV1) : MarlEpisodeV1 where
  episodeId := s.episodeId
  workspaceId := s.workspaceId
  sessionId := s.sessionId
  environmentVersion := s.environmentVersion
  codeIdentity := emptyHash
  status := .incomplete
  transitions := [s.firstTransition none]
  pendingBoundary := some b
  incompleteMarker := some (.sealed (s.marker (s.componentIds 0) 1 (some b.hash)))

omit [Runtime] in
/-- An episode before its first boundary. -/
def opened : MarlEpisodeV1 where
  episodeId := s.episodeId
  workspaceId := s.workspaceId
  sessionId := s.sessionId
  environmentVersion := s.environmentVersion
  codeIdentity := emptyHash
  status := .open

theorem mem_firstTransition {e : MarlEpisodeV1} {reason : Option ReasonCode}
    (h : e.transitions = [s.firstTransition reason]) {P : TransitionV1 → Prop}
    (hP : P (s.firstTransition reason)) : ∀ t ∈ e.transitions, P t := by
  intro t ht
  rw [h, List.mem_singleton] at ht
  rw [ht]
  exact hP

theorem valid_completed : s.completed.Valid where
  unique := List.nodup_singleton _
  gapless := rfl
  episode := s.mem_firstTransition rfl rfl
  scope := s.mem_firstTransition rfl ⟨⟨rfl, rfl⟩, rfl, rfl⟩
  pending_scope := by
    intro b hb
    cases hb
  shape := ⟨⟨_, rfl, rfl⟩, rfl, rfl⟩

theorem valid_interrupted {b : DecisionBoundaryV1}
    (hworkspace : b.content.observation.content.workspaceId = s.workspaceId)
    (hsession : b.content.observation.content.sessionId = s.sessionId) :
    (s.interrupted b).Valid where
  unique := List.nodup_singleton _
  gapless := rfl
  episode := s.mem_firstTransition rfl rfl
  scope := s.mem_firstTransition rfl ⟨⟨rfl, rfl⟩, rfl, rfl⟩
  pending_scope := by
    intro b' hb'
    cases hb'
    exact ⟨hworkspace, hsession⟩
  shape := ⟨_, rfl, rfl, rfl⟩

omit [Runtime] in
theorem valid_opened : s.opened.Valid where
  unique := List.nodup_nil
  gapless := rfl
  episode := List.forall_mem_nil _
  scope := List.forall_mem_nil _
  pending_scope := by
    intro b hb
    cases hb
  shape := by
    refine ⟨rfl, fun b hb => ?_⟩
    cases hb

theorem hashesOk_firstBoundary : DecisionBoundaryV1.HashesOk s.firstBoundary :=
  s.hashesOk_boundary rfl rfl (isPrintable_ordinal 0)
    (s.hashesOk_observation (isPrintable_ordinal 0) (isPrintable_ordinal 0))

theorem hashesOk_secondObservation (reason : Option ReasonCode) :
    MarlObservationV1.HashesOk (s.secondObservation reason) :=
  s.hashesOk_observation (isPrintable_ordinal 1) (isPrintable_ordinal 1)

theorem hashesOk_firstTransition (reason : Option ReasonCode) :
    TransitionV1.HashesOk (s.firstTransition reason) :=
  s.hashesOk_transition (s.follows_first reason) (isPrintable_ordinal 0) s.hashesOk_firstBoundary
    (s.hashesOk_secondObservation reason)

theorem hashesOk_completed : ∀ record ∈ s.completed.records, record.HashesOk := by
  intro record hrecord
  rw [show s.completed.records = [.transition (s.firstTransition (some s.reasonCode))] from rfl,
    List.mem_singleton] at hrecord
  rw [hrecord]
  exact s.hashesOk_firstTransition _

/-- The first transition passes every test that short strings and small numbers pass. -/
theorem leaves_firstTransition {p : PyStr → Bool} {q : ℤ → Bool} (h : LeafTest p q)
    (hordinals : ∀ i : Fin 5, q i = true) (reason : Option ReasonCode) :
    (Hashed.codec.dump (s.firstTransition reason)).allLeaves p q = true := by
  have hpre : (Hashed.codec.dump (.sealed (s.observation (s.componentIds 0) 0 0 none))).allLeaves
      p q = true :=
    leaves_hashed h (by simp only [HashedModel.hashField]; decide)
      (leaves_observation h (hordinals 0) (hordinals 0) nofun nofun)
  have hboundary : (Hashed.codec.dump s.firstBoundary).allLeaves p q = true :=
    leaves_hashed h (by simp only [HashedModel.hashField]; decide)
      (leaves_boundary h rfl rfl (hordinals 0) hpre)
  have hpost : (Hashed.codec.dump (s.secondObservation reason)).allLeaves p q = true :=
    leaves_hashed h (by simp only [HashedModel.hashField]; decide)
      (leaves_observation h (hordinals 1) (hordinals 1) nofun nofun)
  exact leaves_hashed h (by simp only [HashedModel.hashField]; decide)
    (leaves_neutralTransition h (s.follows_first reason) (hordinals 0) hordinals hboundary hpost)

theorem reproduces_firstTransition (reason : Option ReasonCode) :
    Reproduces neutralRegistry (s.firstTransition reason) :=
  s.reproduces_transition rfl rfl

theorem singleSourced_firstTransition (reason : Option ReasonCode) :
    TransitionV1.SingleSourced (s.firstTransition reason) := by
  intro o ho f hf
  simp only [List.mem_cons, List.not_mem_nil, or_false] at ho
  rcases ho with rfl | rfl <;> cases hf

theorem roundTrips_completed : s.completed.RoundTrips where
  closed := List.cons_ne_nil _ _
  pendingIndex := by
    intro b hb
    cases hb
  pendingEpisode := by
    intro b hb
    cases hb
  markerEpisode := by
    intro m hm
    cases hm
  singleSourced := s.mem_firstTransition rfl (s.singleSourced_firstTransition _)

theorem environmentVersion_completed :
    ∀ o ∈ s.completed.observations, o.content.environmentVersion = s.environmentVersion := by
  intro o ho
  rw [show s.completed.observations = [s.firstBoundary.content.observation,
    s.secondObservation (some s.reasonCode)] from rfl] at ho
  simp only [List.mem_cons, List.not_mem_nil, or_false] at ho
  rcases ho with rfl | rfl <;> rfl

/-! ### Pending boundaries -/

section Pending

variable (claimed : Hash) (target : UUID)

/-- An observation without sources that claims a hash of them. -/
def pendingObservation : MarlObservationV1 :=
  .sealed { s.observation (s.componentIds 1) 1 1 none with sourcesHash := claimed }

/-- A proposal to speak on a target observation. -/
def proposal : ProposedActionV1 := .sealed
  { proposalId := s.componentIds 1
    episodeId := s.episodeId
    decisionIndex := 1
    observationId := target
    observationHash := (s.pendingObservation claimed).hash
    policyImplementation := s.implementation
    seed := 0
    kind := .speak
    payload := ⟨.obj [], rfl, rfl⟩
    agents_ordered := List.Pairwise.nil
    agents_unique := List.nodup_nil }

/-- The decision that rejects the proposal. -/
def rejection : CoordinatorDecisionV1 := .sealed
  { decisionId := s.componentIds 1
    episodeId := s.episodeId
    decisionIndex := 1
    observationHash := (s.pendingObservation claimed).hash
    proposalHash := some (s.proposal claimed target).hash
    outcome := .rejected
    reason := s.reason
    coordinatorImplementation := s.implementation
    executedActionHash := none
    feasibilityStatus := .unknown
    shape := by simp [DecisionShape] }

/-- A boundary with a rejected proposal. -/
def pendingBoundary : DecisionBoundaryV1 := .sealed
  { episodeId := s.episodeId
    decisionIndex := 1
    observation := s.pendingObservation claimed
    proposedAction := some (s.proposal claimed target)
    coordinatorDecision := s.rejection claimed target
    executedAction := none
    references := by
      refine ⟨rfl, rfl, fun a ha => ?_, nofun, rfl, rfl, fun a ha => ?_, nofun, rfl, rfl, rfl⟩
        <;> cases ha <;> rfl }

section Leaves

variable {p : PyStr → Bool} {q : ℤ → Bool} (h : LeafTest p q)
  (hordinals : ∀ i : Fin 5, q i = true)

include h hordinals

theorem leaves_pendingObservation :
    (Hashed.preimage (s.pendingObservation claimed).content).allLeaves p q = true :=
  leaves_observation h (hordinals 1) (hordinals 1) nofun nofun

theorem leaves_proposal :
    (Hashed.preimage (s.proposal claimed target).content).allLeaves p q = true :=
  leaves_proposedAction h (hordinals 1) (hordinals 0) rfl

theorem leaves_rejection :
    (Hashed.preimage (s.rejection claimed target).content).allLeaves p q = true :=
  leaves_coordinatorDecision h (hordinals 1)

theorem leaves_pendingBoundary :
    (Hashed.preimage (s.pendingBoundary claimed target).content).allLeaves p q = true := by
  refine leaves_decisionBoundary h (hordinals 1) ?_ ?_ ?_ nofun
  · exact leaves_hashed h (by simp only [HashedModel.hashField]; decide)
      (s.leaves_pendingObservation claimed h hordinals)
  · intro a ha
    cases ha
    exact leaves_hashed h (by simp only [HashedModel.hashField]; decide)
      (s.leaves_proposal claimed target h hordinals)
  · exact leaves_hashed h (by simp only [HashedModel.hashField]; decide)
      (s.leaves_rejection claimed target h hordinals)

end Leaves

/-- The boundary passes its check, whatever hash of its sources it claims. -/
theorem validate_pendingBoundary :
    validateBoundaryHashes (s.pendingBoundary claimed target) = .ok () := by
  rw [validateBoundaryHashes]
  simp only [check_bind_eq_ok, Except.forM_eq_ok_iff, Hashed.validateHash_eq_ok, Option.mem_toList]
  refine ⟨List.forall_mem_nil _, List.forall_mem_nil _,
    hashOk_sealed_of_leaves (s.leaves_pendingObservation claimed leafTest_encodable
      isPrintable_ordinal), fun a ha => ?_, fun a ha => ?_,
    hashOk_sealed_of_leaves (s.leaves_rejection claimed target leafTest_encodable
      isPrintable_ordinal),
    hashOk_sealed_of_leaves (s.leaves_pendingBoundary claimed target leafTest_encodable
      isPrintable_ordinal)⟩
  · cases ha
    exact hashOk_sealed_of_leaves (s.leaves_proposal claimed target leafTest_encodable
      isPrintable_ordinal)
  · cases ha

/-- The hash of its sources is that of an empty list. -/
theorem listHashesOk_pendingObservation :
    MarlObservationV1.ListHashesOk (s.pendingObservation claimed) ↔ claimed = emptyHash := by
  show canonicalHash (.arr []) = .ok claimed ∧ canonicalHash (.arr []) = .ok emptyHash ↔ _
  rw [canonicalHash_nil, Except.ok.injEq]
  exact ⟨fun h => h.1.symm, fun h => ⟨h.symm, rfl⟩⟩

theorem roundTrips_interrupted : (s.interrupted (s.pendingBoundary claimed target)).RoundTrips where
  closed := List.cons_ne_nil _ _
  pendingIndex := by
    intro b hb
    cases hb
    rfl
  pendingEpisode := by
    intro b hb
    cases hb
    rfl
  markerEpisode := by
    intro m hm
    cases hm
    rfl
  singleSourced := s.mem_firstTransition rfl (s.singleSourced_firstTransition _)

theorem environmentVersion_interrupted :
    ∀ o ∈ (s.interrupted (s.pendingBoundary claimed target)).observations,
      o.content.environmentVersion = s.environmentVersion := by
  intro o ho
  rw [show (s.interrupted (s.pendingBoundary claimed target)).observations
    = [s.firstBoundary.content.observation, s.secondObservation none, s.pendingObservation claimed]
    from rfl] at ho
  simp only [List.mem_cons, List.not_mem_nil, or_false] at ho
  rcases ho with rfl | rfl | rfl <;> rfl

/-- The records pass every test that short strings and small numbers pass. -/
theorem leaves_interrupted {p : PyStr → Bool} {q : ℤ → Bool} (h : LeafTest p q)
    (hordinals : ∀ i : Fin 5, q i = true) :
    ∀ record ∈ (s.interrupted (s.pendingBoundary claimed target)).records,
      (TrajectoryRecord.codec.dump record).allLeaves p q = true := by
  intro record hrecord
  rw [show (s.interrupted (s.pendingBoundary claimed target)).records
    = [.transition (s.firstTransition none), .boundary (s.pendingBoundary claimed target),
      .incomplete (.sealed (s.marker (s.componentIds 0) 1
        (some (s.pendingBoundary claimed target).hash)))] from rfl] at hrecord
  simp only [List.mem_cons, List.not_mem_nil, or_false] at hrecord
  rcases hrecord with rfl | rfl | rfl
  · exact s.leaves_firstTransition h hordinals none
  · exact leaves_hashed h (by simp only [HashedModel.hashField]; decide)
      (s.leaves_pendingBoundary claimed target h hordinals)
  · exact leaves_hashed h (by simp only [HashedModel.hashField]; decide)
      (leaves_incompleteMarker h (hordinals 1))

theorem checkHashes_interrupted {manifest : TrajectoryManifestV1} {actual : Hash} :
    checkHashes manifest actual (s.interrupted (s.pendingBoundary claimed target)).records
      = .ok () := by
  rw [checkHashes_eq_ok, transitionsOf_records, boundariesOf_records, markersOf_records]
  refine ⟨s.mem_firstTransition rfl (s.hashesOk_firstTransition _), fun b hb => ?_⟩
  cases hb
  exact ⟨s.validate_pendingBoundary claimed target, _, rfl, rfl,
    s.hashOk_marker (isPrintable_ordinal 1)⟩

end Pending

end EpisodeScope

end Agora.Marl
