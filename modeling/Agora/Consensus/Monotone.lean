import Agora.Consensus.Bounds
import Agora.Consensus.Conflict

namespace Agora.Consensus

/-!
# More support for the selected alternative

When a position on an alternative moves to SUPPORT, the support of that alternative and the keys it
is ranked by do not decrease, and nothing that another alternative is ranked by changes.  So an
alternative that is selected stays selected, with no less support and no weaker an outcome
(`evaluate_supported`).
-/

/-! ### Moved positions -/

section Moved

/-- The stances from which a position can move to SUPPORT. -/
def weakerStance (stance : String) : Bool :=
  stance ∈ ["OPPOSE", "INSUFFICIENT_EVIDENCE", "CONDITIONALLY_SUPPORT"]

variable {D : Type} [DecimalArith D]

/-- The position with the stance SUPPORT. -/
def AgentPosition.supporting (q : AgentPosition D) : AgentPosition D :=
  { q with stance := "SUPPORT" }

/-- A position is left as it is, or moves to SUPPORT for the alternative `a`. -/
inductive AgentPosition.Moved (a : UUID) : AgentPosition D → AgentPosition D → Prop
  | same (q : AgentPosition D) : Moved a q q
  | supports (q : AgentPosition D) (ha : q.alternativeId = a) (hstance : weakerStance q.stance) :
      Moved a q q.supporting

/-- Contexts that differ in such positions only. -/
structure ConsensusContext.Moved (a : UUID) (ctx ctx' : ConsensusContext D) : Prop where
  agentPositions : List.Forall₂ (AgentPosition.Moved a) ctx.agentPositions ctx'.agentPositions
  alternatives : ctx'.alternatives = ctx.alternatives
  evidence : ctx'.evidence = ctx.evidence
  critiques : ctx'.critiques = ctx.critiques
  objectives : ctx'.objectives = ctx.objectives
  feasibility : ctx'.feasibility = ctx.feasibility
  strategyConfig : ctx'.strategyConfig = ctx.strategyConfig
  objectiveValues : ctx'.objectiveValues = ctx.objectiveValues

/-- The context in which one agent supports the alternative of its position. -/
def ConsensusContext.withSupport (ctx : ConsensusContext D) {before after : List (AgentPosition D)}
    {q : AgentPosition D} (h : ctx.agentPositions = before ++ q :: after) : ConsensusContext D :=
  { ctx with
    agentPositions := before ++ q.supporting :: after
    confidence_range := by
      intro p hp
      have hrange := ctx.confidence_range
      rw [h] at hrange
      rcases List.mem_append.mp hp with hp | hp
      · exact hrange p (List.mem_append_left _ hp)
      · rcases List.mem_cons.mp hp with rfl | hp
        · exact hrange q (by simp)
        · exact hrange p (by simp [hp]) }

theorem moved_withSupport {ctx : ConsensusContext D} {before after : List (AgentPosition D)}
    {q : AgentPosition D} (h : ctx.agentPositions = before ++ q :: after)
    (hstance : weakerStance q.stance = true) : ctx.Moved q.alternativeId (ctx.withSupport h) where
  agentPositions := by
    have hsame (l : List (AgentPosition D)) :
        List.Forall₂ (AgentPosition.Moved q.alternativeId) l l :=
      List.forall₂_same.mpr fun p _ => .same p
    rw [h]
    exact List.rel_append (hsame before) (.cons (.supports q rfl hstance) (hsame after))
  alternatives := rfl
  evidence := rfl
  critiques := rfl
  objectives := rfl
  feasibility := rfl
  strategyConfig := rfl
  objectiveValues := rfl

variable {a : UUID} {q q' : AgentPosition D}

omit [DecimalArith D] in
theorem AgentPosition.Moved.alternativeId (h : q.Moved a q') :
    q'.alternativeId = q.alternativeId := by
  cases h with
  | same => rfl
  | supports => rfl

omit [DecimalArith D] in
theorem AgentPosition.Moved.evidenceIds (h : q.Moved a q') : q'.evidenceIds = q.evidenceIds := by
  cases h with
  | same => rfl
  | supports => rfl

omit [DecimalArith D] in
theorem AgentPosition.Moved.abstains (h : q.Moved a q') :
    q'.stance = "ABSTAIN" ↔ q.stance = "ABSTAIN" := by
  cases h with
  | same => rfl
  | supports _ hstance =>
    refine iff_of_false (by simp [supporting]) ?_
    intro habstain
    rw [habstain] at hstance
    simp [weakerStance] at hstance

omit [DecimalArith D] in
/-- The positions on other alternatives do not move. -/
theorem AgentPosition.Moved.eq (h : q.Moved a q') (ha : q.alternativeId ≠ a) : q' = q := by
  cases h with
  | same => rfl
  | supports hid _ => exact absurd hid ha

omit [DecimalArith D] in
/-- Moving does not change which positions count. -/
theorem relevantPositions_moved {l l' : List (AgentPosition D)}
    (h : List.Forall₂ (AgentPosition.Moved a) l l') (b : UUID) (policy : AbstainPolicy) :
    List.Forall₂ (AgentPosition.Moved a) (relevantPositions b l policy)
      (relevantPositions b l' policy) := by
  have hrelevant : List.Forall₂ (AgentPosition.Moved a) (l.filter fun p => p.alternativeId = b)
      (l'.filter fun p => p.alternativeId = b) := by
    apply List.rel_filter _ h
    intro p p' hp
    simp only [decide_eq_true_eq, hp.alternativeId]
  unfold relevantPositions
  by_cases hpolicy : policy = .exclude
  · simp only [if_pos hpolicy]
    apply List.rel_filter _ hrelevant
    intro p p' hp
    simp only [ne_eq, decide_eq_true_eq, hp.abstains]
  · simp only [if_neg hpolicy]
    exact hrelevant

omit [DecimalArith D] in
theorem relevantPositions_eq {l l' : List (AgentPosition D)}
    (h : List.Forall₂ (AgentPosition.Moved a) l l') {b : UUID} (hb : b ≠ a)
    (policy : AbstainPolicy) : relevantPositions b l' policy = relevantPositions b l policy := by
  have hsame := (forall₂_and_mem (relevantPositions_moved h b policy)).imp fun p p' hp => by
    obtain ⟨hp, hmoved⟩ := hp
    have hid := (mem_relevantPositions.mp hp).2.1
    exact (hmoved.eq (hid ▸ hb)).symm
  rw [List.forall₂_eq_eq_eq] at hsame
  exact hsame.symm

end Moved

/-! ### Supports -/

section Supports

variable {a : UUID} {ctx ctx' : ConsensusContext ℚ}

/-- Exact parameters under which more support counts for more. -/
structure EvidenceParameters.Favours (p : EvidenceParameters ℚ) : Prop where
  positionWeights : weightsOrDefault p.positionWeights = positionWeightsDefault
  beta : InUnit p.beta
  lam : 0 ≤ p.lam

/-- By the default weights, no stance scores more than SUPPORT. -/
theorem positionScore_moved {weights : Option (List (String × ℚ))}
    (hweights : weightsOrDefault weights = positionWeightsDefault) {q q' : AgentPosition ℚ}
    (h : q.Moved a q') (hconfidence : 0 ≤ q.confidence) (useConfidence : Bool) :
    positionScore q.stance q.confidence useConfidence weights
      ≤ positionScore q'.stance q'.confidence useConfidence weights := by
  cases h with
  | same => exact le_rfl
  | supports ha hstance =>
    have hdefault : ∀ entry ∈ (positionWeightsDefault : List (String × ℚ)), InUnit entry.2 := by
      decide +kernel
    have hhalf : InUnit (ofRat (1 / 2) : ℚ) := ⟨by decide +kernel, by decide +kernel⟩
    have hle := (lookup_getD_inUnit hdefault hhalf q.stance).2
    have hone : ((positionWeightsDefault : List (String × ℚ)).lookup "SUPPORT").getD (ofRat (1 / 2))
        = 1 := by decide +kernel
    unfold positionScore
    rw [hweights]
    show (if useConfidence then _ * q.confidence else _)
      ≤ if useConfidence then _ * q.confidence else _
    rw [AgentPosition.supporting, hone]
    split
    · exact mul_le_mul_of_nonneg_right hle hconfidence
    · exact hle

theorem relevantPositions_confident (h : ctx.Moved a ctx') (b : UUID) (policy : AbstainPolicy) :
    List.Forall₂ (fun q q' => 0 ≤ q.confidence ∧ q.Moved a q')
      (relevantPositions b ctx.agentPositions policy)
      (relevantPositions b ctx'.agentPositions policy) := by
  apply (forall₂_and_mem (relevantPositions_moved h.agentPositions b policy)).imp
  rintro q q' ⟨hq, hmoved⟩
  exact ⟨(ctx.confidence_range q (mem_relevantPositions.mp hq).1).1, hmoved⟩

theorem rawSupport_moved (h : ctx.Moved a ctx') {p : SupportParameters ℚ}
    (hweights : weightsOrDefault p.positionWeights = positionWeightsDefault) (b : UUID) :
    rawSupport ctx p b ≤ rawSupport ctx' p b := by
  rw [rawSupport, rawSupport, computeSupport_fst, computeSupport_fst]
  apply mean_mono
  rw [List.forall₂_map_left_iff, List.forall₂_map_right_iff]
  apply (relevantPositions_confident h b p.abstainPolicy).imp
  rintro q q' ⟨hconfidence, hmoved⟩
  exact positionScore_moved hweights hmoved hconfidence _

theorem rawSupport_eq (h : ctx.Moved a ctx') (p : SupportParameters ℚ) {b : UUID} (hb : b ≠ a) :
    rawSupport ctx' p b = rawSupport ctx p b := by
  rw [rawSupport, rawSupport, computeSupport_fst, computeSupport_fst,
    relevantPositions_eq h.agentPositions hb]

/-- A term keeps its evidence, and its score does not decrease. -/
theorem evidenceTerm_moved (h : ctx.Moved a ctx') {p : EvidenceParameters ℚ} (hp : p.Favours)
    {q q' : AgentPosition ℚ} (hconfidence : 0 ≤ q.confidence) (hq : q.Moved a q') :
    Except.Agree (fun t t' : ℚ × ℚ => t.1 = t'.1 ∧ t.2 ≤ t'.2) (evidenceTerm ctx p q)
      (evidenceTerm ctx' p q') := by
  have hstrength : evidenceStrength q' ctx'.evidence p.verificationWeights p.trustMultiplier
        p.independenceCap
      = evidenceStrength q ctx.evidence p.verificationWeights p.trustMultiplier
        p.independenceCap := by
    unfold evidenceStrength evidenceForPosition
    rw [hq.evidenceIds, h.evidence]
  unfold evidenceTerm
  rw [hstrength]
  apply Except.Agree.bind (Except.agree_of_eq rfl)
  rintro ratio _ rfl
  apply Except.Agree.ok
  have hscore := positionScore_moved hp.positionWeights hq hconfidence p.useConfidence
  refine ⟨rfl, mul_le_mul_of_nonneg_right hscore ?_⟩
  rw [pyMax_eq_max]
  exact add_nonneg zero_le_one (mul_nonneg hp.lam (le_max_left _ _))

theorem evidenceTerm_eq_of_moved (h : ctx.Moved a ctx') (p : EvidenceParameters ℚ) :
    evidenceTerm ctx' p = evidenceTerm ctx p := by
  ext q
  unfold evidenceTerm
  rw [h.evidence]

/-- The evidence pass over an alternative in the two contexts. -/
structure AlternativeSupport.Raised (a : UUID) (s s' : AlternativeSupport ℚ) : Prop where
  alternative : s.alternative = s'.alternative
  evidenceTotal : s.evidenceTotal = s'.evidenceTotal
  support : s.support ≤ s'.support
  other : s.alternative.alternativeId ≠ a → s'.support = s.support

theorem alternativeSupport_moved (h : ctx.Moved a ctx') {p : EvidenceParameters ℚ} (hp : p.Favours)
    (alt : AlternativeInput) :
    Except.Agree (fun s s' => s.alternative = alt ∧ AlternativeSupport.Raised a s s')
      (alternativeSupport ctx p alt) (alternativeSupport ctx' p alt) := by
  rw [alternativeSupport_bind, alternativeSupport_bind]
  by_cases halt : alt.alternativeId = a
  · apply Except.Agree.bind (Except.agree_mapM
      (fun q q' (hq : 0 ≤ AgentPosition.confidence q ∧ AgentPosition.Moved a q q') =>
        evidenceTerm_moved h hp hq.1 hq.2)
      (relevantPositions_confident h alt.alternativeId p.abstainPolicy))
    intro terms terms' hterms
    have hraw := rawSupport_moved h (p := p.toSupportParameters) hp.positionWeights
      alt.alternativeId
    have hmean : mean (terms.map (·.2)) ≤ mean (terms'.map (·.2)) := by
      apply mean_mono
      rw [List.forall₂_map_left_iff, List.forall₂_map_right_iff]
      exact hterms.imp fun _ _ ht => ht.2
    apply Except.Agree.ok
    refine ⟨rfl, rfl, congrArg pySum (map_eq_of_forall₂ (fun _ _ ht => ht.1) hterms), ?_,
      fun hother => absurd halt hother⟩
    exact add_le_add (mul_le_mul_of_nonneg_left hraw (sub_nonneg.mpr hp.beta.2))
      (mul_le_mul_of_nonneg_left (min_le_min_left 1 hmean) hp.beta.1)
  · -- Nothing moved on this alternative.
    rw [relevantPositions_eq h.agentPositions halt, evidenceTerm_eq_of_moved h,
      rawSupport_eq h _ halt]
    apply Except.Agree.bind (Except.agree_of_eq rfl)
    rintro terms _ rfl
    exact .ok ⟨rfl, rfl, rfl, le_rfl, fun _ => rfl⟩

end Supports

/-! ### Rankings -/

section Rankings

variable {a : UUID}

/-- What comes first in a descending sort stays first when its key is raised and no other one is. -/
theorem sortedDesc_raised {α : Type} {R : α → α → Prop} {key : α → ℚ} {l l' rest : List α} {x : α}
    (h : sortedDesc key l = x :: rest) (hl : l.Nodup) (hR : List.Forall₂ R l l')
    (hself : ∀ x', R x x' → key x ≤ key x')
    (hother : ∀ y ∈ l, y ≠ x → ∀ y', R y y' → key y' ≤ key y) :
    ∃ x' rest', R x x' ∧ sortedDesc key l' = x' :: rest' := by
  have hr : ∀ y z : α, ¬ key y < key z ↔ key z ≤ key y := fun _ _ => not_lt
  obtain ⟨x', hx', hfirst⟩ := (firstMax_of_insertionSort hr h).forall₂ hl hR hself hother
  obtain ⟨rest', hsort⟩ := hfirst.insertionSort hr
  exact ⟨x', rest', hx', hsort⟩

theorem withRanks_cons (t : AlternativeScore ℚ) (scores : List (AlternativeScore ℚ)) :
    ∃ others, withRanks (t :: scores) = { t with rank := 1 } :: others := by
  refine ⟨(scores.zipIdx 1).map fun (s, i) => { s with rank := i + 1 }, ?_⟩
  rw [withRanks, List.zipIdx_cons, List.map_cons]

theorem withRanks_eq_cons {scores others : List (AlternativeScore ℚ)} {leader : AlternativeScore ℚ}
    (h : withRanks scores = leader :: others) :
    ∃ t rest, scores = t :: rest ∧ leader = { t with rank := 1 } := by
  cases scores with
  | nil => cases h
  | cons t rest =>
    obtain ⟨others', hranks⟩ := withRanks_cons t rest
    rw [hranks] at h
    exact ⟨t, rest, rfl, (List.cons.inj h).1.symm⟩

/-- The scores of an alternative in the two contexts. -/
structure AlternativeScore.Raised (t t' : AlternativeScore ℚ) : Prop where
  alternativeId : t'.alternativeId = t.alternativeId
  evidenceStrength : t'.evidenceStrength = t.evidenceStrength
  support : t.support ≤ t'.support

structure Row.Raised (a : UUID) (row row' : Row ℚ) : Prop where
  score : row.score.Raised row'.score
  rankKey : row.rankKey ≤ row'.rankKey
  other : row.score.alternativeId ≠ a → row'.rankKey = row.rankKey

theorem clamp_mono {x y : ℚ} (h : x ≤ y) : clamp x 0 1 ≤ clamp y 0 1 := by
  rw [clamp_eq, clamp_eq]
  exact max_le_max_left 0 (min_le_min_left 1 h)

theorem rankScoreOf_mono {alpha x y : ℚ} (halpha : 0 ≤ alpha) (h : x ≤ y) (value : Option ℚ) :
    rankScoreOf alpha x value ≤ rankScoreOf alpha y value := by
  cases value with
  | none => exact h
  | some value => exact add_le_add_left (mul_le_mul_of_nonneg_left h halpha) _

/-- A ranking led by `a` is led by it in the other context. -/
theorem rankRows_raised {rows rows' : List (Row ℚ)} (h : List.Forall₂ (Row.Raised a) rows rows')
    (hids : (rows.map (·.score.alternativeId)).Nodup) {leader : AlternativeScore ℚ}
    {followers : List (AlternativeScore ℚ)} (hrank : rankRows rows = leader :: followers)
    (ha : leader.alternativeId = a) :
    ∃ leader' followers', rankRows rows' = leader' :: followers' ∧ leader.Raised leader' := by
  obtain ⟨t, rest, hscores, rfl⟩ := withRanks_eq_cons hrank
  obtain ⟨row, rows₁, hsort, rfl, -⟩ := List.map_eq_cons_iff.mp hscores
  have hmem : row ∈ rows := mem_sortedDesc.mp (hsort ▸ List.mem_cons_self)
  obtain ⟨row', rest', hraised, hsort'⟩ := sortedDesc_raised hsort hids.of_map h
    (fun _ hrow => hrow.rankKey) (by
      -- Another row is about another alternative.
      intro y hy hne y' hraised
      apply (hraised.other _).le
      intro hya
      exact hne (List.inj_on_of_nodup_map hids hy hmem (hya.trans ha.symm)))
  obtain ⟨followers', hranks⟩ := withRanks_cons row'.score (rest'.map (·.score))
  refine ⟨{ row'.score with rank := 1 }, followers', ?_, ?_⟩
  · rw [rankRows, hsort', List.map_cons, hranks]
  · exact ⟨hraised.score.alternativeId, hraised.score.evidenceStrength, hraised.score.support⟩

end Rankings

/-! ### Rows and candidates -/

section Rows

variable {a : UUID} {ctx ctx' : ConsensusContext ℚ} (h : ctx.Moved a ctx')
include h

theorem gate_moved : ctx'.gate = ctx.gate := by
  unfold ConsensusContext.gate
  rw [h.alternatives, h.feasibility]

omit h in
/-- The rows of a context are about different alternatives. -/
theorem nodup_rows {f : AlternativeInput → Py (Row ℚ)}
    (hf : ∀ alt row, f alt = .ok row → row.score.alternativeId = alt.alternativeId)
    {rows : List (Row ℚ)} (hrows : ctx.gate.rankable.mapM f = .ok rows) :
    (rows.map (·.score.alternativeId)).Nodup := by
  have hids : rows.map (·.score.alternativeId) = ctx.gate.rankable.map (·.alternativeId) :=
    Except.map_eq_of_mapM hf hrows
  rw [hids]
  exact ctx.unique_alternatives.sublist (List.filter_sublist.map _)

theorem weightedRow_moved {p : SupportParameters ℚ}
    (hweights : weightsOrDefault p.positionWeights = positionWeightsDefault) {alpha : ℚ}
    (halpha : 0 ≤ alpha) (gate : FeasibilityGateResult) (alt : AlternativeInput) :
    Except.Agree (Row.Raised a) (weightedRow ctx p alpha gate alt)
      (weightedRow ctx' p alpha gate alt) := by
  have hraw := rawSupport_moved h hweights alt.alternativeId
  unfold weightedRow
  rw [h.objectives, h.objectiveValues]
  apply Except.Agree.bind (Except.agree_of_eq rfl)
  rintro value _ rfl
  refine .ok ⟨⟨rfl, rfl, clamp_mono hraw⟩, rankScoreOf_mono halpha hraw value, fun hother => ?_⟩
  exact congrArg (rankScoreOf alpha · value) (rawSupport_eq h p hother)

theorem evidenceWeightedRow_moved {p : EvidenceParameters ℚ} (hp : p.Favours) {alpha : ℚ}
    (halpha : 0 ≤ alpha) (gate : FeasibilityGateResult) (alt : AlternativeInput) :
    Except.Agree (Row.Raised a) (evidenceWeightedRow ctx p alpha gate alt)
      (evidenceWeightedRow ctx' p alpha gate alt) := by
  unfold evidenceWeightedRow
  rw [h.objectives, h.objectiveValues]
  apply Except.Agree.bind (alternativeSupport_moved h hp alt)
  rintro s s' ⟨rfl, hs⟩
  apply Except.Agree.bind (Except.agree_of_eq rfl)
  rintro value _ rfl
  refine .ok ⟨⟨rfl, congrArg some hs.evidenceTotal.symm, clamp_mono hs.support⟩,
    rankScoreOf_mono halpha hs.support value, fun hother => ?_⟩
  exact congrArg (rankScoreOf alpha · value) (hs.other hother)

/-- Candidates of the two contexts. -/
structure Candidate.Raised (a : UUID) (c c' : Candidate ℚ) : Prop where
  support : AlternativeSupport.Raised a c.toAlternativeSupport c'.toAlternativeSupport
  values : c.values = c'.values

omit h in
theorem Candidate.Raised.alike {c c' : Candidate ℚ} (hc : c.Raised a c') : c.Alike c' where
  id := by
    unfold Candidate.id
    rw [hc.support.alternative]
  lookup := by
    intro k
    rw [hc.values]

theorem frontier_moved {p : ConstraintAwareParameters ℚ}
    {supports supports' : List (AlternativeSupport ℚ)}
    (hsupports : List.Forall₂ (AlternativeSupport.Raised a) supports supports') :
    Except.Agree (List.Forall₂ (Candidate.Raised a)) (frontier ctx p supports)
      (frontier ctx' p supports') := by
  unfold frontier
  rw [h.objectives, h.objectiveValues]
  apply Except.Agree.bind (R := List.Forall₂ (Candidate.Raised a))
  · apply Except.agree_mapM _ (evidenceFloor_forall₂
      (fun _ _ hs => AlternativeSupport.Raised.evidenceTotal hs) hsupports p)
    intro s s' hs
    rw [hs.alternative]
    apply Except.Agree.bind (Except.agree_of_eq rfl)
    rintro values _ rfl
    exact .ok ⟨hs, rfl⟩
  · intro candidates candidates' hcandidates
    exact .ok (undominated_alike (fun _ _ hc => Candidate.Raised.alike hc) hcandidates (.refl _) _)

omit h in
theorem exists_supportOrder {pareto : List (Candidate ℚ)} (hne : pareto ≠ [])
    (gate : FeasibilityGateResult) : ∃ leader followers,
      withRanks ((sortedDesc (·.support) pareto).map fun c =>
        candidateScore c (some c.support) (scoreFeasibility gate c.id)) = leader :: followers := by
  obtain ⟨c, hc⟩ := List.exists_mem_of_ne_nil _ hne
  have hsorted : c ∈ sortedDesc (·.support) pareto := mem_sortedDesc.mpr hc
  obtain ⟨d, rest, hsort⟩ := List.exists_cons_of_ne_nil (List.ne_nil_of_mem hsorted)
  rw [hsort, List.map_cons]
  obtain ⟨others, hranks⟩ := withRanks_cons
    (candidateScore d (some d.support) (scoreFeasibility gate d.id)) (rest.map fun c =>
      candidateScore c (some c.support) (scoreFeasibility gate c.id))
  exact ⟨_, others, hranks⟩

omit h in
/-- A support order led by `a` is led by it in the other context. -/
theorem supportOrder_raised {pareto pareto' : List (Candidate ℚ)}
    (hraised : List.Forall₂ (Candidate.Raised a) pareto pareto')
    (hids : (pareto.map (·.id)).Nodup) {gate : FeasibilityGateResult}
    {leader leader' : AlternativeScore ℚ} {followers followers' : List (AlternativeScore ℚ)}
    (hrank : withRanks ((sortedDesc (·.support) pareto).map fun c =>
      candidateScore c (some c.support) (scoreFeasibility gate c.id)) = leader :: followers)
    (hrank' : withRanks ((sortedDesc (·.support) pareto').map fun c =>
      candidateScore c (some c.support) (scoreFeasibility gate c.id)) = leader' :: followers')
    (ha : leader.alternativeId = a) : leader.Raised leader' := by
  obtain ⟨t, rest, hscores, rfl⟩ := withRanks_eq_cons hrank
  obtain ⟨c, cs, hsort, rfl, -⟩ := List.map_eq_cons_iff.mp hscores
  obtain ⟨t', rest', hscores', rfl⟩ := withRanks_eq_cons hrank'
  obtain ⟨c', cs', hsort', rfl, -⟩ := List.map_eq_cons_iff.mp hscores'
  have hmem : c ∈ pareto := mem_sortedDesc.mp (hsort ▸ List.mem_cons_self)
  obtain ⟨d, ds, hcd, hsort''⟩ := sortedDesc_raised hsort hids.of_map hraised
    (fun _ hc => hc.support.support) (by
      intro y hy hne y' hraised
      apply (hraised.support.other _).le
      intro hya
      exact hne (List.inj_on_of_nodup_map hids hy hmem (hya.trans ha.symm)))
  obtain rfl := (List.cons.inj (hsort'.symm.trans hsort'')).1
  exact ⟨hcd.alike.id.symm, congrArg some hcd.support.evidenceTotal.symm,
    clamp_mono hcd.support.support⟩

end Rows

/-! ### Stages -/

section Stages

variable {a : UUID} {ctx ctx' : ConsensusContext ℚ}

/-- Rankings with the same leader, whose support does not decrease. -/
structure Ranked.Raised (r r' : Ranked ℚ) : Prop where
  gate : r'.gate = r.gate
  leader : r.leader.Raised r'.leader
  agreementThreshold : r'.agreementThreshold = r.agreementThreshold
  partialThreshold : r'.partialThreshold = r.partialThreshold
  blocking : r'.blocking = r.blocking

/-- A ranking led by `a` is handed over in the other context too. -/
def Staged.Raised (a : UUID) (st st' : Staged ℚ) : Prop :=
  ∀ r, st = .ranked r → r.leader.alternativeId = a → ∃ r', st' = .ranked r' ∧ r.Raised r'

theorem Staged.Raised.stopped (result : ConsensusResult ℚ) (st' : Staged ℚ) :
    Staged.Raised a (.stopped result) st' := by
  intro r hr
  cases hr

theorem Staged.Raised.of_leader_ne {r : Ranked ℚ} (h : r.leader.alternativeId ≠ a)
    (st' : Staged ℚ) : Staged.Raised a (.ranked r) st' := by
  intro r' hr hid
  cases hr
  exact absurd hid h

theorem Staged.Raised.ranked {r r' : Ranked ℚ} (h : r.Raised r') :
    Staged.Raised a (.ranked r) (.ranked r') := by
  intro r₁ hr _
  cases hr
  exact ⟨r', rfl, h⟩

/-- What `alpha`, `beta`, `lambda` and the position weights of a parameter map are. -/
structure FavouringParameters (params : ParamMap) : Prop where
  positionWeights : ∀ weights : Option (List (String × ℚ)),
    tableParam params "position_weights" = .ok weights →
      weightsOrDefault weights = positionWeightsDefault
  alpha : ∀ v : ℚ, decimalParam params "alpha" "0.5" = .ok v → InUnit v
  beta : ∀ v : ℚ, decimalParam params "evidence_weight" "0.4" = .ok v → InUnit v
  lam : ∀ v : ℚ, decimalParam params "lambda" "0.5" = .ok v → InUnit v

section Parameters

variable {params : ParamMap} (hparams : FavouringParameters params)
include hparams

theorem weightedParameters_favour {p : SupportParameters ℚ} {alpha : ℚ}
    (hp : weightedParameters params = .ok (p, alpha)) :
    weightsOrDefault p.positionWeights = positionWeightsDefault ∧ 0 ≤ alpha := by
  iterate 3 obtain ⟨_, -, hp⟩ := Except.bind_eq_ok.mp hp
  obtain ⟨_, halpha, hp⟩ := Except.bind_eq_ok.mp hp
  obtain ⟨_, hweights, hp⟩ := Except.bind_eq_ok.mp hp
  cases hp
  exact ⟨hparams.positionWeights _ hweights, (hparams.alpha _ halpha).1⟩

theorem evidenceWeightedParameters_favour {p : EvidenceParameters ℚ} {alpha : ℚ}
    (hp : evidenceWeightedParameters params = .ok (p, alpha)) : p.Favours ∧ 0 ≤ alpha := by
  iterate 3 obtain ⟨_, -, hp⟩ := Except.bind_eq_ok.mp hp
  obtain ⟨_, halpha, hp⟩ := Except.bind_eq_ok.mp hp
  obtain ⟨_, hbeta, hp⟩ := Except.bind_eq_ok.mp hp
  obtain ⟨_, hlam, hp⟩ := Except.bind_eq_ok.mp hp
  iterate 3 obtain ⟨_, -, hp⟩ := Except.bind_eq_ok.mp hp
  obtain ⟨_, hweights, hp⟩ := Except.bind_eq_ok.mp hp
  cases hp
  exact ⟨⟨hparams.positionWeights _ hweights, hparams.beta _ hbeta, (hparams.lam _ hlam).1⟩,
    (hparams.alpha _ halpha).1⟩

theorem constraintAwareParameters_favour {p : ConstraintAwareParameters ℚ}
    (hp : constraintAwareParameters params = .ok p) : p.toEvidenceParameters.Favours := by
  iterate 3 obtain ⟨_, -, hp⟩ := Except.bind_eq_ok.mp hp
  obtain ⟨_, hbeta, hp⟩ := Except.bind_eq_ok.mp hp
  obtain ⟨_, hlam, hp⟩ := Except.bind_eq_ok.mp hp
  iterate 5 obtain ⟨_, -, hp⟩ := Except.bind_eq_ok.mp hp
  obtain ⟨_, hweights, hp⟩ := Except.bind_eq_ok.mp hp
  cases hp
  exact ⟨hparams.positionWeights _ hweights, hparams.beta _ hbeta, (hparams.lam _ hlam).1⟩

end Parameters

variable (h : ctx.Moved a ctx') (env env' : EvaluationEnv ℚ)
include h

theorem weightedStages_moved (hparams : FavouringParameters ctx.strategyConfig.parameters) :
    Except.Agree (Staged.Raised a) (weightedStages ctx env) (weightedStages ctx' env') := by
  unfold weightedStages
  rw [h.strategyConfig, feasibilityGate_eq, feasibilityGate_eq, gate_moved h]
  apply Except.Agree.bind_ok (Except.agree_of_eq rfl)
  rintro ⟨p, alpha⟩ _ hp rfl
  obtain ⟨hweights, halpha⟩ := weightedParameters_favour hparams hp
  simp only [Except.ok_bind]
  apply Except.Agree.ite
  · intro _
    exact .ok (.stopped _ _)
  · intro _
    apply Except.Agree.bind_ok (Except.agree_mapM_self fun alt _ =>
      weightedRow_moved h hweights halpha ctx.gate alt)
    intro rows rows' hrows hraised
    have hids := nodup_rows (fun _ _ hrow => (weightedRow_spec hrow).1) hrows
    cases hrank : rankRows rows with
    | nil =>
      cases rankRows rows' with
      | nil => exact .ok (.stopped _ _)
      | cons leader' followers' => exact .ok (.stopped _ _)
    | cons leader followers =>
      by_cases ha : leader.alternativeId = a
      · obtain ⟨leader', followers', hrank', hleader⟩ := rankRows_raised hraised hids hrank ha
        rw [hrank']
        exact .ok (.ranked ⟨rfl, hleader, rfl, rfl, congrArg blockingCritiques h.critiques⟩)
      · cases rankRows rows' with
        | nil => exact .ok (.of_leader_ne ha _)
        | cons leader' followers' => exact .ok (.of_leader_ne ha _)

theorem evidenceWeightedStages_moved
    (hparams : FavouringParameters ctx.strategyConfig.parameters) :
    Except.Agree (Staged.Raised a) (evidenceWeightedStages ctx env)
      (evidenceWeightedStages ctx' env') := by
  unfold evidenceWeightedStages
  rw [h.strategyConfig, feasibilityGate_eq, feasibilityGate_eq, gate_moved h]
  apply Except.Agree.bind_ok (Except.agree_of_eq rfl)
  rintro ⟨p, alpha⟩ _ hp rfl
  obtain ⟨hfavours, halpha⟩ := evidenceWeightedParameters_favour hparams hp
  simp only [Except.ok_bind]
  apply Except.Agree.ite
  · intro _
    exact .ok (.stopped _ _)
  · intro _
    apply Except.Agree.bind_ok (Except.agree_mapM_self fun alt _ =>
      evidenceWeightedRow_moved h hfavours halpha ctx.gate alt)
    intro rows rows' hrows hraised
    have hids := nodup_rows (fun _ _ hrow => (evidenceWeightedRow_spec hrow).1) hrows
    cases hrank : rankRows rows with
    | nil =>
      cases rankRows rows' with
      | nil => exact .ok (.stopped _ _)
      | cons leader' followers' =>
        dsimp only
        split
        · exact .ok (.stopped _ _)
        · exact .ok (.stopped _ _)
    | cons leader followers =>
      by_cases ha : leader.alternativeId = a
      · obtain ⟨leader', followers', hrank', hleader⟩ := rankRows_raised hraised hids hrank ha
        rw [hrank']
        dsimp only
        -- The evidence gate looks at the same evidence.
        rw [hleader.evidenceStrength]
        apply Except.Agree.ite
        · intro _
          exact .ok (.stopped _ _)
        · intro _
          exact .ok (.ranked ⟨rfl, hleader, rfl, rfl, congrArg blockingCritiques h.critiques⟩)
      · -- Led by another alternative, it selects none or another one.
        dsimp only
        cases rankRows rows' with
        | nil =>
          dsimp only
          split
          · exact .ok (.stopped _ _)
          · exact .ok (.of_leader_ne ha _)
        | cons leader' followers' =>
          dsimp only
          split_ifs
          · exact .ok (.stopped _ _)
          · exact .ok (.stopped _ _)
          · exact .ok (.of_leader_ne ha _)
          · exact .ok (.of_leader_ne ha _)

theorem constraintAwareStages_moved
    (hparams : FavouringParameters ctx.strategyConfig.parameters) :
    Except.Agree (Staged.Raised a) (constraintAwareStages ctx env)
      (constraintAwareStages ctx' env') := by
  unfold constraintAwareStages
  rw [h.strategyConfig, feasibilityGate_eq, feasibilityGate_eq, gate_moved h, h.objectives]
  apply Except.Agree.bind_ok (Except.agree_of_eq rfl)
  rintro p _ hp rfl
  have hfavours := constraintAwareParameters_favour hparams hp
  simp only [Except.ok_bind]
  apply Except.Agree.ite
  · intro _
    exact .ok (.stopped _ _)
  · intro _
    apply Except.Agree.bind_ok ((Except.agree_mapM_self fun alt _ =>
      (alternativeSupport_moved h hfavours alt).mono fun _ _ hs => hs.2))
    intro supports supports' hsupports hraised
    rw [isEmpty_evidenceFloor (fun _ _ hs => AlternativeSupport.Raised.evidenceTotal hs) hraised]
    apply Except.Agree.ite
    · intro _
      exact .ok (.stopped _ _)
    · intro _
      apply Except.Agree.bind_ok (frontier_moved h hraised)
      intro pareto pareto' hpareto hraised
      rw [conflictTest_alike (.refl _) (hraised.imp fun _ _ hc => Candidate.Raised.alike hc)]
      apply Except.Agree.ite
      · intro _
        exact .ok (.stopped _ _)
      · intro _
        have hfrontier : constraintAwareFrontier ctx = .ok pareto := by
          rw [constraintAwareFrontier, hp, Except.ok_bind, hsupports, Except.ok_bind, hpareto]
        have hids := nodup_frontier hfrontier
        rcases eq_or_ne pareto [] with rfl | hne
        · cases hraised
          exact .error _
        · obtain ⟨leader, followers, hrank⟩ := exists_supportOrder hne ctx.gate
          have hne' : pareto' ≠ [] := by
            rintro rfl
            cases hraised
            exact hne rfl
          obtain ⟨leader', followers', hrank'⟩ := exists_supportOrder hne' ctx.gate
          rw [hrank, hrank']
          by_cases ha : leader.alternativeId = a
          · have hleader := supportOrder_raised hraised hids hrank hrank' ha
            exact .ok (.ranked ⟨rfl, hleader, rfl, rfl, congrArg blockingCritiques h.critiques⟩)
          · exact .ok (.of_leader_ne ha _)

end Stages

/-! ### Outcomes -/

section Outcomes

variable {a : UUID} {ctx ctx' : ConsensusContext ℚ}

/-- The place of an outcome in NO_CONSENSUS < PARTIAL_CONSENSUS < FULL_CONSENSUS. -/
def ConsensusOutcome.strength : ConsensusOutcome → Option ℕ
  | .noConsensus => some 0
  | .partialConsensus => some 1
  | .fullConsensus => some 2
  | _ => none

/-- The second outcome is not weaker; outside of the order it is the same. -/
def ConsensusOutcome.NotWeaker (o o' : ConsensusOutcome) : Prop :=
  o' = o ∨ ∃ n ∈ o.strength, ∃ m ∈ o'.strength, n ≤ m

theorem allActiveSupportive_moved (h : ctx.Moved a ctx') (b : UUID)
    (hactive : allActiveSupportive ctx b = true) : allActiveSupportive ctx' b = true := by
  unfold allActiveSupportive at hactive ⊢
  rw [List.all_eq_true] at hactive ⊢
  intro q' hq'
  obtain ⟨hq', hid⟩ := List.mem_filter.mp hq'
  obtain ⟨q, hq, hmoved⟩ := exists_of_mem_forall₂ h.agentPositions hq'
  have hsupportive := hactive q (List.mem_filter.mpr ⟨hq, by rwa [← hmoved.alternativeId]⟩)
  cases hmoved with
  | same => exact hsupportive
  | supports => simp [AgentPosition.supporting]

theorem uncappedOutcome_moved (h : ctx.Moved a ctx') {r r' : Ranked ℚ} (hr : r.Raised r') :
    (uncappedOutcome ctx r).NotWeaker (uncappedOutcome ctx' r') := by
  have hactive := allActiveSupportive_moved h r.leader.alternativeId
  have hsupport := hr.leader.support
  unfold uncappedOutcome
  rw [hr.gate, hr.agreementThreshold, hr.partialThreshold, hr.leader.alternativeId]
  by_cases hunknown : (r.gate.unknown.any fun v => v.alternativeId = r.leader.alternativeId) = true
  · rw [if_pos hunknown, if_pos hunknown]
    exact Or.inl rfl
  · rw [if_neg hunknown, if_neg hunknown]
    by_cases hfull : r.agreementThreshold ≤ r.leader.support
        ∧ allActiveSupportive ctx r.leader.alternativeId = true
    · rw [if_pos hfull, if_pos ⟨hfull.1.trans hsupport, hactive hfull.2⟩]
      exact Or.inl rfl
    · rw [if_neg hfull]
      by_cases hsome : r.partialThreshold ≤ r.leader.support
      · rw [if_pos hsome, if_pos (hsome.trans hsupport)]
        split_ifs
        · exact Or.inr ⟨1, rfl, 2, rfl, by omega⟩
        · exact Or.inl rfl
      · rw [if_neg hsome]
        split_ifs
        · exact Or.inr ⟨0, rfl, 2, rfl, by omega⟩
        · exact Or.inr ⟨0, rfl, 1, rfl, by omega⟩
        · exact Or.inl rfl

theorem strength_blockingGateOutcome {blocking : List UUID} (hblocking : blocking ≠ [])
    (o : ConsensusOutcome) :
    (blockingGateOutcome blocking o).strength = o.strength.map (min 1) := by
  cases o <;> simp [blockingGateOutcome, ConsensusOutcome.strength, hblocking]

/-- The cap keeps the order. -/
theorem blockingGateOutcome_notWeaker (blocking : List UUID) {o o' : ConsensusOutcome}
    (h : o.NotWeaker o') :
    (blockingGateOutcome blocking o).NotWeaker (blockingGateOutcome blocking o') := by
  obtain rfl | ⟨n, hn, m, hm, hle⟩ := h
  · exact Or.inl rfl
  · by_cases hblocking : blocking = []
    · simp only [blockingGateOutcome, hblocking, ne_eq, not_true_eq_false, false_and, if_false]
      exact Or.inr ⟨n, hn, m, hm, hle⟩
    · refine Or.inr ⟨min 1 n, ?_, min 1 m, ?_, by omega⟩
      · rw [strength_blockingGateOutcome hblocking]
        exact Option.mem_map_of_mem _ hn
      · rw [strength_blockingGateOutcome hblocking]
        exact Option.mem_map_of_mem _ hm

theorem classifyOutcome_moved (h : ctx.Moved a ctx') {r r' : Ranked ℚ} (hr : r.Raised r') :
    (classifyOutcome ctx r).NotWeaker (classifyOutcome ctx' r') := by
  rw [classifyOutcome_eq, classifyOutcome_eq, hr.blocking]
  exact blockingGateOutcome_notWeaker _ (uncappedOutcome_moved h hr)

theorem selectable_iff_strength {o : ConsensusOutcome} {n : ℕ} (h : n ∈ o.strength) :
    o.selectable = true ↔ 0 < n := by
  cases o <;> simp only [ConsensusOutcome.strength, Option.mem_def, Option.some.injEq,
    reduceCtorEq] at h <;> simp [ConsensusOutcome.selectable, ← h]

theorem selectable_of_notWeaker {o o' : ConsensusOutcome} (h : o.NotWeaker o')
    (hselectable : o.selectable = true) : o'.selectable = true := by
  obtain rfl | ⟨n, hn, m, hm, hle⟩ := h
  · exact hselectable
  · rw [selectable_iff_strength hn] at hselectable
    rw [selectable_iff_strength hm]
    omega

theorem stages_moved (s : Strategy) (h : ctx.Moved a ctx') (env env' : EvaluationEnv ℚ)
    (hparams : FavouringParameters ctx.strategyConfig.parameters) :
    Except.Agree (Staged.Raised a) (s.stages ctx env) (s.stages ctx' env') := by
  cases s with
  | weighted => exact weightedStages_moved h env env' hparams
  | evidenceWeighted => exact evidenceWeightedStages_moved h env env' hparams
  | constraintAware => exact constraintAwareStages_moved h env env' hparams

/-- A strategy that stops before the classification selects nothing. -/
theorem stopped_selects_none {s : Strategy} {env : EvaluationEnv ℚ} {result : ConsensusResult ℚ}
    (h : StageEnd ctx env s (.stopped result)) : result.selectedAlternativeId = none := by
  cases h <;> rfl

/-- **More support for the selected alternative.** -/
theorem evaluate_moved {s : Strategy} (h : ctx.Moved a ctx') {env env' : EvaluationEnv ℚ}
    (hparams : FavouringParameters ctx.strategyConfig.parameters) {result : ConsensusResult ℚ}
    (heval : s.evaluate ctx env = .ok result) (hselected : result.selectedAlternativeId = some a) :
    ∃ result', s.evaluate ctx' env' = .ok result' ∧ result'.selectedAlternativeId = some a
      ∧ (∃ x x', result.support = some x ∧ result'.support = some x' ∧ x ≤ x')
      ∧ result.outcome.NotWeaker result'.outcome := by
  rcases evaluate_cases heval with hst | ⟨r, hst, rfl⟩
  · rw [stopped_selects_none (stages_cases hst)] at hselected
    cases hselected
  · have hagree := stages_moved s h env env' hparams
    rw [finish_selectedAlternativeId] at hselected
    by_cases hselectable : (classifyOutcome ctx r).selectable = true
    · rw [if_pos hselectable] at hselected
      have hid := Option.some.inj hselected
      rw [hst] at hagree
      generalize hst' : s.stages ctx' env' = run at hagree
      cases hagree with
      | ok hraised =>
        obtain ⟨r', rfl, hr⟩ := hraised r rfl hid
        have houtcome := classifyOutcome_moved h hr
        refine ⟨s.finish ctx' env' r', ?_, ?_, ⟨r.leader.support, r'.leader.support,
          finish_support, finish_support, hr.leader.support⟩, ?_⟩
        · rw [Strategy.evaluate, hst']
          rfl
        · rw [finish_selectedAlternativeId, if_pos (selectable_of_notWeaker houtcome hselectable),
            hr.leader.alternativeId, hid]
        · rwa [finish_outcome, finish_outcome]
    · rw [if_neg hselectable] at hselected
      cases hselected

/-- **More support for the selected alternative.**  A position on the selected alternative moves
    to SUPPORT: the alternative stays selected, its reported support does not decrease, and the
    outcome is not weaker. -/
theorem evaluate_supported {s : Strategy} {ctx : ConsensusContext ℚ} {env : EvaluationEnv ℚ}
    (env' : EvaluationEnv ℚ) {before after : List (AgentPosition ℚ)}
    {q : AgentPosition ℚ} (hpositions : ctx.agentPositions = before ++ q :: after)
    (hstance : weakerStance q.stance = true)
    (hparams : FavouringParameters ctx.strategyConfig.parameters) {result : ConsensusResult ℚ}
    (h : s.evaluate ctx env = .ok result)
    (hselected : result.selectedAlternativeId = some q.alternativeId) :
    ∃ result', s.evaluate (ctx.withSupport hpositions) env' = .ok result'
      ∧ result'.selectedAlternativeId = some q.alternativeId
      ∧ (∃ x x', result.support = some x ∧ result'.support = some x' ∧ x ≤ x')
      ∧ result.outcome.NotWeaker result'.outcome :=
  evaluate_moved (moved_withSupport hpositions hstance) hparams h hselected

end Outcomes

section Sample

/-- A position that supports the alternative under a condition. -/
def hedgedPosition : AgentPosition ℚ where
  agentId := ⟨"d0000000-0000-4000-8000-000000000002", .refl true⟩
  agentDefinitionVersion := "1.0.0"
  alternativeId := ⟨"a0000000-0000-4000-8000-000000000001", .refl true⟩
  stance := "CONDITIONALLY_SUPPORT"
  confidence := 1

/-- The cited sample with a second agent. -/
def hedgedContext : ConsensusContext ℚ :=
  { citedContext [] with
    agentPositions := (citedContext []).agentPositions ++ [hedgedPosition]
    confidence_range := by decide +kernel }

theorem inUnit_of_all {x : Py ℚ} (h : (x.toOption.all fun v => InUnit v) = true) {v : ℚ}
    (hv : x = .ok v) : InUnit v := by
  subst hv
  exact of_decide_eq_true h

/-- The defaults of the parameters favour support. -/
theorem favouringParameters_nil : FavouringParameters [] where
  positionWeights := by
    rintro weights ⟨⟩
    rfl
  alpha _ := inUnit_of_all (by decide +kernel)
  beta _ := inUnit_of_all (by decide +kernel)
  lam _ := inUnit_of_all (by decide +kernel)

/-- Of the two supporters the second drops its condition. -/
theorem evaluate_supported_hedged : ∃ result result' : ConsensusResult ℚ,
    Strategy.evidenceWeighted.evaluate hedgedContext sampleEnv = .ok result
      ∧ Strategy.evidenceWeighted.evaluate
          (hedgedContext.withSupport (q := hedgedPosition) rfl) sampleEnv = .ok result'
      ∧ result.outcome.NotWeaker result'.outcome := by
  obtain ⟨result, h, hselected⟩ := Except.exists_ok_of_any
    (p := fun result => result.selectedAlternativeId = some hedgedPosition.alternativeId)
    (show (Strategy.evidenceWeighted.evaluate hedgedContext sampleEnv).toOption.any _ = true by
      decide +kernel)
  obtain ⟨result', h', -, -, houtcome⟩ := evaluate_supported (q := hedgedPosition) sampleEnv rfl
    (by decide) favouringParameters_nil h (of_decide_eq_true hselected)
  exact ⟨result, result', h, h', houtcome⟩

end Sample

end Agora.Consensus
