import Agora.Consensus.Classification
import Agora.Consensus.Dissent
import Agora.Lib.Agree
import Mathlib.Data.List.Dedup

namespace Agora.Consensus

/-!
# The order of the inputs

A context lists its positions, evidence, critiques, verdicts, constraints and objectives.
`ConsensusContext.Permuted` relates two contexts that differ in the order of these lists only.
When no evidence id is listed twice, a strategy with exact sums decides alike on both
(`evaluate_permuted`): the outcome, the selection, the frontier, the scores and the ratios are
equal, and the reports are the same up to order.

The alternatives keep their order, which breaks the ties of the rankings.
-/

variable {D : Type} [DecimalArith D]

/-- Sums that do not depend on the order of their terms. -/
class ExactSum (D : Type) [DecimalArith D] : Prop where
  pySum_perm : ∀ {l l' : List D}, l.Perm l' → pySum l = pySum l'

instance : ExactSum ℚ where
  pySum_perm h := by
    apply h.foldl_eq'
    intro a _ b _ sum
    exact add_right_comm sum a b

/-- Two contexts that list the same inputs. -/
structure ConsensusContext.Permuted (ctx ctx' : ConsensusContext D) : Prop where
  sessionId : ctx.sessionId = ctx'.sessionId
  round : ctx.round = ctx'.round
  alternatives : ctx.alternatives = ctx'.alternatives
  propositions : ctx.propositions = ctx'.propositions
  agentPositions : ctx.agentPositions.Perm ctx'.agentPositions
  evidence : ctx.evidence.Perm ctx'.evidence
  assumptions : ctx.assumptions = ctx'.assumptions
  critiques : ctx.critiques.Perm ctx'.critiques
  objectives : ctx.objectives.Perm ctx'.objectives
  constraints : ctx.constraints.Perm ctx'.constraints
  feasibility : ctx.feasibility.Perm ctx'.feasibility
  strategyConfig : ctx.strategyConfig = ctx'.strategyConfig
  objectiveValues : ctx.objectiveValues = ctx'.objectiveValues

/-- Two results that say the same, with the reports in any order. -/
structure ConsensusResult.SameDecision (r r' : ConsensusResult D) : Prop where
  outcome : r.outcome = r'.outcome
  selectedAlternativeId : r.selectedAlternativeId = r'.selectedAlternativeId
  paretoSet : r.paretoSet = r'.paretoSet
  scores : r.scores = r'.scores
  support : r.support = r'.support
  dissentRatio : r.dissentRatio = r'.dissentRatio
  abstentionRatio : r.abstentionRatio = r'.abstentionRatio
  contributions : r.contributions.Perm r'.contributions
  dissent : r.dissent.Perm r'.dissent
  blockingCritiques : r.blockingCritiques.Perm r'.blockingCritiques

/-! ### Dictionaries and loops -/

/-- A dictionary with distinct keys does not depend on the order of its bindings. -/
theorem dictGet_perm {α κ : Type} [DecidableEq κ] {key : α → κ} {l l' : List α} (h : l.Perm l')
    (hkeys : (l.map key).Nodup) : dictGet key l = dictGet key l' := by
  ext k a
  rw [dictGet_eq_some hkeys, dictGet_eq_some ((h.map key).nodup_iff.mp hkeys), h.mem_iff]

/-- A decimal literal is rejected with one exception only. -/
theorem decimalOf_eq_error {raw : String} {e : PyException} (h : (decimalOf raw : Py D) = .error e) :
    e = .arithmeticError "invalid decimal literal" := by
  unfold decimalOf at h
  split at h
  · cases h
  · exact (Except.error.inj h).symm

/-! ### Support, values and evidence -/

/-- The gate looks verdicts up by alternative, in the order of the alternatives. -/
theorem gate_permuted {ctx ctx' : ConsensusContext D} (h : ctx.Permuted ctx') :
    ctx.gate = ctx'.gate := by
  unfold ConsensusContext.gate
  rw [dictGet_perm h.feasibility ctx.unique_verdicts, h.alternatives]

omit [DecimalArith D] in
theorem relevantPositions_perm {l l' : List (AgentPosition D)} (h : l.Perm l') (a : UUID)
    (policy : AbstainPolicy) :
    (relevantPositions a l policy).Perm (relevantPositions a l' policy) := by
  unfold relevantPositions
  by_cases hpolicy : policy = .exclude
  · simp only [hpolicy, if_true]
    exact (h.filter _).filter _
  · simp only [hpolicy, if_false]
    exact h.filter _

theorem computeSupport_perm [ExactSum D] {l l' : List (AgentPosition D)} (h : l.Perm l')
    (a : UUID) (useConfidence : Bool) (policy : AbstainPolicy)
    (weights : Option (List (String × D))) :
    computeSupport a l useConfidence policy weights
      = computeSupport a l' useConfidence policy weights := by
  have hrelevant := relevantPositions_perm h a policy
  unfold computeSupport
  dsimp only
  rw [hrelevant.isEmpty_eq, hrelevant.length_eq, ExactSum.pySum_perm (hrelevant.map _)]

/-- The values of an alternative in a list of objectives, keyed by `term`. -/
theorem objectiveTerms_perm {β : Type} {objectives objectives' : List (ObjectiveInput D)}
    (h : objectives.Perm objectives') (a : UUID) (values : ObjectiveValues)
    (term : ObjectiveInput D → D → β) :
    Except.Agree List.Perm
      (objectives.mapM fun obj =>
        match rawObjectiveValue values obj.objectiveId a with
        | none => (.ok none : Py (Option β))
        | some raw => do
          let v ← decimalOf raw
          pure (some (term obj v)))
      (objectives'.mapM fun obj =>
        match rawObjectiveValue values obj.objectiveId a with
        | none => (.ok none : Py (Option β))
        | some raw => do
          let v ← decimalOf raw
          pure (some (term obj v))) := by
  apply Except.agree_mapM_perm (e := .arithmeticError "invalid decimal literal") _ h
  intro obj e hraised
  cases hraw : rawObjectiveValue values obj.objectiveId a with
  | none =>
    rw [hraw] at hraised
    cases hraised
  | some raw =>
    rw [hraw] at hraised
    cases hdec : (decimalOf raw : Py D) with
    | ok v =>
      simp only [hdec] at hraised
      cases hraised
    | error e' =>
      simp only [hdec] at hraised
      cases hraised
      exact decimalOf_eq_error hdec

/-- `value(a)` is a sum over the objectives. -/
theorem weightedObjectiveValue_perm [ExactSum D] {objectives objectives' : List (ObjectiveInput D)}
    (h : objectives.Perm objectives') (a : UUID) (values : ObjectiveValues) :
    weightedObjectiveValue a objectives values = weightedObjectiveValue a objectives' values := by
  apply Except.Agree.eq
  unfold weightedObjectiveValue
  apply Except.Agree.bind (objectiveTerms_perm h a values fun obj v => obj.weight * v)
  intro terms terms' hterms
  have hpresent := hterms.filterMap id
  apply Except.agree_of_eq
  dsimp only
  rw [hpresent.isEmpty_eq, ExactSum.pySum_perm hpresent]

/-- Every recorded value is the one the objective id determines. -/
theorem objectiveValueLookup_mem {objectives : List (ObjectiveInput D)} {a : UUID}
    {values : ObjectiveValues} {found : List (UUID × D)}
    (h : objectiveValueLookup a objectives values = .ok found) {k : UUID} {v : D}
    (hmem : (k, v) ∈ found) :
    ∃ raw, rawObjectiveValue values k a = some raw ∧ decimalOf raw = .ok v := by
  obtain ⟨terms, hterms, h⟩ := Except.bind_eq_ok.mp h
  obtain rfl := Except.ok.inj h
  obtain ⟨term, hterm, hsome⟩ := List.mem_filterMap.mp hmem
  obtain ⟨obj, -, hobj⟩ := Except.exists_of_mem_mapM hterms hterm
  cases hraw : rawObjectiveValue values obj.objectiveId a with
  | none =>
    simp only [hraw] at hobj
    cases hobj
    cases hsome
  | some raw =>
    simp only [hraw] at hobj
    obtain ⟨w, hw, hobj⟩ := Except.bind_eq_ok.mp hobj
    cases hobj
    cases hsome
    exact ⟨raw, hraw, hw⟩

/-- The dictionary of an alternative's values holds the same in every order. -/
theorem objectiveValueLookup_perm {objectives objectives' : List (ObjectiveInput D)}
    (h : objectives.Perm objectives') (a : UUID) (values : ObjectiveValues) :
    Except.Agree (fun found found' => ∀ k, found.lookup k = found'.lookup k)
      (objectiveValueLookup a objectives values) (objectiveValueLookup a objectives' values) := by
  have hperm : Except.Agree List.Perm (objectiveValueLookup a objectives values)
      (objectiveValueLookup a objectives' values) := by
    unfold objectiveValueLookup
    apply Except.Agree.bind (objectiveTerms_perm h a values fun obj v => (obj.objectiveId, v))
    intro terms terms' hterms
    exact .ok (hterms.filterMap id)
  cases hfound : objectiveValueLookup a objectives values with
  | error e =>
    rw [hfound] at hperm
    generalize objectiveValueLookup a objectives' values = y at hperm
    cases hperm
    exact .error e
  | ok found =>
    rw [hfound] at hperm
    generalize objectiveValueLookup a objectives' values = y at hperm
    cases hperm with
    | ok hperm =>
      apply Except.Agree.ok
      apply lookup_eq_of_perm hperm
      -- A key has one value: the decimal its objective id determines.
      intro k v v' hv hv'
      obtain ⟨raw, hraw, hdec⟩ := objectiveValueLookup_mem hfound hv
      obtain ⟨raw', hraw', hdec'⟩ := objectiveValueLookup_mem hfound hv'
      obtain rfl := Option.some.inj (hraw.symm.trans hraw')
      exact Except.ok.inj (hdec.symm.trans hdec')

theorem evidenceTerm_permuted {ctx ctx' : ConsensusContext D} (h : ctx.Permuted ctx')
    (hdistinct : (ctx.evidence.map (·.evidenceId)).Nodup) (p : EvidenceParameters D) :
    evidenceTerm ctx p = evidenceTerm ctx' p := by
  ext pos
  unfold evidenceTerm evidenceStrength evidenceForPosition
  rw [dictGet_perm h.evidence hdistinct]

/-- A position's evidence term is refused with one exception only. -/
theorem evidenceTerm_eq_error {ctx : ConsensusContext D} {p : EvidenceParameters D}
    {pos : AgentPosition D} {e : PyException} (h : evidenceTerm ctx p pos = .error e) :
    e = .arithmeticError "division by zero" := by
  unfold evidenceTerm decDiv at h
  dsimp only at h
  split at h
  · cases h
    rfl
  · cases h

/-! ### One alternative -/

/-- The evidence passes over one alternative in two contexts. -/
structure AlternativeSupport.Same (s s' : AlternativeSupport D) : Prop where
  alternative : s.alternative = s'.alternative
  relevant : s.relevant.Perm s'.relevant
  evidenceTotal : s.evidenceTotal = s'.evidenceTotal
  support : s.support = s'.support

/-- Rows that give one score. -/
structure Row.Same (row row' : Row D) : Prop where
  score : row.score = row'.score
  rankKey : row.rankKey = row'.rankKey
  contributions : row.contributions.Perm row'.contributions

section Alternative

variable {ctx ctx' : ConsensusContext D}

theorem contributionsOf_perm {l l' : List (AgentPosition D)} (h : l.Perm l')
    (useConfidence : Bool) :
    (contributionsOf l useConfidence).Perm (contributionsOf l' useConfidence) :=
  h.map _

theorem alternativeSupport_permuted [ExactSum D] (h : ctx.Permuted ctx')
    (hdistinct : (ctx.evidence.map (·.evidenceId)).Nodup) (p : EvidenceParameters D)
    (alt : AlternativeInput) :
    Except.Agree AlternativeSupport.Same (alternativeSupport ctx p alt)
      (alternativeSupport ctx' p alt) := by
  have hrelevant := relevantPositions_perm h.agentPositions alt.alternativeId p.abstainPolicy
  unfold alternativeSupport
  rw [← evidenceTerm_permuted h hdistinct p]
  apply Except.Agree.bind
    (Except.agree_mapM_perm (fun _ _ => evidenceTerm_eq_error) hrelevant)
  intro terms terms' hterms
  apply Except.Agree.ok
  refine ⟨rfl, hrelevant, ExactSum.pySum_perm (hterms.map _), ?_⟩
  dsimp only
  rw [computeSupport_perm h.agentPositions, hrelevant.isEmpty_eq, hrelevant.length_eq,
    ExactSum.pySum_perm (hterms.map (·.2))]

theorem weightedRow_permuted [ExactSum D] (h : ctx.Permuted ctx') (p : SupportParameters D)
    (alpha : D) (gate : FeasibilityGateResult) (alt : AlternativeInput) :
    Except.Agree Row.Same (weightedRow ctx p alpha gate alt) (weightedRow ctx' p alpha gate alt) := by
  unfold weightedRow
  dsimp only
  rw [computeSupport_perm h.agentPositions, weightedObjectiveValue_perm h.objectives,
    h.objectiveValues]
  apply Except.Agree.bind (Except.agree_of_eq rfl)
  rintro value _ rfl
  exact .ok ⟨rfl, rfl, contributionsOf_perm (h.agentPositions.filter _) _⟩

theorem evidenceWeightedRow_permuted [ExactSum D] (h : ctx.Permuted ctx')
    (hdistinct : (ctx.evidence.map (·.evidenceId)).Nodup) (p : EvidenceParameters D) (alpha : D)
    (gate : FeasibilityGateResult) (alt : AlternativeInput) :
    Except.Agree Row.Same (evidenceWeightedRow ctx p alpha gate alt)
      (evidenceWeightedRow ctx' p alpha gate alt) := by
  unfold evidenceWeightedRow
  rw [weightedObjectiveValue_perm h.objectives, h.objectiveValues]
  apply Except.Agree.bind (alternativeSupport_permuted h hdistinct p alt)
  intro s s' hs
  apply Except.Agree.bind (Except.agree_of_eq rfl)
  rintro value _ rfl
  apply Except.Agree.ok
  rw [hs.support, hs.evidenceTotal]
  exact ⟨rfl, rfl, contributionsOf_perm hs.relevant _⟩

/-- Rows that agree are ranked alike: the sort is stable and compares the keys only. -/
theorem rankRows_eq {rows rows' : List (Row D)} (h : List.Forall₂ Row.Same rows rows') :
    rankRows rows = rankRows rows' := by
  have hsorted : List.Forall₂ Row.Same (sortedDesc (·.rankKey) rows)
      (sortedDesc (·.rankKey) rows') := by
    apply forall₂_insertionSort _ h
    intro a b c d hab hcd
    show ¬ a.rankKey < c.rankKey ↔ ¬ b.rankKey < d.rankKey
    rw [hab.rankKey, hcd.rankKey]
  unfold rankRows
  rw [map_eq_of_forall₂ (fun _ _ hrow => hrow.score) hsorted]

theorem blockingCritiques_perm {l l' : List CritiqueInput} (h : l.Perm l') :
    (blockingCritiques l).Perm (blockingCritiques l') :=
  (h.filter _).map _

/-- The cap asks whether anything blocks, not what comes first. -/
theorem blockingGateOutcome_perm {blocking blocking' : List UUID} (h : blocking.Perm blocking')
    (candidate : ConsensusOutcome) :
    blockingGateOutcome blocking candidate = blockingGateOutcome blocking' candidate := by
  unfold blockingGateOutcome
  simp only [ne_eq, ← List.isEmpty_iff, h.isEmpty_eq]

end Alternative

/-! ### Dominance -/

/-- Candidates with the same support and the same recorded values. -/
structure Candidate.Same (c c' : Candidate D) : Prop where
  support : AlternativeSupport.Same c.toAlternativeSupport c'.toAlternativeSupport
  lookup : ∀ k, c.values.lookup k = c'.values.lookup k

/-- Candidates of one alternative with the same recorded values: what dominance and the conflict
    test look at. -/
structure Candidate.Alike (c c' : Candidate D) : Prop where
  id : c.id = c'.id
  lookup : ∀ k, c.values.lookup k = c'.values.lookup k

omit [DecimalArith D] in
theorem Candidate.Same.id {c c' : Candidate D} (h : c.Same c') : c.id = c'.id := by
  unfold Candidate.id
  rw [h.support.alternative]

omit [DecimalArith D] in
theorem Candidate.Same.alike {c c' : Candidate D} (h : c.Same c') : c.Alike c' :=
  ⟨h.id, h.lookup⟩

/-- What the loop of `_dominates` finds does not depend on the order of the objectives. -/
theorem dominatesLoop_iff {aValues bValues : List (UUID × D)} {epsilon : D} {ks : List UUID}
    {found : Bool} :
    dominatesLoop aValues bValues epsilon ks found = true
      ↔ (∀ k ∈ ks, ∃ av bv, aValues.lookup k = some av ∧ bValues.lookup k = some bv ∧ ¬ av < bv)
        ∧ (found = true ∨ ∃ k ∈ ks, ∃ av bv, aValues.lookup k = some av
          ∧ bValues.lookup k = some bv ∧ bv + epsilon < av) := by
  induction ks generalizing found with
  | nil => simp [dominatesLoop]
  | cons k ks ih =>
    unfold dominatesLoop
    cases ha : aValues.lookup k with
    | none => simp [ha]
    | some av =>
      cases hb : bValues.lookup k with
      | none => simp [hb]
      | some bv =>
        by_cases hlt : av < bv
        · simp [ha, hb, hlt]
        · simp only [hlt, if_false, ih, Bool.or_eq_true, decide_eq_true_eq, List.forall_mem_cons,
            List.exists_mem_cons_iff, ha, hb, Option.some.injEq]
          simp [hlt, or_assoc]

theorem dominates_permuted {aValues aValues' bValues bValues' : List (UUID × D)}
    (ha : ∀ k, aValues.lookup k = aValues'.lookup k)
    (hb : ∀ k, bValues.lookup k = bValues'.lookup k) {ks ks' : List UUID} (hks : ks.Perm ks')
    (epsilon : D) :
    dominates aValues bValues ks epsilon = dominates aValues' bValues' ks' epsilon := by
  unfold dominates
  rw [hks.isEmpty_eq]
  congr 1
  rw [Bool.eq_iff_iff, dominatesLoop_iff, dominatesLoop_iff]
  simp only [ha, hb, hks.mem_iff]

/-- The undominated candidates are picked in the order of the alternatives. -/
theorem undominated_alike {R : Candidate D → Candidate D → Prop}
    (hR : ∀ c c', R c c' → c.Alike c') {candidates candidates' : List (Candidate D)}
    (h : List.Forall₂ R candidates candidates') {ks ks' : List UUID} (hks : ks.Perm ks')
    (epsilon : D) : List.Forall₂ R (undominated candidates ks epsilon)
      (undominated candidates' ks' epsilon) := by
  apply List.rel_filter _ h
  intro a a' ha
  replace ha := hR a a' ha
  have hany : (candidates.any fun b =>
        b.id ≠ a.id && dominates b.values a.values ks epsilon)
      = candidates'.any fun b => b.id ≠ a'.id && dominates b.values a'.values ks' epsilon := by
    apply any_eq_of_forall₂ _ h
    intro b b' hb
    replace hb := hR b b' hb
    rw [hb.id, ha.id, dominates_permuted hb.lookup ha.lookup hks]
  show (!_) = true ↔ (!_) = true
  rw [hany]

/-- The best of a frontier in an objective: ties go to the first alternative. -/
theorem bestAlternative_alike {pareto pareto' : List (Candidate D)}
    (h : List.Forall₂ Candidate.Alike pareto pareto') (objectiveId : UUID) :
    bestAlternative pareto objectiveId = bestAlternative pareto' objectiveId := by
  unfold bestAlternative
  congr 1
  apply List.rel_foldl (P := Eq) (R := Candidate.Alike) _ rfl h
  rintro best _ rfl c c' hc
  dsimp only
  rw [hc.lookup, hc.id]

theorem argmaxes_alike {objectives objectives' : List (ObjectiveInput D)}
    (hobjectives : objectives.Perm objectives') {pareto pareto' : List (Candidate D)}
    (h : List.Forall₂ Candidate.Alike pareto pareto') :
    (argmaxes objectives pareto).Perm (argmaxes objectives' pareto') := by
  unfold argmaxes
  simp only [bestAlternative_alike h]
  exact (hobjectives.filterMap _).dedup

theorem conflictTest_alike {objectives objectives' : List (ObjectiveInput D)}
    (hobjectives : objectives.Perm objectives') {pareto pareto' : List (Candidate D)}
    (h : List.Forall₂ Candidate.Alike pareto pareto') :
    conflictTest objectives pareto = conflictTest objectives' pareto' := by
  unfold conflictTest
  rw [hobjectives.any_eq, (argmaxes_alike hobjectives h).length_eq, h.length_eq]

/-- The evidence floor asks for the totals only. -/
theorem evidenceFloor_forall₂ {R : AlternativeSupport D → AlternativeSupport D → Prop}
    (hR : ∀ s s', R s s' → s.evidenceTotal = s'.evidenceTotal)
    {supports supports' : List (AlternativeSupport D)} (h : List.Forall₂ R supports supports')
    (p : ConstraintAwareParameters D) :
    List.Forall₂ R (evidenceFloor p supports) (evidenceFloor p supports') := by
  unfold evidenceFloor
  by_cases hallow : p.allowUnevidenced = true
  · rw [if_pos hallow, if_pos hallow]
    exact h
  · rw [if_neg hallow, if_neg hallow]
    apply List.rel_filter _ h
    intro s s' hs
    dsimp only
    rw [hR s s' hs]

theorem isEmpty_evidenceFloor {R : AlternativeSupport D → AlternativeSupport D → Prop}
    (hR : ∀ s s', R s s' → s.evidenceTotal = s'.evidenceTotal)
    {supports supports' : List (AlternativeSupport D)} (h : List.Forall₂ R supports supports')
    {p : ConstraintAwareParameters D} :
    (evidenceFloor p supports).isEmpty = (evidenceFloor p supports').isEmpty := by
  rw [Bool.eq_iff_iff, List.isEmpty_iff_length_eq_zero, List.isEmpty_iff_length_eq_zero,
    (evidenceFloor_forall₂ hR h p).length_eq]

theorem frontier_permuted {ctx ctx' : ConsensusContext D} (h : ctx.Permuted ctx')
    {supports supports' : List (AlternativeSupport D)}
    (hsupports : List.Forall₂ AlternativeSupport.Same supports supports')
    (p : ConstraintAwareParameters D) :
    Except.Agree (List.Forall₂ Candidate.Same) (frontier ctx p supports)
      (frontier ctx' p supports') := by
  unfold frontier
  apply Except.Agree.bind (R := List.Forall₂ Candidate.Same)
  · apply Except.agree_mapM _
      (evidenceFloor_forall₂ (fun _ _ hs => AlternativeSupport.Same.evidenceTotal hs) hsupports p)
    intro s s' hs
    rw [hs.alternative, h.objectiveValues]
    apply Except.Agree.bind (objectiveValueLookup_perm h.objectives _ _)
    intro found found' hfound
    exact .ok ⟨hs, hfound⟩
  · intro candidates candidates' hcandidates
    exact .ok (undominated_alike (fun _ _ hc => Candidate.Same.alike hc) hcandidates
      (h.objectives.map _) _)

/-! ### The strategies -/

/-- Rankings that are classified alike. -/
structure Ranked.Same (r r' : Ranked D) : Prop where
  gate : r.gate = r'.gate
  leader : r.leader = r'.leader
  followers : r.followers = r'.followers
  agreementThreshold : r.agreementThreshold = r'.agreementThreshold
  partialThreshold : r.partialThreshold = r'.partialThreshold
  blocking : r.blocking.Perm r'.blocking
  contributions : r.reports.contributions.Perm r'.reports.contributions
  dissent : r.reports.dissent.Perm r'.reports.dissent

/-- The stages stop with the same decision or hand over the same ranking. -/
inductive Staged.Same : Staged D → Staged D → Prop
  | stopped {result result' : ConsensusResult D} (h : result.SameDecision result') :
      Same (.stopped result) (.stopped result')
  | ranked {r r' : Ranked D} (h : r.Same r') : Same (.ranked r) (.ranked r')

section Strategies

variable {ctx ctx' : ConsensusContext D}

theorem reportsOf_dissent_permuted (h : ctx.Permuted ctx') (gate : FeasibilityGateResult)
    (contributions contributions' : List (AgentContribution D)) :
    (reportsOf ctx gate contributions).dissent.Perm
      (reportsOf ctx' gate contributions').dissent := by
  apply flatMap_perm_of_forall₂ (R := Eq)
  · rintro alt _ rfl
    exact (h.agentPositions.filter _).map _
  · exact List.forall₂_same.mpr fun _ _ => rfl

/-- A return that carries nothing the order could reach. -/
theorem infeasibleResult_same {env env' : EvaluationEnv D} (name : String)
    (gate : FeasibilityGateResult) (derivation derivation' : List (DerivationStep D)) :
    (infeasibleResult ctx env name gate derivation).SameDecision
      (infeasibleResult ctx' env' name gate derivation') :=
  ⟨rfl, rfl, rfl, rfl, rfl, rfl, rfl, .nil, .nil, .nil⟩

theorem result_same {env env' : EvaluationEnv D} (name : String) (outcome : ConsensusOutcome)
    (derivation derivation' : List (DerivationStep D)) :
    (ctx.result env name outcome derivation).SameDecision
      (ctx'.result env' name outcome derivation') :=
  ⟨rfl, rfl, rfl, rfl, rfl, rfl, rfl, .nil, .nil, .nil⟩

theorem weightedStages_permuted [ExactSum D] (h : ctx.Permuted ctx') (env env' : EvaluationEnv D) :
    Except.Agree Staged.Same (weightedStages ctx env) (weightedStages ctx' env') := by
  unfold weightedStages
  rw [← h.strategyConfig, feasibilityGate_eq, feasibilityGate_eq, ← gate_permuted h]
  apply Except.Agree.bind (Except.agree_of_eq rfl)
  rintro ⟨p, alpha⟩ _ rfl
  simp only [Except.ok_bind]
  apply Except.Agree.ite
  · intro _
    exact .ok (.stopped (infeasibleResult_same _ _ _ _))
  · intro _
    apply Except.Agree.bind
      (Except.agree_mapM_self fun alt _ => weightedRow_permuted h p alpha ctx.gate alt)
    intro rows rows' hrows
    have hreports := flatMap_perm_of_forall₂ (fun _ _ hrow => Row.Same.contributions hrow) hrows
    rw [rankRows_eq hrows]
    cases rankRows rows' with
    | nil => exact .ok (.stopped (result_same _ _ _ _))
    | cons leader followers =>
      exact .ok (.ranked ⟨rfl, rfl, rfl, rfl, rfl, blockingCritiques_perm h.critiques, hreports,
        reportsOf_dissent_permuted h _ _ _⟩)

theorem evidenceWeightedStages_permuted [ExactSum D] (h : ctx.Permuted ctx')
    (hdistinct : (ctx.evidence.map (·.evidenceId)).Nodup) (env env' : EvaluationEnv D) :
    Except.Agree Staged.Same (evidenceWeightedStages ctx env)
      (evidenceWeightedStages ctx' env') := by
  unfold evidenceWeightedStages
  rw [← h.strategyConfig, feasibilityGate_eq, feasibilityGate_eq, ← gate_permuted h]
  apply Except.Agree.bind (Except.agree_of_eq rfl)
  rintro ⟨p, alpha⟩ _ rfl
  simp only [Except.ok_bind]
  apply Except.Agree.ite
  · intro _
    exact .ok (.stopped (infeasibleResult_same _ _ _ _))
  · intro _
    apply Except.Agree.bind
      (Except.agree_mapM_self fun alt _ =>
        evidenceWeightedRow_permuted h hdistinct p alpha ctx.gate alt)
    intro rows rows' hrows
    have hreports := flatMap_perm_of_forall₂ (fun _ _ hrow => Row.Same.contributions hrow) hrows
    have hdissent := reportsOf_dissent_permuted h ctx.gate (rows.flatMap (·.contributions))
      (rows'.flatMap (·.contributions))
    rw [rankRows_eq hrows]
    cases rankRows rows' with
    | nil => exact .ok (.stopped (result_same _ _ _ _))
    | cons leader followers =>
      dsimp only
      apply Except.Agree.ite
      · intro _
        exact .ok (.stopped ⟨rfl, rfl, rfl, rfl, rfl, rfl, rfl, hreports, hdissent,
          blockingCritiques_perm h.critiques⟩)
      · intro _
        exact .ok (.ranked ⟨rfl, rfl, rfl, rfl, rfl, blockingCritiques_perm h.critiques, hreports,
          hdissent⟩)

/-- Candidates are scored alike, whatever the last two fields are. -/
theorem candidateScore_same {c c' : Candidate D} (h : c.Same c') (rankScore : Option D)
    (feasibility : FeasibilityStatus) :
    candidateScore c rankScore feasibility = candidateScore c' rankScore feasibility := by
  unfold candidateScore
  rw [h.id, h.support.alternative, h.support.support, h.support.evidenceTotal]

theorem paretoResult_permuted (h : ctx.Permuted ctx') (env env' : EvaluationEnv D)
    (derivation derivation' : List (DerivationStep D)) {reports reports' : Reports D}
    (hcontributions : reports.contributions.Perm reports'.contributions)
    (hdissent : reports.dissent.Perm reports'.dissent) {pareto pareto' : List (Candidate D)}
    (hpareto : List.Forall₂ Candidate.Same pareto pareto') :
    (paretoResult ctx env derivation reports pareto).SameDecision
      (paretoResult ctx' env' derivation' reports' pareto') where
  outcome := blockingGateOutcome_perm (blockingCritiques_perm h.critiques) _
  selectedAlternativeId := rfl
  paretoSet := map_eq_of_forall₂ (fun _ _ hc => hc.id) hpareto
  scores := congrArg withRanks
    (map_eq_of_forall₂ (fun _ _ hc => candidateScore_same hc _ _) hpareto)
  support := rfl
  dissentRatio := rfl
  abstentionRatio := rfl
  contributions := hcontributions
  dissent := hdissent
  blockingCritiques := blockingCritiques_perm h.critiques

/-- Stage 5 ranks candidates that agree alike. -/
theorem supportOrder_eq {pareto pareto' : List (Candidate D)}
    (h : List.Forall₂ Candidate.Same pareto pareto') (gate : FeasibilityGateResult) :
    withRanks ((sortedDesc (·.support) pareto).map fun c =>
        candidateScore c (some c.support) (scoreFeasibility gate c.id))
      = withRanks ((sortedDesc (·.support) pareto').map fun c =>
        candidateScore c (some c.support) (scoreFeasibility gate c.id)) := by
  have hsorted : List.Forall₂ Candidate.Same (sortedDesc (·.support) pareto)
      (sortedDesc (·.support) pareto') := by
    apply forall₂_insertionSort _ h
    intro a b c d hab hcd
    show ¬ a.support < c.support ↔ ¬ b.support < d.support
    rw [hab.support.support, hcd.support.support]
  congr 1
  apply map_eq_of_forall₂ _ hsorted
  intro c c' hc
  rw [hc.id, hc.support.support, candidateScore_same hc]

theorem constraintAwareStages_permuted [ExactSum D] (h : ctx.Permuted ctx')
    (hdistinct : (ctx.evidence.map (·.evidenceId)).Nodup) (env env' : EvaluationEnv D) :
    Except.Agree Staged.Same (constraintAwareStages ctx env) (constraintAwareStages ctx' env') := by
  unfold constraintAwareStages
  rw [← h.strategyConfig, feasibilityGate_eq, feasibilityGate_eq, ← gate_permuted h]
  apply Except.Agree.bind (Except.agree_of_eq rfl)
  rintro p _ rfl
  simp only [Except.ok_bind]
  apply Except.Agree.ite
  · intro _
    exact .ok (.stopped (infeasibleResult_same _ _ _ _))
  · intro _
    apply Except.Agree.bind
      (Except.agree_mapM_self fun alt _ =>
        alternativeSupport_permuted h hdistinct p.toEvidenceParameters alt)
    intro supports supports' hsupports
    have hcontributions : (supports.flatMap fun s =>
          contributionsOf s.relevant p.useConfidence).Perm
        (supports'.flatMap fun s => contributionsOf s.relevant p.useConfidence) :=
      flatMap_perm_of_forall₂ (fun _ _ hs => contributionsOf_perm hs.relevant _) hsupports
    have hdissent := reportsOf_dissent_permuted h ctx.gate
      (supports.flatMap fun s => contributionsOf s.relevant p.useConfidence)
      (supports'.flatMap fun s => contributionsOf s.relevant p.useConfidence)
    rw [isEmpty_evidenceFloor (fun _ _ hs => AlternativeSupport.Same.evidenceTotal hs) hsupports]
    apply Except.Agree.ite
    · intro _
      exact .ok (.stopped ⟨rfl, rfl, rfl, rfl, rfl, rfl, rfl, hcontributions, hdissent,
        blockingCritiques_perm h.critiques⟩)
    · intro _
      apply Except.Agree.bind (frontier_permuted h hsupports p)
      intro pareto pareto' hpareto
      rw [conflictTest_alike h.objectives (hpareto.imp fun _ _ hc => Candidate.Same.alike hc)]
      apply Except.Agree.ite
      · intro _
        exact .ok (.stopped (paretoResult_permuted h env env' _ _ hcontributions hdissent hpareto))
      · intro _
        rw [supportOrder_eq hpareto]
        generalize withRanks ((sortedDesc (·.support) pareto').map fun c =>
          candidateScore c (some c.support) (scoreFeasibility ctx.gate c.id)) = scores
        cases scores with
        | nil => exact .error _
        | cons leader followers =>
          exact .ok (.ranked ⟨rfl, rfl, rfl, rfl, rfl, blockingCritiques_perm h.critiques,
            hcontributions, hdissent⟩)

/-! ### Classification -/

theorem stanceRatio_permuted (h : ctx.Permuted ctx') (stance : String) :
    (stanceRatio ctx stance : D) = stanceRatio ctx' stance := by
  unfold stanceRatio
  rw [(h.agentPositions.filter _).length_eq, h.agentPositions.isEmpty_eq,
    h.agentPositions.length_eq]

theorem classifyOutcome_permuted (h : ctx.Permuted ctx') {r r' : Ranked D} (hr : r.Same r') :
    classifyOutcome ctx r = classifyOutcome ctx' r' := by
  have hactive : allActiveSupportive ctx r'.leader.alternativeId
      = allActiveSupportive ctx' r'.leader.alternativeId := by
    unfold allActiveSupportive
    exact (h.agentPositions.filter _).all_eq
  unfold classifyOutcome
  rw [blockingGateOutcome_perm hr.blocking, hr.gate, hr.leader, hr.agreementThreshold,
    hr.partialThreshold, hactive]

theorem finish_permuted (h : ctx.Permuted ctx') (s : Strategy) (env env' : EvaluationEnv D)
    {r r' : Ranked D} (hr : r.Same r') :
    (s.finish ctx env r).SameDecision (s.finish ctx' env' r') := by
  have houtcome := classifyOutcome_permuted h hr
  have hsame : ∀ name stage step, (classify ctx env name stage step r).SameDecision
      (classify ctx' env' name stage step r') := by
    intro name stage step
    exact
      { outcome := houtcome
        selectedAlternativeId := by simp only [classify, houtcome, hr.leader]
        paretoSet := rfl
        scores := by simp only [classify, hr.leader, hr.followers]
        support := by simp only [classify, hr.leader]
        dissentRatio := congrArg some (stanceRatio_permuted h _)
        abstentionRatio := congrArg some (stanceRatio_permuted h _)
        contributions := hr.contributions
        dissent := hr.dissent
        blockingCritiques := hr.blocking }
  cases s with
  | weighted => exact hsame _ _ _
  | evidenceWeighted => exact hsame _ _ _
  | constraintAware => exact hsame _ _ _

theorem stages_permuted [ExactSum D] (h : ctx.Permuted ctx')
    (hdistinct : (ctx.evidence.map (·.evidenceId)).Nodup) (s : Strategy)
    (env env' : EvaluationEnv D) :
    Except.Agree Staged.Same (s.stages ctx env) (s.stages ctx' env') := by
  cases s with
  | weighted => exact weightedStages_permuted h env env'
  | evidenceWeighted => exact evidenceWeightedStages_permuted h hdistinct env env'
  | constraintAware => exact constraintAwareStages_permuted h hdistinct env env'

end Strategies

/-- **Order independence.**  With exact sums and distinct evidence ids, a strategy evaluated on
    the same inputs in another order raises the same exception or makes the same decision. -/
theorem evaluate_permuted {ctx ctx' : ConsensusContext ℚ} (h : ctx.Permuted ctx')
    (hdistinct : (ctx.evidence.map (·.evidenceId)).Nodup) (s : Strategy)
    (env env' : EvaluationEnv ℚ) :
    Except.Agree ConsensusResult.SameDecision (s.evaluate ctx env) (s.evaluate ctx' env') := by
  unfold Strategy.evaluate
  apply Except.Agree.bind (stages_permuted h hdistinct s env env')
  intro staged staged' hstaged
  cases hstaged with
  | stopped hresult => exact .ok hresult
  | ranked hr => exact .ok (finish_permuted h s env env' hr)

section Sample

/-- The same inputs, every list backwards. -/
def ConsensusContext.reversed (ctx : ConsensusContext D) : ConsensusContext D :=
  { ctx with
    agentPositions := ctx.agentPositions.reverse
    evidence := ctx.evidence.reverse
    critiques := ctx.critiques.reverse
    objectives := ctx.objectives.reverse
    constraints := ctx.constraints.reverse
    feasibility := ctx.feasibility.reverse
    unique_verdicts := by
      rw [List.map_reverse, List.nodup_reverse]
      exact ctx.unique_verdicts
    feasibility_matches_alternatives := by
      intro v hv
      exact ctx.feasibility_matches_alternatives v (List.mem_reverse.mp hv)
    confidence_range := by
      intro p hp
      exact ctx.confidence_range p (List.mem_reverse.mp hp)
    weight_range := by
      intro o ho
      exact ctx.weight_range o (List.mem_reverse.mp ho) }

theorem permuted_reversed (ctx : ConsensusContext D) : ctx.Permuted ctx.reversed where
  sessionId := rfl
  round := rfl
  alternatives := rfl
  propositions := rfl
  agentPositions := (List.reverse_perm _).symm
  evidence := (List.reverse_perm _).symm
  assumptions := rfl
  critiques := (List.reverse_perm _).symm
  objectives := (List.reverse_perm _).symm
  constraints := (List.reverse_perm _).symm
  feasibility := (List.reverse_perm _).symm
  strategyConfig := rfl
  objectiveValues := rfl

/-- Two opposing agents, two sources and two conflicting objectives. -/
def splitContext : ConsensusContext ℚ :=
  { opposedContext with
    evidence :=
      [{ evidenceId := ⟨"e0000000-0000-4000-8000-000000000001", .refl true⟩
         verification := "SOURCE_VERIFIED", trustLevel := "PRIMARY", polarity := "SUPPORT" },
        { evidenceId := ⟨"e0000000-0000-4000-8000-000000000002", .refl true⟩
          verification := "UNVERIFIED", trustLevel := "SECONDARY", polarity := "OPPOSE" }] }

/-- The sample read backwards is decided alike. -/
theorem evaluate_permuted_split :
    ∃ result result', Strategy.constraintAware.evaluate splitContext sampleEnv = .ok result
      ∧ Strategy.constraintAware.evaluate splitContext.reversed sampleEnv = .ok result'
      ∧ result.SameDecision result' := by
  obtain ⟨result, h⟩ := Except.exists_ok_of_isOk
    (show (Strategy.constraintAware.evaluate splitContext sampleEnv).isOk = true by decide +kernel)
  have hagree := evaluate_permuted (permuted_reversed splitContext) (by decide)
    .constraintAware sampleEnv sampleEnv
  rw [h] at hagree
  generalize hback : Strategy.constraintAware.evaluate splitContext.reversed sampleEnv = back
    at hagree
  cases hagree with
  | ok hsame => exact ⟨result, _, h, rfl, hsame⟩

end Sample

end Agora.Consensus
