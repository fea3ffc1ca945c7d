import Agora.Consensus.Dissent
import Agora.Consensus.Exact

namespace Agora.Consensus

/-!
# The recorded contributions of `weighted`

The support of an alternative is computed with the position weights of the parameters, while the
contributions of a result always record the score of the default weights.  So the mean of the
recorded scores is the reported support exactly when the two tables have the same mean, up to the
clamp (`traceReproduces_iff`).
-/

/-! ### Means -/

section Mean

theorem clamp_eq_clamp_iff {x y : ℚ} :
    clamp x 0 1 = clamp y 0 1 ↔ x = y ∨ (x ≤ 0 ∧ y ≤ 0) ∨ 1 ≤ x ∧ 1 ≤ y := by
  rw [clamp_eq, clamp_eq]
  grind

/-- The clamped mean of some scores. -/
def meanOf (scores : List ℚ) : ℚ := clamp (mean scores) 0 1

/-- Two means of as many scores are the same when the totals are, or are out of the range on the
    same side. -/
theorem meanOf_eq_iff {scores scores' : List ℚ} (h : scores.length = scores'.length) :
    meanOf scores = meanOf scores' ↔ pySum scores = pySum scores'
      ∨ (pySum scores ≤ 0 ∧ pySum scores' ≤ 0)
      ∨ (scores.length : ℚ) ≤ pySum scores ∧ (scores.length : ℚ) ≤ pySum scores' := by
  cases scores with
  | nil =>
    rw [List.length_nil, eq_comm, List.length_eq_zero_iff] at h
    simp [h]
  | cons s scores =>
    cases scores' with
    | nil => simp at h
    | cons s' scores' =>
      have hpos : (0 : ℚ) < (s :: scores).length := by
        rw [List.length_cons]
        exact_mod_cast Nat.succ_pos _
      show clamp (pySum (s :: scores) / ((s :: scores).length : ℚ)) 0 1
        = clamp (pySum (s' :: scores') / ((s' :: scores').length : ℚ)) 0 1 ↔ _
      rw [← h, clamp_eq_clamp_iff, div_left_inj' hpos.ne', div_le_iff₀ hpos, div_le_iff₀ hpos,
        zero_mul, le_div_iff₀ hpos, le_div_iff₀ hpos, one_mul]

end Mean

/-! ### The trace -/

section Trace

variable {ctx : ConsensusContext ℚ} {env : EvaluationEnv ℚ} {p : SupportParameters ℚ} {alpha : ℚ}

/-- The recorded scores of an alternative that the abstention policy counts. -/
def tracedScores (policy : AbstainPolicy) (contributions : List (AgentContribution ℚ)) (a : UUID) :
    List ℚ :=
  (contributions.filter fun c => c.alternativeId = a ∧ (policy = .half ∨ c.stance ≠ "ABSTAIN")).map
    (·.positionScore)

/-- The recorded scores have the reported support of every alternative as their mean. -/
def TraceReproduces (p : SupportParameters ℚ) (result : ConsensusResult ℚ) : Prop :=
  ∀ t ∈ result.scores, t.support = meanOf (tracedScores p.abstainPolicy result.contributions
    t.alternativeId)

/-- The scores of the counted positions on an alternative, by a table of weights. -/
def countedScores (ctx : ConsensusContext ℚ) (p : SupportParameters ℚ)
    (weights : Option (List (String × ℚ))) (a : UUID) : List ℚ :=
  (relevantPositions a ctx.agentPositions p.abstainPolicy).map fun q =>
    positionScore q.stance q.confidence p.useConfidence weights

/-- On every rankable alternative, the table of the parameters adds up to the same as the default
    one, or both are out of the range on the same side. -/
def SameTotals (ctx : ConsensusContext ℚ) (p : SupportParameters ℚ) : Prop :=
  ∀ alt ∈ ctx.gate.rankable,
    let scores := countedScores ctx p p.positionWeights alt.alternativeId
    let defaults := countedScores ctx p none alt.alternativeId
    pySum scores = pySum defaults ∨ (pySum scores ≤ 0 ∧ pySum defaults ≤ 0)
      ∨ (scores.length : ℚ) ≤ pySum scores ∧ (scores.length : ℚ) ≤ pySum defaults

theorem clamp_computeSupport (weights : Option (List (String × ℚ))) (a : UUID) :
    clamp (computeSupport a ctx.agentPositions p.useConfidence p.abstainPolicy weights).1 0 1
      = meanOf (countedScores ctx p weights a) := by
  rw [computeSupport_fst]
  rfl

/-- What is recorded of an alternative are the default scores of its counted positions. -/
theorem tracedScores_contributionsOf (a : UUID) :
    ((contributionsOf (ctx.agentPositions.filter fun q => q.alternativeId = a)
      p.useConfidence).filter fun c => p.abstainPolicy = .half ∨ c.stance ≠ "ABSTAIN").map
        (·.positionScore)
      = countedScores ctx p none a := by
  unfold contributionsOf countedScores relevantPositions
  rw [List.filter_map, List.map_map]
  cases p.abstainPolicy with
  | half => simp [Function.comp_def]
  | exclude => simp [Function.comp_def]

/-- What a result of `weighted` reports. -/
theorem weighted_result (hp : weightedParameters ctx.strategyConfig.parameters = .ok (p, alpha))
    {result : ConsensusResult ℚ} (h : Strategy.weighted.evaluate ctx env = .ok result) :
    (ctx.gate.rankable = [] ∧ result.scores = [])
      ∨ ∃ rows, ctx.gate.rankable.mapM (weightedRow ctx p alpha ctx.gate) = .ok rows
        ∧ result.scores = rankRows rows
        ∧ result.contributions = rows.flatMap (·.contributions) := by
  obtain ⟨st, hst, h⟩ := Except.bind_eq_ok.mp h
  rw [Strategy.stages, weightedStages, hp, Except.ok_bind] at hst
  simp only [feasibilityGate_eq, Except.ok_bind] at hst
  by_cases hgate : ctx.gate.allInfeasible = true
  · rw [if_pos hgate] at hst
    cases hst
    cases h
    exact Or.inl ⟨List.isEmpty_iff.mp hgate, rfl⟩
  · rw [if_neg hgate] at hst
    rw [Bool.not_eq_true] at hgate
    obtain ⟨rows, hrows, hst⟩ := Except.bind_eq_ok.mp hst
    cases hrank : rankRows rows with
    | nil => exact absurd hrank (rankRows_ne_nil hgate hrows)
    | cons leader followers =>
      simp only [hrank] at hst
      cases hst
      cases h
      exact Or.inr ⟨rows, hrows, hrank.symm, rfl⟩

/-- What a row reports: the clamped mean of the scores of its alternative, and the contributions of
    all positions on it. -/
theorem weightedRow_reported {alt : AlternativeInput} {row : Row ℚ}
    (h : weightedRow ctx p alpha ctx.gate alt = .ok row) :
    row.score.support = meanOf (countedScores ctx p p.positionWeights alt.alternativeId)
      ∧ row.contributions = contributionsOf
          (ctx.agentPositions.filter fun q => q.alternativeId = alt.alternativeId)
          p.useConfidence := by
  obtain ⟨value, -, h⟩ := Except.bind_eq_ok.mp h
  obtain rfl := Except.ok.inj h
  exact ⟨clamp_computeSupport _ _, rfl⟩

/-- The recorded scores of a rankable alternative are its default scores. -/
theorem tracedScores_eq {rows : List (Row ℚ)}
    (hrows : ctx.gate.rankable.mapM (weightedRow ctx p alpha ctx.gate) = .ok rows)
    {alt : AlternativeInput} (halt : alt ∈ ctx.gate.rankable) :
    tracedScores p.abstainPolicy (rows.flatMap (·.contributions)) alt.alternativeId
      = countedScores ctx p none alt.alternativeId := by
  have hcontributions : rows.map (·.contributions) = ctx.gate.rankable.map fun alt =>
      contributionsOf (ctx.agentPositions.filter fun q => q.alternativeId = alt.alternativeId)
        p.useConfidence :=
    Except.map_eq_of_mapM (fun _ _ hrow => (weightedRow_reported hrow).2) hrows
  have hkeys : (ctx.gate.rankable.map (·.alternativeId)).Nodup :=
    ctx.unique_alternatives.sublist (List.filter_sublist.map _)
  rw [tracedScores, List.flatMap_def, hcontributions, ← List.flatMap_def,
    ← tracedScores_contributionsOf]
  apply congrArg (List.map _)
  apply filter_flatMap_of_nodup hkeys _ halt
  intro alt' _ c hc
  obtain ⟨q, hq, rfl⟩ := List.mem_map.mp hc
  exact of_decide_eq_true (List.mem_filter.mp hq).2

/-- A table that scores the positions like the default one has the same totals. -/
theorem sameTotals_of_scores (h : ∀ q ∈ ctx.agentPositions,
    positionScore q.stance q.confidence p.useConfidence p.positionWeights
      = positionScore q.stance q.confidence p.useConfidence) : SameTotals ctx p := by
  intro alt _
  have hscores : countedScores ctx p p.positionWeights alt.alternativeId
      = countedScores ctx p none alt.alternativeId := by
    apply List.map_congr_left
    intro q hq
    exact h q (mem_relevantPositions.mp hq).1
  exact Or.inl (congrArg pySum hscores)

theorem exists_mem_rankRows {rows : List (Row ℚ)} {row : Row ℚ} (h : row ∈ rows) :
    ∃ t ∈ rankRows rows,
      t.alternativeId = row.score.alternativeId ∧ t.support = row.score.support := by
  have hsorted : row ∈ sortedDesc (·.rankKey) rows := mem_sortedDesc.mpr h
  obtain ⟨n, hn⟩ := exists_mem_withRanks (List.mem_map_of_mem (f := (·.score)) hsorted)
  exact ⟨_, hn, rfl, rfl⟩

/-- **The trace.**  A result of `weighted` records what it computed exactly when the weights of its
    parameters have the same totals as the default ones. -/
theorem traceReproduces_iff (hp : weightedParameters ctx.strategyConfig.parameters = .ok (p, alpha))
    {result : ConsensusResult ℚ} (h : Strategy.weighted.evaluate ctx env = .ok result) :
    TraceReproduces p result ↔ SameTotals ctx p := by
  rcases weighted_result hp h with ⟨hnone, hscores⟩ | ⟨rows, hrows, hscores, hcontributions⟩
  · simp [TraceReproduces, SameTotals, hnone, hscores]
  · have hlength (a : UUID) : (countedScores ctx p p.positionWeights a).length
        = (countedScores ctx p none a).length := by
      rw [countedScores, countedScores, List.length_map, List.length_map]
    have hsame (a : UUID) : meanOf (countedScores ctx p p.positionWeights a)
        = meanOf (countedScores ctx p none a) ↔ _ := meanOf_eq_iff (hlength a)
    unfold SameTotals TraceReproduces
    simp only [hscores, hcontributions, ← hsame]
    constructor
    · intro htrace alt halt
      obtain ⟨row, hrow, hmem⟩ := Except.exists_mem_of_mapM hrows halt
      obtain ⟨t, ht, hid, hsupport⟩ := exists_mem_rankRows hmem
      have hmean := htrace t ht
      rw [hid, (weightedRow_spec hrow).1, tracedScores_eq hrows halt, hsupport,
        (weightedRow_reported hrow).1] at hmean
      exact hmean
    · intro hmeans t ht
      obtain ⟨row, hmem, n, rfl⟩ := mem_rankRows ht
      obtain ⟨alt, halt, hrow⟩ := Except.exists_of_mem_mapM hrows hmem
      show row.score.support = meanOf (tracedScores _ _ row.score.alternativeId)
      rw [(weightedRow_spec hrow).1, tracedScores_eq hrows halt, (weightedRow_reported hrow).1]
      exact hmeans alt halt

end Trace

section Sample

instance (p : SupportParameters ℚ) (result : ConsensusResult ℚ) :
    Decidable (TraceReproduces p result) := by
  unfold TraceReproduces
  infer_instance

/-- One agent supports an alternative, and a table halves the weight of support. -/
def halvedContext : ConsensusContext ℚ :=
  { mixedContext with
    agentPositions :=
      [{ agentId := ⟨"d0000000-0000-4000-8000-000000000001", .refl true⟩
         agentDefinitionVersion := "1.0.0"
         alternativeId := ⟨"a0000000-0000-4000-8000-000000000001", .refl true⟩
         stance := "SUPPORT", confidence := 1 }]
    strategyConfig :=
      { strategyName := "weighted", strategyVersion := "1.0.0"
        parameters := [("position_weights", .map [("SUPPORT", .str "0.5")])] }
    confidence_range := by decide +kernel }

/-- The sample with opposing agents has no table of its own. -/
theorem traceReproduces_iff_opposed : ∃ (p : SupportParameters ℚ) (result : ConsensusResult ℚ),
    Strategy.weighted.evaluate opposedContext sampleEnv = .ok result
      ∧ TraceReproduces p result := by
  obtain ⟨⟨p, alpha⟩, hp, hnone⟩ := Except.exists_ok_of_any
    (p := fun p : SupportParameters ℚ × ℚ => p.1.positionWeights.isNone)
    (show (weightedParameters opposedContext.strategyConfig.parameters).toOption.any _ = true by
      decide +kernel)
  obtain ⟨result, h⟩ := Except.exists_ok_of_isOk
    (show (Strategy.weighted.evaluate opposedContext sampleEnv).isOk = true by decide +kernel)
  refine ⟨p, result, h, (traceReproduces_iff hp h).mpr (sameTotals_of_scores fun q _ => ?_)⟩
  rw [Option.isNone_iff_eq_none.mp hnone]

/-- The halved support is recorded as a whole one. -/
theorem halved_support_not_traced :
    ¬ ∀ (ctx : ConsensusContext ℚ) (env : EvaluationEnv ℚ) (p : SupportParameters ℚ) (alpha : ℚ)
      (result : ConsensusResult ℚ),
      weightedParameters ctx.strategyConfig.parameters = .ok (p, alpha) →
        Strategy.weighted.evaluate ctx env = .ok result → TraceReproduces p result := by
  intro h
  obtain ⟨⟨p, alpha⟩, hp, hany⟩ := Except.exists_ok_of_any
    (p := fun p : SupportParameters ℚ × ℚ =>
      (Strategy.weighted.evaluate halvedContext sampleEnv).toOption.any fun result =>
        ¬ TraceReproduces p.1 result)
    (show (weightedParameters halvedContext.strategyConfig.parameters).toOption.any _ = true by
      decide +kernel)
  obtain ⟨result, hresult, hnot⟩ := Except.exists_ok_of_any hany
  exact of_decide_eq_true hnot (h halvedContext sampleEnv p alpha result hp hresult)

end Sample

end Agora.Consensus
