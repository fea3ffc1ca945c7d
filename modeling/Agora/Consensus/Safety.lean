import Agora.Consensus.Pipeline

namespace Agora.Consensus

/-!
# What a result says about feasibility

* `evaluate_gateRespected` — no alternative with an UNSAT verdict comes back in a result, the
  outcome is INFEASIBLE exactly when nothing else is left, and a selection is the leader's.
* `evaluate_unknownReported_iff` — the scores carry the verdicts of the context, and
  CONDITIONAL_CONSENSUS marks an UNKNOWN leader, exactly when the conflict test of
  `constraint_aware` does not return a frontier with an UNKNOWN alternative in it:
  `paretoResult` writes SAT into every score.
-/

variable {D : Type} [DecimalArith D]

/-! ### The classification -/

/-- The outcome class of a ranking before the blocking cap. -/
def uncappedOutcome (ctx : ConsensusContext D) (r : Ranked D) : ConsensusOutcome :=
  if r.gate.unknown.any fun v => v.alternativeId = r.leader.alternativeId then
    .conditionalConsensus
  else if r.agreementThreshold ≤ r.leader.support
      ∧ allActiveSupportive ctx r.leader.alternativeId then .fullConsensus
  else if r.partialThreshold ≤ r.leader.support then .partialConsensus
  else .noConsensus

theorem classifyOutcome_eq (ctx : ConsensusContext D) (r : Ranked D) :
    classifyOutcome ctx r = blockingGateOutcome r.blocking (uncappedOutcome ctx r) := rfl

/-- The cap only ever turns a full consensus into a partial one. -/
theorem blockingGateOutcome_eq_iff {blocking : List UUID} {candidate outcome : ConsensusOutcome}
    (hfull : outcome ≠ .fullConsensus) (hpart : outcome ≠ .partialConsensus) :
    blockingGateOutcome blocking candidate = outcome ↔ candidate = outcome := by
  unfold blockingGateOutcome
  split
  case isTrue hcap =>
    rw [hcap.2]
    exact iff_of_false hpart.symm hfull.symm
  case isFalse => rfl

/-- A classified ranking has one of four outcome classes. -/
theorem classifyOutcome_mem (ctx : ConsensusContext D) (r : Ranked D) :
    classifyOutcome ctx r ∈ [ConsensusOutcome.fullConsensus, .partialConsensus,
      .conditionalConsensus, .noConsensus] := by
  rw [classifyOutcome_eq]
  unfold uncappedOutcome blockingGateOutcome
  split_ifs <;> simp_all

theorem classifyOutcome_ne_infeasible (ctx : ConsensusContext D) (r : Ranked D) :
    classifyOutcome ctx r ≠ .infeasible := by
  intro h
  have hmem := classifyOutcome_mem ctx r
  simp [h] at hmem

theorem classifyOutcome_eq_conditional_iff {ctx : ConsensusContext D} {r : Ranked D}
    (hgate : r.gate = ctx.gate) :
    classifyOutcome ctx r = .conditionalConsensus
      ↔ ctx.HasVerdict r.leader.alternativeId .unknown := by
  rw [classifyOutcome_eq, blockingGateOutcome_eq_iff (by simp) (by simp), ← any_unknown_iff,
    ← hgate, uncappedOutcome]
  split_ifs <;> simp_all

section Finish

variable {s : Strategy} {ctx : ConsensusContext D} {env : EvaluationEnv D} {r : Ranked D}

@[simp] theorem finish_outcome : (s.finish ctx env r).outcome = classifyOutcome ctx r := by
  cases s <;> rfl

@[simp] theorem finish_scores : (s.finish ctx env r).scores = r.leader :: r.followers := by
  cases s <;> rfl

@[simp] theorem finish_paretoSet : (s.finish ctx env r).paretoSet = [] := by
  cases s <;> rfl

@[simp] theorem finish_selectedAlternativeId :
    (s.finish ctx env r).selectedAlternativeId
      = if (classifyOutcome ctx r).selectable then some r.leader.alternativeId else none := by
  cases s <;> rfl

@[simp] theorem finish_support : (s.finish ctx env r).support = some r.leader.support := by
  cases s <;> rfl

end Finish

/-- Selection and outcome class go together. -/
theorem selectable_iff {outcome : ConsensusOutcome} :
    outcome.selectable = true
      ↔ outcome ∈ [ConsensusOutcome.fullConsensus, .partialConsensus, .conditionalConsensus] := by
  cases outcome <;> simp [ConsensusOutcome.selectable]

/-! ### The gate is respected -/

/-- What the shared gate promises about a result. -/
structure GateRespected (ctx : ConsensusContext D) (result : ConsensusResult D) : Prop where
  excluded : ∀ a, ctx.HasVerdict a .unsat → a ∉ result.scores.map (·.alternativeId)
    ∧ a ∉ result.paretoSet ∧ result.selectedAlternativeId ≠ some a
  infeasible_iff : result.outcome = .infeasible
    ↔ ∀ alt ∈ ctx.alternatives, ctx.HasVerdict alt.alternativeId .unsat
  cores : result.outcome = .infeasible →
    result.blockingConstraints
      = ctx.alternatives.flatMap fun alt => ctx.unsatCoreOf alt.alternativeId
  selected : ∀ a, result.selectedAlternativeId = some a →
    (result.scores.head?).map (·.alternativeId) = some a
      ∧ result.outcome ∈ [ConsensusOutcome.fullConsensus, .partialConsensus,
        .conditionalConsensus]

/-- An alternative the gate let through has no UNSAT verdict. -/
theorem Scored.not_unsat {ctx : ConsensusContext D} {a : UUID} (h : Scored ctx a) :
    ¬ ctx.HasVerdict a .unsat := by
  obtain ⟨alt, halt, rfl⟩ := List.mem_map.mp h
  exact (mem_rankable_iff.mp halt).2

theorem not_allUnsat {ctx : ConsensusContext D} (hgate : ctx.gate.allInfeasible = false) :
    ¬ ∀ alt ∈ ctx.alternatives, ctx.HasVerdict alt.alternativeId .unsat := by
  rw [← allInfeasible_iff, hgate]
  simp

/-- **Early returns with something to rank.**  A result that selects nothing, is not INFEASIBLE
    and names only alternatives the gate let through respects the gate. -/
theorem gateRespected_of_unselected {ctx : ConsensusContext D} {result : ConsensusResult D}
    (hgate : ctx.gate.allInfeasible = false) (houtcome : result.outcome ≠ .infeasible)
    (hselected : result.selectedAlternativeId = none)
    (hscores : ∀ t ∈ result.scores, Scored ctx t.alternativeId)
    (hpareto : ∀ a ∈ result.paretoSet, Scored ctx a) : GateRespected ctx result where
  excluded a ha := by
    refine ⟨fun hmem => ?_, fun hmem => (hpareto a hmem).not_unsat ha, by simp [hselected]⟩
    obtain ⟨t, ht, rfl⟩ := List.mem_map.mp hmem
    exact (hscores t ht).not_unsat ha
  infeasible_iff := iff_of_false houtcome (not_allUnsat hgate)
  cores h := absurd h houtcome
  selected a h := by rw [hselected] at h; cases h

/-- A classified ranking of alternatives the gate let through respects the gate. -/
theorem gateRespected_finish {s : Strategy} {ctx : ConsensusContext D} {env : EvaluationEnv D}
    {r : Ranked D} (hgate : ctx.gate.allInfeasible = false) (hsound : r.Sound s ctx) :
    GateRespected ctx (s.finish ctx env r) where
  excluded a ha := by
    have hscores : a ∉ (r.leader :: r.followers).map (·.alternativeId) := by
      intro hmem
      obtain ⟨t, ht, rfl⟩ := List.mem_map.mp hmem
      exact (hsound.scored t ht).1.not_unsat ha
    refine ⟨by simpa using hscores, by simp, ?_⟩
    rw [finish_selectedAlternativeId]
    split
    case isTrue =>
      rintro ⟨rfl⟩
      exact hscores (List.mem_map_of_mem List.mem_cons_self)
    case isFalse => simp
  infeasible_iff := by
    rw [finish_outcome]
    exact iff_of_false (classifyOutcome_ne_infeasible ctx r) (not_allUnsat hgate)
  cores h := by
    rw [finish_outcome] at h
    exact absurd h (classifyOutcome_ne_infeasible ctx r)
  selected a h := by
    rw [finish_selectedAlternativeId] at h
    split at h
    case isTrue hsel =>
      rw [finish_scores, finish_outcome]
      exact ⟨h, selectable_iff.mp hsel⟩
    case isFalse => cases h

/-- The paths of a conflict result are not INFEASIBLE. -/
theorem paretoResult_outcome (ctx : ConsensusContext D) (env : EvaluationEnv D)
    (derivation : List (DerivationStep D)) (reports : Reports D) (pareto : List (Candidate D)) :
    (paretoResult ctx env derivation reports pareto).outcome = .paretoSet :=
  (blockingGateOutcome_eq_iff (by simp) (by simp)).mpr rfl

/-- The scores of a conflict result are the members of the frontier, all marked SAT. -/
theorem mem_paretoResult_scores {ctx : ConsensusContext D} {env : EvaluationEnv D}
    {derivation : List (DerivationStep D)} {reports : Reports D} {pareto : List (Candidate D)}
    {t : AlternativeScore D} (ht : t ∈ (paretoResult ctx env derivation reports pareto).scores) :
    ∃ c ∈ pareto, t.alternativeId = c.id ∧ t.feasibility = .sat := by
  obtain ⟨u, hu, n, rfl⟩ := mem_withRanks ht
  obtain ⟨c, hc, rfl⟩ := List.mem_map.mp hu
  exact ⟨c, hc, rfl, rfl⟩

theorem exists_paretoResult_score (ctx : ConsensusContext D) (env : EvaluationEnv D)
    (derivation : List (DerivationStep D)) (reports : Reports D) {pareto : List (Candidate D)}
    {c : Candidate D} (hc : c ∈ pareto) :
    ∃ t ∈ (paretoResult ctx env derivation reports pareto).scores,
      t.alternativeId = c.id ∧ t.feasibility = .sat := by
  obtain ⟨n, hn⟩ := exists_mem_withRanks (List.mem_map_of_mem
    (f := fun c => candidateScore c none FeasibilityStatus.sat) hc)
  exact ⟨_, hn, rfl, rfl⟩

/-- **Feasibility gate safety.**  Whatever path an evaluation takes, its result respects the
    gate. -/
theorem evaluate_gateRespected {s : Strategy} {ctx : ConsensusContext D} {env : EvaluationEnv D}
    {result : ConsensusResult D} (h : s.evaluate ctx env = .ok result) :
    GateRespected ctx result := by
  rcases evaluate_cases h with hst | ⟨r, hst, rfl⟩
  · cases stages_cases hst with
    | infeasible _ derivation hgate =>
      refine ⟨fun a _ => ⟨by simp [infeasibleResult, ConsensusContext.result],
          by simp [infeasibleResult, ConsensusContext.result],
          by simp [infeasibleResult, ConsensusContext.result]⟩,
        iff_of_true rfl (allInfeasible_iff.mp hgate), fun _ => infeasible_cores, fun a h => ?_⟩
      cases h
    | evidenceGate leader followers derivation contributions hgate hscored =>
      exact gateRespected_of_unselected hgate (by simp [evidenceGateResult,
          ConsensusResult.withReports, ConsensusContext.result]) rfl
        (fun t ht => (hscored t ht).1)
        (fun a ha => absurd ha List.not_mem_nil)
    | evidenceFloor derivation contributions hgate hfrontier =>
      exact gateRespected_of_unselected hgate (by simp [ConsensusResult.withReports,
          ConsensusContext.result]) rfl
        (fun t ht => absurd ht List.not_mem_nil) (fun a ha => absurd ha List.not_mem_nil)
    | conflict pareto derivation contributions hgate hfrontier hconflict hscored =>
      refine gateRespected_of_unselected hgate (by simp [paretoResult_outcome]) rfl
        (fun t ht => ?_) (fun a ha => ?_)
      · obtain ⟨c, hc, hid, -⟩ := mem_paretoResult_scores ht
        exact hid ▸ hscored c hc
      · obtain ⟨c, hc, rfl⟩ := List.mem_map.mp ha
        exact hscored c hc
  · cases stages_cases hst with
    | ranked _ _ hgate hsound _ => exact gateRespected_finish hgate hsound

/-! ### A context with one alternative of each kind -/

section Sample

/-- Three alternatives, of which the first has an UNKNOWN verdict and the last an UNSAT one,
    under two conflicting objectives that each prefer another of the first two. -/
def mixedContext : ConsensusContext ℚ where
  sessionId := ⟨"00000000-0000-4000-8000-000000000001", .refl true⟩
  round := 1
  alternatives :=
    [⟨⟨"a0000000-0000-4000-8000-000000000001", .refl true⟩, "lease"⟩,
      ⟨⟨"a0000000-0000-4000-8000-000000000002", .refl true⟩, "build"⟩,
      ⟨⟨"a0000000-0000-4000-8000-000000000003", .refl true⟩, "defer"⟩]
  objectives :=
    [{ objectiveId := ⟨"b0000000-0000-4000-8000-000000000001", .refl true⟩, name := "cost"
       weight := 1 / 2, direction := "MINIMIZE"
       conflictsWith := [⟨"b0000000-0000-4000-8000-000000000002", .refl true⟩] },
      { objectiveId := ⟨"b0000000-0000-4000-8000-000000000002", .refl true⟩, name := "speed"
        weight := 1 / 2, direction := "MAXIMIZE" }]
  objectiveValues :=
    [("b0000000-0000-4000-8000-000000000001",
        [("a0000000-0000-4000-8000-000000000001", "1"),
          ("a0000000-0000-4000-8000-000000000002", "0")]),
      ("b0000000-0000-4000-8000-000000000002",
        [("a0000000-0000-4000-8000-000000000001", "0"),
          ("a0000000-0000-4000-8000-000000000002", "1")])]
  feasibility :=
    [{ alternativeId := ⟨"a0000000-0000-4000-8000-000000000001", .refl true⟩, status := .unknown
       reasonUnknown := some "timeout"
       evidenceMatchesStatus := ⟨⟨"timeout", rfl, by decide⟩, rfl, rfl⟩ },
      { alternativeId := ⟨"a0000000-0000-4000-8000-000000000003", .refl true⟩, status := .unsat
        unsatCore := ["budget"]
        evidenceMatchesStatus := ⟨by decide, rfl, rfl⟩ }]
  strategyConfig :=
    { strategyName := "constraint_aware", strategyVersion := "1.0.0"
      parameters := [("allow_unevidenced", .bool true)] }
  round_pos := le_rfl
  alternatives_ne_nil := by simp
  unique_alternatives := by decide
  unique_verdicts := by decide
  feasibility_matches_alternatives := by decide
  confidence_range := by simp
  weight_range := by decide +kernel

def sampleEnv : EvaluationEnv ℚ where
  resultId := ⟨"c0000000-0000-4000-8000-000000000001", by decide⟩
  consensusInputHash := fun _ => "sha256:0"

/-- The evaluation of the sample respects the gate. -/
theorem evaluate_gateRespected_mixed :
    ∃ result, Strategy.weighted.evaluate mixedContext sampleEnv = .ok result
      ∧ GateRespected mixedContext result := by
  obtain ⟨result, h⟩ := Except.exists_ok_of_isOk
    (show (Strategy.weighted.evaluate mixedContext sampleEnv).isOk = true by decide +kernel)
  exact ⟨result, h, evaluate_gateRespected h⟩

end Sample

/-! ### UNKNOWN is reported -/

/-- Every score carries the verdict of its alternative: UNKNOWN as UNKNOWN, the rest as SAT. -/
def StatusReported (ctx : ConsensusContext D) (result : ConsensusResult D) : Prop :=
  ∀ t ∈ result.scores,
    (ctx.HasVerdict t.alternativeId .unknown → t.feasibility = .unknown)
      ∧ (¬ ctx.HasVerdict t.alternativeId .unknown → t.feasibility = .sat)

/-- CONDITIONAL_CONSENSUS is returned exactly for a classified leader with an UNKNOWN verdict. -/
def ConditionalReported (s : Strategy) (ctx : ConsensusContext D) (env : EvaluationEnv D)
    (result : ConsensusResult D) : Prop :=
  result.outcome = .conditionalConsensus
    ↔ ∃ r, s.stages ctx env = .ok (.ranked r)
      ∧ ctx.HasVerdict r.leader.alternativeId .unknown

/-- The conflict test stops the strategy on a frontier that holds an UNKNOWN alternative. -/
def UnknownInConflict (s : Strategy) (ctx : ConsensusContext D) : Prop :=
  s = .constraintAware ∧ ∃ pareto, constraintAwareFrontier ctx = .ok pareto
    ∧ conflictTest ctx.objectives pareto = true ∧ ∃ c ∈ pareto, ctx.HasVerdict c.id .unknown

/-- A score with the gate's status reports the verdict. -/
theorem StatusKept.reported {ctx : ConsensusContext D} {t : AlternativeScore D}
    (h : StatusKept ctx t) :
    (ctx.HasVerdict t.alternativeId .unknown → t.feasibility = .unknown)
      ∧ (¬ ctx.HasVerdict t.alternativeId .unknown → t.feasibility = .sat) := by
  rw [StatusKept, scoreFeasibility] at h
  rw [h, ← any_unknown_iff]
  exact ⟨fun hany => if_pos hany, fun hany => if_neg hany⟩

/-- A member of the frontier is rankable. -/
theorem scored_of_mem_frontier {ctx : ConsensusContext D} {pareto : List (Candidate D)}
    (h : constraintAwareFrontier ctx = .ok pareto) {c : Candidate D} (hc : c ∈ pareto) :
    Scored ctx c.id := by
  obtain ⟨p, -, h⟩ := Except.bind_eq_ok.mp h
  obtain ⟨supports, hsupports, h⟩ := Except.bind_eq_ok.mp h
  exact (frontier_spec hsupports h hc).1

/-- The frontier with an UNKNOWN alternative is the one the strategy computes. -/
theorem not_unknownInConflict {s : Strategy} {ctx : ConsensusContext D}
    (h : s = .constraintAware → ∀ pareto, constraintAwareFrontier ctx = .ok pareto →
      conflictTest ctx.objectives pareto = false ∨ pareto = []) : ¬ UnknownInConflict s ctx := by
  rintro ⟨hs, pareto, hpareto, hconflict, c, hc, -⟩
  rcases h hs pareto hpareto with hno | rfl
  · rw [hno] at hconflict
    cases hconflict
  · exact List.not_mem_nil hc

/-- **A stopped strategy.**  An early return has no classified leader, so it must not be
    CONDITIONAL_CONSENSUS. -/
theorem conditionalReported_stopped {s : Strategy} {ctx : ConsensusContext D}
    {env : EvaluationEnv D} {result : ConsensusResult D}
    (hst : s.stages ctx env = .ok (.stopped result))
    (houtcome : result.outcome ≠ .conditionalConsensus) :
    ConditionalReported s ctx env result := by
  refine iff_of_false houtcome ?_
  rintro ⟨r, hr, -⟩
  rw [hst] at hr
  cases hr

/-- **UNKNOWN is reported.**  The statuses of the scores and the use of CONDITIONAL_CONSENSUS
    are right exactly when no frontier with an UNKNOWN alternative is returned. -/
theorem evaluate_unknownReported_iff {s : Strategy} {ctx : ConsensusContext D}
    {env : EvaluationEnv D} {result : ConsensusResult D} (h : s.evaluate ctx env = .ok result) :
    StatusReported ctx result ∧ ConditionalReported s ctx env result
      ↔ ¬ UnknownInConflict s ctx := by
  rcases evaluate_cases h with hst | ⟨r, hst, rfl⟩
  · cases stages_cases hst with
    | infeasible _ derivation hgate =>
      refine iff_of_true ⟨fun t ht => absurd ht List.not_mem_nil,
        conditionalReported_stopped hst (by simp [infeasibleResult, ConsensusContext.result])⟩
        (not_unknownInConflict fun _ pareto hpareto => .inr ?_)
      -- Nothing is rankable, so nothing is on the frontier.
      rw [List.eq_nil_iff_forall_not_mem]
      intro c hc
      have hscored := scored_of_mem_frontier hpareto hc
      rw [Scored, List.isEmpty_iff.mp hgate] at hscored
      exact List.not_mem_nil hscored
    | evidenceGate leader followers derivation contributions hgate hscored =>
      exact iff_of_true ⟨fun t ht => (hscored t ht).2.reported,
        conditionalReported_stopped hst (by simp [evidenceGateResult,
          ConsensusResult.withReports, ConsensusContext.result])⟩
        (not_unknownInConflict fun hs => nomatch hs)
    | evidenceFloor derivation contributions hgate hfrontier =>
      refine iff_of_true ⟨fun t ht => absurd ht List.not_mem_nil,
        conditionalReported_stopped hst (by simp [ConsensusResult.withReports,
          ConsensusContext.result])⟩
        (not_unknownInConflict fun _ pareto hpareto => .inr ?_)
      exact Except.ok.inj (hpareto.symm.trans hfrontier)
    | conflict pareto derivation contributions hgate hfrontier hconflict hscored =>
      have hconditional := conditionalReported_stopped hst (by simp [paretoResult_outcome])
      rw [and_iff_left hconditional]
      constructor
      · rintro hreported ⟨-, pareto', hpareto', -, c, hc, hunknown⟩
        obtain rfl := Except.ok.inj (hfrontier.symm.trans hpareto')
        -- The score of the UNKNOWN member says SAT.
        obtain ⟨t, ht, hid, hsat⟩ := exists_paretoResult_score ctx env derivation
          (reportsOf ctx ctx.gate contributions) hc
        have hstatus := (hreported t ht).1 (hid ▸ hunknown)
        rw [hsat] at hstatus
        cases hstatus
      · intro hno t ht
        obtain ⟨c, hc, hid, hsat⟩ := mem_paretoResult_scores ht
        refine ⟨fun hunknown => ?_, fun _ => hsat⟩
        exact absurd ⟨rfl, pareto, hfrontier, hconflict, c, hc, hid ▸ hunknown⟩ hno
  · cases stages_cases hst with
    | ranked _ _ hgate hsound hfrontier =>
      refine iff_of_true ⟨fun t ht => ?_, ?_⟩
        (not_unknownInConflict fun hs pareto hpareto => .inl ?_)
      · rw [finish_scores] at ht
        exact (hsound.scored t ht).2.reported
      · rw [ConditionalReported, finish_outcome,
          classifyOutcome_eq_conditional_iff hsound.gate_eq]
        refine ⟨fun hunknown => ⟨r, hst, hunknown⟩, ?_⟩
        rintro ⟨r', hr', hunknown⟩
        cases hst.symm.trans hr'
        exact hunknown
      · obtain ⟨pareto', hpareto', hno⟩ := hfrontier hs
        rw [Except.ok.inj (hpareto.symm.trans hpareto')]
        exact hno

/-- The reports of an evaluation of the sample by `weighted` are right. -/
theorem evaluate_unknownReported_mixed :
    ∃ result, Strategy.weighted.evaluate mixedContext sampleEnv = .ok result
      ∧ (StatusReported mixedContext result
          ∧ ConditionalReported .weighted mixedContext sampleEnv result
        ↔ ¬ UnknownInConflict .weighted mixedContext) := by
  obtain ⟨result, h⟩ := Except.exists_ok_of_isOk
    (show (Strategy.weighted.evaluate mixedContext sampleEnv).isOk = true by decide +kernel)
  exact ⟨result, h, evaluate_unknownReported_iff h⟩

/-- `constraint_aware` returns the frontier of the sample as PARETO_SET, with its UNKNOWN
    alternative marked SAT. -/
theorem not_statusReported_mixed :
    ∃ result, Strategy.constraintAware.evaluate mixedContext sampleEnv = .ok result
      ∧ ¬ StatusReported mixedContext result := by
  obtain ⟨result, h, hany⟩ := Except.exists_ok_of_any
    (p := fun result => result.scores.any fun t =>
      t.alternativeId.text = "a0000000-0000-4000-8000-000000000001" ∧ t.feasibility = .sat)
    (show (Strategy.constraintAware.evaluate mixedContext sampleEnv).toOption.any _ = true by
      decide +kernel)
  refine ⟨result, h, fun hreported => ?_⟩
  obtain ⟨t, ht, hsat⟩ := List.any_eq_true.mp hany
  rw [decide_eq_true_eq] at hsat
  have hunknown := (hreported t ht).1 ⟨_, List.mem_cons_self, UUID.ext hsat.1.symm, rfl⟩
  rw [hsat.2] at hunknown
  cases hunknown

end Agora.Consensus
