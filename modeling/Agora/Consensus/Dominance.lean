import Agora.Consensus.Permutation
import Agora.Consensus.Decimal
import Agora.Lib.Maxima

namespace Agora.Consensus

/-!
# Stage 3, dominance

Dominance is transitive.  It is irreflexive, and then the undominated alternatives dominate all
others, exactly as long as no value is above its own sum with `epsilon` (`dominanceSound_iff`).  That
is so in exact arithmetic, but the sum is rounded and the value is not: two alternatives with the same
long value dominate each other and leave the strategy without a leader.
-/

variable {D : Type} [DecimalArith D]

/-! ### Dominance -/

/-- What `_dominates` finds. -/
theorem dominates_iff {aValues bValues : List (UUID × D)} {ks : List UUID} {epsilon : D} :
    dominates aValues bValues ks epsilon = true
      ↔ (∀ k ∈ ks, ∃ av bv, aValues.lookup k = some av ∧ bValues.lookup k = some bv ∧ ¬ av < bv)
        ∧ ∃ k ∈ ks, ∃ av bv, aValues.lookup k = some av ∧ bValues.lookup k = some bv
          ∧ bv + epsilon < av := by
  unfold dominates
  by_cases hks : ks.isEmpty = true
  · rw [if_pos hks, List.isEmpty_iff.mp hks]
    simp
  · rw [if_neg hks, dominatesLoop_iff]
    simp

section Ordered

variable [OrderedDecimal D] {ks : List UUID} {epsilon : D}

/-- The margin of the first step is still there after the second one. -/
theorem dominates_trans {aValues bValues cValues : List (UUID × D)}
    (hab : dominates aValues bValues ks epsilon = true)
    (hbc : dominates bValues cValues ks epsilon = true) :
    dominates aValues cValues ks epsilon = true := by
  obtain ⟨hab, k, hk, av, bv, ha, hb, hlt⟩ := dominates_iff.mp hab
  obtain ⟨hbc, -⟩ := dominates_iff.mp hbc
  have hchain : ∀ j ∈ ks, ∃ av bv cv, aValues.lookup j = some av ∧ bValues.lookup j = some bv
      ∧ cValues.lookup j = some cv ∧ bv ≤ av ∧ cv ≤ bv := by
    intro j hj
    obtain ⟨av, bv, ha, hb, hge⟩ := hab j hj
    obtain ⟨bv', cv, hb', hc, hge'⟩ := hbc j hj
    obtain rfl := Option.some.inj (hb.symm.trans hb')
    rw [OrderedDecimal.lt_iff_not_le, not_not] at hge hge'
    exact ⟨av, bv, cv, ha, hb, hc, hge, hge'⟩
  apply dominates_iff.mpr
  constructor
  · intro j hj
    obtain ⟨av, bv, cv, ha, -, hc, hge, hge'⟩ := hchain j hj
    refine ⟨av, cv, ha, hc, ?_⟩
    rw [OrderedDecimal.lt_iff_not_le, not_not]
    exact OrderedDecimal.le_trans hge' hge
  · obtain ⟨av', bv', cv, ha', hb', hc, -, hge⟩ := hchain k hk
    obtain rfl := Option.some.inj (ha.symm.trans ha')
    obtain rfl := Option.some.inj (hb.symm.trans hb')
    refine ⟨k, hk, av, cv, ha, hc, ?_⟩
    rw [OrderedDecimal.lt_iff_not_le] at hlt ⊢
    intro hle
    exact hlt (OrderedDecimal.le_trans hle (OrderedDecimal.add_le_add_right epsilon hge))

/-- Every value is recorded, and one is above its sum with `epsilon`. -/
def SelfDominating (values : List (UUID × D)) (ks : List UUID) (epsilon : D) : Prop :=
  (∀ k ∈ ks, (values.lookup k).isSome) ∧ ∃ k ∈ ks, ∃ v ∈ values.lookup k, v + epsilon < v

theorem dominates_self_iff {values : List (UUID × D)} :
    dominates values values ks epsilon = true ↔ SelfDominating values ks epsilon := by
  have hrefl (v : D) : ¬ v < v := by
    rw [OrderedDecimal.lt_iff_not_le, not_not]
    exact (OrderedDecimal.le_total v v).elim id id
  rw [dominates_iff, SelfDominating]
  apply and_congr
  · apply forall₂_congr
    intro k _
    rw [Option.isSome_iff_exists]
    constructor
    · rintro ⟨av, -, hav, -⟩
      exact ⟨av, hav⟩
    · rintro ⟨v, hv⟩
      exact ⟨v, v, hv, hv, hrefl v⟩
  · constructor
    · rintro ⟨k, hk, av, bv, hav, hbv, hlt⟩
      obtain rfl := Option.some.inj (hav.symm.trans hbv)
      exact ⟨k, hk, av, hav, hlt⟩
    · rintro ⟨k, hk, v, hv, hlt⟩
      exact ⟨k, hk, v, v, hv, hv, hlt⟩

/-! ### The undominated set -/

variable {candidates : List (Candidate D)}

omit [OrderedDecimal D] in
theorem mem_undominated_iff {a : Candidate D} :
    a ∈ undominated candidates ks epsilon ↔ a ∈ candidates
      ∧ ∀ b ∈ candidates, b.id ≠ a.id → dominates b.values a.values ks epsilon = false := by
  rw [undominated, List.mem_filter]
  apply and_congr_right
  intro _
  rw [Bool.not_eq_true', List.any_eq_false]
  simp

/-- Dominance is a strict order of the candidates, and what the undominated set leaves out is
    dominated from within it. -/
structure DominanceSound (candidates : List (Candidate D)) (ks : List UUID) (epsilon : D) : Prop where
  irreflexive : ∀ a ∈ candidates, dominates a.values a.values ks epsilon = false
  transitive : ∀ a ∈ candidates, ∀ b ∈ candidates, ∀ c ∈ candidates,
    dominates a.values b.values ks epsilon = true → dominates b.values c.values ks epsilon = true →
      dominates a.values c.values ks epsilon = true
  leader : candidates ≠ [] → undominated candidates ks epsilon ≠ []
  stable : ∀ a ∈ candidates, a ∉ undominated candidates ks epsilon →
    ∃ b ∈ undominated candidates ks epsilon, dominates b.values a.values ks epsilon = true

/-- Dominance is sound exactly when no candidate dominates itself. -/
theorem dominanceSound_iff : DominanceSound candidates ks epsilon
    ↔ ∀ c ∈ candidates, ¬ SelfDominating c.values ks epsilon := by
  constructor
  · intro hsound c hc hself
    have hfalse := hsound.irreflexive c hc
    rw [dominates_self_iff.mpr hself] at hfalse
    cases hfalse
  · intro hself
    let above (b a : Candidate D) : Prop := dominates b.values a.values ks epsilon = true
    have hirrefl : ∀ a ∈ candidates, ¬ above a a := by
      intro a ha habove
      exact hself a ha (dominates_self_iff.mp habove)
    have htrans : ∀ a ∈ candidates, ∀ b ∈ candidates, ∀ c ∈ candidates,
        above a b → above b c → above a c := fun _ _ _ _ _ _ hab hbc => dominates_trans hab hbc
    -- A maximal candidate is undominated.
    have habove : ∀ a ∈ candidates, ∃ b ∈ undominated candidates ks epsilon, b = a ∨ above b a := by
      intro a ha
      obtain ⟨b, hb, hba, hmaximal⟩ := exists_maximal_above hirrefl htrans ha
      refine ⟨b, mem_undominated_iff.mpr ⟨hb, fun c hc _ => ?_⟩, hba⟩
      exact Bool.eq_false_iff.mpr (hmaximal c hc)
    refine ⟨fun a ha => Bool.eq_false_iff.mpr (hirrefl a ha), htrans, fun hne => ?_, fun a ha hout => ?_⟩
    · obtain ⟨a, ha⟩ := List.exists_mem_of_ne_nil _ hne
      obtain ⟨b, hb, -⟩ := habove a ha
      exact List.ne_nil_of_mem hb
    · obtain ⟨b, hb, rfl | hba⟩ := habove a ha
      · exact absurd hb hout
      · exact ⟨b, hb, hba⟩

end Ordered

/-! ### Values that are kept -/

/-- In exact arithmetic no values dominate themselves. -/
theorem not_selfDominating_exact {values : List (UUID × ℚ)} {ks : List UUID} {epsilon : ℚ}
    (h : 0 ≤ epsilon) : ¬ SelfDominating values ks epsilon := by
  rintro ⟨-, k, -, v, -, hlt⟩
  exact absurd hlt (not_lt.mpr (le_add_of_nonneg_right h))

/-- In the default context no values of at most 28 digits do. -/
theorem not_selfDominating_kept {values : List (UUID × ContextDecimal)} {ks : List UUID}
    {epsilon : ContextDecimal} (h : 0 ≤ epsilon)
    (hkept : ∀ k ∈ ks, ∀ v ∈ values.lookup k, ∃ m j : ℤ,
      m.natAbs < 10 ^ ContextDecimal.precision ∧ v = ⟨m * (10 : ℚ) ^ j⟩) :
    ¬ SelfDominating values ks epsilon := by
  rintro ⟨-, k, hk, v, hv, hlt⟩
  obtain ⟨m, j, hdigits, rfl⟩ := hkept k hk v hv
  rw [OrderedDecimal.lt_iff_not_le] at hlt
  exact hlt (ContextDecimal.le_add hdigits h)

/-! ### Stage 3 of a context -/

/-- The alternatives that stage 2 keeps, with their values. -/
def stageTwo (ctx : ConsensusContext D) (p : ConstraintAwareParameters D) : Py (List (Candidate D)) := do
  let supports ← ctx.gate.rankable.mapM (alternativeSupport ctx p.toEvidenceParameters)
  (evidenceFloor p supports).mapM fun s => do
    let values ← objectiveValueLookup s.alternative.alternativeId ctx.objectives ctx.objectiveValues
    pure { toAlternativeSupport := s, values : Candidate D }

/-- **Stage 3.**  The frontier of a context is the undominated set of what stage 2 keeps.  There
    dominance is sound exactly when no alternative dominates itself. -/
theorem stageTwo_dominanceSound_iff [OrderedDecimal D] {ctx : ConsensusContext D}
    {p : ConstraintAwareParameters D} (hp : constraintAwareParameters ctx.strategyConfig.parameters = .ok p)
    {candidates : List (Candidate D)} (h : stageTwo ctx p = .ok candidates) :
    constraintAwareFrontier ctx
        = .ok (undominated candidates (ctx.objectives.map (·.objectiveId)) p.epsilon)
      ∧ (DominanceSound candidates (ctx.objectives.map (·.objectiveId)) p.epsilon
        ↔ ∀ c ∈ candidates, ¬ SelfDominating c.values (ctx.objectives.map (·.objectiveId)) p.epsilon) := by
  refine ⟨?_, dominanceSound_iff⟩
  obtain ⟨supports, hsupports, hcandidates⟩ := Except.bind_eq_ok.mp h
  rw [constraintAwareFrontier, hp, Except.ok_bind, hsupports, Except.ok_bind, frontier, hcandidates]
  rfl

section Sample

/-- Two alternatives with the same value of 29 digits. -/
def longContext : ConsensusContext ContextDecimal where
  sessionId := ⟨"00000000-0000-4000-8000-000000000001", .refl true⟩
  round := 1
  alternatives :=
    [⟨⟨"a0000000-0000-4000-8000-000000000001", .refl true⟩, "rent"⟩,
      ⟨⟨"a0000000-0000-4000-8000-000000000002", .refl true⟩, "own"⟩]
  objectives :=
    [{ objectiveId := ⟨"b0000000-0000-4000-8000-000000000001", .refl true⟩, name := "cost"
       weight := 1, direction := "MINIMIZE" }]
  objectiveValues :=
    [("b0000000-0000-4000-8000-000000000001",
        [("a0000000-0000-4000-8000-000000000001", "10000000000000000000000000001"),
          ("a0000000-0000-4000-8000-000000000002", "10000000000000000000000000001")])]
  strategyConfig :=
    { strategyName := "constraint_aware", strategyVersion := "1.0.0"
      parameters := [("allow_unevidenced", .bool true)] }
  round_pos := Nat.one_pos
  alternatives_ne_nil := by simp
  unique_alternatives := by decide
  unique_verdicts := by exact List.nodup_nil
  feasibility_matches_alternatives := by decide
  confidence_range := by simp
  weight_range := by decide +kernel

/-- Two alternatives, each the best in one objective. -/
theorem stageTwo_dominanceSound_iff_mixed : ∃ (p : ConstraintAwareParameters ℚ)
    (candidates : List (Candidate ℚ)), stageTwo mixedContext p = .ok candidates
      ∧ DominanceSound candidates (mixedContext.objectives.map (·.objectiveId)) p.epsilon := by
  obtain ⟨p, hp, hany⟩ := Except.exists_ok_of_any
    (p := fun p : ConstraintAwareParameters ℚ => 0 ≤ p.epsilon ∧ (stageTwo mixedContext p).isOk = true)
    (show (constraintAwareParameters mixedContext.strategyConfig.parameters).toOption.any _ = true by
      decide +kernel)
  obtain ⟨hepsilon, hok⟩ := of_decide_eq_true hany
  obtain ⟨candidates, h⟩ := Except.exists_ok_of_isOk hok
  refine ⟨p, candidates, h, (stageTwo_dominanceSound_iff hp h).2.mpr fun c _ => ?_⟩
  exact not_selfDominating_exact hepsilon

/-- The two alternatives dominate each other, and none is left. -/
theorem long_values_without_leader :
    ¬ ∀ (ctx : ConsensusContext ContextDecimal) (p : ConstraintAwareParameters ContextDecimal)
      (candidates : List (Candidate ContextDecimal)),
      constraintAwareParameters ctx.strategyConfig.parameters = .ok p → 0 ≤ p.epsilon →
        stageTwo ctx p = .ok candidates →
          DominanceSound candidates (ctx.objectives.map (·.objectiveId)) p.epsilon := by
  intro h
  obtain ⟨p, hp, hany⟩ := Except.exists_ok_of_any
    (p := fun p : ConstraintAwareParameters ContextDecimal => 0 ≤ p.epsilon
      ∧ (stageTwo longContext p).toOption.any (fun candidates => !candidates.isEmpty
        && (undominated candidates (longContext.objectives.map (·.objectiveId)) p.epsilon).isEmpty) = true)
    (show (constraintAwareParameters longContext.strategyConfig.parameters).toOption.any _ = true by
      decide +kernel)
  obtain ⟨hepsilon, hany⟩ := of_decide_eq_true hany
  obtain ⟨candidates, hcandidates, hnone⟩ := Except.exists_ok_of_any hany
  obtain ⟨hne, hempty⟩ := Bool.and_eq_true_iff.mp hnone
  have hsound := h longContext p candidates hp hepsilon hcandidates
  refine hsound.leader ?_ (List.isEmpty_iff.mp hempty)
  rintro rfl
  cases hne

end Sample

end Agora.Consensus
