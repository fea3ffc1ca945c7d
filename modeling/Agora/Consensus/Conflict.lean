import Agora.Consensus.Dominance
import Mathlib.Data.List.Induction

namespace Agora.Consensus

/-!
# Stage 4, the conflict test

Of the alternatives that are best in an objective, the test counts only the first one of the
frontier.  So one alternative that is best everywhere can still be in conflict with another one that
is best somewhere, if that one is listed first.  The test finds the conflicts of a frontier, and
finds them in every order of the alternatives, exactly when no alternative is best everywhere or the
same ones are (`conflictSound_iff`).
-/

variable {D : Type} [DecimalArith D]

/-! ### The best of a frontier -/

section Best

/-- Some member of the frontier has a value. -/
def Recorded (pareto : List (Candidate D)) (k : UUID) : Prop :=
  ∃ c ∈ pareto, ∃ v, c.values.lookup k = some v

/-- The candidate has a value, and no member of the frontier has a larger one. -/
def BestIn (pareto : List (Candidate D)) (k : UUID) (c : Candidate D) : Prop :=
  ∃ v, c.values.lookup k = some v ∧ ∀ b ∈ pareto, ∀ w, b.values.lookup k = some w → ¬ v < w

/-- The first candidate with the largest value. -/
def FirstBest (pareto : List (Candidate D)) (k : UUID) (c : Candidate D) (v : D) : Prop :=
  ∃ before after, pareto = before ++ c :: after ∧ c.values.lookup k = some v
    ∧ (∀ b ∈ before, ∀ w, b.values.lookup k = some w → w < v)
    ∧ ∀ b ∈ after, ∀ w, b.values.lookup k = some w → ¬ v < w

instance (pareto : List (Candidate D)) (k : UUID) : Decidable (Recorded pareto k) :=
  decidable_of_iff (∃ c ∈ pareto, (c.values.lookup k).isSome)
    (by simp [Recorded, Option.isSome_iff_exists])

instance (pareto : List (Candidate D)) (k : UUID) (c : Candidate D) :
    Decidable (BestIn pareto k c) :=
  inferInstanceAs
    (Decidable (∃ v ∈ c.values.lookup k, ∀ b ∈ pareto, ∀ w ∈ b.values.lookup k, ¬ v < w))

variable [OrderedDecimal D]
variable {pareto : List (Candidate D)} {k k' : UUID} {c c' : Candidate D} {v w : D}

theorem not_lt_of_lt {a b : D} (h : a < b) : ¬ b < a := by
  rw [OrderedDecimal.lt_iff_not_le] at h
  rw [OrderedDecimal.lt_iff_not_le, not_not]
  exact (OrderedDecimal.le_total a b).resolve_right h

theorem not_lt_self (a : D) : ¬ a < a := fun h => not_lt_of_lt h h

theorem lt_of_not_lt_of_lt {a b c : D} (hab : ¬ b < a) (hbc : b < c) : a < c := by
  rw [OrderedDecimal.lt_iff_not_le, not_not] at hab
  rw [OrderedDecimal.lt_iff_not_le] at hbc ⊢
  exact fun hca => hbc (OrderedDecimal.le_trans hca hab)

omit [OrderedDecimal D] in
theorem FirstBest.mem (h : FirstBest pareto k c v) : c ∈ pareto := by
  obtain ⟨before, after, rfl, -⟩ := h
  simp

theorem FirstBest.bestIn (h : FirstBest pareto k c v) : BestIn pareto k c := by
  obtain ⟨before, after, rfl, hc, hbefore, hafter⟩ := h
  refine ⟨v, hc, fun b hb w hw => ?_⟩
  rcases List.mem_append.mp hb with hb | hb
  · exact not_lt_of_lt (hbefore b hb w hw)
  · rcases List.mem_cons.mp hb with rfl | hb
    · obtain rfl := Option.some.inj (hc.symm.trans hw)
      exact not_lt_self v
    · exact hafter b hb w hw

omit [OrderedDecimal D] in
/-- A later candidate takes over with a larger value only. -/
theorem FirstBest.concat (h : FirstBest pareto k c v) (d : Candidate D) :
    (∀ w, d.values.lookup k = some w → ¬ v < w) → FirstBest (pareto ++ [d]) k c v := by
  intro hd
  obtain ⟨before, after, rfl, hc, hbefore, hafter⟩ := h
  refine ⟨before, after ++ [d], by simp, hc, hbefore, fun b hb => ?_⟩
  rcases List.mem_append.mp hb with hb | hb
  · exact hafter b hb
  · rw [List.mem_singleton.mp hb]
    exact hd

omit [OrderedDecimal D] in
theorem firstBest_concat (hd : c.values.lookup k = some w)
    (hlt : ∀ b ∈ pareto, ∀ v, b.values.lookup k = some v → v < w) :
    FirstBest (pareto ++ [c]) k c w :=
  ⟨pareto, [], rfl, hd, hlt, List.forall_mem_nil _⟩

/-- The loop of the conflict test. -/
def keepBest (k : UUID) (best : Option (UUID × D)) (c : Candidate D) : Option (UUID × D) :=
  match c.values.lookup k, best with
  | none, best => best
  | some v, none => some (c.id, v)
  | some v, some (b, bestVal) => if bestVal < v then some (c.id, v) else some (b, bestVal)

theorem foldl_keepBest (pareto : List (Candidate D)) (k : UUID) :
    (pareto.foldl (keepBest k) none = none ∧ ¬ Recorded pareto k)
      ∨ ∃ c v, pareto.foldl (keepBest k) none = some (c.id, v) ∧ FirstBest pareto k c v := by
  induction pareto using List.reverseRecOn with
  | nil => exact Or.inl ⟨rfl, fun ⟨c, hc, _⟩ => absurd hc List.not_mem_nil⟩
  | append_singleton pareto d ih =>
    rw [List.foldl_append, List.foldl_cons, List.foldl_nil]
    cases hd : d.values.lookup k with
    | none =>
      have hkeep (best : Option (UUID × D)) : keepBest k best d = best := by
        simp only [keepBest, hd]
      rw [hkeep]
      rcases ih with ⟨hnone, hrecorded⟩ | ⟨c, v, hsome, hfirst⟩
      · refine Or.inl ⟨hnone, ?_⟩
        rintro ⟨c, hc, v, hv⟩
        rcases List.mem_append.mp hc with hc | hc
        · exact hrecorded ⟨c, hc, v, hv⟩
        · rw [List.mem_singleton.mp hc, hd] at hv
          cases hv
      · refine Or.inr ⟨c, v, hsome, hfirst.concat d ?_⟩
        intro w hw
        rw [hd] at hw
        cases hw
    | some w =>
      right
      rcases ih with ⟨hnone, hrecorded⟩ | ⟨c, v, hsome, hfirst⟩
      · refine ⟨d, w, by simp only [keepBest, hd, hnone], firstBest_concat hd ?_⟩
        intro b hb v hv
        exact absurd ⟨b, hb, v, hv⟩ hrecorded
      · by_cases hlt : v < w
        · refine ⟨d, w, by simp only [keepBest, hd, hsome, if_pos hlt], firstBest_concat hd ?_⟩
          intro b hb u hu
          obtain ⟨v', hv', hbest⟩ := hfirst.bestIn
          obtain ⟨_, _, _, hv, _⟩ := hfirst
          obtain rfl := Option.some.inj (hv.symm.trans hv')
          exact lt_of_not_lt_of_lt (hbest b hb u hu) hlt
        · refine ⟨c, v, by simp only [keepBest, hd, hsome, if_neg hlt], hfirst.concat d ?_⟩
          intro u hu
          rw [← Option.some.inj (hd.symm.trans hu)]
          exact hlt

/-- What the test counts for an objective. -/
theorem bestAlternative_cases (pareto : List (Candidate D)) (k : UUID) :
    (bestAlternative pareto k = none ∧ ¬ Recorded pareto k)
      ∨ ∃ c v, bestAlternative pareto k = some c.id ∧ FirstBest pareto k c v := by
  have hfold : bestAlternative pareto k = (pareto.foldl (keepBest k) none).map (·.1) := rfl
  rw [hfold]
  rcases foldl_keepBest pareto k with ⟨hnone, hrecorded⟩ | ⟨c, v, hsome, hfirst⟩
  · exact Or.inl ⟨by rw [hnone]; rfl, hrecorded⟩
  · exact Or.inr ⟨c, v, by rw [hsome]; rfl, hfirst⟩

theorem exists_bestAlternative (h : Recorded pareto k) :
    ∃ c v, bestAlternative pareto k = some c.id ∧ FirstBest pareto k c v :=
  (bestAlternative_cases pareto k).resolve_left fun hnone => hnone.2 h

/-- The first member of the frontier is counted where it is best. -/
theorem bestAlternative_head {rest : List (Candidate D)} (h : BestIn (c :: rest) k c) :
    bestAlternative (c :: rest) k = some c.id := by
  obtain ⟨v, hv, hbest⟩ := h
  obtain ⟨c', v', hcounted, hfirst⟩ := exists_bestAlternative ⟨c, List.mem_cons_self, v, hv⟩
  have hmem := hfirst.mem
  obtain ⟨before, after, hsplit, hv', hbefore, -⟩ := hfirst
  cases before with
  | nil =>
    rw [hcounted, (List.cons.inj hsplit).1]
  | cons b before =>
    obtain ⟨rfl, -⟩ := List.cons.inj hsplit
    exact absurd (hbefore c List.mem_cons_self v hv) (hbest c' hmem v' hv')

/-- Where the same candidates are best, the same one is counted. -/
theorem bestAlternative_eq (h : Recorded pareto k) (h' : Recorded pareto k')
    (hsame : ∀ c ∈ pareto, BestIn pareto k c ↔ BestIn pareto k' c) :
    bestAlternative pareto k = bestAlternative pareto k' := by
  obtain ⟨c, v, hcounted, hfirst⟩ := exists_bestAlternative h
  obtain ⟨c', v', hcounted', hfirst'⟩ := exists_bestAlternative h'
  obtain ⟨w, hw, hbest⟩ := (hsame c' hfirst'.mem).mpr hfirst'.bestIn
  obtain ⟨w', hw', hbest'⟩ := (hsame c hfirst.mem).mp hfirst.bestIn
  have hmem := hfirst.mem
  have hmem' := hfirst'.mem
  obtain ⟨before, after, hsplit, hv, hbefore, -⟩ := hfirst
  obtain ⟨before', after', hsplit', hv', hbefore', -⟩ := hfirst'
  rw [hcounted, hcounted']
  rcases split_cases (hsplit.symm.trans hsplit') with ⟨-, rfl, -⟩ | ⟨hearlier, -⟩ | ⟨hearlier, -⟩
  · rfl
  · exact absurd (hbefore' c hearlier w' hw') (hbest' c' hmem' v' hv')
  · exact absurd (hbefore c' hearlier w hw) (hbest c hmem v hv)

omit [DecimalArith D] [OrderedDecimal D] in
theorem eq_of_id_eq (hids : (pareto.map (·.id)).Nodup) (hc : c ∈ pareto) (hc' : c' ∈ pareto)
    (h : c.id = c'.id) : c = c' :=
  List.inj_on_of_nodup_map hids hc hc' h

end Best

/-! ### The conflict test -/

section Test

variable {objectives : List (ObjectiveInput D)} {pareto pareto' : List (Candidate D)}

/-- Some objectives are declared to conflict. -/
def Declared (objectives : List (ObjectiveInput D)) : Prop := ∃ o ∈ objectives, o.conflictsWith ≠ []

/-- The candidate is best in every objective that has a value. -/
def BestEverywhere (objectives : List (ObjectiveInput D)) (pareto : List (Candidate D))
    (c : Candidate D) : Prop :=
  ∀ o ∈ objectives, Recorded pareto o.objectiveId → BestIn pareto o.objectiveId c

/-- The same candidates are best in all objectives that have a value. -/
def SameBest (objectives : List (ObjectiveInput D)) (pareto : List (Candidate D)) : Prop :=
  ∀ o ∈ objectives, ∀ o' ∈ objectives,
    Recorded pareto o.objectiveId → Recorded pareto o'.objectiveId → ∀ c ∈ pareto,
      BestIn pareto o.objectiveId c → BestIn pareto o'.objectiveId c

/-- Two different alternatives are counted. -/
def Disagree (objectives : List (ObjectiveInput D)) (pareto : List (Candidate D)) : Prop :=
  ∃ o ∈ objectives, ∃ o' ∈ objectives, ∃ x y, bestAlternative pareto o.objectiveId = some x
    ∧ bestAlternative pareto o'.objectiveId = some y ∧ x ≠ y

instance : Decidable (Declared objectives) := by
  unfold Declared
  infer_instance

instance (c : Candidate D) : Decidable (BestEverywhere objectives pareto c) := by
  unfold BestEverywhere
  infer_instance

instance : Decidable (SameBest objectives pareto) := by
  unfold SameBest
  infer_instance

theorem two_le_length_iff {α : Type} {l : List α} (h : l.Nodup) :
    2 ≤ l.length ↔ ∃ x ∈ l, ∃ y ∈ l, x ≠ y := by
  constructor
  · intro hlength
    obtain ⟨x, y, rest, rfl⟩ : ∃ x y rest, l = x :: y :: rest := by
      match l, hlength with
      | x :: y :: rest, _ => exact ⟨x, y, rest, rfl⟩
    refine ⟨x, by simp, y, by simp, ?_⟩
    rintro rfl
    simp at h
  · rintro ⟨x, hx, y, hy, hne⟩
    match l with
    | [] => cases hx
    | [z] => exact absurd ((List.mem_singleton.mp hx).trans (List.mem_singleton.mp hy).symm) hne
    | _ :: _ :: rest => simp

theorem conflictTest_iff : conflictTest objectives pareto = true
    ↔ Declared objectives ∧ 1 < pareto.length ∧ Disagree objectives pareto := by
  have hcount : 2 ≤ (argmaxes objectives pareto).length ↔ Disagree objectives pareto := by
    rw [argmaxes, two_le_length_iff (List.nodup_dedup _)]
    simp only [List.mem_dedup, List.mem_filterMap]
    constructor
    · rintro ⟨x, ⟨o, ho, hx⟩, y, ⟨o', ho', hy⟩, hne⟩
      exact ⟨o, ho, o', ho', x, y, hx, hy, hne⟩
    · rintro ⟨o, ho, o', ho', x, y, hx, hy, hne⟩
      exact ⟨x, ⟨o, ho, hx⟩, y, ⟨o', ho', hy⟩, hne⟩
  simp only [conflictTest, Bool.and_eq_true, decide_eq_true_eq, hcount, List.any_eq_true, Declared,
    Bool.not_eq_true', List.isEmpty_eq_false_iff]
  tauto

variable [OrderedDecimal D]

/-- No candidate is best everywhere, so two are counted. -/
theorem disagree_of_not_bestEverywhere (hids : (pareto.map (·.id)).Nodup) (hne : pareto ≠ [])
    (h : ∀ c ∈ pareto, ¬ BestEverywhere objectives pareto c) : Disagree objectives pareto := by
  have hother : ∀ c ∈ pareto, ∃ o ∈ objectives, Recorded pareto o.objectiveId
      ∧ ¬ BestIn pareto o.objectiveId c := by
    intro c hc
    have hc' := h c hc
    unfold BestEverywhere at hc'
    push Not at hc'
    exact hc'
  obtain ⟨c, hc⟩ := List.exists_mem_of_ne_nil _ hne
  obtain ⟨o, ho, hrecorded, -⟩ := hother c hc
  obtain ⟨c₁, v₁, hcounted, hfirst⟩ := exists_bestAlternative hrecorded
  obtain ⟨o', ho', hrecorded', hnot⟩ := hother c₁ hfirst.mem
  obtain ⟨c₂, v₂, hcounted', hfirst'⟩ := exists_bestAlternative hrecorded'
  refine ⟨o, ho, o', ho', c₁.id, c₂.id, hcounted, hcounted', fun hid => hnot ?_⟩
  rw [eq_of_id_eq hids hfirst.mem hfirst'.mem hid]
  exact hfirst'.bestIn

theorem not_disagree_of_sameBest (h : SameBest objectives pareto) :
    ¬ Disagree objectives pareto := by
  rintro ⟨o, ho, o', ho', x, y, hx, hy, hne⟩
  have hrecorded {k z : UUID} (hz : bestAlternative pareto k = some z) : Recorded pareto k := by
    rcases bestAlternative_cases pareto k with ⟨hnone, -⟩ | ⟨c, v, -, hfirst⟩
    · rw [hnone] at hz
      cases hz
    · obtain ⟨w, hw, -⟩ := hfirst.bestIn
      exact ⟨c, hfirst.mem, w, hw⟩
  have heq := bestAlternative_eq (hrecorded hx) (hrecorded hy) fun c hc =>
    ⟨h o ho o' ho' (hrecorded hx) (hrecorded hy) c hc,
      h o' ho' o ho (hrecorded hy) (hrecorded hx) c hc⟩
  rw [hx, hy] at heq
  exact hne (Option.some.inj heq)

/-- Listed first, a candidate that is best everywhere is the only one counted. -/
theorem not_disagree_of_head {c : Candidate D} {rest : List (Candidate D)}
    (h : BestEverywhere objectives (c :: rest) c) : ¬ Disagree objectives (c :: rest) := by
  have hcounted : ∀ o ∈ objectives, ∀ x,
      bestAlternative (c :: rest) o.objectiveId = some x → x = c.id := by
    intro o ho x hx
    rcases bestAlternative_cases (c :: rest) o.objectiveId with ⟨hnone, -⟩ | ⟨c', v, -, hfirst⟩
    · rw [hnone] at hx
      cases hx
    · obtain ⟨w, hw, -⟩ := hfirst.bestIn
      rw [bestAlternative_head (h o ho ⟨c', hfirst.mem, w, hw⟩)] at hx
      exact (Option.some.inj hx).symm
  rintro ⟨o, ho, o', ho', x, y, hx, hy, hne⟩
  exact hne ((hcounted o ho x hx).trans (hcounted o' ho' y hy).symm)

/-- Listed first, a candidate that is best in one objective but not in another one is not the only
    one counted. -/
theorem disagree_of_head {c : Candidate D} {rest : List (Candidate D)}
    (hids : ((c :: rest).map (·.id)).Nodup) {o o' : ObjectiveInput D} (ho : o ∈ objectives)
    (ho' : o' ∈ objectives) (hbest : BestIn (c :: rest) o.objectiveId c)
    (hrecorded : Recorded (c :: rest) o'.objectiveId)
    (hnot : ¬ BestIn (c :: rest) o'.objectiveId c) :
    Disagree objectives (c :: rest) := by
  obtain ⟨c', v, hcounted, hfirst⟩ := exists_bestAlternative hrecorded
  refine ⟨o, ho, o', ho', c.id, c'.id, bestAlternative_head hbest, hcounted, fun hid => hnot ?_⟩
  have hbest' := hfirst.bestIn
  rw [← eq_of_id_eq hids List.mem_cons_self hfirst.mem hid] at hbest'
  exact hbest'

end Test

/-! ### Other orders -/

section Order

variable {ctx : ConsensusContext D} {pareto pareto' : List (Candidate D)}

/-- The context with its alternatives in another order. -/
def ConsensusContext.reorder (ctx : ConsensusContext D) (l : List AlternativeInput)
    (h : l.Perm ctx.alternatives) : ConsensusContext D :=
  { ctx with
    alternatives := l
    alternatives_ne_nil := by
      rintro rfl
      exact ctx.alternatives_ne_nil (List.nil_perm.mp h)
    unique_alternatives := (h.map _).nodup_iff.mpr ctx.unique_alternatives
    feasibility_matches_alternatives := by
      intro v hv
      exact (h.map _).mem_iff.mpr (ctx.feasibility_matches_alternatives v hv) }

theorem undominated_perm {candidates candidates' : List (Candidate D)}
    (h : candidates'.Perm candidates) (ks : List UUID) (epsilon : D) :
    (undominated candidates' ks epsilon).Perm (undominated candidates ks epsilon) := by
  unfold undominated
  simp only [h.any_eq]
  exact h.filter _

/-- The frontier of the reordered context. -/
theorem frontier_reorder {l : List AlternativeInput} (h : l.Perm ctx.alternatives)
    (hpareto : constraintAwareFrontier ctx = .ok pareto) :
    ∃ pareto', constraintAwareFrontier (ctx.reorder l h) = .ok pareto' ∧ pareto'.Perm pareto := by
  obtain ⟨p, hp, hpareto⟩ := Except.bind_eq_ok.mp hpareto
  obtain ⟨supports, hsupports, hpareto⟩ := Except.bind_eq_ok.mp hpareto
  obtain ⟨candidates, hcandidates, hpareto⟩ := Except.bind_eq_ok.mp hpareto
  obtain rfl := Except.ok.inj hpareto
  have hrankable : (ctx.reorder l h).gate.rankable.Perm ctx.gate.rankable := h.filter _
  obtain ⟨supports', hsupports', hperm⟩ := Except.mapM_perm hrankable hsupports
  have hfloor : (evidenceFloor p supports').Perm (evidenceFloor p supports) := by
    unfold evidenceFloor
    split
    · exact hperm
    · exact hperm.filter _
  obtain ⟨candidates', hcandidates', hperm'⟩ := Except.mapM_perm hfloor hcandidates
  refine ⟨undominated candidates' (ctx.objectives.map (·.objectiveId)) p.epsilon, ?_,
    undominated_perm hperm' _ _⟩
  show (constraintAwareParameters ctx.strategyConfig.parameters >>= _) = _
  rw [hp, Except.ok_bind]
  show ((ctx.reorder l h).gate.rankable.mapM (alternativeSupport ctx p.toEvidenceParameters)
    >>= _) = _
  rw [hsupports', Except.ok_bind]
  show frontier ctx p supports' = _
  rw [frontier, hcandidates']
  rfl

/-- The frontier lists its alternatives in the order of the context. -/
theorem frontier_sublist (h : constraintAwareFrontier ctx = .ok pareto) :
    (pareto.map (·.alternative)).Sublist ctx.alternatives := by
  obtain ⟨p, hp, h⟩ := Except.bind_eq_ok.mp h
  obtain ⟨supports, hsupports, h⟩ := Except.bind_eq_ok.mp h
  obtain ⟨candidates, hcandidates, h⟩ := Except.bind_eq_ok.mp h
  obtain rfl := Except.ok.inj h
  have hsupport : supports.map (·.alternative) = ctx.gate.rankable := by
    have hmap := Except.map_eq_of_mapM (g := AlternativeSupport.alternative) (k := id)
      (fun alt s hs => (alternativeSupport_spec hs).1) hsupports
    rw [hmap, List.map_id]
  have hcandidate :
      candidates.map (·.alternative) = (evidenceFloor p supports).map (·.alternative) :=
    Except.map_eq_of_mapM (fun s c hc => by
      obtain ⟨values, -, hc⟩ := Except.bind_eq_ok.mp hc
      rw [← Except.ok.inj hc]) hcandidates
  have hfloor : (evidenceFloor p supports).Sublist supports := by
    unfold evidenceFloor
    split
    · exact List.Sublist.refl _
    · exact List.filter_sublist
  have hundominated : ((undominated candidates (ctx.objectives.map (·.objectiveId)) p.epsilon).map
      (·.alternative)).Sublist (candidates.map (·.alternative)) := List.filter_sublist.map _
  rw [hcandidate] at hundominated
  have hrankable : ctx.gate.rankable.Sublist ctx.alternatives := List.filter_sublist
  exact hundominated.trans ((hfloor.map _).trans (hsupport ▸ hrankable))

theorem nodup_frontier (h : constraintAwareFrontier ctx = .ok pareto) :
    (pareto.map (·.id)).Nodup := by
  have hids := ctx.unique_alternatives.sublist ((frontier_sublist h).map (·.alternativeId))
  rwa [List.map_map] at hids

/-- A member of the frontier whose alternative is listed first is the first of the frontier. -/
theorem exists_frontier_cons {c : Candidate D} {l : List AlternativeInput}
    (h : constraintAwareFrontier ctx = .ok pareto) (hc : c ∈ pareto)
    (hfirst : ctx.alternatives = c.alternative :: l) : ∃ rest, pareto = c :: rest := by
  have hsublist := frontier_sublist h
  have hids := ctx.unique_alternatives
  rw [hfirst] at hsublist hids
  rw [List.map_cons, List.nodup_cons] at hids
  cases pareto with
  | nil => cases hc
  | cons d rest =>
    rcases List.mem_cons.mp hc with rfl | hrest
    · exact ⟨rest, rfl⟩
    · -- Otherwise the alternative would be listed twice.
      have htwice : c.alternative ∈ l := by
        rw [List.map_cons] at hsublist
        exact hsublist.of_cons_cons.subset (List.mem_map_of_mem hrest)
      exact absurd (List.mem_map_of_mem htwice) hids.1

end Order

/-! ### The returned frontier -/

section Returned

variable {ctx : ConsensusContext D} {env env' : EvaluationEnv D} {pareto : List (Candidate D)}

/-- The recorded value of an alternative in an objective. -/
def ConsensusContext.ValueOf (ctx : ConsensusContext D) (k a : UUID) (v : D) : Prop :=
  ∃ raw, rawObjectiveValue ctx.objectiveValues k a = some raw ∧ decimalOf raw = .ok v

/-- The alternative attains the maximum of every objective over the alternatives. -/
def ConsensusContext.AttainsAll (ctx : ConsensusContext D) (ids : List UUID) (a : UUID) : Prop :=
  ∀ o ∈ ctx.objectives, ∀ b ∈ ids, ∀ w, ctx.ValueOf o.objectiveId b w →
    ∃ v, ctx.ValueOf o.objectiveId a v ∧ ¬ v < w

/-- `constraint_aware` returns PARETO_SET. -/
def ConsensusContext.ReturnsFrontier (ctx : ConsensusContext D) (env : EvaluationEnv D) : Prop :=
  ∃ result, Strategy.constraintAware.evaluate ctx env = .ok result ∧ result.outcome = .paretoSet

theorem objectiveValueLookup_iff {objectives : List (ObjectiveInput D)} {a : UUID}
    {values : ObjectiveValues} {found : List (UUID × D)}
    (h : objectiveValueLookup a objectives values = .ok found) {o : ObjectiveInput D}
    (ho : o ∈ objectives) (v : D) :
    found.lookup o.objectiveId = some v
      ↔ ∃ raw, rawObjectiveValue values o.objectiveId a = some raw ∧ decimalOf raw = .ok v := by
  have hvalue {w : D} (hw : found.lookup o.objectiveId = some w) :
      ∃ raw, rawObjectiveValue values o.objectiveId a = some raw ∧ decimalOf raw = .ok w := by
    obtain ⟨before, after, rfl, -⟩ := List.lookup_eq_some_iff.mp hw
    exact objectiveValueLookup_mem h (by simp)
  refine ⟨hvalue, ?_⟩
  rintro ⟨raw, hraw, hv⟩
  have hpresent : (found.lookup o.objectiveId).isSome = true := by
    obtain ⟨terms, hterms, h⟩ := Except.bind_eq_ok.mp h
    obtain rfl := Except.ok.inj h
    obtain ⟨term, hobj, hterm⟩ := Except.exists_mem_of_mapM hterms ho
    simp only [hraw, hv, Except.ok_bind] at hobj
    obtain rfl := Except.ok.inj hobj
    rw [List.lookup_isSome_iff]
    exact ⟨(o.objectiveId, v), List.mem_filterMap.mpr ⟨_, hterm, rfl⟩, by simp⟩
  obtain ⟨w, hw⟩ := Option.isSome_iff_exists.mp hpresent
  obtain ⟨raw', hraw', hw'⟩ := hvalue hw
  obtain rfl := Option.some.inj (hraw.symm.trans hraw')
  rw [hw, Except.ok.inj (hv.symm.trans hw')]

/-- The members of the frontier carry their recorded values. -/
theorem frontier_values (h : constraintAwareFrontier ctx = .ok pareto) {c : Candidate D}
    (hc : c ∈ pareto) {o : ObjectiveInput D} (ho : o ∈ ctx.objectives) (v : D) :
    c.values.lookup o.objectiveId = some v ↔ ctx.ValueOf o.objectiveId c.id v := by
  obtain ⟨p, hp, h⟩ := Except.bind_eq_ok.mp h
  obtain ⟨supports, hsupports, h⟩ := Except.bind_eq_ok.mp h
  obtain ⟨candidates, hcandidates, h⟩ := Except.bind_eq_ok.mp h
  obtain rfl := Except.ok.inj h
  obtain ⟨s, hs, hvalues⟩ := Except.exists_of_mem_mapM hcandidates (List.mem_filter.mp hc).1
  obtain ⟨values, hlookup, hvalues⟩ := Except.bind_eq_ok.mp hvalues
  obtain rfl := Except.ok.inj hvalues
  exact objectiveValueLookup_iff hlookup ho v

theorem attainsAll_iff (h : constraintAwareFrontier ctx = .ok pareto) {c : Candidate D}
    (hc : c ∈ pareto) :
    ctx.AttainsAll (pareto.map (·.id)) c.id ↔ BestEverywhere ctx.objectives pareto c := by
  constructor
  · intro hattains o ho hrecorded
    obtain ⟨b, hb, w, hw⟩ := hrecorded
    obtain ⟨v, hv, -⟩ := hattains o ho b.id (List.mem_map_of_mem hb) w
      ((frontier_values h hb ho w).mp hw)
    refine ⟨v, (frontier_values h hc ho v).mpr hv, fun b' hb' w' hw' => ?_⟩
    obtain ⟨v', hv', hbest⟩ := hattains o ho b'.id (List.mem_map_of_mem hb') w'
      ((frontier_values h hb' ho w').mp hw')
    rw [← frontier_values h hc ho] at hv hv'
    rwa [Option.some.inj (hv.symm.trans hv')]
  · intro hbest o ho id hid w hw
    obtain ⟨b, hb, rfl⟩ := List.mem_map.mp hid
    rw [← frontier_values h hb ho] at hw
    obtain ⟨v, hv, hmax⟩ := hbest o ho ⟨b, hb, w, hw⟩
    exact ⟨v, (frontier_values h hc ho v).mp hv, hmax b hb w hw⟩

/-- PARETO_SET comes from the conflict test, with the members of the frontier. -/
theorem paretoSet_of_evaluate {result : ConsensusResult D}
    (h : Strategy.constraintAware.evaluate ctx env = .ok result)
    (houtcome : result.outcome = .paretoSet) :
    ∃ pareto, constraintAwareFrontier ctx = .ok pareto ∧ conflictTest ctx.objectives pareto = true
      ∧ result.paretoSet = pareto.map (·.id) := by
  rcases evaluate_cases h with hst | ⟨r, hst, rfl⟩
  · generalize hend : Staged.stopped result = st at hst
    cases stages_cases hst with
    | infeasible _ derivation hgate =>
      cases hend
      cases houtcome
    | evidenceFloor derivation contributions hgate hfrontier =>
      cases hend
      cases houtcome
    | conflict pareto derivation contributions hgate hfrontier hconflict hscored =>
      cases hend
      exact ⟨pareto, hfrontier, hconflict, rfl⟩
    | ranked _ r hgate hsound hfrontier => cases hend
  · rw [finish_outcome] at houtcome
    have hmem := classifyOutcome_mem ctx r
    rw [houtcome] at hmem
    simp at hmem

theorem returnsFrontier_iff : ctx.ReturnsFrontier env
    ↔ ∃ pareto, constraintAwareFrontier ctx = .ok pareto
      ∧ conflictTest ctx.objectives pareto = true := by
  constructor
  · rintro ⟨result, h, houtcome⟩
    obtain ⟨pareto, hpareto, hconflict, -⟩ := paretoSet_of_evaluate h houtcome
    exact ⟨pareto, hpareto, hconflict⟩
  · rintro ⟨pareto, hpareto, hconflict⟩
    have hne : pareto ≠ [] := by
      rintro rfl
      exact absurd (conflictTest_iff.mp hconflict).2.1 (by simp)
    obtain ⟨p, hp, hpareto⟩ := Except.bind_eq_ok.mp hpareto
    obtain ⟨supports, hsupports, hpareto⟩ := Except.bind_eq_ok.mp hpareto
    have hfloor : ¬ (evidenceFloor p supports).isEmpty = true := by
      intro hempty
      rw [frontier, List.isEmpty_iff.mp hempty] at hpareto
      exact hne (Except.ok.inj hpareto).symm
    have hgate : ¬ ctx.gate.allInfeasible = true := by
      intro hall
      rw [List.isEmpty_iff.mp hall] at hsupports
      obtain rfl := Except.ok.inj hsupports
      exact hfloor (by unfold evidenceFloor; split <;> rfl)
    unfold ConsensusContext.ReturnsFrontier Strategy.evaluate
    simp only [Strategy.stages, constraintAwareStages, hp, Except.ok_bind, feasibilityGate_eq,
      if_neg hgate, hsupports, if_neg hfloor, hpareto, if_pos hconflict, Except.pure_eq_ok]
    exact ⟨_, rfl, paretoResult_outcome _ _ _ _ _⟩

end Returned

/-! ### Genuine conflicts -/

section Genuine

variable {objectives : List (ObjectiveInput D)} {pareto pareto' : List (Candidate D)}

/-- Nothing is declared to conflict or there is nothing to compare, or else no candidate is best
    everywhere or the same ones are. -/
def ClearConflict (objectives : List (ObjectiveInput D)) (pareto : List (Candidate D)) : Prop :=
  ¬ Declared objectives ∨ pareto.length ≤ 1 ∨ (∀ c ∈ pareto, ¬ BestEverywhere objectives pareto c)
    ∨ SameBest objectives pareto

instance : Decidable (ClearConflict objectives pareto) := by
  unfold ClearConflict
  infer_instance

def ConsensusContext.ClearConflict (ctx : ConsensusContext D) : Prop :=
  ∀ pareto, constraintAwareFrontier ctx = .ok pareto → Consensus.ClearConflict ctx.objectives pareto

/-- A returned frontier is a conflict, and the order of the alternatives does not matter. -/
structure ConflictSound (ctx : ConsensusContext D) : Prop where
  genuine : ∀ env result, Strategy.constraintAware.evaluate ctx env = .ok result →
    result.outcome = .paretoSet → ∀ a ∈ result.paretoSet, ¬ ctx.AttainsAll result.paretoSet a
  stable : ∀ env env' l (h : l.Perm ctx.alternatives),
    ctx.ReturnsFrontier env ↔ (ctx.reorder l h).ReturnsFrontier env'

omit [DecimalArith D] in
theorem recorded_perm (h : pareto'.Perm pareto) (k : UUID) :
    Recorded pareto' k ↔ Recorded pareto k := by
  simp only [Recorded, h.mem_iff]

theorem bestIn_perm (h : pareto'.Perm pareto) (k : UUID) (c : Candidate D) :
    BestIn pareto' k c ↔ BestIn pareto k c := by
  simp only [BestIn, h.mem_iff]

theorem bestEverywhere_perm (h : pareto'.Perm pareto) (c : Candidate D) :
    BestEverywhere objectives pareto' c ↔ BestEverywhere objectives pareto c := by
  simp only [BestEverywhere, recorded_perm h, bestIn_perm h]

theorem clearConflict_perm (h : pareto'.Perm pareto) :
    ClearConflict objectives pareto' ↔ ClearConflict objectives pareto := by
  simp only [ClearConflict, SameBest, h.length_eq, h.mem_iff, bestEverywhere_perm h,
    recorded_perm h, bestIn_perm h]

variable [OrderedDecimal D]

/-- On a clear frontier, the test does not depend on the order. -/
theorem conflictTest_iff_of_clear (hids : (pareto.map (·.id)).Nodup)
    (h : ClearConflict objectives pareto) : conflictTest objectives pareto = true
      ↔ Declared objectives ∧ 1 < pareto.length
        ∧ ∀ c ∈ pareto, ¬ BestEverywhere objectives pareto c := by
  rw [conflictTest_iff]
  constructor
  · rintro ⟨hdeclared, hlength, hdisagree⟩
    refine ⟨hdeclared, hlength, ?_⟩
    rcases h with h | h | h | h
    · exact absurd hdeclared h
    · omega
    · exact h
    · exact absurd hdisagree (not_disagree_of_sameBest h)
  · rintro ⟨hdeclared, hlength, hnone⟩
    refine ⟨hdeclared, hlength, disagree_of_not_bestEverywhere hids ?_ hnone⟩
    rintro rfl
    simp at hlength

variable {ctx : ConsensusContext D}

omit [OrderedDecimal D] in
/-- Each member of the frontier is its first one in some order of the alternatives. -/
theorem exists_reorder_first (hpareto : constraintAwareFrontier ctx = .ok pareto) {c : Candidate D}
    (hc : c ∈ pareto) : ∃ l, ∃ h : l.Perm ctx.alternatives, ∃ rest,
      constraintAwareFrontier (ctx.reorder l h) = .ok (c :: rest) ∧ (c :: rest).Perm pareto := by
  obtain ⟨before, after, hsplit⟩ :=
    List.append_of_mem ((frontier_sublist hpareto).subset (List.mem_map_of_mem hc))
  have hperm : (c.alternative :: (before ++ after)).Perm ctx.alternatives := by
    rw [hsplit]
    exact List.perm_middle.symm
  obtain ⟨pareto', hpareto', hsame⟩ := frontier_reorder hperm hpareto
  obtain ⟨rest, rfl⟩ := exists_frontier_cons hpareto' (hsame.mem_iff.mpr hc) rfl
  exact ⟨_, hperm, rest, hpareto', hsame⟩

theorem clearConflict_of_stable (env : EvaluationEnv D)
    (hstable : ∀ l (h : l.Perm ctx.alternatives),
      ctx.ReturnsFrontier env ↔ (ctx.reorder l h).ReturnsFrontier env) : ctx.ClearConflict := by
  intro pareto hpareto
  by_contra hunclear
  unfold Consensus.ClearConflict at hunclear
  push Not at hunclear
  obtain ⟨hdeclared, hlength, ⟨c, hc, hbest⟩, hdiffer⟩ := hunclear
  unfold SameBest at hdiffer
  push Not at hdiffer
  obtain ⟨o, ho, o', ho', hrecorded, hrecorded', d, hd, hdbest, hdnot⟩ := hdiffer
  -- With the candidate that is best everywhere in front there is no conflict ...
  have hnone : ¬ ctx.ReturnsFrontier env := by
    obtain ⟨l, h, rest, hfirst, hperm⟩ := exists_reorder_first hpareto hc
    rw [hstable l h, returnsFrontier_iff]
    rintro ⟨pareto', hpareto', hconflict⟩
    obtain rfl := Except.ok.inj (hfirst.symm.trans hpareto')
    exact not_disagree_of_head ((bestEverywhere_perm hperm c).mpr hbest)
      (conflictTest_iff.mp hconflict).2.2
  -- ... and with one that is not the best of some objective there is one.
  obtain ⟨l, h, rest, hfirst, hperm⟩ := exists_reorder_first hpareto hd
  apply hnone
  rw [hstable l h, returnsFrontier_iff]
  refine ⟨d :: rest, hfirst, conflictTest_iff.mpr ⟨hdeclared, hperm.length_eq ▸ hlength, ?_⟩⟩
  apply disagree_of_head (nodup_frontier hfirst) ho ho' ((bestIn_perm hperm _ _).mpr hdbest)
    ((recorded_perm hperm _).mpr hrecorded')
  intro hbest'
  exact hdnot ((bestIn_perm hperm _ _).mp hbest')

theorem returnsFrontier_reorder (hclear : ctx.ClearConflict) {env env' : EvaluationEnv D}
    {l : List AlternativeInput} (h : l.Perm ctx.alternatives) (hreturns : ctx.ReturnsFrontier env) :
    (ctx.reorder l h).ReturnsFrontier env' := by
  obtain ⟨pareto, hpareto, hconflict⟩ := returnsFrontier_iff.mp hreturns
  obtain ⟨pareto', hpareto', hperm⟩ := frontier_reorder h hpareto
  have hclear' := hclear pareto hpareto
  rw [returnsFrontier_iff]
  refine ⟨pareto', hpareto', ?_⟩
  rw [conflictTest_iff_of_clear (nodup_frontier hpareto) hclear'] at hconflict
  show conflictTest ctx.objectives pareto' = true
  rw [conflictTest_iff_of_clear (nodup_frontier hpareto') ((clearConflict_perm hperm).mpr hclear')]
  simp only [hperm.length_eq, hperm.mem_iff, bestEverywhere_perm hperm]
  exact hconflict

omit [OrderedDecimal D] in
/-- Putting the alternatives back in their order gives the context back. -/
theorem reorder_reorder {l : List AlternativeInput} (h : l.Perm ctx.alternatives) :
    (ctx.reorder l h).reorder ctx.alternatives h.symm = ctx := rfl

omit [OrderedDecimal D] in
theorem clearConflict_reorder (hclear : ctx.ClearConflict) {l : List AlternativeInput}
    (h : l.Perm ctx.alternatives) : (ctx.reorder l h).ClearConflict := by
  intro pareto' hpareto'
  obtain ⟨pareto, hpareto, hperm⟩ := frontier_reorder
    (show ctx.alternatives.Perm (ctx.reorder l h).alternatives from h.symm) hpareto'
  rw [reorder_reorder h] at hpareto
  exact (clearConflict_perm hperm).mp (hclear pareto hpareto)

/-- **Conflicts.**  The conflict test is sound on a context exactly when its conflicts are clear. -/
theorem conflictSound_iff : ConflictSound ctx ↔ ctx.ClearConflict := by
  constructor
  · intro hsound
    exact clearConflict_of_stable ⟨ctx.sessionId, fun _ => ""⟩ fun l h => hsound.stable _ _ l h
  · intro hclear
    refine ⟨?_, fun env env' l h => ⟨returnsFrontier_reorder hclear h, fun hreturns => ?_⟩⟩
    · intro env result h houtcome a ha hattains
      obtain ⟨pareto, hpareto, hconflict, hset⟩ := paretoSet_of_evaluate h houtcome
      rw [hset] at ha hattains
      obtain ⟨c, hc, rfl⟩ := List.mem_map.mp ha
      rw [conflictTest_iff_of_clear (nodup_frontier hpareto) (hclear pareto hpareto)] at hconflict
      exact hconflict.2.2 c hc ((attainsAll_iff hpareto hc).mp hattains)
    · -- The context is an order of the reordered one.
      rw [← reorder_reorder h]
      exact returnsFrontier_reorder (clearConflict_reorder hclear h) h.symm hreturns

end Genuine

section Sample

/-- Two alternatives that are equal in one objective and almost equal in the other one. -/
def tiedContext : ConsensusContext ℚ :=
  { mixedContext with
    alternatives :=
      [⟨⟨"a0000000-0000-4000-8000-000000000001", .refl true⟩, "lease"⟩,
        ⟨⟨"a0000000-0000-4000-8000-000000000002", .refl true⟩, "build"⟩]
    objectiveValues :=
      [("b0000000-0000-4000-8000-000000000001",
          [("a0000000-0000-4000-8000-000000000001", "1"),
            ("a0000000-0000-4000-8000-000000000002", "1")]),
        ("b0000000-0000-4000-8000-000000000002",
          [("a0000000-0000-4000-8000-000000000001", "1"),
            ("a0000000-0000-4000-8000-000000000002", "1.005")])]
    feasibility := []
    alternatives_ne_nil := by simp
    unique_alternatives := by decide
    unique_verdicts := List.nodup_nil
    feasibility_matches_alternatives := by simp }

/-- Each of the two alternatives of the sample is the best in one objective. -/
theorem conflictSound_iff_mixed :
    ConflictSound mixedContext ∧ mixedContext.ReturnsFrontier sampleEnv := by
  obtain ⟨pareto, hpareto, hany⟩ := Except.exists_ok_of_any
    (p := fun pareto => ClearConflict mixedContext.objectives pareto
      ∧ conflictTest mixedContext.objectives pareto = true)
    (show (constraintAwareFrontier mixedContext).toOption.any _ = true by decide +kernel)
  obtain ⟨hclear, hconflict⟩ := of_decide_eq_true hany
  refine ⟨conflictSound_iff.mpr fun pareto' hpareto' => ?_,
    returnsFrontier_iff.mpr ⟨pareto, hpareto, hconflict⟩⟩
  rw [← Except.ok.inj (hpareto.symm.trans hpareto')]
  exact hclear

/-- Only the order decides whether the two are in conflict. -/
theorem conflict_of_equals : ¬ ∀ ctx : ConsensusContext ℚ, ConflictSound ctx := by
  intro h
  obtain ⟨pareto, hpareto, hconflict⟩ := Except.exists_ok_of_any
    (p := conflictTest tiedContext.objectives)
    (show (constraintAwareFrontier tiedContext).toOption.any _ = true by decide +kernel)
  obtain ⟨pareto', hpareto', hnone⟩ := Except.exists_ok_of_any
    (p := fun pareto => !conflictTest tiedContext.objectives pareto)
    (show (constraintAwareFrontier
      (tiedContext.reorder _ (List.reverse_perm tiedContext.alternatives))).toOption.any _ = true by
        decide +kernel)
  -- The frontier is returned in the one order, so it is in the other one.
  have hreturns := ((h tiedContext).stable sampleEnv sampleEnv _ (List.reverse_perm _)).mp
    (returnsFrontier_iff.mpr ⟨pareto, hpareto, hconflict⟩)
  obtain ⟨pareto'', hpareto'', hconflict'⟩ := returnsFrontier_iff.mp hreturns
  obtain rfl := Except.ok.inj (hpareto'.symm.trans hpareto'')
  have hsame : conflictTest tiedContext.objectives pareto' = true := hconflict'
  rw [hsame] at hnone
  cases hnone

end Sample

end Agora.Consensus
