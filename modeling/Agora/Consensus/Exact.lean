import Agora.Consensus.Support
import Mathlib.Algebra.BigOperators.Group.List.Basic
import Mathlib.Algebra.Order.BigOperators.Group.List
import Mathlib.Algebra.Order.Field.Basic
import Mathlib.Algebra.Order.Group.Unbundled.Abs

namespace Agora.Consensus

/-!
# Exact arithmetic

On `ℚ` the built-in functions of the program are those of an ordered field, and the support of an
alternative is the mean of the scores of its positions.
-/

theorem pySum_eq_sum (l : List ℚ) : pySum l = l.sum := by
  rw [pySum, List.sum_eq_foldl]

theorem pyMin_eq_min (a b : ℚ) : pyMin a b = min a b := by
  unfold pyMin
  by_cases h : b < a
  · rw [if_pos h, min_eq_right h.le]
  · rw [if_neg h, min_eq_left (not_lt.mp h)]

theorem pyMax_eq_max (a b : ℚ) : pyMax a b = max a b := by
  unfold pyMax
  by_cases h : a < b
  · rw [if_pos h, max_eq_right h.le]
  · rw [if_neg h, max_eq_left (not_lt.mp h)]

theorem clamp_eq (value low high : ℚ) : clamp value low high = max low (min high value) := by
  rw [clamp, pyMax_eq_max, pyMin_eq_min]

/-- A value in the range is not changed. -/
theorem clamp_eq_self {value low high : ℚ} (hlow : low ≤ value) (hhigh : value ≤ high) :
    clamp value low high = value := by
  rw [clamp_eq, min_eq_right hhigh, max_eq_right hlow]

/-! ### Means -/

section Mean

/-- The mean of some values, 0 if there are none. -/
def mean (values : List ℚ) : ℚ :=
  if values.isEmpty then 0 else pySum values / ofRat values.length

theorem computeSupport_fst (a : UUID) (positions : List (AgentPosition ℚ)) (useConfidence : Bool)
    (policy : AbstainPolicy) (weights : Option (List (String × ℚ))) :
    (computeSupport a positions useConfidence policy weights).1
      = mean ((relevantPositions a positions policy).map fun q =>
        positionScore q.stance q.confidence useConfidence weights) := by
  unfold computeSupport mean
  simp only [List.isEmpty_map, List.length_map]
  split <;> rfl

theorem mean_mono {values values' : List ℚ} (h : List.Forall₂ (· ≤ ·) values values') :
    mean values ≤ mean values' := by
  unfold mean
  cases h with
  | nil => exact le_rfl
  | cons hab hrest =>
    have hsum := (List.Forall₂.cons hab hrest).sum_le_sum
    have hlength := hrest.length_eq
    show pySum _ / ((List.length (_ :: _) : ℕ) : ℚ) ≤ pySum _ / ((List.length (_ :: _) : ℕ) : ℚ)
    rw [pySum_eq_sum, pySum_eq_sum, List.length_cons, List.length_cons, hlength]
    exact div_le_div_of_nonneg_right hsum (Nat.cast_nonneg _)

theorem mean_nonneg {values : List ℚ} (h : ∀ v ∈ values, 0 ≤ v) : 0 ≤ mean values := by
  unfold mean
  split
  · exact le_rfl
  · rw [pySum_eq_sum]
    exact div_nonneg (List.sum_nonneg h) (Nat.cast_nonneg _)

theorem mean_le_one {values : List ℚ} (h : ∀ v ∈ values, v ≤ 1) : mean values ≤ 1 := by
  unfold mean
  split
  · exact zero_le_one
  · have hsum := List.sum_le_card_nsmul values 1 h
    rw [nsmul_one] at hsum
    rw [pySum_eq_sum]
    exact div_le_one_of_le₀ hsum (Nat.cast_nonneg _)

end Mean

end Agora.Consensus
