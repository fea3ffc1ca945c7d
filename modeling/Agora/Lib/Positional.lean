import Mathlib.Algebra.Order.Field.Rat
import Mathlib.Data.List.DropRight
import Mathlib.Data.List.GetD
import Mathlib.Data.Nat.Digits.Lemmas
import Mathlib.Tactic.FieldSimp
import Mathlib.Tactic.Positivity
import Mathlib.Tactic.Ring

namespace Agora

/-!
# Positional numerals

The number that digits write before and after a point (`Positional.fixed`).  Zeros behind a fraction
do not count, and otherwise the digits are determined by the number when the whole part has no
leading zero (`Positional.fixed_inj`).
-/

/-! ### Trailing entries -/

section Trailing

variable {α : Type} [DecidableEq α] {l m : List α} {z : α}

omit [DecidableEq α] in
/-- Entries that are `z` behind a list do not count. -/
theorem getD_append_replicate (l : List α) (z : α) (j i : ℕ) :
    (l ++ List.replicate j z).getD i z = l.getD i z := by
  by_cases hi : i < l.length
  · rw [List.getD_append _ _ _ _ hi]
  · have hle := Nat.le_of_not_lt hi
    rw [List.getD_append_right _ _ _ _ hle, List.getD_eq_default l _ hle]
    by_cases hj : i - l.length < j
    · exact List.getD_replicate _ hj
    · exact List.getD_eq_default _ _ (by simpa using hj)

theorem getD_rdropWhile (l : List α) (z : α) (i : ℕ) :
    (l.rdropWhile (· = z)).getD i z = l.getD i z := by
  induction l using List.reverseRecOn with
  | nil => simp
  | append_singleton l a ih =>
    rw [List.rdropWhile_concat]
    by_cases ha : a = z
    · rw [if_pos (decide_eq_true ha), ih, ha]
      exact (getD_append_replicate l z 1 i).symm
    · rw [if_neg (by simpa using ha)]

omit [DecidableEq α] in
/-- A list whose last entry is not `z` is not longer than one with the same entries. -/
theorem length_le_of_getD (hlast : ∀ hm : m ≠ [], m.getLast hm ≠ z)
    (h : ∀ i, l.getD i z = m.getD i z) : m.length ≤ l.length := by
  by_contra hlt
  have hne : m ≠ [] := by
    rintro rfl
    exact hlt (Nat.zero_le _)
  have hpos : 0 < m.length := List.length_pos_iff.mpr hne
  have hget := h (m.length - 1)
  rw [List.getD_eq_default _ _ (by omega), List.getD_eq_getElem _ _ (by omega)] at hget
  apply hlast hne
  rw [List.getLast_eq_getElem, hget]

omit [DecidableEq α] in
theorem eq_of_getD (hlength : l.length = m.length) (h : ∀ i, l.getD i z = m.getD i z) : l = m := by
  apply List.ext_getElem hlength
  intro i hl hm
  have hget := h i
  rw [List.getD_eq_getElem _ _ hl, List.getD_eq_getElem _ _ hm] at hget
  exact hget

/-- Lists with the same entries, `z` standing behind them, are equal without their last `z`. -/
theorem rdropWhile_eq_iff :
    l.rdropWhile (· = z) = m.rdropWhile (· = z) ↔ ∀ i, l.getD i z = m.getD i z := by
  constructor
  · intro h i
    rw [← getD_rdropWhile l, h, getD_rdropWhile]
  · intro h
    have hsame : ∀ i, (l.rdropWhile (· = z)).getD i z = (m.rdropWhile (· = z)).getD i z := by
      intro i
      rw [getD_rdropWhile, getD_rdropWhile, h]
    have hlast : ∀ (k : List α) (hk : k.rdropWhile (· = z) ≠ []),
        (k.rdropWhile (· = z)).getLast hk ≠ z := by
      intro k hk
      simpa using List.rdropWhile_last_not _ k hk
    apply eq_of_getD _ hsame
    apply le_antisymm
    · exact length_le_of_getD (hlast l) fun i => (hsame i).symm
    · exact length_le_of_getD (hlast m) hsame

end Trailing

namespace Positional

variable {b : ℕ} {ds es w v f g : List ℕ}

/-- The number that digits write, the highest first. -/
def number (b : ℕ) (ds : List ℕ) : ℕ := Nat.ofDigits b ds.reverse

theorem number_append : number b (ds ++ es) = number b ds * b ^ es.length + number b es := by
  unfold number
  rw [List.reverse_append, Nat.ofDigits_append, List.length_reverse]
  ring

theorem number_zeros (ds : List ℕ) (k : ℕ) :
    number b (ds ++ List.replicate k 0) = number b ds * b ^ k := by
  have hzero : number b (List.replicate k 0) = 0 := by
    unfold number
    rw [List.reverse_replicate, Nat.ofDigits_replicate_zero]
  rw [number_append, hzero, List.length_replicate, Nat.add_zero]

theorem number_lt (hb : 1 < b) (h : ∀ d ∈ ds, d < b) : number b ds < b ^ ds.length := by
  unfold number
  rw [← List.length_reverse]
  apply Nat.ofDigits_lt_base_pow_length hb
  intro d hd
  exact h d (List.mem_reverse.mp hd)

/-- Digits of the same length are determined by their number. -/
theorem number_inj (hb : 1 < b) (hds : ∀ d ∈ ds, d < b) (hes : ∀ d ∈ es, d < b)
    (hlength : ds.length = es.length) (h : number b ds = number b es) : ds = es := by
  apply List.reverse_injective
  apply Nat.ofDigits_inj_of_len_eq hb
  · simpa using hlength
  · intro d hd
    exact hds d (List.mem_reverse.mp hd)
  · intro d hd
    exact hes d (List.mem_reverse.mp hd)
  · exact h

/-- One digit, or several of which the first is not zero. -/
def NoLeadingZero (w : List ℕ) : Prop := w ≠ [] ∧ (1 < w.length → w.head? ≠ some 0)

theorem le_number (hw : NoLeadingZero w) (hlong : 1 < w.length) :
    b ^ (w.length - 1) ≤ number b w := by
  cases w with
  | nil => exact absurd rfl hw.1
  | cons d ds =>
    have hd : d ≠ 0 := fun hzero => hw.2 hlong (by rw [hzero]; rfl)
    have hsplit : number b (d :: ds) = d * b ^ ds.length + number b ds := by
      rw [← List.singleton_append, number_append]
      simp [number]
    rw [hsplit, List.length_cons, Nat.add_sub_cancel]
    have hle : b ^ ds.length ≤ d * b ^ ds.length :=
      Nat.le_mul_of_pos_left _ (Nat.pos_of_ne_zero hd)
    omega

/-- The number that digits write before and after a point. -/
def fixed (b : ℕ) (w f : List ℕ) : ℚ := (number b (w ++ f) : ℚ) / (b : ℚ) ^ f.length

/-- Zeros behind a fraction do not count. -/
theorem fixed_mul_pow (hb : 1 < b) {k : ℕ} (hk : f.length ≤ k) :
    fixed b w f * (b : ℚ) ^ k
      = (number b (w ++ (f ++ List.replicate (k - f.length) 0)) : ℚ) := by
  have hpos : (b : ℚ) ≠ 0 := by
    have : b ≠ 0 := by omega
    exact_mod_cast this
  have hsplit : (b : ℚ) ^ k = (b : ℚ) ^ f.length * (b : ℚ) ^ (k - f.length) := by
    rw [← pow_add, Nat.add_sub_cancel' hk]
  rw [← List.append_assoc, number_zeros, fixed, hsplit]
  push_cast
  field_simp

theorem fixed_eq_iff (hb : 1 < b) {k : ℕ} (hf : f.length ≤ k) (hg : g.length ≤ k) :
    fixed b w f = fixed b v g ↔ number b (w ++ (f ++ List.replicate (k - f.length) 0))
      = number b (v ++ (g ++ List.replicate (k - g.length) 0)) := by
  have hpos : (b : ℚ) ^ k ≠ 0 := by
    have : b ≠ 0 := by omega
    positivity
  rw [← mul_left_inj' hpos, fixed_mul_pow hb hf, fixed_mul_pow hb hg, Nat.cast_inj]

/-- A whole part that is longer writes a greater number. -/
theorem number_lt_of_length_lt (hb : 1 < b) (hw : ∀ d ∈ w, d < b) (hf : ∀ d ∈ f, d < b)
    (hv : NoLeadingZero v) (hne : w ≠ []) (hlength : f.length = g.length)
    (h : w.length < v.length) : number b (w ++ f) < number b (v ++ g) := by
  have hpos : 0 < w.length := List.length_pos_iff.mpr hne
  calc number b (w ++ f) < b ^ (w ++ f).length :=
        number_lt hb fun d hd => (List.mem_append.mp hd).elim (hw d) (hf d)
    _ = b ^ w.length * b ^ f.length := by rw [List.length_append, pow_add]
    _ ≤ b ^ (v.length - 1) * b ^ f.length :=
        Nat.mul_le_mul_right _ (Nat.pow_le_pow_right (by omega) (by omega))
    _ ≤ number b v * b ^ g.length := by
        rw [hlength]
        exact Nat.mul_le_mul_right _ (le_number hv (by omega))
    _ ≤ number b (v ++ g) := by
        rw [number_append]
        exact Nat.le_add_right _ _

/-- **Positional numerals.**  Whole parts without leading zeros and fractions write the same number
    exactly when they have the same digit at every place. -/
theorem fixed_inj (hb : 1 < b) (hw : ∀ d ∈ w, d < b) (hf : ∀ d ∈ f, d < b) (hv : ∀ d ∈ v, d < b)
    (hg : ∀ d ∈ g, d < b) (hleadW : NoLeadingZero w) (hleadV : NoLeadingZero v) :
    fixed b w f = fixed b v g ↔ w = v ∧ ∀ i, f.getD i 0 = g.getD i 0 := by
  let k := max f.length g.length
  let padded := fun l : List ℕ => l ++ List.replicate (k - l.length) 0
  have hlengthF : (padded f).length = k := by
    have hle : f.length ≤ k := Nat.le_max_left _ _
    simp [padded, hle]
  have hlengthG : (padded g).length = k := by
    have hle : g.length ≤ k := Nat.le_max_right _ _
    simp [padded, hle]
  have hdigits : ∀ l : List ℕ, (∀ d ∈ l, d < b) → ∀ d ∈ padded l, d < b := by
    intro l hl d hd
    rcases List.mem_append.mp hd with hd | hd
    · exact hl d hd
    · rw [List.eq_of_mem_replicate hd]
      omega
  rw [fixed_eq_iff hb (Nat.le_max_left f.length g.length) (Nat.le_max_right f.length g.length)]
  show number b (w ++ padded f) = number b (v ++ padded g) ↔ _
  constructor
  · intro h
    have hlength : w.length = v.length := by
      rcases Nat.lt_trichotomy w.length v.length with hlt | heq | hlt
      · have hless := number_lt_of_length_lt hb hw (hdigits f hf) hleadV hleadW.1
          (hlengthF.trans hlengthG.symm) hlt
        omega
      · exact heq
      · have hless := number_lt_of_length_lt hb hv (hdigits g hg) hleadW hleadV.1
          (hlengthG.trans hlengthF.symm) hlt
        omega
    have hall : ∀ l m : List ℕ, (∀ d ∈ l, d < b) → (∀ d ∈ m, d < b) → ∀ d ∈ l ++ m, d < b :=
      fun l m hl hm d hd => (List.mem_append.mp hd).elim (hl d) (hm d)
    have hlengths : (w ++ padded f).length = (v ++ padded g).length := by
      rw [List.length_append, hlengthF, List.length_append, hlengthG, hlength]
    have hsame := number_inj hb (hall w _ hw (hdigits f hf)) (hall v _ hv (hdigits g hg)) hlengths h
    obtain ⟨hwhole, hfraction⟩ := List.append_inj hsame hlength
    refine ⟨hwhole, fun i => ?_⟩
    rw [← getD_append_replicate f 0 (k - f.length), ← getD_append_replicate g 0 (k - g.length)]
    exact congrArg (List.getD · i 0) hfraction
  · rintro ⟨rfl, h⟩
    have hfraction : padded f = padded g := by
      apply eq_of_getD (hlengthF.trans hlengthG.symm)
      intro i
      rw [getD_append_replicate, getD_append_replicate, h]
    rw [hfraction]

theorem fixed_nonneg : 0 ≤ fixed b w f := by
  unfold fixed
  positivity

end Positional

end Agora
