import Mathlib.Algebra.Order.Archimedean.Basic
import Mathlib.Algebra.Order.Field.Power
import Mathlib.Data.Int.Log
import Mathlib.Data.Rat.Floor

namespace Agora

/-!
# Rounding to a number of digits

`roundDigits b n` keeps the `n` leading digits of a number to the base `b` and rounds half to even.
It is monotone (`roundDigits_mono`) and keeps every number with at most `n` digits
(`roundDigits_eq_self`).
-/

/-! ### Rounding to an integer -/

/-- The nearest integer, of two the even one. -/
def roundHalfEven (x : ℚ) : ℤ :=
  if x - ⌊x⌋ < 1 / 2 then ⌊x⌋
  else if 1 / 2 < x - ⌊x⌋ then ⌊x⌋ + 1
  else if ⌊x⌋ % 2 = 0 then ⌊x⌋
  else ⌊x⌋ + 1

theorem floor_le_roundHalfEven (x : ℚ) : ⌊x⌋ ≤ roundHalfEven x := by
  unfold roundHalfEven
  split_ifs <;> omega

theorem roundHalfEven_le (x : ℚ) : roundHalfEven x ≤ ⌊x⌋ + 1 := by
  unfold roundHalfEven
  split_ifs <;> omega

theorem roundHalfEven_mono {x y : ℚ} (h : x ≤ y) : roundHalfEven x ≤ roundHalfEven y := by
  have hfloor : ⌊x⌋ ≤ ⌊y⌋ := Int.floor_le_floor h
  by_cases hsame : ⌊x⌋ = ⌊y⌋
  · have hfract : x - ⌊x⌋ ≤ y - ⌊x⌋ := sub_le_sub_right h _
    unfold roundHalfEven
    rw [← hsame]
    -- The fraction of `y` is not below that of `x`.
    split_ifs with hx hy hy hx' hy' hy' hy' hy' hx'' <;> first | omega | (exfalso; linarith)
  · have hle := roundHalfEven_le x
    have hge := floor_le_roundHalfEven y
    omega

theorem roundHalfEven_intCast (z : ℤ) : roundHalfEven z = z := by
  unfold roundHalfEven
  rw [Int.floor_intCast, sub_self, if_pos (by norm_num)]

/-! ### Rounding to a grid -/

section Grid

variable {q : ℚ}

/-- The nearest multiple of `q`. -/
def roundTo (q x : ℚ) : ℚ := roundHalfEven (x / q) * q

theorem roundTo_mono (hq : 0 < q) {x y : ℚ} (h : x ≤ y) : roundTo q x ≤ roundTo q y := by
  apply mul_le_mul_of_nonneg_right _ hq.le
  exact Int.cast_le.mpr (roundHalfEven_mono (div_le_div_of_nonneg_right h hq.le))

theorem roundTo_mul (hq : 0 < q) (z : ℤ) : roundTo q (z * q) = z * q := by
  rw [roundTo, mul_div_cancel_right₀ _ hq.ne', roundHalfEven_intCast]

@[simp] theorem roundTo_zero (q : ℚ) : roundTo q 0 = 0 := by
  rw [roundTo, zero_div, show (0 : ℚ) = ((0 : ℤ) : ℚ) from rfl, roundHalfEven_intCast]
  exact zero_mul q

end Grid

/-! ### Rounding to digits -/

section Digits

variable (b n : ℕ)

/-- The place of the last of `n` digits, for a number above zero. -/
def lastPlace (x : ℚ) : ℚ := (b : ℚ) ^ (Int.log b x + 1 - n)

/-- The nearest number with `n` digits to the base `b`. -/
def roundDigits (x : ℚ) : ℚ :=
  if x < 0 then -roundTo (lastPlace b n (-x)) (-x) else roundTo (lastPlace b n x) x

variable {b n} (hb : 1 < b)

include hb

theorem lastPlace_pos (x : ℚ) : 0 < lastPlace b n x :=
  zpow_pos (by exact_mod_cast Nat.zero_lt_of_lt hb) _

/-- A power of the base on the grid. -/
theorem roundTo_pow {k : ℕ} {e : ℤ} : roundTo ((b : ℚ) ^ e) ((b : ℚ) ^ (e + k)) = (b : ℚ) ^ (e + k) := by
  have hb0 : (b : ℚ) ≠ 0 := by exact_mod_cast (Nat.zero_lt_of_lt hb).ne'
  have hsplit : (b : ℚ) ^ (e + k) = ((b ^ k : ℕ) : ℤ) * (b : ℚ) ^ e := by
    rw [zpow_add₀ hb0, mul_comm, zpow_natCast]
    push_cast
    rfl
  rw [hsplit, roundTo_mul (zpow_pos (by exact_mod_cast Nat.zero_lt_of_lt hb) _)]

/-- Numbers above zero. -/
theorem roundTo_lastPlace_mono (hn : 1 ≤ n) {x y : ℚ} (hx : 0 < x) (h : x ≤ y) :
    roundTo (lastPlace b n x) x ≤ roundTo (lastPlace b n y) y := by
  rcases (Int.log_mono_right (b := b) hx h).eq_or_lt with hsame | hless
  · rw [lastPlace, hsame]
    exact roundTo_mono (lastPlace_pos hb y) h
  · -- A power of the base lies between the two.
    have hx' : roundTo (lastPlace b n x) x ≤ (b : ℚ) ^ (Int.log b x + 1) := by
      have hlt := (Int.lt_zpow_succ_log_self hb x).le
      have hpow := roundTo_pow hb (k := n) (e := Int.log b x + 1 - n)
      rw [sub_add_cancel] at hpow
      exact (roundTo_mono (lastPlace_pos hb x) hlt).trans hpow.le
    have hy' : (b : ℚ) ^ Int.log b y ≤ roundTo (lastPlace b n y) y := by
      have hle := Int.zpow_log_le_self hb (hx.trans_le h)
      have hpow := roundTo_pow hb (k := n - 1) (e := Int.log b y + 1 - n)
      rw [show Int.log b y + 1 - n + ((n - 1 : ℕ) : ℤ) = Int.log b y by omega] at hpow
      exact hpow.ge.trans (roundTo_mono (lastPlace_pos hb y) hle)
    have hbetween : (b : ℚ) ^ (Int.log b x + 1) ≤ (b : ℚ) ^ Int.log b y :=
      zpow_le_zpow_right₀ (by exact_mod_cast hb.le) (by omega)
    exact hx'.trans (hbetween.trans hy')

theorem roundTo_nonneg {x : ℚ} (hx : 0 ≤ x) : 0 ≤ roundTo (lastPlace b n x) x := by
  rw [← roundTo_zero (lastPlace b n x)]
  exact roundTo_mono (lastPlace_pos hb x) hx

/-- **Monotone.** -/
theorem roundDigits_mono (hn : 1 ≤ n) {x y : ℚ} (h : x ≤ y) : roundDigits b n x ≤ roundDigits b n y := by
  unfold roundDigits
  by_cases hx : x < 0
  · rw [if_pos hx]
    by_cases hy : y < 0
    · rw [if_pos hy]
      exact neg_le_neg (roundTo_lastPlace_mono hb hn (neg_pos.mpr hy) (neg_le_neg h))
    · rw [if_neg hy]
      have hleft := roundTo_nonneg hb (n := n) (neg_nonneg.mpr hx.le)
      exact (neg_nonpos.mpr hleft).trans (roundTo_nonneg hb (not_lt.mp hy))
  · have hy : ¬ y < 0 := not_lt.mpr ((not_lt.mp hx).trans h)
    rw [if_neg hx, if_neg hy]
    rcases (not_lt.mp hx).eq_or_lt with rfl | hpos
    · rw [roundTo_zero]
      exact roundTo_nonneg hb (not_lt.mp hy)
    · exact roundTo_lastPlace_mono hb hn hpos h

/-- A number above zero with at most `n` digits is on the grid of its last place. -/
theorem roundTo_eq_self {m : ℕ} {k : ℤ} (hm : m ≠ 0) (h : m < b ^ n) :
    roundTo (lastPlace b n (m * (b : ℚ) ^ k)) (m * (b : ℚ) ^ k) = m * (b : ℚ) ^ k := by
  have hb0 : (0 : ℚ) < b := by exact_mod_cast Nat.zero_lt_of_lt hb
  have hpos : 0 < m * (b : ℚ) ^ k := mul_pos (by exact_mod_cast Nat.pos_of_ne_zero hm) (zpow_pos hb0 _)
  have hlog : Int.log b (m * (b : ℚ) ^ k) < n + k := by
    rw [← Int.lt_zpow_iff_log_lt hb hpos, zpow_add₀ hb0.ne', zpow_natCast]
    exact mul_lt_mul_of_pos_right (by exact_mod_cast h) (zpow_pos hb0 _)
  obtain ⟨j, hj⟩ := Int.eq_ofNat_of_zero_le (show 0 ≤ k - (Int.log b (m * (b : ℚ) ^ k) + 1 - n) by omega)
  have hgrid : m * (b : ℚ) ^ k = ((m * b ^ j : ℕ) : ℤ) * lastPlace b n (m * (b : ℚ) ^ k) := by
    rw [lastPlace]
    push_cast
    rw [mul_assoc, ← zpow_natCast, ← zpow_add₀ hb0.ne']
    congr 2
    omega
  generalize hq : lastPlace b n (m * (b : ℚ) ^ k) = q at hgrid ⊢
  rw [hgrid, roundTo_mul (hq ▸ lastPlace_pos hb _)]

/-- **Kept digits.**  A number with at most `n` digits is not changed. -/
theorem roundDigits_eq_self {m : ℤ} {k : ℤ} (h : m.natAbs < b ^ n) :
    roundDigits b n (m * (b : ℚ) ^ k) = m * (b : ℚ) ^ k := by
  have hpow : (0 : ℚ) < (b : ℚ) ^ k := zpow_pos (by exact_mod_cast Nat.zero_lt_of_lt hb) _
  unfold roundDigits
  obtain ⟨a, rfl | rfl⟩ := m.eq_nat_or_neg
  · have hnonneg : 0 ≤ ((a : ℤ) : ℚ) * (b : ℚ) ^ k := mul_nonneg (by simp) hpow.le
    rw [if_neg (not_lt.mpr hnonneg)]
    rcases Nat.eq_zero_or_pos a with rfl | ha
    · simp
    · exact roundTo_eq_self hb ha.ne' (by simpa using h)
  · rcases Nat.eq_zero_or_pos a with rfl | ha
    · simp
    · have hneg : ((-(a : ℤ) : ℤ) : ℚ) * (b : ℚ) ^ k < 0 :=
        mul_neg_of_neg_of_pos (by simpa using ha) hpow
      have hopposite : -(((-(a : ℤ) : ℤ) : ℚ) * (b : ℚ) ^ k) = a * (b : ℚ) ^ k := by simp
      rw [if_pos hneg, hopposite, roundTo_eq_self hb ha.ne' (by simpa using h), ← hopposite, neg_neg]

end Digits

end Agora
