import Agora.Lib.Calendar
import Agora.Lib.Text
import Mathlib.Algebra.Order.Field.Rat

namespace Agora

/-!
# Decimal numbers as they are written

A finite `decimal.Decimal`: a sign, a coefficient and an exponent, so that `1`, `1.0` and `10E-1`
are different decimals of the same value.  `Decimal.str` writes one as `str` does, and
`Decimal.ofText` reads the text of one.  Reading inverts writing (`Decimal.ofText_str`).
-/

/-- A finite `Decimal`. -/
structure Decimal where
  negative : Bool
  coefficient : ℕ
  exponent : ℤ
deriving DecidableEq

namespace Decimal

/-- The number. -/
def value (d : Decimal) : ℚ :=
  (if d.negative then -(d.coefficient : ℚ) else d.coefficient) * (10 : ℚ) ^ d.exponent

/-! ### Writing -/

/-- The digits of the coefficient. -/
def digits (d : Decimal) : List Char := Nat.toDigits 10 d.coefficient

/-- How many digits stand before the point when no exponent is written. -/
def leftDigits (d : Decimal) : ℤ := d.exponent + d.digits.length

/-- Where `str` puts the point: an exponent is written for large numbers and for small ones. -/
def dotPlace (d : Decimal) : ℤ :=
  if d.exponent ≤ 0 ∧ -6 < d.leftDigits then d.leftDigits else 1

/-- What stands before the point. -/
def whole (d : Decimal) : List Char :=
  if d.dotPlace ≤ 0 then ['0'] else d.digits.take d.dotPlace.toNat

/-- What stands after the point. -/
def fraction (d : Decimal) : List Char :=
  if d.dotPlace ≤ 0 then List.replicate (-d.dotPlace).toNat '0' ++ d.digits
  else d.digits.drop d.dotPlace.toNat

def signText (negative : Bool) : List Char := if negative then ['-'] else []

def fractionText (fraction : List Char) : List Char :=
  if fraction = [] then [] else '.' :: fraction

/-- `"E%+d"`, or nothing for zero. -/
def exponentText (n : ℤ) : List Char :=
  if n = 0 then [] else 'E' :: (if n < 0 then '-' else '+') :: Nat.toDigits 10 n.natAbs

/-- `str(d)`. -/
def str (d : Decimal) : List Char :=
  signText d.negative ++ (d.whole ++ (fractionText d.fraction
    ++ exponentText (d.leftDigits - d.dotPlace)))

/-! ### Reading -/

/-- An optional sign, and the rest. -/
def readSign : List Char → Bool × List Char
  | '-' :: cs => (true, cs)
  | '+' :: cs => (false, cs)
  | cs => (false, cs)

/-- Digits after an optional point, and the rest. -/
def readFraction : List Char → List Char × List Char
  | '.' :: cs => (cs.takeWhile Char.isDigit, cs.dropWhile Char.isDigit)
  | cs => ([], cs)

/-- An optional exponent that ends the text. -/
def readExponent : List Char → Option ℤ
  | [] => some 0
  | e :: cs =>
    let (negative, ds) := readSign cs
    if (e = 'e' ∨ e = 'E') ∧ ds ≠ [] ∧ ds.all Char.isDigit = true then
      some (if negative then -(Nat.ofDigitChars 10 ds 0 : ℤ) else Nat.ofDigitChars 10 ds 0)
    else none

/-- `Decimal(text)` for a finite number in ASCII digits: space around it and underscores are
    ignored. -/
def ofText (cs : List Char) : Option Decimal :=
  let (negative, cs) := readSign ((strip cs).filter (· ≠ '_'))
  let whole := cs.takeWhile Char.isDigit
  let (fraction, rest) := readFraction (cs.dropWhile Char.isDigit)
  if whole ++ fraction = [] then none
  else (readExponent rest).map fun e =>
    ⟨negative, Nat.ofDigitChars 10 (whole ++ fraction) 0, e - fraction.length⟩

/-! ### Reading what was written -/

theorem isDigit_toDigits {n : ℕ} {c : Char} (h : c ∈ Nat.toDigits 10 n) : c.isDigit = true :=
  Nat.isDigit_of_mem_toDigits (by decide) (by decide) h

theorem ofDigitChars_zeros (k : ℕ) (ds : List Char) :
    Nat.ofDigitChars 10 (List.replicate k '0' ++ ds) 0 = Nat.ofDigitChars 10 ds 0 := by
  induction k with
  | zero => simp
  | succ k ih =>
    rw [List.replicate_succ, List.cons_append, Nat.ofDigitChars_cons]
    exact ih

theorem digits_ne_nil (d : Decimal) : d.digits ≠ [] := by
  unfold digits
  simp

/-- No zeros stand between the digits and the point. -/
theorem dotPlace_le (d : Decimal) : d.dotPlace ≤ d.digits.length := by
  have hlength := List.length_pos_iff.mpr d.digits_ne_nil
  unfold dotPlace leftDigits
  split_ifs <;> omega

theorem whole_ne_nil (d : Decimal) : d.whole ≠ [] := by
  have hdigits := List.length_pos_iff.mpr d.digits_ne_nil
  apply List.length_pos_iff.mp
  unfold whole
  split_ifs with hplace
  · simp
  · rw [List.length_take]
    omega

theorem isDigit_whole {d : Decimal} {c : Char} (h : c ∈ d.whole) : c.isDigit = true := by
  unfold whole at h
  split_ifs at h
  · rw [List.mem_singleton.mp h]
    decide
  · exact isDigit_toDigits (List.mem_of_mem_take h)

theorem isDigit_fraction {d : Decimal} {c : Char} (h : c ∈ d.fraction) : c.isDigit = true := by
  unfold fraction at h
  split_ifs at h
  · rcases List.mem_append.mp h with h | h
    · rw [List.eq_of_mem_replicate h]
      decide
    · exact isDigit_toDigits h
  · exact isDigit_toDigits (List.mem_of_mem_drop h)

/-- The digits before and after the point are those of the coefficient. -/
theorem ofDigitChars_layout (d : Decimal) :
    Nat.ofDigitChars 10 (d.whole ++ d.fraction) 0 = d.coefficient := by
  have hvalue : Nat.ofDigitChars 10 d.digits 0 = d.coefficient := Nat.ofDigitChars_ten_toDigits
  unfold whole fraction
  split_ifs
  · rw [← List.append_assoc, show ['0'] = List.replicate 1 '0' from rfl, List.replicate_append_replicate,
      ofDigitChars_zeros, hvalue]
  · rw [List.take_append_drop, hvalue]

/-- The exponent that is written makes up for the digits after the point. -/
theorem exponent_layout (d : Decimal) :
    d.leftDigits - d.dotPlace - d.fraction.length = d.exponent := by
  have hplace := d.dotPlace_le
  unfold fraction
  split_ifs
  · rw [List.length_append, List.length_replicate]
    unfold leftDigits
    omega
  · rw [List.length_drop]
    unfold leftDigits
    omega

theorem readSign_signText {negative : Bool} {cs : List Char} (hne : cs ≠ [])
    (h : ∀ c ∈ cs.head?, c.isDigit = true) : readSign (signText negative ++ cs) = (negative, cs) := by
  cases negative with
  | true => rfl
  | false =>
    obtain ⟨c, cs, rfl⟩ := List.exists_cons_of_ne_nil hne
    have hdigit : c.isDigit = true := h c rfl
    have hminus : c ≠ '-' := fun heq => absurd (heq ▸ hdigit) (by decide)
    have hplus : c ≠ '+' := fun heq => absurd (heq ▸ hdigit) (by decide)
    show readSign (c :: cs) = _
    simp [readSign, hminus, hplus]

theorem readExponent_exponentText (n : ℤ) : readExponent (exponentText n) = some n := by
  unfold exponentText
  split_ifs with hzero hneg
  · rw [hzero]
    rfl
  all_goals
    have hdigits : (Nat.toDigits 10 n.natAbs).all Char.isDigit = true :=
      List.all_eq_true.mpr fun c hc => isDigit_toDigits hc
    have hvalue : Nat.ofDigitChars 10 (Nat.toDigits 10 n.natAbs) 0 = n.natAbs :=
      Nat.ofDigitChars_ten_toDigits
    simp only [readExponent, readSign, hdigits, hvalue]
    rw [if_pos ⟨Or.inr trivial, Nat.toDigits_ne_nil, trivial⟩]
    apply congrArg some
    simp only [if_true, Bool.false_eq_true, if_false]
    omega

theorem takeWhile_isDigit {ds rest : List Char} (hds : ∀ c ∈ ds, c.isDigit = true)
    (hrest : ∀ c ∈ rest.head?, c.isDigit = false) : (ds ++ rest).takeWhile Char.isDigit = ds := by
  rw [List.takeWhile_append_of_pos hds]
  cases rest with
  | nil => simp
  | cons c cs => simp [hrest c rfl]

theorem dropWhile_isDigit {ds rest : List Char} (hds : ∀ c ∈ ds, c.isDigit = true)
    (hrest : ∀ c ∈ rest.head?, c.isDigit = false) : (ds ++ rest).dropWhile Char.isDigit = rest := by
  rw [List.dropWhile_append_of_pos hds]
  cases rest with
  | nil => simp
  | cons c cs => simp [hrest c rfl]

/-- Neither a point nor an exponent starts with a digit. -/
theorem not_isDigit_head_tail (fraction : List Char) (n : ℤ) :
    ∀ c ∈ (fractionText fraction ++ exponentText n).head?, c.isDigit = false := by
  intro c hc
  unfold fractionText exponentText at hc
  split_ifs at hc <;> simp at hc <;> subst hc <;> decide

theorem isDigit_spec {c : Char} (h : c.isDigit = true) : isSpace c = false ∧ c ≠ '_' := by
  have hrange : 48 ≤ c.toNat ∧ c.toNat ≤ 57 := by
    simpa [Char.isDigit, UInt32.le_iff_toNat_le] using h
  constructor
  · unfold isSpace
    simp only [Bool.or_eq_false_iff, Bool.and_eq_false_iff, decide_eq_false_iff_not,
      beq_eq_false_iff_ne, ne_eq]
    omega
  · rintro rfl
    exact absurd h (by decide)

/-- A decimal is written without spaces and underscores. -/
theorem isSpace_str (d : Decimal) : ∀ c ∈ d.str, isSpace c = false ∧ c ≠ '_' := by
  have hsign : ∀ c ∈ signText d.negative, isSpace c = false ∧ c ≠ '_' := by
    intro c hc
    unfold signText at hc
    split_ifs at hc
    · rw [List.mem_singleton.mp hc]
      decide
    · cases hc
  have hwhole : ∀ c ∈ d.whole, isSpace c = false ∧ c ≠ '_' := fun c hc =>
    isDigit_spec (isDigit_whole hc)
  have hfraction : ∀ c ∈ fractionText d.fraction, isSpace c = false ∧ c ≠ '_' := by
    unfold fractionText
    split_ifs
    · simp
    · rw [List.forall_mem_cons]
      exact ⟨by decide, fun c hc => isDigit_spec (isDigit_fraction hc)⟩
  have hexponent : ∀ n, ∀ c ∈ exponentText n, isSpace c = false ∧ c ≠ '_' := by
    intro n
    unfold exponentText
    split_ifs
    · simp
    all_goals
      rw [List.forall_mem_cons, List.forall_mem_cons]
      exact ⟨by decide, by decide, fun c hc => isDigit_spec (isDigit_toDigits hc)⟩
  unfold str
  simp only [List.forall_mem_append]
  exact ⟨hsign, hwhole, hfraction, hexponent _⟩

theorem strip_str (d : Decimal) : (strip d.str).filter (· ≠ '_') = d.str := by
  have hstrip : strip d.str = d.str := by
    have hleft : lstrip d.str = d.str := by
      apply List.dropWhile_eq_self_iff.mpr
      intro hl
      simp [(d.isSpace_str _ (List.getElem_mem hl)).1]
    unfold strip
    rw [hleft]
    apply List.rdropWhile_eq_self_iff.mpr
    intro hl
    simp [(d.isSpace_str _ (List.getLast_mem hl)).1]
  rw [hstrip]
  apply List.filter_eq_self.mpr
  intro c hc
  simp [(d.isSpace_str c hc).2]

theorem readFraction_fractionText {ds : List Char} (hds : ∀ c ∈ ds, c.isDigit = true) (n : ℤ) :
    readFraction (fractionText ds ++ exponentText n) = (ds, exponentText n) := by
  have htail : ∀ c ∈ (exponentText n).head?, c.isDigit = false := not_isDigit_head_tail [] n
  unfold fractionText
  split_ifs with hnil
  · rw [hnil, List.nil_append]
    unfold exponentText
    split_ifs <;> rfl
  · show ((ds ++ exponentText n).takeWhile Char.isDigit, (ds ++ exponentText n).dropWhile Char.isDigit) = _
    rw [takeWhile_isDigit hds htail, dropWhile_isDigit hds htail]

/-- **Reading inverts writing.** -/
theorem ofText_str (d : Decimal) : ofText d.str = some d := by
  have hwhole : ∀ c ∈ d.whole, c.isDigit = true := fun c hc => isDigit_whole hc
  have htail := not_isDigit_head_tail d.fraction (d.leftDigits - d.dotPlace)
  have hsign : readSign d.str = (d.negative, d.whole ++ (fractionText d.fraction
      ++ exponentText (d.leftDigits - d.dotPlace))) := by
    apply readSign_signText
    · simp [d.whole_ne_nil]
    · intro c hc
      rw [List.head?_append_of_ne_nil _ d.whole_ne_nil] at hc
      exact hwhole c (List.mem_of_head? hc)
  unfold ofText
  rw [strip_str, hsign]
  simp only
  rw [takeWhile_isDigit hwhole htail, dropWhile_isDigit hwhole htail,
    readFraction_fractionText fun c hc => isDigit_fraction hc]
  simp only
  rw [if_neg (by simp [d.whole_ne_nil]), readExponent_exponentText, Option.map_some, ofDigitChars_layout,
    exponent_layout]

end Decimal

end Agora
