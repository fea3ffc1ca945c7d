import Agora.Lib.HexText
import Agora.Lib.Positional
import Agora.Marl.Values
import Mathlib.Tactic.Linarith

namespace Agora.Reasoning

/-!
# Decimal strings

What the normalizer of decimal strings accepts and what it makes of it.  A digit may be of any
script, while the zeros that are trimmed are ASCII, so one number may keep several forms:
`decimal_canonical_iff` says which spellings have one.
-/

/-! ### Digits -/

/-- The value of a decimal digit of any script. -/
def digitValue? (c : Char) : Option ℕ :=
  (decimalZeros.find? fun n => n ≤ c.toNat ∧ c.toNat < n + 10).map fun n => c.toNat - n

/-- `\d`. -/
def isDecimal (c : Char) : Bool := (digitValue? c).isSome

def digitValue (c : Char) : ℕ := (digitValue? c).getD 0

theorem digitValue_lt (c : Char) : digitValue c < 10 := by
  unfold digitValue digitValue?
  cases hfind : decimalZeros.find? fun n => decide (n ≤ c.toNat ∧ c.toNat < n + 10) with
  | none => simp
  | some n =>
    have hrange := List.find?_some hfind
    rw [decide_eq_true_eq] at hrange
    simp only [Option.map_some, Option.getD_some]
    omega

theorem not_isDecimal : isDecimal '.' = false ∧ isDecimal '-' = false ∧ isDecimal 'e' = false
    ∧ isDecimal 'E' = false := by
  decide

/-! ### The normalizer -/

/-- Without its sign. -/
def unsigned : List Char → List Char
  | '-' :: cs => cs
  | cs => cs

def isNegative (cs : List Char) : Bool := cs.head? = some '-'

/-- What stands before the point. -/
def wholePart (cs : List Char) : List Char := (unsigned cs).takeWhile (· ≠ '.')

/-- The point and what stands behind it. -/
def pointPart (cs : List Char) : List Char := (unsigned cs).dropWhile (· ≠ '.')

/-- What stands behind the point. -/
def fractionPart (cs : List Char) : List Char := (pointPart cs).tail

/-- `0|[1-9]\d*`. -/
def isWhole : List Char → Bool
  | [] => false
  | c :: cs => c = '0' && cs.isEmpty || '1' ≤ c && c ≤ '9' && cs.all isDecimal

/-- `(\.\d+)?`. -/
def isFraction : List Char → Bool
  | [] => true
  | c :: cs => c = '.' && !cs.isEmpty && cs.all isDecimal

/-- `re.fullmatch(r"-?(?:0|[1-9]\d*)(?:\.\d+)?", value)`. -/
def fullmatch (cs : List Char) : Bool := isWhole (wholePart cs) && isFraction (pointPart cs)

/-- `"e" in value.lower()`. -/
def hasExponent (cs : List Char) : Bool := cs.any fun c => c = 'e' || c = 'E'

/-- `_decimal`, of a string. -/
def decimal (value : List Char) : Py (List Char) :=
  if hasExponent value || !fullmatch value then
    .error (.valueError "must be a plain decimal string without exponent notation")
  else
    let result := if '.' ∈ value then (value.rdropWhile (· = '0')).rdropWhile (· = '.') else value
    if result = ['-', '0'] ∨ result = [] then .ok ['0'] else .ok result

/-- The number that a decimal string denotes. -/
def denotes (cs : List Char) : ℚ :=
  (if isNegative cs then -1 else 1)
    * Positional.fixed 10 ((wholePart cs).map digitValue) ((fractionPart cs).map digitValue)

/-! ### Spelling -/

/-- A decimal string by its parts. -/
def spell (negative : Bool) (whole fraction : List Char) : List Char :=
  (if negative then ['-'] else []) ++ (whole ++ if fraction = [] then [] else '.' :: fraction)

theorem isWhole_digits {whole : List Char} (h : isWhole whole = true) :
    whole ≠ [] ∧ ∀ c ∈ whole, isDecimal c = true := by
  have hascii : ∀ n < 128, '0' ≤ Char.ofNat n → Char.ofNat n ≤ '9' →
      isDecimal (Char.ofNat n) = true := by decide
  have hdigit : ∀ c : Char, '0' ≤ c → c ≤ '9' → isDecimal c = true := by
    intro c hlow hhigh
    have hle : c.toNat ≤ ('9' : Char).toNat := hhigh
    have hlt : c.toNat < 128 := hle.trans_lt (by decide)
    have hchar := hascii c.toNat hlt
    rw [Char.ofNat_toNat] at hchar
    exact hchar hlow hhigh
  cases whole with
  | nil => cases h
  | cons c cs =>
    refine ⟨List.cons_ne_nil _ _, ?_⟩
    simp only [isWhole, Bool.or_eq_true, Bool.and_eq_true, decide_eq_true_eq,
      List.isEmpty_iff, List.all_eq_true] at h
    rcases h with ⟨rfl, rfl⟩ | ⟨⟨hlow, hhigh⟩, hall⟩
    · simp only [List.mem_singleton, forall_eq]
      exact hdigit '0' le_rfl (by decide)
    · rw [List.forall_mem_cons]
      exact ⟨hdigit c (le_trans (by decide) hlow) hhigh, hall⟩

theorem unsigned_cons {c : Char} {cs : List Char} (hc : c ≠ '-') :
    unsigned (c :: cs) = c :: cs := by
  unfold unsigned
  split
  · simp_all
  · rfl

/-- What is accepted is a spelling of its parts. -/
theorem spell_of_fullmatch {cs : List Char} (h : fullmatch cs = true) :
    isWhole (wholePart cs) = true ∧ (∀ c ∈ fractionPart cs, isDecimal c = true)
      ∧ cs = spell (isNegative cs) (wholePart cs) (fractionPart cs) := by
  unfold fullmatch at h
  rw [Bool.and_eq_true] at h
  obtain ⟨hwhole, hpoint⟩ := h
  have hsign : cs = (if isNegative cs then ['-'] else []) ++ unsigned cs := by
    cases cs with
    | nil => rfl
    | cons c cs =>
      by_cases hc : c = '-'
      · rw [hc]
        rfl
      · rw [unsigned_cons hc]
        simp [isNegative, hc]
  have hsplit : unsigned cs = wholePart cs ++ pointPart cs := List.takeWhile_append_dropWhile.symm
  have hfraction : (∀ c ∈ fractionPart cs, isDecimal c = true)
      ∧ pointPart cs = if fractionPart cs = [] then [] else '.' :: fractionPart cs := by
    unfold fractionPart
    cases hpointPart : pointPart cs with
    | nil => simp
    | cons c ds =>
      rw [hpointPart] at hpoint
      simp only [isFraction, Bool.and_eq_true, decide_eq_true_eq, Bool.not_eq_true',
        List.isEmpty_eq_false_iff, List.all_eq_true] at hpoint
      obtain ⟨⟨rfl, hne⟩, hall⟩ := hpoint
      exact ⟨hall, (if_neg hne).symm⟩
  refine ⟨hwhole, hfraction.1, ?_⟩
  unfold spell
  rw [← hfraction.2, ← hsplit]
  exact hsign

section Parts

variable (negative : Bool) {whole fraction : List Char} (hwhole : isWhole whole = true)
  (hfraction : ∀ c ∈ fraction, isDecimal c = true)

include hwhole

theorem not_mem_whole {c : Char} (hc : isDecimal c = false) : c ∉ whole := by
  intro hmem
  rw [(isWhole_digits hwhole).2 c hmem] at hc
  cases hc

/-- The parts of a spelling. -/
theorem parts_spell (fraction : List Char) : isNegative (spell negative whole fraction) = negative
    ∧ wholePart (spell negative whole fraction) = whole
    ∧ pointPart (spell negative whole fraction)
      = (if fraction = [] then [] else '.' :: fraction)
    ∧ fractionPart (spell negative whole fraction) = fraction := by
  obtain ⟨hne, -⟩ := isWhole_digits hwhole
  have hdash := not_mem_whole hwhole not_isDecimal.2.1
  have hdot := not_mem_whole hwhole not_isDecimal.1
  have hunsigned : isNegative (spell negative whole fraction) = negative
      ∧ unsigned (spell negative whole fraction)
        = whole ++ if fraction = [] then [] else '.' :: fraction := by
    cases negative with
    | true => exact ⟨rfl, rfl⟩
    | false =>
      cases whole with
      | nil => exact absurd rfl hne
      | cons c cs =>
        have hc : c ≠ '-' := fun hc => hdash (hc ▸ List.mem_cons_self)
        constructor
        · simp [isNegative, spell, hc]
        · exact unsigned_cons hc
  have htake : ∀ c ∈ whole, decide (c ≠ '.') = true := by
    intro c hc
    apply decide_eq_true
    rintro rfl
    exact hdot hc
  have hpoint : pointPart (spell negative whole fraction)
      = if fraction = [] then [] else '.' :: fraction := by
    unfold pointPart
    rw [hunsigned.2, List.dropWhile_append_of_pos htake]
    split_ifs
    · rfl
    · rfl
  refine ⟨hunsigned.1, ?_, hpoint, ?_⟩
  · unfold wholePart
    rw [hunsigned.2, List.takeWhile_append_of_pos htake]
    split_ifs
    · simp
    · simp
  · unfold fractionPart
    rw [hpoint]
    split_ifs with h
    · exact h.symm
    · rfl

include hfraction

theorem fullmatch_spell : fullmatch (spell negative whole fraction) = true := by
  obtain ⟨-, hw, hp, -⟩ := parts_spell negative hwhole fraction
  unfold fullmatch
  rw [hw, hp, hwhole, Bool.true_and]
  split_ifs with h
  · rfl
  · simp only [isFraction, decide_true, Bool.true_and, Bool.and_eq_true, Bool.not_eq_true',
      List.isEmpty_eq_false_iff, List.all_eq_true]
    exact ⟨h, hfraction⟩

/-! ### What the normalizer makes -/

omit hwhole hfraction in
/-- Nothing is trimmed beyond an entry that stays. -/
theorem rdropWhile_append_cons {p : Char → Bool} {c : Char} (hc : p c = false)
    (before behind : List Char) :
    (before ++ c :: behind).rdropWhile p = before ++ c :: behind.rdropWhile p := by
  induction behind using List.reverseRecOn with
  | nil => rw [List.rdropWhile_concat_neg _ _ _ (by simp [hc]), List.rdropWhile_nil]
  | append_singleton behind a ih =>
    have hassoc : before ++ c :: (behind ++ [a]) = (before ++ c :: behind) ++ [a] := by simp
    rw [hassoc, List.rdropWhile_concat, List.rdropWhile_concat, ih]
    split_ifs
    · rfl
    · simp

omit hwhole hfraction in
theorem rdropWhile_of_not_mem {a : Char} {cs : List Char} (h : a ∉ cs) :
    cs.rdropWhile (· = a) = cs := by
  apply List.rdropWhile_eq_self_iff.mpr
  intro hne hlast
  rw [decide_eq_true_eq] at hlast
  exact h (hlast ▸ List.getLast_mem hne)

/-- Zeros behind the point are trimmed, then the point. -/
theorem trim_spell (hne : fraction ≠ []) :
    ((spell negative whole fraction).rdropWhile (· = '0')).rdropWhile (· = '.')
      = spell negative whole (fraction.rdropWhile (· = '0')) := by
  have hdot := not_mem_whole hwhole not_isDecimal.1
  have hsign : '.' ∉ (if negative then ['-'] else []) ++ whole := by
    rw [List.mem_append, not_or]
    refine ⟨?_, hdot⟩
    split_ifs
    · decide
    · simp
  have htrimmed : '.' ∉ fraction.rdropWhile (· = '0') := by
    intro hmem
    have hdecimal := hfraction '.' ((List.rdropWhile_prefix _ _).subset hmem)
    rw [not_isDecimal.1] at hdecimal
    cases hdecimal
  unfold spell
  rw [if_neg hne, ← List.append_assoc, rdropWhile_append_cons (by decide)]
  cases htrim : fraction.rdropWhile (· = '0') with
  | nil =>
    rw [List.rdropWhile_concat_pos _ _ _ (by decide), rdropWhile_of_not_mem hsign, if_pos rfl,
      ← List.append_assoc, List.append_nil]
  | cons c cs =>
    rw [htrim] at htrimmed
    have hc : c ≠ '.' := fun hc => htrimmed (hc ▸ List.mem_cons_self)
    have hcs : cs.rdropWhile (· = '.') = cs :=
      rdropWhile_of_not_mem fun hmem => htrimmed (List.mem_cons_of_mem c hmem)
    have hassoc : ((if negative then ['-'] else []) ++ whole) ++ '.' :: c :: cs
        = (((if negative then ['-'] else []) ++ whole) ++ ['.']) ++ c :: cs := by simp
    rw [if_neg (List.cons_ne_nil _ _), ← List.append_assoc, hassoc,
      rdropWhile_append_cons (by simpa using hc), hcs]

theorem mem_spell {c : Char} (h : c ∈ spell negative whole fraction) :
    c = '-' ∨ c = '.' ∨ isDecimal c = true := by
  obtain ⟨-, hdigits⟩ := isWhole_digits hwhole
  unfold spell at h
  rcases List.mem_append.mp h with h | h
  · split_ifs at h
    · exact .inl (List.mem_singleton.mp h)
    · cases h
  · rcases List.mem_append.mp h with h | h
    · exact .inr (.inr (hdigits c h))
    · split_ifs at h
      · cases h
      · rcases List.mem_cons.mp h with h | h
        · exact .inr (.inl h)
        · exact .inr (.inr (hfraction c h))

omit hwhole hfraction in
/-- The canonical spelling: no zeros at the end of the fraction, and no sign on a bare zero. -/
def canonical (negative : Bool) (whole fraction : List Char) : List Char :=
  spell (negative && !(whole = ['0'] && fraction.rdropWhile (· = '0') = [])) whole
    (fraction.rdropWhile (· = '0'))

theorem decimal_spell :
    decimal (spell negative whole fraction) = .ok (canonical negative whole fraction) := by
  have hexponent : hasExponent (spell negative whole fraction) = false := by
    apply List.any_eq_false.mpr
    intro c hc he
    rw [Bool.or_eq_true, decide_eq_true_eq, decide_eq_true_eq] at he
    rcases mem_spell negative hwhole hfraction hc with rfl | rfl | hdecimal
    · exact absurd he (by decide)
    · exact absurd he (by decide)
    · rcases he with rfl | rfl
      · rw [not_isDecimal.2.2.1] at hdecimal
        cases hdecimal
      · rw [not_isDecimal.2.2.2] at hdecimal
        cases hdecimal
  have hresult : (if '.' ∈ spell negative whole fraction then
        ((spell negative whole fraction).rdropWhile (· = '0')).rdropWhile (· = '.')
      else spell negative whole fraction)
      = spell negative whole (fraction.rdropWhile (· = '0')) := by
    by_cases hempty : fraction = []
    · have hdot : '.' ∉ spell negative whole fraction := by
        have hdot := not_mem_whole hwhole not_isDecimal.1
        unfold spell
        rw [if_pos hempty]
        cases negative with
        | true => simp [hdot]
        | false => simpa using hdot
      rw [if_neg hdot, hempty, List.rdropWhile_nil]
    · have hdot : '.' ∈ spell negative whole fraction := by
        unfold spell
        simp [hempty]
      rw [if_pos hdot, trim_spell negative hwhole hfraction hempty]
  have hnonempty : spell negative whole (fraction.rdropWhile (· = '0')) ≠ [] := by
    unfold spell
    simp [(isWhole_digits hwhole).1]
  have hminus : spell negative whole (fraction.rdropWhile (· = '0')) = ['-', '0'] ↔
      negative = true ∧ whole = ['0'] ∧ fraction.rdropWhile (· = '0') = [] := by
    obtain ⟨hn, hw, -, hf⟩ := parts_spell negative hwhole (fraction.rdropWhile (· = '0'))
    constructor
    · intro h
      rw [h] at hn hw hf
      exact ⟨hn.symm, hw.symm, hf.symm⟩
    · rintro ⟨rfl, rfl, h⟩
      rw [h]
      rfl
  unfold decimal
  rw [hexponent, fullmatch_spell negative hwhole hfraction]
  simp only [Bool.not_true, Bool.or_self, Bool.false_eq_true, if_false, hresult, hnonempty,
    or_false]
  unfold canonical
  by_cases hbare : negative = true ∧ whole = ['0'] ∧ fraction.rdropWhile (· = '0') = []
  · rw [if_pos (hminus.mpr hbare), hbare.1, hbare.2.1, hbare.2.2]
    rfl
  · rw [if_neg fun h => hbare (hminus.mp h)]
    have hsign : (negative && !(decide (whole = ['0'])
        && decide (fraction.rdropWhile (· = '0') = []))) = negative := by
      cases negative with
      | false => rfl
      | true =>
        rw [Bool.true_and, Bool.not_eq_true', Bool.and_eq_false_iff, decide_eq_false_iff_not,
          decide_eq_false_iff_not, ← not_and_or]
        exact fun h => hbare ⟨rfl, h⟩
    rw [hsign]

end Parts

/-! ### What a spelling denotes -/

section Denotes

variable {s t : List Char}

/-- The first digit of a whole part is not zero, or it is the only one. -/
theorem digitValue_head {c : Char} {cs : List Char} (h : isWhole (c :: cs) = true) :
    c = '0' ∧ cs = [] ∨ digitValue c ≠ 0 := by
  have hpositive : ∀ n < 128, '1' ≤ Char.ofNat n → Char.ofNat n ≤ '9' →
      digitValue (Char.ofNat n) ≠ 0 := by decide
  simp only [isWhole, Bool.or_eq_true, Bool.and_eq_true, decide_eq_true_eq,
    List.isEmpty_iff] at h
  rcases h with hzero | ⟨⟨hlow, hhigh⟩, -⟩
  · exact .inl hzero
  · have hle : c.toNat ≤ ('9' : Char).toNat := hhigh
    have hc := hpositive c.toNat (hle.trans_lt (by decide))
    rw [Char.ofNat_toNat] at hc
    exact .inr (hc hlow hhigh)

theorem noLeadingZero_whole {whole : List Char} (h : isWhole whole = true) :
    Positional.NoLeadingZero (whole.map digitValue) := by
  constructor
  · simpa using (isWhole_digits h).1
  · cases whole with
    | nil => cases h
    | cons c cs =>
      intro hlong
      rcases digitValue_head h with ⟨-, rfl⟩ | hc
      · simp at hlong
      · simpa using hc

theorem digits_lt (cs : List Char) : ∀ d ∈ cs.map digitValue, d < 10 := by
  intro d hd
  obtain ⟨c, -, rfl⟩ := List.mem_map.mp hd
  exact digitValue_lt c

/-- The digits at the places of two strings have the same values, and so do their signs. -/
structure SameDigits (s t : List Char) : Prop where
  sign : isNegative s = isNegative t
  whole : (wholePart s).map digitValue = (wholePart t).map digitValue
  fraction : ∀ i, digitValue ((fractionPart s).getD i '0')
    = digitValue ((fractionPart t).getD i '0')

/-- The characters at the places of two strings are the same. -/
structure SameCharacters (s t : List Char) : Prop where
  whole : wholePart s = wholePart t
  fraction : ∀ i, (fractionPart s).getD i '0' = (fractionPart t).getD i '0'

/-- If the string is a spelling of zero, its zeros are ASCII. -/
def AsciiZeros (s : List Char) : Prop :=
  wholePart s = ['0'] → (∀ c ∈ fractionPart s, digitValue c = 0) → ∀ c ∈ fractionPart s, c = '0'

theorem getD_values (cs : List Char) (i : ℕ) :
    (cs.map digitValue).getD i 0 = digitValue (cs.getD i '0') := by
  have hzero : digitValue '0' = 0 := by decide
  rw [← hzero]
  exact List.getD_map _ _ _

/-- The magnitude is determined by the values of the digits, and the other way. -/
theorem fixed_eq_fixed_iff (hs : fullmatch s = true) (ht : fullmatch t = true) :
    Positional.fixed 10 ((wholePart s).map digitValue) ((fractionPart s).map digitValue)
        = Positional.fixed 10 ((wholePart t).map digitValue) ((fractionPart t).map digitValue)
      ↔ (wholePart s).map digitValue = (wholePart t).map digitValue
        ∧ ∀ i, digitValue ((fractionPart s).getD i '0')
          = digitValue ((fractionPart t).getD i '0') := by
  obtain ⟨hws, -, -⟩ := spell_of_fullmatch hs
  obtain ⟨hwt, -, -⟩ := spell_of_fullmatch ht
  rw [Positional.fixed_inj (by decide) (digits_lt _) (digits_lt _) (digits_lt _) (digits_lt _)
    (noLeadingZero_whole hws) (noLeadingZero_whole hwt)]
  simp only [getD_values]

theorem denotes_of_sameDigits (hs : fullmatch s = true) (ht : fullmatch t = true)
    (h : SameDigits s t) : denotes s = denotes t := by
  unfold denotes
  rw [h.sign, (fixed_eq_fixed_iff hs ht).mpr ⟨h.whole, h.fraction⟩]

theorem wholeValues_eq_zero {whole : List Char} (h : isWhole whole = true) :
    whole.map digitValue = [0] ↔ whole = ['0'] := by
  cases whole with
  | nil => cases h
  | cons c cs =>
    have hzero : digitValue '0' = 0 := by decide
    rcases digitValue_head h with ⟨rfl, rfl⟩ | hc
    · simp [hzero]
    · constructor
      · intro hmap
        exact absurd (List.cons.inj hmap).1 hc
      · intro heq
        rw [(List.cons.inj heq).1] at hc
        exact absurd hzero hc

/-- A spelling of zero has no other digits. -/
theorem denotes_eq_zero_iff (hs : fullmatch s = true) :
    denotes s = 0 ↔ wholePart s = ['0'] ∧ ∀ c ∈ fractionPart s, digitValue c = 0 := by
  have hzero : fullmatch ['0'] = true := by decide
  have hparts : wholePart ['0'] = ['0'] ∧ fractionPart ['0'] = [] := by decide
  have hvalue : digitValue '0' = 0 := by decide
  have hfixed : Positional.fixed 10 ((wholePart ['0']).map digitValue)
      ((fractionPart ['0']).map digitValue) = 0 := by
    rw [hparts.1, hparts.2]
    simp [Positional.fixed, Positional.number, hvalue]
  have hsign : ∀ x : ℚ, (if isNegative s then -1 else 1) * x = 0 ↔ x = 0 := by
    intro x
    split_ifs
    · simp
    · simp
  have hplaces : (∀ i, digitValue ((fractionPart s).getD i '0') = 0)
      ↔ ∀ c ∈ fractionPart s, digitValue c = 0 := by
    constructor
    · intro h c hc
      obtain ⟨i, hi, rfl⟩ := List.getElem_of_mem hc
      rw [← h i, List.getD_eq_getElem _ _ hi]
    · intro h i
      by_cases hi : i < (fractionPart s).length
      · rw [List.getD_eq_getElem _ _ hi]
        exact h _ (List.getElem_mem hi)
      · rw [List.getD_eq_default _ _ (Nat.le_of_not_lt hi), hvalue]
  unfold denotes
  rw [hsign, ← hfixed, fixed_eq_fixed_iff hs hzero, hparts.1, hparts.2]
  simp only [List.map_cons, List.map_nil, hvalue, List.getD_nil,
    wholeValues_eq_zero (spell_of_fullmatch hs).1, hplaces]

/-- A number that is not zero is spelled with the same digits and sign. -/
theorem sameDigits_of_denotes (hs : fullmatch s = true) (ht : fullmatch t = true)
    (h : denotes s = denotes t) (hne : denotes s ≠ 0) : SameDigits s t := by
  have hnonneg : ∀ cs : List Char, 0 ≤ Positional.fixed 10 ((wholePart cs).map digitValue)
      ((fractionPart cs).map digitValue) := fun _ => Positional.fixed_nonneg
  have hs0 := hnonneg s
  have ht0 := hnonneg t
  have hsign : isNegative s = isNegative t := by
    unfold denotes at h hne
    cases hns : isNegative s with
    | true =>
      cases hnt : isNegative t with
      | true => rfl
      | false =>
        rw [hns] at hne
        simp only [hns, hnt, if_true, Bool.false_eq_true, if_false] at h hne
        exact absurd (by linarith) hne
    | false =>
      cases hnt : isNegative t with
      | true =>
        simp only [hns, hnt, if_true, Bool.false_eq_true, if_false] at h hne
        exact absurd (by linarith) hne
      | false => rfl
  have hfixed : Positional.fixed 10 ((wholePart s).map digitValue) ((fractionPart s).map digitValue)
      = Positional.fixed 10 ((wholePart t).map digitValue) ((fractionPart t).map digitValue) := by
    unfold denotes at h
    rw [hsign] at h
    cases hnt : isNegative t with
    | true =>
      simp only [hnt, if_true] at h
      linarith
    | false =>
      simp only [hnt, Bool.false_eq_true, if_false] at h
      linarith
  obtain ⟨hwhole, hfraction⟩ := (fixed_eq_fixed_iff hs ht).mp hfixed
  exact ⟨hsign, hwhole, hfraction⟩

end Denotes

/-! ### One form for every number -/

section Forms

variable {s t s' t' : List Char}

/-- What the normalizer makes of a string. -/
def canonicalOf (s : List Char) : List Char :=
  canonical (isNegative s) (wholePart s) (fractionPart s)

theorem decimal_eq_ok : decimal s = .ok s' ↔ fullmatch s = true ∧ s' = canonicalOf s := by
  have haccepted : fullmatch s = true → decimal s = .ok (canonicalOf s) := by
    intro h
    obtain ⟨hwhole, hfraction, hspell⟩ := spell_of_fullmatch h
    have hdecimal := decimal_spell (isNegative s) hwhole hfraction
    rw [← hspell] at hdecimal
    exact hdecimal
  constructor
  · intro h
    have hmatch : fullmatch s = true := by
      by_contra hnot
      unfold decimal at h
      rw [if_pos (by simp [hnot])] at h
      cases h
    rw [haccepted hmatch] at h
    exact ⟨hmatch, (Except.ok.inj h).symm⟩
  · rintro ⟨hmatch, rfl⟩
    exact haccepted hmatch

/-- Whether only a zero is left. -/
def isBareZero (s : List Char) : Bool :=
  wholePart s = ['0'] && (fractionPart s).rdropWhile (· = '0') = []

theorem parts_canonicalOf (hs : fullmatch s = true) :
    isNegative (canonicalOf s) = (isNegative s && !isBareZero s)
      ∧ wholePart (canonicalOf s) = wholePart s
      ∧ fractionPart (canonicalOf s) = (fractionPart s).rdropWhile (· = '0') := by
  obtain ⟨hn, hw, -, hf⟩ := parts_spell
    (isNegative s && !(wholePart s = ['0'] && (fractionPart s).rdropWhile (· = '0') = []))
    (spell_of_fullmatch hs).1 ((fractionPart s).rdropWhile (· = '0'))
  exact ⟨hn, hw, hf⟩

theorem fullmatch_canonicalOf (hs : fullmatch s = true) : fullmatch (canonicalOf s) = true := by
  obtain ⟨hwhole, hfraction, -⟩ := spell_of_fullmatch hs
  apply fullmatch_spell _ hwhole
  intro c hc
  exact hfraction c ((List.rdropWhile_prefix _ _).subset hc)

/-- Normalizing again changes nothing. -/
theorem canonicalOf_canonicalOf (hs : fullmatch s = true) :
    canonicalOf (canonicalOf s) = canonicalOf s := by
  obtain ⟨hn, hw, hf⟩ := parts_canonicalOf hs
  have hsign : (isNegative s && !isBareZero s && !isBareZero s)
      = (isNegative s && !isBareZero s) := by
    cases isNegative s <;> cases isBareZero s <;> rfl
  have hagain : canonicalOf (canonicalOf s)
      = canonical (isNegative s && !isBareZero s) (wholePart s)
        ((fractionPart s).rdropWhile (· = '0')) := by
    rw [← hn, ← hw, ← hf]
    rfl
  rw [hagain]
  unfold canonical
  rw [List.rdropWhile_idempotent]
  show spell (isNegative s && !isBareZero s && !isBareZero s) _ _ = spell _ _ _
  rw [hsign]
  rfl

/-- A zero is left of a spelling of zero when its zeros are ASCII. -/
theorem canonicalOf_eq_zero_iff (hs : fullmatch s = true) :
    canonicalOf s = ['0'] ↔ isBareZero s = true := by
  unfold isBareZero
  rw [Bool.and_eq_true, decide_eq_true_eq, decide_eq_true_eq]
  constructor
  · intro h
    obtain ⟨-, hw, hf⟩ := parts_canonicalOf hs
    rw [h] at hw hf
    exact ⟨hw.symm, hf.symm⟩
  · rintro ⟨hw, hf⟩
    unfold canonicalOf canonical
    rw [hw, hf]
    simp [spell]

theorem asciiZeros_iff (hs : fullmatch s = true) :
    AsciiZeros s ↔ (denotes s = 0 → canonicalOf s = ['0']) := by
  have hbare : wholePart s = ['0'] →
      (isBareZero s = true ↔ ∀ c ∈ fractionPart s, c = '0') := by
    intro hw
    unfold isBareZero
    rw [decide_eq_true hw, Bool.true_and, decide_eq_true_eq, List.rdropWhile_eq_nil_iff]
    simp
  rw [canonicalOf_eq_zero_iff hs, denotes_eq_zero_iff hs]
  unfold AsciiZeros
  constructor
  · rintro h ⟨hw, hzero⟩
    exact (hbare hw).mpr (h hw hzero)
  · intro h hw hzero
    exact (hbare hw).mp (h ⟨hw, hzero⟩)

/-- Normalizing keeps the number. -/
theorem denotes_canonicalOf (hs : fullmatch s = true) : denotes (canonicalOf s) = denotes s := by
  obtain ⟨hn, hw, hf⟩ := parts_canonicalOf hs
  by_cases hbare : isBareZero s = true
  · have hzero : denotes s = 0 := by
      unfold isBareZero at hbare
      rw [Bool.and_eq_true, decide_eq_true_eq, decide_eq_true_eq,
        List.rdropWhile_eq_nil_iff] at hbare
      apply (denotes_eq_zero_iff hs).mpr
      refine ⟨hbare.1, fun c hc => ?_⟩
      have hc := hbare.2 c hc
      rw [decide_eq_true_eq] at hc
      rw [hc]
      decide
    have hout := (canonicalOf_eq_zero_iff hs).mpr hbare
    rw [hzero, hout]
    have hfraction : fractionPart ['0'] = [] := by decide
    refine (denotes_eq_zero_iff (by decide)).mpr ⟨by decide, ?_⟩
    rw [hfraction]
    exact List.forall_mem_nil _
  · apply denotes_of_sameDigits (fullmatch_canonicalOf hs) hs
    rw [Bool.not_eq_true] at hbare
    refine ⟨?_, ?_, fun i => ?_⟩
    · rw [hn, hbare, Bool.not_false, Bool.and_true]
    · rw [hw]
    · rw [hf, getD_rdropWhile]

/-- Strings have one form when they have the same characters, or nothing but zeros. -/
theorem canonicalOf_eq_iff (hs : fullmatch s = true) (ht : fullmatch t = true) :
    canonicalOf s = canonicalOf t ↔ SameCharacters s t
      ∧ (isNegative s && !isBareZero s) = (isNegative t && !isBareZero t) := by
  obtain ⟨hns, hws, hfs⟩ := parts_canonicalOf hs
  obtain ⟨hnt, hwt, hft⟩ := parts_canonicalOf ht
  constructor
  · intro h
    rw [h] at hns hws hfs
    refine ⟨⟨hws.symm.trans hwt, rdropWhile_eq_iff.mp (hfs.symm.trans hft)⟩, hns.symm.trans hnt⟩
  · rintro ⟨hchars, hsign⟩
    have hfraction := rdropWhile_eq_iff.mpr hchars.fraction
    show spell (isNegative s && !isBareZero s) _ _ = spell (isNegative t && !isBareZero t) _ _
    rw [hsign, hchars.whole, hfraction]

/-- The normalizer gives two strings one form exactly when they denote the same number, a form is
    its own form, zero has the form `0`, and equal numbers have equal hashes wherever they stand. -/
structure OneForm (s t s' t' : List Char) : Prop where
  same : s' = t' ↔ denotes s = denotes t
  stable : decimal s' = .ok s' ∧ decimal t' = .ok t'
  zero : (denotes s = 0 → s' = ['0']) ∧ (denotes t = 0 → t' = ['0'])
  hashes : denotes s = denotes t → ∀ content : List Char → Json,
    Marl.canonicalHash (content s') = Marl.canonicalHash (content t')

/-- **Canonical decimals.**  Two strings have canonical forms exactly when zeros are written in
    ASCII and they do not write the digits of one number with different characters. -/
theorem decimal_canonical_iff (hfirst : decimal s = .ok s') (hsecond : decimal t = .ok t') :
    OneForm s t s' t' ↔
      AsciiZeros s ∧ AsciiZeros t ∧ (SameDigits s t → SameCharacters s t) := by
  obtain ⟨hs, rfl⟩ := decimal_eq_ok.mp hfirst
  obtain ⟨ht, rfl⟩ := decimal_eq_ok.mp hsecond
  constructor
  · intro h
    refine ⟨(asciiZeros_iff hs).mpr h.zero.1, (asciiZeros_iff ht).mpr h.zero.2, fun hdigits => ?_⟩
    have hform := h.same.mpr (denotes_of_sameDigits hs ht hdigits)
    exact ((canonicalOf_eq_iff hs ht).mp hform).1
  · rintro ⟨hzeroS, hzeroT, hchars⟩
    rw [asciiZeros_iff hs] at hzeroS
    rw [asciiZeros_iff ht] at hzeroT
    have hsame : denotes s = denotes t → canonicalOf s = canonicalOf t := by
      intro hdenotes
      by_cases hzero : denotes s = 0
      · rw [hzeroS hzero, hzeroT (hdenotes ▸ hzero)]
      · have hdigits := sameDigits_of_denotes hs ht hdenotes hzero
        have hchars := hchars hdigits
        have hbare : isBareZero s = isBareZero t := by
          unfold isBareZero
          rw [hchars.whole, rdropWhile_eq_iff.mpr hchars.fraction]
        exact (canonicalOf_eq_iff hs ht).mpr ⟨hchars, by rw [hdigits.sign, hbare]⟩
    have hstable : ∀ {u : List Char}, fullmatch u = true →
        decimal (canonicalOf u) = .ok (canonicalOf u) := by
      intro u hu
      exact decimal_eq_ok.mpr ⟨fullmatch_canonicalOf hu, (canonicalOf_canonicalOf hu).symm⟩
    refine ⟨⟨fun hform => ?_, hsame⟩, ⟨hstable hs, hstable ht⟩, ⟨hzeroS, hzeroT⟩, ?_⟩
    · rw [← denotes_canonicalOf hs, hform, denotes_canonicalOf ht]
    · intro hdenotes content
      rw [hsame hdenotes]

/-- Two ASCII spellings of one number. -/
theorem oneForm_trailing : OneForm "1.50".toList "1.5".toList "1.5".toList "1.5".toList := by
  refine (decimal_canonical_iff (by decide) (by decide)).mpr ⟨?_, ?_, fun _ => ⟨by decide, ?_⟩⟩
  · intro h
    exact absurd h (by decide)
  · intro h
    exact absurd h (by decide)
  · exact rdropWhile_eq_iff.mp (by decide)

/-- Ten with an Arabic zero, and zero with one behind the point. -/
theorem arabic_zeros : decimal ['1', '٠'] = .ok ['1', '٠'] ∧ decimal ['1', '0'] = .ok ['1', '0']
    ∧ denotes ['1', '٠'] = denotes ['1', '0']
    ∧ decimal ['0', '.', '٠'] = .ok ['0', '.', '٠'] ∧ denotes ['0', '.', '٠'] = 0
    ∧ ¬ OneForm ['1', '٠'] ['1', '0'] ['1', '٠'] ['1', '0'] := by
  have hsame : denotes ['1', '٠'] = denotes ['1', '0'] := by decide +kernel
  refine ⟨by decide, by decide, hsame, by decide, by decide +kernel, fun h => ?_⟩
  exact absurd (h.same.mpr hsame) (by decide)

end Forms

end Agora.Reasoning
