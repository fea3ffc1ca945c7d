import Agora.Lib.CanonicalJson
import Mathlib.Algebra.BigOperators.Group.List.Basic

namespace Agora

/-!
# Leaves and length of JSON values

`allLeaves p q` says that the strings and keys of a value satisfy `p` and its integers `q`; being
encodable is one instance (`encodable_eq_allLeaves`).  With short strings, the canonical bytes of a
value are at most a constant times its `weight` (`length_canonicalJson_le`), which counts nodes and
digits and does not look into the strings.
-/

namespace Json

/-! ### Leaves -/

mutual
/-- Every string and key satisfies `p`, every integer `q`, and there is no float. -/
def allLeaves (p : PyStr → Bool) (q : ℤ → Bool) : Json → Bool
  | .null | .bool _ => true
  | .int n => q n
  | .float _ _ => false
  | .str s => p s
  | .arr items => allLeavesItems p q items
  | .obj entries => allLeavesEntries p q entries
def allLeavesItems (p : PyStr → Bool) (q : ℤ → Bool) : List Json → Bool
  | [] => true
  | j :: items => allLeaves p q j && allLeavesItems p q items
def allLeavesEntries (p : PyStr → Bool) (q : ℤ → Bool) : List (PyStr × Json) → Bool
  | [] => true
  | (k, v) :: entries => p k && allLeaves p q v && allLeavesEntries p q entries
end

mutual
theorem encodable_eq_allLeaves : ∀ j : Json, j.encodable = j.allLeaves isScalar isPrintable
  | .null | .bool _ | .int _ | .float _ _ | .str _ => rfl
  | .arr items => encodableItems_eq_allLeaves items
  | .obj entries => encodableEntries_eq_allLeaves entries
theorem encodableItems_eq_allLeaves : ∀ items : List Json,
    encodableItems items = allLeavesItems isScalar isPrintable items
  | [] => rfl
  | j :: items => by
    rw [encodableItems, allLeavesItems, encodable_eq_allLeaves j, encodableItems_eq_allLeaves items]
theorem encodableEntries_eq_allLeaves : ∀ entries : List (PyStr × Json),
    encodableEntries entries = allLeavesEntries isScalar isPrintable entries
  | [] => rfl
  | (k, v) :: entries => by
    rw [encodableEntries, allLeavesEntries, encodable_eq_allLeaves v,
      encodableEntries_eq_allLeaves entries]
end

section Leaves

variable {p : PyStr → Bool} {q : ℤ → Bool}

theorem allLeavesEntries_append (es fs : List (PyStr × Json)) :
    allLeavesEntries p q (es ++ fs) = (allLeavesEntries p q es && allLeavesEntries p q fs) := by
  induction es with
  | nil => rfl
  | cons e es ih =>
    rw [List.cons_append, allLeavesEntries, allLeavesEntries, ih]
    simp only [Bool.and_assoc]

theorem allLeavesItems_iff {items : List Json} :
    allLeavesItems p q items = true ↔ ∀ j ∈ items, j.allLeaves p q = true := by
  induction items with
  | nil => simp [allLeavesItems]
  | cons j items ih => rw [allLeavesItems, Bool.and_eq_true, ih, List.forall_mem_cons]

end Leaves

theorem isScalar_ofString (s : String) : isScalar (PyStr.ofString s) = true := by
  rw [isScalar, PyStr.ofString, PyStr.chars?_ofChars]
  rfl

/-- Numbers of at most 4300 digits are printable. -/
theorem isPrintable_of_lt {n : ℕ} (h : n < 10 ^ maxStrDigits) : isPrintable n = true := by
  rw [isPrintable, decide_eq_true_eq, Int.natAbs_natCast]
  exact (Nat.length_toDigits_le_iff (by decide) (by decide)).mpr h

/-! ### Length -/

mutual
/-- The number of nodes, with an integer counted by its digits. -/
def weight : Json → ℕ
  | .null | .bool _ | .float _ _ | .str _ => 1
  | .int n => (intText n).length + 1
  | .arr items => weightItems items + 1
  | .obj entries => weightEntries entries + 1
def weightItems : List Json → ℕ
  | [] => 0
  | j :: items => weight j + weightItems items
def weightEntries : List (PyStr × Json) → ℕ
  | [] => 0
  | (_, v) :: entries => weight v + 1 + weightEntries entries
end

/-- A string of at most 128 code points. -/
def isShort (s : PyStr) : Bool := s.length ≤ 128

theorem length_escapePoint_le (p : CodePoint) : (escapePoint p).length ≤ 6 := by
  cases p with
  | scalar c =>
    rw [escapePoint, escapeChar]
    split_ifs <;> simp
  | surrogate n => simp [escapePoint]

theorem length_stringText_le {s : PyStr} (h : isShort s = true) : (stringText s).length ≤ 770 := by
  have hlength : s.length ≤ 128 := of_decide_eq_true h
  have hbody (t : PyStr) : (t.flatMap escapePoint).length ≤ 6 * t.length := by
    induction t with
    | nil => rfl
    | cons p t ih =>
      have hp := length_escapePoint_le p
      rw [List.flatMap_cons, List.length_append, List.length_cons]
      omega
  have hs := hbody s
  rw [stringText, List.length_cons, List.length_append, List.length_singleton]
  omega

theorem length_joinComma_le (ts : List (List Char)) :
    (joinComma ts).length ≤ (ts.map fun t => t.length + 1).sum := by
  induction ts with
  | nil => rfl
  | cons t ts ih =>
    cases ts with
    | nil => simp [joinComma]
    | cons u ts =>
      rw [joinComma, List.length_append, List.length_cons, List.map_cons, List.sum_cons]
      omega

mutual
/-- The canonical text of a value with short strings, and a comma, are bounded by the weight. -/
theorem length_canonical_le {q : ℤ → Bool} : ∀ j : Json, j.allLeaves isShort q = true →
    j.canonical.length + 1 ≤ 1000 * j.weight
  | .null, _ | .bool true, _ | .bool false, _ => by decide
  | .int n, _ => by
    rw [canonical, weight]
    omega
  | .str s, h => by
    have hs := length_stringText_le h
    rw [canonical, weight]
    omega
  | .arr items, h => by
    have hitems := length_canonicalItems_le items h
    have hjoin := length_joinComma_le (canonicalItems items)
    rw [canonical, List.length_cons, List.length_append, List.length_singleton, weight]
    omega
  | .obj entries, h => by
    have hentries := length_canonicalEntries_le entries h
    have hjoin := length_joinComma_le ((sortByKey (canonicalEntries entries)).map memberText)
    -- Sorting does not change the sum of the lengths.
    have hsum := ((sortByKey_perm (canonicalEntries entries)).map
      fun e => (memberText e).length + 1).sum_eq
    rw [List.map_map, Function.comp_def, hsum] at hjoin
    rw [canonical, List.length_cons, List.length_append, List.length_singleton, weight]
    omega
theorem length_canonicalItems_le {q : ℤ → Bool} : ∀ items : List Json,
    allLeavesItems isShort q items = true →
      ((canonicalItems items).map fun t => t.length + 1).sum ≤ 1000 * weightItems items
  | [], _ => by decide
  | j :: items, h => by
    rw [allLeavesItems, Bool.and_eq_true] at h
    have hj := length_canonical_le j h.1
    have hitems := length_canonicalItems_le items h.2
    rw [canonicalItems, List.map_cons, List.sum_cons, weightItems]
    omega
theorem length_canonicalEntries_le {q : ℤ → Bool} : ∀ entries : List (PyStr × Json),
    allLeavesEntries isShort q entries = true →
      ((canonicalEntries entries).map fun e => (memberText e).length + 1).sum
        ≤ 1000 * weightEntries entries
  | [], _ => by decide
  | (k, v) :: entries, h => by
    rw [allLeavesEntries, Bool.and_eq_true, Bool.and_eq_true] at h
    have hk := length_stringText_le h.1.1
    have hv := length_canonical_le v h.1.2
    have hentries := length_canonicalEntries_le entries h.2
    rw [canonicalEntries, List.map_cons, List.sum_cons, weightEntries, memberText,
      List.length_append, List.length_cons]
    dsimp only
    omega
end

theorem length_utf8_le (cs : List Char) : (utf8 cs).length ≤ 4 * cs.length := by
  induction cs with
  | nil => rfl
  | cons c cs ih =>
    have hc : (String.utf8EncodeChar c).length ≤ 4 := by
      rw [String.length_utf8EncodeChar]
      exact c.utf8Size_le_four
    rw [utf8, List.flatMap_cons, List.length_append, List.length_cons]
    rw [utf8] at ih
    omega

/-- **Length.**  Canonical bytes are bounded by the weight of the value. -/
theorem length_canonicalJson_le {q : ℤ → Bool} {j : Json} (h : j.allLeaves isShort q = true) :
    (utf8 j.canonical).length ≤ 4000 * j.weight := by
  have htext := length_canonical_le j h
  have hbytes := length_utf8_le j.canonical
  omega

theorem weight_pos (j : Json) : 0 < j.weight := by
  cases j <;> exact Nat.succ_pos _

theorem length_le_weightItems (items : List Json) : items.length ≤ weightItems items := by
  induction items with
  | nil => exact Nat.le_refl 0
  | cons j items ih =>
    have hj := weight_pos j
    rw [List.length_cons, weightItems]
    omega

theorem length_le_weightEntries (entries : List (PyStr × Json)) :
    entries.length ≤ weightEntries entries := by
  induction entries with
  | nil => exact Nat.le_refl 0
  | cons e entries ih =>
    rw [List.length_cons, weightEntries]
    omega

end Json

end Agora
