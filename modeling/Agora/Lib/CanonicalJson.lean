import Agora.Lib.JsonRoundTrip
import Agora.Lib.Bytes
import Mathlib.Algebra.Order.Field.Rat

namespace Agora

/-!
# Canonical JSON bytes

`canonicalJson` checks a value and encodes its canonical text.  `canonicalJson_eq_ok` says on
which values it succeeds, `canonicalJson_injective` that its bytes determine a normal value, and
`lineBreakFree_canonicalJson` that they fit on one line.
-/

namespace Json

/-! ### Checking and encoding -/

/-- The literal rounds to a finite double. -/
def isFinite (mantissa exponent : ℤ) : Bool :=
  |(mantissa : ℚ) * (10 : ℚ) ^ exponent| < 2 ^ 1024 - 2 ^ 970

mutual
/-- `_json_value`.  Object keys are not looked at. -/
def jsonValue : Json → Py Unit
  | .null | .bool _ | .int _ => .ok ()
  | .float m e =>
    if isFinite m e then .error (.valueError "floats are forbidden; use canonical decimal strings")
    else .error (.valueError "non-finite numbers are not JSON values")
  | .str s =>
    if isScalar s then .ok ()
    else .error (.valueError "JSON strings must contain Unicode scalar values")
  | .arr items => jsonItems items
  | .obj entries => jsonEntries entries
def jsonItems : List Json → Py Unit
  | [] => .ok ()
  | j :: items => do
    jsonValue j
    jsonItems items
def jsonEntries : List (PyStr × Json) → Py Unit
  | [] => .ok ()
  | (_, v) :: entries => do
    jsonValue v
    jsonEntries entries
end

/-- `canonical_json`.  After `_json_value`, what remains to fail is `str` on a long integer and
    the encoding of a key with a surrogate. -/
def canonicalJson (j : Json) : Py Bytes := do
  jsonValue j
  if j.encodable then .ok (utf8 j.canonical)
  else .error (.valueError "value has no canonical text")

mutual
theorem jsonValue_of_encodable : ∀ j : Json, j.encodable = true → jsonValue j = .ok ()
  | .null, _ | .bool _, _ | .int _, _ => rfl
  | .str _, h => if_pos h
  | .arr items, h => jsonItems_of_encodable items h
  | .obj entries, h => jsonEntries_of_encodable entries h
theorem jsonItems_of_encodable : ∀ items : List Json, encodableItems items = true →
    jsonItems items = .ok ()
  | [], _ => rfl
  | j :: items, h => by
    rw [encodableItems, Bool.and_eq_true] at h
    rw [jsonItems, jsonValue_of_encodable j h.1, Except.ok_bind, jsonItems_of_encodable items h.2]
theorem jsonEntries_of_encodable : ∀ entries : List (PyStr × Json),
    encodableEntries entries = true → jsonEntries entries = .ok ()
  | [], _ => rfl
  | (k, v) :: entries, h => by
    rw [encodableEntries, Bool.and_eq_true, Bool.and_eq_true] at h
    rw [jsonEntries, jsonValue_of_encodable v h.1.2, Except.ok_bind,
      jsonEntries_of_encodable entries h.2]
end

theorem canonicalJson_eq_ok {j : Json} {b : Bytes} :
    canonicalJson j = .ok b ↔ j.encodable = true ∧ utf8 j.canonical = b := by
  rw [canonicalJson]
  constructor
  · intro h
    obtain ⟨-, -, h⟩ := Except.bind_eq_ok.mp h
    split at h
    · exact ⟨by assumption, Except.ok.inj h⟩
    · cases h
  · rintro ⟨henc, rfl⟩
    rw [jsonValue_of_encodable j henc, Except.ok_bind, if_pos henc]

theorem canonicalJson_of_encodable {j : Json} (h : j.encodable = true) :
    canonicalJson j = .ok (utf8 j.canonical) :=
  canonicalJson_eq_ok.mpr ⟨h, rfl⟩

/-- Canonical bytes determine a normal value. -/
theorem canonicalJson_injective {i j : Json} {b : Bytes} (hi : canonicalJson i = .ok b)
    (hj : canonicalJson j = .ok b) (hni : i.Normal = true) (hnj : j.Normal = true) : i = j := by
  rw [canonicalJson_eq_ok] at hi hj
  exact canonical_injective hi.1 hj.1 hni hnj (utf8_injective (hi.2.trans hj.2.symm))

/-! ### One line -/

/-- No control characters. -/
def Visible (cs : List Char) : Prop := ∀ c ∈ cs, 0x20 ≤ c.toNat

theorem visible_append {cs ds : List Char} : Visible (cs ++ ds) ↔ Visible cs ∧ Visible ds := by
  simp only [Visible, List.forall_mem_append]

theorem visible_cons {c : Char} {cs : List Char} :
    Visible (c :: cs) ↔ 0x20 ≤ c.toNat ∧ Visible cs := by
  simp only [Visible, List.forall_mem_cons]

theorem visible_nil : Visible [] := by simp [Visible]

theorem visible_of_all {cs : List Char} (h : (cs.all fun c => decide (0x20 ≤ c.toNat)) = true) :
    Visible cs := by
  simpa [Visible] using h

theorem visible_of_digits {cs : List Char} (h : ∀ c ∈ cs, c.isDigit = true) : Visible cs := by
  intro c hc
  have hdigit := h c hc
  simp only [Char.isDigit, ge_iff_le, Bool.and_eq_true, decide_eq_true_eq] at hdigit
  have hle : ('0' : Char).toNat ≤ c.toNat := hdigit.1
  exact Nat.le_trans (by decide) hle

theorem visible_toDigits (n : ℕ) : Visible (Nat.toDigits 10 n) :=
  visible_of_digits fun _ hc => Nat.isDigit_of_mem_toDigits (by decide) (by decide) hc

theorem visible_intText (n : ℤ) : Visible (intText n) := by
  cases n with
  | ofNat n => exact visible_toDigits n
  | negSucc n => exact visible_cons.mpr ⟨by decide, visible_toDigits (n + 1)⟩

private theorem visible_hexDigit (n : ℕ) : 0x20 ≤ (hexDigit n).toNat := by
  have h : ∀ m < 16, 0x20 ≤ (Nat.digitChar m).toNat := by decide
  exact h _ (Nat.mod_lt _ (by decide))

theorem visible_escapeChar (c : Char) : Visible (escapeChar c) := by
  unfold escapeChar
  split_ifs with _ _ _ _ _ _ _ hcontrol
  all_goals try exact visible_of_all (by decide)
  · simp only [visible_cons, visible_hexDigit, visible_nil, and_true]
    decide
  · exact visible_cons.mpr ⟨Nat.le_of_not_lt hcontrol, visible_nil⟩

theorem visible_stringText (s : PyStr) : Visible (stringText s) := by
  refine visible_cons.mpr ⟨by decide, visible_append.mpr ⟨?_, visible_of_all (by decide)⟩⟩
  intro c hc
  obtain ⟨p, -, hp⟩ := List.mem_flatMap.mp hc
  cases p with
  | scalar d => exact visible_escapeChar d c hp
  | surrogate n => exact absurd hp List.not_mem_nil

theorem visible_joinComma {ts : List (List Char)} (h : ∀ t ∈ ts, Visible t) :
    Visible (joinComma ts) := by
  induction ts with
  | nil => exact visible_nil
  | cons t ts ih =>
    cases ts with
    | nil => exact h t List.mem_cons_self
    | cons u ts =>
      have htail := ih fun x hx => h x (List.mem_cons_of_mem _ hx)
      exact visible_append.mpr ⟨h t List.mem_cons_self, visible_cons.mpr ⟨by decide, htail⟩⟩

mutual
theorem visible_canonical : ∀ j : Json, Visible j.canonical
  | .null | .bool true | .bool false => visible_of_all (by decide)
  | .int n => visible_intText n
  | .float _ _ => visible_nil
  | .str s => visible_stringText s
  | .arr items => by
    rw [canonical]
    exact visible_cons.mpr ⟨by decide, visible_append.mpr
      ⟨visible_joinComma (visible_canonicalItems items), visible_of_all (by decide)⟩⟩
  | .obj entries => by
    rw [canonical, sortByKey_canonicalEntries]
    refine visible_cons.mpr ⟨by decide, visible_append.mpr
      ⟨visible_joinComma fun t ht => ?_, visible_of_all (by decide)⟩⟩
    obtain ⟨e, he, rfl⟩ := List.mem_map.mp ht
    exact visible_append.mpr ⟨visible_stringText e.1, visible_cons.mpr ⟨by decide,
      visible_canonicalEntries entries e ((sortByKey_perm entries).mem_iff.mp he)⟩⟩
theorem visible_canonicalItems : ∀ items : List Json, ∀ t ∈ canonicalItems items, Visible t
  | [] => by simp [canonicalItems]
  | j :: items => by
    rw [canonicalItems, List.forall_mem_cons]
    exact ⟨visible_canonical j, visible_canonicalItems items⟩
theorem visible_canonicalEntries : ∀ entries : List (PyStr × Json),
    ∀ e ∈ entries, Visible e.2.canonical
  | [] => by simp
  | (_, v) :: entries =>
    List.forall_mem_cons.mpr ⟨visible_canonical v, visible_canonicalEntries entries⟩
end

/-- Canonical bytes have no line breaks. -/
theorem lineBreakFree_canonicalJson {j : Json} {b : Bytes} (h : canonicalJson j = .ok b) :
    LineBreakFree b := by
  obtain ⟨-, rfl⟩ := canonicalJson_eq_ok.mp h
  exact lineBreakFree_utf8 (visible_canonical j)

end Json

end Agora
